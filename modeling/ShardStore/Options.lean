import ShardStore.Config

namespace ShardStore

structure Options where
  config? : Option String := none
  bind? : Option String := none
  portNumber? : Option UInt16 := none
  selfNode? : Option NodeId := none
  peers : List NodeId := []
  appendOnly : Bool := false
deriving Repr, DecidableEq, Inhabited

inductive OptionError where
  | unknown (word : String)
  | valueMissing (option : String)
  | badNumber (option : String) (value : String)
  | repeated (option : String)
deriving Repr, DecidableEq

def OptionError.message : OptionError → String
  | .unknown word => s!"unexpected argument '{word}' found"
  | .valueMissing option => s!"a value is required for '{option}' but none was supplied"
  | .badNumber option value => s!"invalid value '{value}' for '{option}'"
  | .repeated option => s!"the argument '{option}' cannot be used multiple times"

namespace Options

/-- Splits a word such as `--bind=0.0.0.0` into the option and its value. -/
def splitWord (word : String) : String × Option String :=
  match word.toList.span (· != '=') with
  | (option, _ :: value) => (String.ofList option, some (String.ofList value))
  | (_, []) => (word, none)

def once {α : Type} (option : String) (given? : Option α) (value : α) :
    Except OptionError (Option α) :=
  match given? with
  | none => .ok (some value)
  | some _ => .error (.repeated option)

def number (option value : String) : Except OptionError UInt16 :=
  match (Text.Decimal.unsigned? (Text.encode value)).filter (· < UInt16.size) with
  | some n => .ok n.toUInt16
  | none => .error (.badNumber option value)

def set (options : Options) (option value : String) : Except OptionError Options :=
  match option with
  | "--config" | "-c" => do
    return { options with config? := ← once option options.config? value }
  | "--bind" => do return { options with bind? := ← once option options.bind? value }
  | "--port" | "-p" => do
    return { options with portNumber? := ← once option options.portNumber? (← number option value) }
  | "--self-node" => do
    return { options with selfNode? := ← once option options.selfNode? value }
  | "--peer" => .ok { options with peers := options.peers ++ [value] }
  | _ => .error (.unknown option)

def takesValue (option : String) : Bool :=
  ["--config", "-c", "--bind", "--port", "-p", "--self-node", "--peer"].contains option

def parseFrom (options : Options) : List String → Except OptionError Options
  | [] => .ok options
  | word :: rest =>
    match splitWord word with
    | (option, some value) => do
      if takesValue option then parseFrom (← options.set option value) rest
      else .error (.unknown word)
    | (option, none) =>
      if option = "--append-only" then
        if options.appendOnly then .error (.repeated option)
        else parseFrom { options with appendOnly := true } rest
      else if takesValue option then
        match rest with
        | [] => .error (.valueMissing option)
        | value :: rest => do parseFrom (← options.set option value) rest
      else .error (.unknown word)

def parse (words : List String) : Except OptionError Options :=
  parseFrom {} words

def override (options : Options) (config : Config) : Config :=
  { config with
    bind := options.bind?.getD config.bind
    portNumber := options.portNumber?.getD config.portNumber
    selfNode := options.selfNode?.getD config.selfNode
    peers := if options.peers.isEmpty then config.peers else options.peers
    appendOnly := options.appendOnly || config.appendOnly }

end Options

end ShardStore
