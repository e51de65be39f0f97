import ShardStore.Text.Base64
import ShardStore.Text.Decimal
import ShardStore.Text.Utf8
import ShardStore.Command.Execute
import ShardStore.Log.Entry

namespace ShardStore

inductive Severity where
  | debug
  | warn
  | error
deriving Repr, DecidableEq

def Severity.label : Severity → String
  | .debug => "DEBUG"
  | .warn => "WARN"
  | .error => "ERROR"

structure Notice where
  severity : Severity
  text : String
deriving Repr, DecidableEq

def Notice.render (notice : Notice) : String :=
  s!"{notice.severity.label} {notice.text}"

structure Engine where
  databases : List Store
deriving DecidableEq

/-- What a command line did: the reply, the engine and the connection's selected database behind
it, the entry to be logged if any, and what the operator is told. -/
structure Execution where
  reply : Message
  engine : Engine
  selected : Nat
  entry? : Option LogEntry := none
  notices : List Notice := []
deriving DecidableEq

namespace Engine

def defaultCount : Nat := 16

/-- An engine with so many empty databases; zero stands for the default. -/
def new (count : Nat) : Engine :=
  ⟨List.replicate (if count = 0 then defaultCount else count) ∅⟩

instance : Inhabited Engine := ⟨new 0⟩

def count (engine : Engine) : Nat :=
  engine.databases.length

def value? (engine : Engine) (database : Nat) (key : Bytes) : Option Value :=
  engine.databases[database]?.bind fun store => store.get? key

/-- A name as the operator is shown it; one that is no text in base64. -/
def displayName (name : Bytes) : String :=
  match Text.decode? name with
  | some text => text
  | none => s!"base64:{Text.Base64.encode name}"

def dispatchNotices (name : Bytes) : List Notice :=
  (if (Text.decode? name).isNone then
    [⟨.warn, s!"Command name is not valid UTF-8: {displayName name}"⟩] else []) ++
  [⟨.debug, s!"Dispatching command: {displayName name}"⟩]

/-- A command's name in lower case, as far as ASCII goes. -/
def lowerName (name : Bytes) : String :=
  (Text.lossy name).map Char.toLower

def selectIndex (engine : Engine) (args : List Bytes) : Except Failure Nat :=
  match args with
  | [arg] =>
    match Text.Decimal.int64? arg with
    | none => .error .invalidDatabaseIndex
    | some index =>
      if index < 0 || engine.count ≤ index.toInt.toNat then .error .databaseIndexOutOfRange
      else .ok index.toInt.toNat
  | _ => .error (.wrongArity "select")

def runCommand (engine : Engine) (selected : Nat) (name : String) (args : List Bytes) :
    Except Failure Effect := do
  let command ← Command.lookup name (args.length + 1)
  match engine.databases[selected]? with
  | none => .error (.internal (.missingDatabase selected))
  | some store => command.execute args store

/-- The answer to a line that fails. It changes nothing. -/
def rejection (engine : Engine) (selected : Nat) (name : Bytes) (notices : List Notice)
    (failure : Failure) : Execution :=
  let notices :=
    match failure with
    | .internal breach =>
      notices ++ [⟨.error, s!"Command {displayName name} failed internally: {breach.detail}"⟩]
    | _ => notices
  { reply := failure.reply, engine, selected, notices }

def exec (engine : Engine) (selected : Nat) (line : CommandLine) : Execution :=
  match line with
  | [] => { reply := Failure.emptyCommand.reply, engine, selected }
  | name :: args =>
    let notices := dispatchNotices name
    if lowerName name = "select" then
      match engine.selectIndex args with
      | .ok index => { reply := .ok, engine, selected := index, notices }
      | .error failure => engine.rejection selected name notices failure
    else
      match engine.runCommand selected (lowerName name) args with
      | .ok effect =>
        { reply := effect.reply
          engine := ⟨engine.databases.set selected effect.store⟩
          selected
          entry? := if effect.logged then some ⟨selected, line⟩ else none
          notices }
      | .error failure => engine.rejection selected name notices failure

end Engine

end ShardStore
