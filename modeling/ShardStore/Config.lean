import ShardStore.Node
import ShardStore.Yaml.Document
import ShardStore.Yaml.Number

namespace ShardStore

structure Config where
  bind : String := "0.0.0.0"
  portNumber : UInt16 := 6379
  /-- How many databases there are; zero stands for the default. -/
  databases : Nat := Engine.defaultCount
  appendOnly : Bool := false
  appendFilename : String := "appendonly.aof"
  appendFsync : SyncPolicy := .everySecond
  /-- The address at which other nodes reach this one; empty without a cluster. -/
  selfNode : NodeId := ""
  peers : List NodeId := []
  logLevel : String := "info"
deriving Repr, DecidableEq, Inhabited

inductive ConfigError where
  /-- There is no file, or it is no text. -/
  | unreadable
  /-- The text is no YAML document, or no mapping, or a setting's value is of the wrong kind. -/
  | malformed
deriving Repr, DecidableEq

def ConfigError.message : ConfigError → String
  | .unreadable => "the configuration file cannot be read"
  | .malformed => "the configuration file is not a valid configuration"

namespace Config

def text? : Yaml → Option String
  | .plain text => some text
  | .quoted text => some text
  | _ => none

def natural? : Yaml → Option Nat
  | .plain text => Yaml.Number.natural? text.toList
  | _ => none

def word16? (value : Yaml) : Option UInt16 :=
  (natural? value).bind fun n => if n < UInt16.size then some n.toUInt16 else none

def truth? : Yaml → Option Bool
  | .plain text =>
    if ["true", "True", "TRUE"].contains text then some true
    else if ["false", "False", "FALSE"].contains text then some false
    else none
  | _ => none

def texts? : Yaml → Option (List String)
  | .sequence items => items.mapM text?
  | .plain "" => some []
  | _ => none

inductive Setting where
  | bind
  | portNumber
  | databases
  | appendOnly
  | appendFilename
  | appendFsync
  | selfNode
  | peers
  | logLevel
deriving Repr, DecidableEq

namespace Setting

def named? : String → Option Setting
  | "bind" => some .bind
  | "port" => some .portNumber
  | "databases" => some .databases
  | "append_only" => some .appendOnly
  | "append_filename" => some .appendFilename
  | "append_fsync" => some .appendFsync
  | "self_node" => some .selfNode
  | "peers" => some .peers
  | "log_level" => some .logLevel
  | _ => none

def takeOver? (setting : Setting) (value : Yaml) (config : Config) : Option Config :=
  match setting with
  | .bind => (text? value).map ({ config with bind := · })
  | .portNumber => (word16? value).map ({ config with portNumber := · })
  | .databases => (natural? value).map ({ config with databases := · })
  | .appendOnly => (truth? value).map ({ config with appendOnly := · })
  | .appendFilename => (text? value).map ({ config with appendFilename := · })
  | .appendFsync => ((text? value).bind SyncPolicy.named?).map ({ config with appendFsync := · })
  | .selfNode => (text? value).map ({ config with selfNode := · })
  | .peers => (texts? value).map ({ config with peers := · })
  | .logLevel => (text? value).map ({ config with logLevel := · })

end Setting

/-- Takes over the entries of a mapping, whose keys must be texts and in which no setting may be named
twice. -/
def ofEntries? (config : Config) (given : List Setting) : List (Yaml × Yaml) → Option Config
  | [] => some config
  | (key, value) :: rest =>
    match (text? key).map Setting.named? with
    | none => none
    | some none => ofEntries? config given rest
    | some (some setting) =>
      if setting ∈ given then none
      else (setting.takeOver? value config).bind fun config => ofEntries? config (setting :: given) rest

def ofYaml? : Yaml → Option Config
  | .mapping entries => ofEntries? {} [] entries
  | .plain "" => some {}
  | _ => none

def ofFile (file? : Option Bytes) : Except ConfigError Config :=
  match file?.bind Text.decode? with
  | none => .error .unreadable
  | some text =>
    match (Yaml.parse? text).bind ofYaml? with
    | some config => .ok config
    | none => .error .malformed

def listenAddress (config : Config) : String :=
  s!"{config.bind}:{toString config.portNumber.toNat}"

def databaseCount (config : Config) : Nat :=
  if config.databases = 0 then Engine.defaultCount else config.databases

def isCluster (config : Config) : Bool :=
  !config.selfNode.isEmpty && !config.peers.isEmpty

def durableOptions (config : Config) : DurableOptions :=
  { databases := config.databases, logged := config.appendOnly, policy := config.appendFsync }

def nodeOptions (config : Config) : Node.Options :=
  { self := config.selfNode, peers := config.peers, durable := config.durableOptions }

end Config

end ShardStore
