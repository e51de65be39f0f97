import ShardStore.Command.Basic
import ShardStore.Wire.Message

namespace ShardStore

/-- A state that the checks made before a command runs should exclude. -/
inductive Breach where
  | missingArgument (index : Nat)
  | missingDatabase (index : Nat)
  | renameRefused
deriving Repr, DecidableEq

def Breach.detail : Breach → String
  | .missingArgument index => s!"missing argument {toString index}"
  | .missingDatabase index => s!"selected db {toString index} missing"
  | .renameRefused => "rename refused an existing destination"

inductive Failure where
  | wrongArity (name : String)
  | unknownCommand (name : String)
  | emptyCommand
  | invalidDatabaseIndex
  | databaseIndexOutOfRange
  | noSuchKey
  | internal (breach : Breach)
deriving Repr, DecidableEq

namespace Failure

def message : Failure → String
  | .wrongArity name => s!"ERR wrong number of arguments for '{name}' command"
  | .unknownCommand name => s!"ERR unknown command '{name}'"
  | .emptyCommand => "ERR empty command"
  | .invalidDatabaseIndex => "ERR invalid DB index"
  | .databaseIndexOutOfRange => "ERR DB index is out of range"
  | .noSuchKey => "ERR no such key"
  | .internal _ => "ERR unknown"

def reply (failure : Failure) : Message :=
  .error failure.message

end Failure

namespace Command

/-- The command of a name in any case, if it takes a line of so many words. -/
def lookup (name : String) (words : Nat) : Except Failure Command :=
  let lower := Text.lowercase name
  match named? lower with
  | none => .error (.unknownCommand lower)
  | some command =>
    if command.arity.admits words then .ok command else .error (.wrongArity lower)

end Command

end ShardStore
