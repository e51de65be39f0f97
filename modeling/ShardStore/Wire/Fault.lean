import ShardStore.Wire.Message

namespace ShardStore

inductive Fault where
  /-- A header line whose count, length or number is not one. -/
  | invalidHeader (line : String)
  /-- A line or body that does not end in the line terminator. -/
  | missingTerminator (chunk : String)
  /-- A line whose first byte announces no kind of message. -/
  | unknownPrefix (line : String)
  | transport (cause : String)
deriving Repr, DecidableEq, Inhabited

namespace Fault

def message : Fault → String
  | .invalidHeader line => s!"invalid header: {line}"
  | .missingTerminator chunk => s!"missing line terminator: {chunk}"
  | .unknownPrefix line => s!"unknown type prefix: {line}"
  | .transport cause => s!"IO error: {cause}"

def isRecoverable : Fault → Bool
  | .transport _ => false
  | _ => true

def reply (fault : Fault) : Message :=
  .error s!"ERR Protocol error: '{fault.message}'"

/-- The bytes ended inside a unit. -/
def unfinished : Fault :=
  .transport "bytes remaining on stream"

end Fault

/-- What a reader finds in its bytes: a message, or a fault in the place of one. -/
abbrev Item := Except Fault Message

end ShardStore
