import ShardStore.Bytes

namespace ShardStore

inductive Message where
  | simple (text : String)
  | error (text : String)
  | integer (n : Int64)
  | bulk (bytes : Bytes)
  | null
  | array (elements : List (Option Bytes))
  | nullArray
  | ok
  | pong
deriving Repr, DecidableEq, Inhabited

namespace Message

def ofBytes? : Option Bytes → Message
  | some bytes => .bulk bytes
  | none => .null

def ofList (elements : List Bytes) : Message :=
  .array (elements.map some)

def ofNat (n : Nat) : Message :=
  .integer (Int64.ofNat n)

def isError : Message → Bool
  | .error _ => true
  | _ => false

def errorText? : Message → Option String
  | .error text => some text
  | _ => none

/-- The command line a message asks for: an array, its null elements read as empty arguments, or a
bulk string alone. -/
def commandLine? : Message → Option CommandLine
  | .array elements => some (elements.map (·.getD []))
  | .bulk bytes => some [bytes]
  | _ => none

/-- The message that is found in the written form of another: texts that spell a status are read as
that status, and null elements as empty ones. -/
def normalize : Message → Message
  | .simple "OK" => .ok
  | .simple "PONG" => .pong
  | .array elements => .ofList (elements.map (·.getD []))
  | message => message

def summary : Message → String
  | .simple text => s!"SimpleString({text})"
  | .error text => s!"Error({text})"
  | .integer n => s!"Integer({toString n.toInt})"
  | .bulk bytes => s!"BulkString({toString bytes.length} bytes)"
  | .null => "Null"
  | .array elements => s!"Array({toString elements.length} elements)"
  | .nullArray => "NullArray"
  | .ok => "OK"
  | .pong => "PONG"

end Message

end ShardStore
