import ShardStore.Text.Utf8
import ShardStore.Text.Decimal
import ShardStore.Wire.Message

namespace ShardStore.Wire

open ShardStore.Bytes ShardStore.Text

def line (sigil : UInt8) (content : Bytes) : Bytes :=
  sigil :: content ++ crlf

/-- A count or length, announced by the byte of its kind. -/
def header (sigil : UInt8) (count : Nat) : Bytes :=
  line sigil (Decimal.ofNat count)

def bulk (bytes : Bytes) : Bytes :=
  header 0x24 bytes.length ++ bytes ++ crlf

def nullBulk : Bytes :=
  line 0x24 [0x2D, 0x31]

def element : Option Bytes → Bytes
  | some bytes => bulk bytes
  | none => nullBulk

def encode : Message → Bytes
  | .simple text => line 0x2B (Text.encode text)
  | .error text => line 0x2D (Text.encode text)
  | .integer n => line 0x3A (Decimal.ofInt n.toInt)
  | .bulk bytes => bulk bytes
  | .null => nullBulk
  | .array elements => header 0x2A elements.length ++ elements.flatMap element
  | .nullArray => line 0x2A [0x2D, 0x31]
  | .ok => line 0x2B [0x4F, 0x4B]
  | .pong => line 0x2B [0x50, 0x4F, 0x4E, 0x47]

def encodeLine (commandLine : CommandLine) : Bytes :=
  header 0x2A commandLine.length ++ commandLine.flatMap bulk

end ShardStore.Wire
