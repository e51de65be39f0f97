import ShardStore.Wire.Decoder

namespace ShardStore.Log

inductive LogItem where
  | line (line : CommandLine)
  | unexpected (message : Message)
  | corrupt (fault : Fault)
deriving Repr, DecidableEq

namespace LogItem

def ofItem : Item → LogItem
  | .ok (.array elements) => .line (elements.map (·.getD []))
  | .ok message => .unexpected message
  | .error fault => .corrupt fault

end LogItem

def read (file : Bytes) : List LogItem :=
  (Wire.readStream [file] .finished).map .ofItem

end ShardStore.Log
