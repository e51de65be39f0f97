import ShardStore.Bytes

namespace ShardStore.Crc32

def polynomial : UInt32 := 0xEDB88320

def bitStep (register : UInt32) : UInt32 :=
  if register &&& 1 = 0 then register >>> 1 else (register >>> 1) ^^^ polynomial

def bitSteps : Nat → UInt32 → UInt32
  | 0, register => register
  | count + 1, register => bitSteps count (bitStep register)

def byteStep (register : UInt32) (b : UInt8) : UInt32 :=
  bitSteps 8 (register ^^^ b.toUInt32)

def checksum (bytes : Bytes) : UInt32 :=
  ~~~(bytes.foldl byteStep 0xFFFFFFFF)

end ShardStore.Crc32
