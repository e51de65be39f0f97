namespace ShardStore

abbrev Bytes := List UInt8

/-- A command line: the command's name, then its arguments. It may be empty. -/
abbrev CommandLine := List Bytes

namespace Bytes

def cr : UInt8 := 0x0D

def lf : UInt8 := 0x0A

def crlf : Bytes := [cr, lf]

def lowerByte (b : UInt8) : UInt8 :=
  if 0x41 ≤ b && b ≤ 0x5A then b + 0x20 else b

end Bytes

end ShardStore
