import ShardStore.Bytes

namespace ShardStore.Text.Decimal

def digit (n : Nat) : UInt8 :=
  0x30 + n.toUInt8

/-- The digits of a number without leading zeros. -/
def ofNat (n : Nat) : Bytes :=
  if n < 10 then [digit n] else ofNat (n / 10) ++ [digit (n % 10)]
termination_by n
decreasing_by omega

def ofInt (n : Int) : Bytes :=
  if n < 0 then 0x2D :: ofNat n.natAbs else ofNat n.natAbs

def isDigit (b : UInt8) : Bool :=
  0x30 ≤ b && b ≤ 0x39

/-- The number that digits spell after the digits already read for `value`. -/
def readDigits (value : Nat) : Bytes → Option Nat
  | [] => some value
  | b :: rest => if isDigit b then readDigits (value * 10 + (b.toNat - 0x30)) rest else none

/-- A number of at least one digit. -/
def nat? : Bytes → Option Nat
  | [] => none
  | b :: rest => readDigits 0 (b :: rest)

/-- A number of at least one digit after an optional plus sign. -/
def unsigned? : Bytes → Option Nat
  | 0x2B :: rest => nat? rest
  | bytes => nat? bytes

/-- A number of at least one digit after an optional sign. -/
def int? : Bytes → Option Int
  | 0x2D :: rest => (nat? rest).map fun n => -(n : Int)
  | bytes => (unsigned? bytes).map fun n => (n : Int)

def int64? (bytes : Bytes) : Option Int64 :=
  (int? bytes).bind fun n =>
    if Int64.minValue.toInt ≤ n ∧ n ≤ Int64.maxValue.toInt then some (Int64.ofInt n) else none

def uint32? (bytes : Bytes) : Option UInt32 :=
  (unsigned? bytes).bind fun n => if n < UInt32.size then some n.toUInt32 else none

end ShardStore.Text.Decimal
