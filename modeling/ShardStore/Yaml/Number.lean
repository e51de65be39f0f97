import ShardStore.Yaml.Scalar

namespace ShardStore.Yaml.Number

/-- The number that digits to a base spell behind those read for `value`. -/
def readDigits (base value : Nat) : List Char → Option Nat
  | [] => some value
  | c :: rest => do
    let digit ← hexValue? c
    if digit < base then readDigits base (value * base + digit) rest else none

/-- The number that at least one digit spells, if an unsigned word of 64 bits holds it. -/
def digits? (base : Nat) (text : List Char) : Option Nat :=
  if text.isEmpty then none else (readDigits base 0 text).filter (· < UInt64.size)

/-- The number in decimal. Digits behind a leading zero make no number. -/
def decimal? (text : List Char) : Option Nat :=
  if text.head? == some '0' && 1 < text.length then none else digits? 10 text

def natural? (text : List Char) : Option Nat :=
  let unsigned :=
    match text with
    | '+' :: rest => rest
    | text => text
  match unsigned with
  | '0' :: 'x' :: rest => digits? 16 rest
  | '0' :: 'o' :: rest => digits? 8 rest
  | '0' :: 'b' :: rest => digits? 2 rest
  | unsigned => decimal? unsigned

end ShardStore.Yaml.Number
