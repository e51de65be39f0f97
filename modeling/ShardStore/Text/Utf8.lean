import ShardStore.Bytes

namespace ShardStore.Text

def encode (text : String) : Bytes :=
  text.toList.flatMap String.utf8EncodeChar

def isTail (b : UInt8) : Bool :=
  0x80 ≤ b && b ≤ 0xBF

/-- Whether `b` may follow `lead` in a character of three bytes: no overlong form, no surrogate. -/
def isSecondOfThree (lead b : UInt8) : Bool :=
  if lead = 0xE0 then 0xA0 ≤ b && b ≤ 0xBF
  else if lead = 0xED then 0x80 ≤ b && b ≤ 0x9F
  else isTail b

/-- Whether `b` may follow `lead` in a character of four bytes: no overlong form, none past U+10FFFF. -/
def isSecondOfFour (lead b : UInt8) : Bool :=
  if lead = 0xF0 then 0x90 ≤ b && b ≤ 0xBF
  else if lead = 0xF4 then 0x80 ≤ b && b ≤ 0x8F
  else isTail b

def scalar2 (a b : UInt8) : Char :=
  Char.ofNat ((a.toNat - 0xC0) * 64 + (b.toNat - 0x80))

def scalar3 (a b c : UInt8) : Char :=
  Char.ofNat ((a.toNat - 0xE0) * 4096 + (b.toNat - 0x80) * 64 + (c.toNat - 0x80))

def scalar4 (a b c d : UInt8) : Char :=
  Char.ofNat ((a.toNat - 0xF0) * 262144 + (b.toNat - 0x80) * 4096 + (c.toNat - 0x80) * 64
    + (d.toNat - 0x80))

/-- The character that begins with `lead`, and how many of the bytes after `lead` belong to it.
Without such a character, the count is that of the longest run of bytes that begins one. -/
def scalarAt (lead : UInt8) (rest : Bytes) : Option Char × Nat :=
  if lead < 0x80 then (some (Char.ofNat lead.toNat), 0)
  else if 0xC2 ≤ lead && lead ≤ 0xDF then
    match rest with
    | b :: _ => if isTail b then (some (scalar2 lead b), 1) else (none, 0)
    | [] => (none, 0)
  else if 0xE0 ≤ lead && lead ≤ 0xEF then
    match rest with
    | b :: c :: _ =>
      if !isSecondOfThree lead b then (none, 0)
      else if isTail c then (some (scalar3 lead b c), 2)
      else (none, 1)
    | [b] => (none, if isSecondOfThree lead b then 1 else 0)
    | [] => (none, 0)
  else if 0xF0 ≤ lead && lead ≤ 0xF4 then
    match rest with
    | b :: c :: d :: _ =>
      if !isSecondOfFour lead b then (none, 0)
      else if !isTail c then (none, 1)
      else if isTail d then (some (scalar4 lead b c d), 3)
      else (none, 2)
    | [b, c] =>
      (none, if !isSecondOfFour lead b then 0 else if isTail c then 2 else 1)
    | [b] => (none, if isSecondOfFour lead b then 1 else 0)
    | [] => (none, 0)
  else (none, 0)

/-- The characters of a byte sequence, `none` standing for each broken part: the longest run of
bytes that begins a character, or one byte that begins none. -/
def scalars : Bytes → List (Option Char)
  | [] => []
  | lead :: rest =>
    let (scalar, width) := scalarAt lead rest
    scalar :: scalars (rest.drop width)
termination_by bytes => bytes.length
decreasing_by simp only [List.length_drop, List.length_cons]; omega

def replacement : Char := '\uFFFD'

def lossy (bytes : Bytes) : String :=
  String.ofList ((scalars bytes).map (·.getD replacement))

def decode? (bytes : Bytes) : Option String :=
  ((scalars bytes).mapM id).map String.ofList

end ShardStore.Text
