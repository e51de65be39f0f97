import ShardStore.Bytes

/-!
Glob patterns over bytes. A pattern is read left to right into tokens: `*` takes any run of bytes,
every other token one byte. A text matches if it can be cut into pieces, one for each token in
order, that the tokens take. Matching cuts the pattern at its stars and looks for each stretch
between two stars at the first place where it fits.
-/

namespace ShardStore.Glob

/-- The bytes from one end to the other; the ends may come in either order. -/
structure ByteRange where
  low : UInt8
  high : UInt8
deriving Repr, DecidableEq

def ByteRange.contains (range : ByteRange) (b : UInt8) : Bool :=
  if range.low ≤ range.high then range.low ≤ b && b ≤ range.high
  else range.high ≤ b && b ≤ range.low

structure ByteClass where
  negated : Bool
  members : List ByteRange
deriving Repr, DecidableEq

def ByteClass.contains (byteClass : ByteClass) (b : UInt8) : Bool :=
  byteClass.members.any (·.contains b) != byteClass.negated

inductive Atom where
  | any
  | literal (b : UInt8)
  | oneOf (byteClass : ByteClass)
deriving Repr, DecidableEq

def Atom.accepts : Atom → UInt8 → Bool
  | .any, _ => true
  | .literal c, b => c = b
  | .oneOf byteClass, b => byteClass.contains b

inductive Token where
  | star
  | one (atom : Atom)
deriving Repr, DecidableEq

def backslash : UInt8 := 0x5C

def dash : UInt8 := 0x2D

def openBracket : UInt8 := 0x5B

def closeBracket : UInt8 := 0x5D

/-- A byte that stands for itself, or after a backslash the byte behind it. -/
def readEscaped? : Bytes → Option (UInt8 × Bytes)
  | [] => none
  | b :: rest =>
    if b = backslash then
      match rest with
      | escaped :: rest => some (escaped, rest)
      | [] => none
    else some (b, rest)

/-- The upper end of a range, if a dash and anything but a closing bracket follow its lower end. -/
def readUpper? (low : UInt8) : Bytes → Option (ByteRange × Bytes)
  | d :: b :: rest =>
    if d = dash && b ≠ closeBracket then
      (readEscaped? (b :: rest)).map fun (high, rest) => (⟨low, high⟩, rest)
    else some (⟨low, low⟩, d :: b :: rest)
  | rest => some (⟨low, low⟩, rest)

def readMember? (pattern : Bytes) : Option (ByteRange × Bytes) :=
  (readEscaped? pattern).bind fun (low, rest) => readUpper? low rest

theorem readEscaped?_length {pattern rest : Bytes} {b : UInt8}
    (read : readEscaped? pattern = some (b, rest)) : rest.length < pattern.length := by
  unfold readEscaped? at read
  split at read
  · cases read
  · split at read
    · split at read
      · cases read; simp only [List.length_cons]; omega
      · cases read
    · cases read; simp

theorem readUpper?_length {low : UInt8} {pattern rest : Bytes} {range : ByteRange}
    (read : readUpper? low pattern = some (range, rest)) : rest.length ≤ pattern.length := by
  unfold readUpper? at read
  split at read
  · next d b after =>
    split at read
    · obtain ⟨pair, upper, same⟩ := Option.map_eq_some_iff.mp read
      have shorter := readEscaped?_length upper
      cases same
      simp only [List.length_cons] at shorter ⊢
      omega
    · cases read; simp
  · cases read; simp

theorem readMember?_length {pattern rest : Bytes} {range : ByteRange}
    (read : readMember? pattern = some (range, rest)) : rest.length < pattern.length := by
  obtain ⟨pair, first, second⟩ := Option.bind_eq_some_iff.mp read
  exact Nat.lt_of_le_of_lt (readUpper?_length second) (readEscaped?_length first)

def readMembers? (pattern : Bytes) : Option (List ByteRange × Bytes) :=
  match pattern with
  | [] => none
  | b :: rest =>
    if b = closeBracket then some ([], rest)
    else
      match _member : readMember? (b :: rest) with
      | none => none
      | some (range, rest) =>
        (readMembers? rest).map fun (members, rest) => (range :: members, rest)
termination_by pattern.length
decreasing_by exact readMember?_length _member

def readNegation : Bytes → Bool × Bytes
  | b :: rest => if b = 0x5E || b = 0x21 then (true, rest) else (false, b :: rest)
  | [] => (false, [])

/-- A class behind its opening bracket, if there is a closing bracket at all. The first member may be
one too. -/
def readClass? (pattern : Bytes) : Option (ByteClass × Bytes) :=
  if pattern.contains closeBracket then
    let (negated, body) := readNegation pattern
    (readMember? body).bind fun (first, rest) =>
      (readMembers? rest).map fun (members, rest) => (⟨negated, first :: members⟩, rest)
  else none

/-- The token that a byte begins, and the pattern behind it. A bracket that is never closed and a
backslash at the end stand for themselves. -/
def readToken (b : UInt8) (rest : Bytes) : Token × Bytes :=
  if b = 0x2A then (.star, rest)
  else if b = 0x3F then (.one .any, rest)
  else if b = openBracket then
    match readClass? rest with
    | some (byteClass, rest) => (.one (.oneOf byteClass), rest)
    | none => (.one (.literal b), rest)
  else if b = backslash then
    match rest with
    | escaped :: rest => (.one (.literal escaped), rest)
    | [] => (.one (.literal b), [])
  else (.one (.literal b), rest)

theorem readNegation_length (pattern : Bytes) :
    (readNegation pattern).2.length ≤ pattern.length := by
  unfold readNegation
  split
  · split <;> simp
  · simp

theorem readMembers?_length {pattern rest : Bytes} {members : List ByteRange}
    (read : readMembers? pattern = some (members, rest)) : rest.length < pattern.length := by
  fun_induction readMembers? pattern generalizing members with
  | case1 => cases read
  | case2 after => simp only [Option.some.injEq, Prod.mk.injEq] at read; simp [read.2]
  | case3 => cases read
  | case4 b after _ range middle member ih =>
      obtain ⟨⟨more, last⟩, found, same⟩ := Option.map_eq_some_iff.mp read
      cases same
      exact Nat.lt_trans (ih found) (readMember?_length member)

theorem readClass?_length {pattern rest : Bytes} {byteClass : ByteClass}
    (read : readClass? pattern = some (byteClass, rest)) : rest.length < pattern.length := by
  obtain ⟨_, read⟩ := Option.ite_none_right_eq_some.mp read
  obtain ⟨⟨first, middle⟩, member, more⟩ := Option.bind_eq_some_iff.mp read
  obtain ⟨⟨members, last⟩, found, same⟩ := Option.map_eq_some_iff.mp more
  cases same
  exact Nat.lt_of_lt_of_le
    (Nat.lt_trans (readMembers?_length found) (readMember?_length member))
    (readNegation_length pattern)

theorem readToken_length (b : UInt8) (rest : Bytes) :
    (readToken b rest).2.length ≤ rest.length := by
  unfold readToken
  split
  · simp
  · split
    · simp
    · split
      · split
        · next found => exact Nat.le_of_lt (readClass?_length found)
        · simp
      · split
        · split <;> simp
        · simp

def tokens : Bytes → List Token
  | [] => []
  | b :: rest =>
    (readToken b rest).1 :: tokens (readToken b rest).2
termination_by pattern => pattern.length
decreasing_by exact Nat.lt_succ_of_le (readToken_length b rest)

/-- A text is taken by tokens if it can be cut into pieces, one for each token in order: a star takes
any piece, every other token one byte that it accepts. -/
inductive Takes : List Token → Bytes → Prop where
  | nil : Takes [] []
  | star {rest : List Token} {text : Bytes} (piece : Bytes) (taken : Takes rest text) :
      Takes (.star :: rest) (piece ++ text)
  | one {atom : Atom} {b : UInt8} {rest : List Token} {text : Bytes}
      (accepted : atom.accepts b = true) (taken : Takes rest text) :
      Takes (.one atom :: rest) (b :: text)

/-- The atoms in front of the first star, and those behind each star. -/
def stretches : List Token → List Atom × List (List Atom)
  | [] => ([], [])
  | .star :: rest =>
    let (first, more) := stretches rest
    ([], first :: more)
  | .one atom :: rest =>
    let (first, more) := stretches rest
    (atom :: first, more)

def afterStretch? : List Atom → Bytes → Option Bytes
  | [], text => some text
  | _ :: _, [] => none
  | atom :: atoms, b :: text => if atom.accepts b then afterStretch? atoms text else none

/-- What is left behind the first place where the atoms fit. -/
def seek? (atoms : List Atom) : Bytes → Option Bytes
  | [] => afterStretch? atoms []
  | b :: text =>
    match afterStretch? atoms (b :: text) with
    | some rest => some rest
    | none => seek? atoms text

def fitsEnd (atoms : List Atom) (text : Bytes) : Bool :=
  atoms.length ≤ text.length &&
    afterStretch? atoms (text.drop (text.length - atoms.length)) == some []

def matchesBehindStar : List Atom → List (List Atom) → Bytes → Bool
  | last, [], text => fitsEnd last text
  | stretch, next :: more, text =>
    match seek? stretch text with
    | some rest => matchesBehindStar next more rest
    | none => false

def matchesTokens (pattern : List Token) (text : Bytes) : Bool :=
  match stretches pattern with
  | (only, []) => afterStretch? only text == some []
  | (first, next :: more) =>
    match afterStretch? first text with
    | some rest => matchesBehindStar next more rest
    | none => false

def matchesPattern (pattern text : Bytes) : Bool :=
  matchesTokens (tokens pattern) text

end ShardStore.Glob
