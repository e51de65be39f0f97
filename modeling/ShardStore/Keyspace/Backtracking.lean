import ShardStore.Keyspace.Glob

/-!
Matching with two cursors, in the pattern and in the text. Where the text does not go on as the pattern
asks, both go back to the last star, which takes one byte more; earlier stars are left as they are.
Pattern and text are read by index, and a reading outside of them puts an end to everything, so a match
has three outcomes.
-/

namespace ShardStore.Glob

structure OutOfRange where
  index : Nat
  length : Nat
deriving Repr, DecidableEq

def byteAt (bytes : Bytes) (index : Nat) : Except OutOfRange UInt8 :=
  match bytes[index]? with
  | some b => .ok b
  | none => .error ⟨index, bytes.length⟩

def starSign : UInt8 := 0x2A

def questionMark : UInt8 := 0x3F

/-- The lower end of a range, and the index where it stands. -/
def lowerAt? (pattern : Bytes) (i : Nat) : Option (UInt8 × Nat) :=
  match pattern[i]? with
  | none => none
  | some b => if b = backslash then pattern[i + 1]?.map (·, i + 1) else some (b, i)

def isRangeAt (pattern : Bytes) (i : Nat) : Bool :=
  pattern[i + 1]? == some dash && pattern[i + 2]?.any (· != closeBracket)

/-- The upper end of a range, and the index where it stands. -/
def upperAt (pattern : Bytes) (i : Nat) : Except OutOfRange (Option (UInt8 × Nat)) := do
  let b ← byteAt pattern i
  .ok (if b = backslash then pattern[i + 1]?.map (·, i + 1) else some (b, i))

/-- Whether the member of a class at an index has the byte among its own, and the index behind it; none
if the pattern ends in it. -/
def memberAt (pattern : Bytes) (byte : UInt8) (i : Nat) :
    Except OutOfRange (Option (Bool × Nat)) :=
  match lowerAt? pattern i with
  | none => .ok none
  | some (low, i) =>
    if isRangeAt pattern i then do
      let some (high, i) ← upperAt pattern (i + 2) | .ok none
      let (low, high) := if low ≤ high then (low, high) else (high, low)
      .ok (some (low ≤ byte && byte ≤ high, i + 1))
    else .ok (some (low == byte, i + 1))

theorem lt_of_getElem?_map {pattern : Bytes} {i j : Nat} {b : UInt8}
    (read : pattern[i]?.map (·, i) = some (b, j)) : j = i ∧ i < pattern.length := by
  obtain ⟨c, found, same⟩ := Option.map_eq_some_iff.mp read
  obtain ⟨inside, -⟩ := List.getElem?_eq_some_iff.mp found
  cases same
  exact ⟨rfl, inside⟩

theorem lowerAt?_lt {pattern : Bytes} {i j : Nat} {low : UInt8}
    (read : lowerAt? pattern i = some (low, j)) : i ≤ j ∧ j < pattern.length := by
  unfold lowerAt? at read
  split at read
  · cases read
  · next b found =>
    obtain ⟨inside, -⟩ := List.getElem?_eq_some_iff.mp found
    split at read
    · have := lt_of_getElem?_map read
      omega
    · cases read
      omega

theorem upperAt_lt {pattern : Bytes} {i j : Nat} {high : UInt8}
    (read : upperAt pattern i = .ok (some (high, j))) : i ≤ j ∧ j < pattern.length := by
  unfold upperAt byteAt at read
  split at read
  · next b found =>
    obtain ⟨inside, -⟩ := List.getElem?_eq_some_iff.mp found
    have read := Except.ok.inj read
    split at read
    · have := lt_of_getElem?_map read
      omega
    · cases read
      omega
  · cases read

theorem memberAt_lt {pattern : Bytes} {byte : UInt8} {i next : Nat} {hit : Bool}
    (read : memberAt pattern byte i = .ok (some (hit, next))) :
    i < next ∧ next ≤ pattern.length := by
  unfold memberAt at read
  split at read
  · cases read
  · next low j lower =>
    obtain ⟨later, inside⟩ := lowerAt?_lt lower
    split at read
    · cases upper : upperAt pattern (j + 2) with
      | error cause => rw [upper] at read; cases read
      | ok found =>
          rw [upper] at read
          cases found with
          | none => cases read
          | some pair =>
              obtain ⟨further, within⟩ := upperAt_lt upper
              cases read
              omega
    · cases read
      omega

/-- Reads the members of a class up to the bracket that closes it, which is not the first of them. -/
def membersAt (pattern : Bytes) (byte : UInt8) (negated : Bool) (i : Nat) (matched first : Bool) :
    Except OutOfRange (Option (Bool × Nat)) :=
  match pattern[i]? with
  | none => .ok none
  | some b =>
    if b = closeBracket && !first then .ok (some (matched != negated, i + 1))
    else
      match _member : memberAt pattern byte i with
      | .error cause => .error cause
      | .ok none => .ok none
      | .ok (some (hit, next)) => membersAt pattern byte negated next (matched || hit) false
termination_by pattern.length - i
decreasing_by
  have := memberAt_lt _member
  omega

/-- Whether the class whose opening bracket stands at an index accepts a byte, and the index behind it;
none if it is never closed. -/
def classAt (pattern : Bytes) (start : Nat) (byte : UInt8) :
    Except OutOfRange (Option (Bool × Nat)) :=
  let negated := pattern[start + 1]? == some 0x5E || pattern[start + 1]? == some 0x21
  membersAt pattern byte negated (if negated then start + 2 else start + 1) false true

/-- What the pattern says to one byte of the text: a star begins, the byte is taken and the pattern goes
on at some index, or it cannot be taken. -/
inductive Move where
  | star
  | take (next : Nat)
  | stuck
deriving Repr, DecidableEq

def moveAt (pattern text : Bytes) (p t : Nat) : Except OutOfRange Move :=
  if p < pattern.length then do
    let b ← byteAt pattern p
    if b = starSign then .ok .star
    else if b = questionMark then .ok (.take (p + 1))
    else if b = openBracket then do
      let byte ← byteAt text t
      match ← classAt pattern p byte with
      | some (true, next) => .ok (.take next)
      | some (false, _) => .ok .stuck
      | none => .ok (if byte = openBracket then .take (p + 1) else .stuck)
    else if b = backslash && p + 1 < pattern.length then do
      let escaped ← byteAt pattern (p + 1)
      let byte ← byteAt text t
      .ok (if escaped = byte then .take (p + 2) else .stuck)
    else do
      let byte ← byteAt text t
      .ok (if b = byte then .take (p + 1) else .stuck)
  else .ok .stuck

structure Cursors where
  inPattern : Nat := 0
  inText : Nat := 0
  /-- Where the pattern goes on behind the last star, and up to where that star has taken the text. -/
  lastStar? : Option (Nat × Nat) := none
  behind : ∀ resume ∈ lastStar?, resume.2 ≤ inText := by simp
deriving Repr, DecidableEq

namespace Cursors

/-- Goes on behind a star that takes nothing at first. -/
def passStar (cursors : Cursors) : Cursors where
  inPattern := cursors.inPattern + 1
  inText := cursors.inText
  lastStar? := some (cursors.inPattern + 1, cursors.inText)

def takeByte (cursors : Cursors) (next : Nat) : Cursors where
  inPattern := next
  inText := cursors.inText + 1
  lastStar? := cursors.lastStar?
  behind resume mem := Nat.le_succ_of_le (cursors.behind resume mem)

/-- Goes back to a star that takes one byte more. -/
def resume (p t : Nat) : Cursors where
  inPattern := p
  inText := t + 1
  lastStar? := some (p, t + 1)

/-- How much of a text the last star has not taken. -/
def untaken (cursors : Cursors) (text : Bytes) : Nat :=
  match cursors.lastStar? with
  | none => text.length + 1
  | some (_, taken) => text.length - taken

/-- What is left to do: for the last star, then in the text, then in the pattern. -/
def remaining (cursors : Cursors) (pattern text : Bytes) : Nat × Nat × Nat :=
  (cursors.untaken text, text.length - cursors.inText, pattern.length - cursors.inPattern)

theorem untaken_ge (cursors : Cursors) (text : Bytes) :
    text.length - cursors.inText ≤ cursors.untaken text := by
  unfold untaken
  split
  · omega
  · next p taken last =>
    have bound := cursors.behind (p, taken) last
    dsimp only at bound
    omega

end Cursors

theorem moveAt_star {pattern text : Bytes} {p t : Nat} (move : moveAt pattern text p t = .ok .star) :
    p < pattern.length := by
  unfold moveAt at move
  split at move
  · next inside => exact inside
  · cases move

def scanFrom (pattern text : Bytes) (cursors : Cursors) : Except OutOfRange Bool :=
  if cursors.inText < text.length then
    match _move : moveAt pattern text cursors.inPattern cursors.inText with
    | .error cause => .error cause
    | .ok .star => scanFrom pattern text cursors.passStar
    | .ok (.take next) => scanFrom pattern text (cursors.takeByte next)
    | .ok .stuck =>
      match _last : cursors.lastStar? with
      | none => .ok false
      | some (p, t) => scanFrom pattern text (.resume p t)
  else if cursors.inPattern ≤ pattern.length then
    .ok ((pattern.drop cursors.inPattern).all (· == starSign))
  else .error ⟨cursors.inPattern, pattern.length⟩
termination_by cursors.remaining pattern text
decreasing_by
  · have inside := moveAt_star _move
    have most := cursors.untaken_ge text
    simp only [Cursors.remaining, Cursors.passStar, Prod.lex_def]
    rcases Nat.lt_or_eq_of_le most with less | same
    · exact .inl less
    · exact .inr ⟨same, .inr ⟨trivial, by omega⟩⟩
  · simp only [Cursors.remaining, Cursors.takeByte, Prod.lex_def]
    exact .inr ⟨rfl, .inl (by omega)⟩
  · have bound := cursors.behind (p, t) _last
    simp only [Cursors.remaining, Cursors.resume, Prod.lex_def, Cursors.untaken, _last]
    exact .inl (by dsimp only at bound; omega)

def scan (pattern text : Bytes) : Except OutOfRange Bool :=
  scanFrom pattern text {}

end ShardStore.Glob
