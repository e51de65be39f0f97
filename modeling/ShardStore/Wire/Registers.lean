import ShardStore.Wire.Decoder

/-!
The decoder with its state in five registers. The parts of a message are read and taken in by different
functions, each of which looks at some of the registers, and a message is complete when enough elements
have been collected.
-/

namespace ShardStore

open Bytes Text Wire

structure Registers where
  /-- Whether a message is under way of which more lines or bodies have to come. -/
  inside : Bool := false
  expected : Nat := 0
  /-- The byte that announced the message under way. -/
  kind : UInt8 := 0
  collected : List Bytes := []
  /-- The length of the body that has to come next, once its header has been read. -/
  body? : Option Nat := none
deriving Repr, DecidableEq, Inhabited

namespace Wire

inductive Part where
  | line (content : Bytes)
  | body (content : Bytes)
deriving Repr, DecidableEq

end Wire

namespace Registers

def isFinished (registers : Registers) : Bool :=
  0 < registers.expected && registers.collected.length == registers.expected

/-- Takes the next line or body off the buffer; none if more bytes are needed. -/
def nextPart? (registers : Registers) (buffer : Bytes) :
    Option (Except Fault Part × Registers × Bytes) :=
  match registers.body? with
  | some length =>
    (takeBody? length buffer).map fun (body, rest) =>
      (body.map .body, { registers with body? := none }, rest)
  | none => (takeLine? buffer).map fun (line, rest) => (line.map .line, registers, rest)

def push (registers : Registers) (element : Bytes) : Registers :=
  { registers with collected := registers.collected ++ [element] }

/-- The message that has been collected, if it is complete, and the registers behind it. -/
def takeFinished (registers : Registers) : Option Message × Registers :=
  if registers.isFinished then
    if registers.kind = 0x24 then (registers.collected.getLast?.map .bulk, {})
    else (some (.ofList registers.collected), {})
  else (none, registers)

/-- Reads a line that begins a message. -/
def begin (registers : Registers) (line : Bytes) : Except Fault (Option Message × Registers) :=
  match line with
  | 0x2A :: _ => do
    let count ← number line
    if count = 0 then .ok (some (.array []), registers)
    else if count = -1 then .ok (some .nullArray, registers)
    else if count < 0 then .error (.invalidHeader (lossy line))
    else .ok (none,
      { registers with inside := true, kind := 0x2A, expected := count.toInt.toNat, collected := [] })
  | 0x24 :: _ => do
    let length ← number line
    if length = -1 then .ok (some .null, registers)
    else if length < 0 then .error (.invalidHeader (lossy line))
    else .ok (none,
      { registers with
        inside := true, kind := 0x24, expected := 1, collected := [],
        body? := some length.toInt.toNat })
  | 0x2B :: status =>
    if status = [0x4F, 0x4B] then .ok (some .ok, registers)
    else if status = [0x50, 0x4F, 0x4E, 0x47] then .ok (some .pong, registers)
    else .ok (some (.simple (lossy status)), registers)
  | 0x2D :: text => .ok (some (.error (lossy text)), registers)
  | 0x3A :: _ => do
    let n ← number line
    .ok (some (.integer n), registers)
  | _ => .error (.unknownPrefix (lossy line))

/-- Reads a line inside a message. -/
def resume (registers : Registers) (line : Bytes) : Except Fault (Option Message × Registers) :=
  match line with
  | 0x24 :: _ => do
    let length ← number line
    if length < 0 then .ok (registers.push []).takeFinished
    else .ok (none, { registers with body? := some length.toInt.toNat })
  | _ => .ok (registers.push line).takeFinished

def takeIn (registers : Registers) : Part → Except Fault (Option Message × Registers)
  | .body content => .ok (registers.push content).takeFinished
  | .line content => if registers.inside then registers.resume content else registers.begin content

/-- What the registers are behind a line or body, and the item it completes, if any. A fault clears them
all. -/
def settle : Except Fault (Option Message × Registers) → Option Item × Registers
  | .error fault => (some (.error fault), {})
  | .ok (message, registers) => (message.map .ok, registers)

def step? (registers : Registers) (buffer : Bytes) : Option (Option Item × Registers × Bytes) :=
  (registers.nextPart? buffer).map fun (part, next, rest) =>
    let (item, last) := settle (part >>= next.takeIn)
    (item, last, rest)

theorem nextPart?_length {registers next : Registers} {buffer rest : Bytes}
    {part : Except Fault Part} (read : registers.nextPart? buffer = some (part, next, rest)) :
    rest.length < buffer.length := by
  unfold nextPart? at read
  split at read <;>
    obtain ⟨pair, taken, same⟩ := Option.map_eq_some_iff.mp read <;>
    cases same
  · exact takeBody?_length taken
  · exact takeLine?_length taken

theorem step?_length {registers next : Registers} {buffer rest : Bytes} {item? : Option Item}
    (stepped : registers.step? buffer = some (item?, next, rest)) :
    rest.length < buffer.length := by
  obtain ⟨⟨part, middle, left⟩, read, same⟩ := Option.map_eq_some_iff.mp stepped
  cases same
  exact nextPart?_length read

/-- Reads on until an item is found or the bytes do not suffice. -/
def decode (registers : Registers) (buffer : Bytes) : Option Item × Registers × Bytes :=
  match _stepped : registers.step? buffer with
  | none => (none, registers, buffer)
  | some (some item, next, rest) => (some item, next, rest)
  | some (none, next, rest) => next.decode rest
termination_by buffer.length
decreasing_by exact step?_length _stepped

theorem decode_of_stuck {registers : Registers} {buffer : Bytes}
    (stuck : registers.step? buffer = none) :
    registers.decode buffer = (none, registers, buffer) := by
  rw [decode]
  split
  · rfl
  all_goals next stepped => rw [stuck] at stepped; cases stepped

theorem decode_of_item {registers next : Registers} {buffer rest : Bytes} {item : Item}
    (stepped : registers.step? buffer = some (some item, next, rest)) :
    registers.decode buffer = (some item, next, rest) := by
  rw [decode]
  split
  · next stuck => rw [stepped] at stuck; cases stuck
  · next again => rw [stepped] at again; cases again; rfl
  · next again => rw [stepped] at again; cases again

theorem decode_of_part {registers next : Registers} {buffer rest : Bytes}
    (stepped : registers.step? buffer = some (none, next, rest)) :
    registers.decode buffer = next.decode rest := by
  rw [decode]
  split
  · next stuck => rw [stepped] at stuck; cases stuck
  · next again => rw [stepped] at again; cases again
  · next again => rw [stepped] at again; cases again; rfl

theorem decode_length {registers next : Registers} {buffer rest : Bytes} {item : Item}
    (decoded : registers.decode buffer = (some item, next, rest)) :
    rest.length < buffer.length := by
  induction registers, buffer using decode.induct with
  | case1 registers buffer stuck =>
      rw [decode_of_stuck stuck] at decoded
      cases decoded
  | case2 registers buffer found middle left stepped =>
      rw [decode_of_item stepped] at decoded
      cases decoded
      exact step?_length stepped
  | case3 registers buffer middle left stepped ih =>
      rw [decode_of_part stepped] at decoded
      exact Nat.lt_trans (ih decoded) (step?_length stepped)

/-- Reads all items there are in the bytes. -/
def drain (registers : Registers) (buffer : Bytes) : List Item × Registers × Bytes :=
  match _decoded : registers.decode buffer with
  | (none, next, rest) => ([], next, rest)
  | (some item, next, rest) =>
    let (items, last) := next.drain rest
    (item :: items, last)
termination_by buffer.length
decreasing_by exact decode_length _decoded

/-- Reads bytes that arrive in pieces behind those that are left. -/
def feedAll (registers : Registers) (left : Bytes) : List Bytes → List Item × Registers × Bytes
  | [] => ([], registers, left)
  | piece :: pieces =>
    let (items, next, rest) := registers.drain (left ++ piece)
    let (more, last) := next.feedAll rest pieces
    (items ++ more, last)

end Registers

end ShardStore
