import ShardStore.Text.Utf8
import ShardStore.Text.Decimal
import ShardStore.Wire.Fault

/-!
The resumable decoder. It keeps the bytes not yet used and the message under way, so that bytes may
arrive in pieces cut anywhere. A fault drops the message under way, and reading goes on behind the
offending line or body.
-/

namespace ShardStore

open Bytes Text

inductive Pending where
  | idle
  /-- A bulk string whose body of `length` bytes has to come. -/
  | bulk (length : Nat)
  /-- An array of which `missing` elements have to come, those that came so far (the last one first),
  and the length of the next element's body once its header has been read. -/
  | array (missing : Nat) (collected : List Bytes) (body : Option Nat)
deriving Repr, DecidableEq, Inhabited

namespace Wire

def splitLine? : Bytes → Option (Bytes × Bytes)
  | [] => none
  | b :: rest =>
    if b = lf then some ([b], rest)
    else (splitLine? rest).map fun (head, tail) => (b :: head, tail)

def splitExactly? (count : Nat) (bytes : Bytes) : Option (Bytes × Bytes) :=
  let (head, tail) := bytes.splitAt count
  if head.length < count then none else some (head, tail)

def stripTerminator (chunk : Bytes) : Except Fault Bytes :=
  match chunk.reverse with
  | 0x0A :: 0x0D :: front => .ok front.reverse
  | _ => .error (.missingTerminator (lossy chunk))

def number (header : Bytes) : Except Fault Int64 :=
  match Decimal.int64? (header.drop 1) with
  | some n => .ok n
  | none => .error (.invalidHeader (lossy header))

/-- The line that begins the buffer, its terminator checked, and the bytes behind it. -/
def takeLine? (buffer : Bytes) : Option (Except Fault Bytes × Bytes) :=
  (splitLine? buffer).map fun (chunk, rest) => (stripTerminator chunk, rest)

/-- The body of `length` bytes that begins the buffer, its terminator checked, and the bytes behind
it. A body may hold any bytes. -/
def takeBody? (length : Nat) (buffer : Bytes) : Option (Except Fault Bytes × Bytes) :=
  (splitExactly? (length + 2) buffer).map fun (chunk, rest) => (stripTerminator chunk, rest)

def addElement (missing : Nat) (collected : List Bytes) (element : Bytes) :
    Option Message × Pending :=
  if missing = 1 then (some (.ofList (element :: collected).reverse), .idle)
  else (none, .array (missing - 1) (element :: collected) none)

def start (line : Bytes) : Except Fault (Option Message × Pending) :=
  match line with
  | 0x2A :: _ => do
    let count ← number line
    if count = 0 then .ok (some (.array []), .idle)
    else if count = -1 then .ok (some .nullArray, .idle)
    else if count < 0 then .error (.invalidHeader (lossy line))
    else .ok (none, .array count.toInt.toNat [] none)
  | 0x24 :: _ => do
    let length ← number line
    if length = -1 then .ok (some .null, .idle)
    else if length < 0 then .error (.invalidHeader (lossy line))
    else .ok (none, .bulk length.toInt.toNat)
  | 0x2B :: status =>
    if status = [0x4F, 0x4B] then .ok (some .ok, .idle)
    else if status = [0x50, 0x4F, 0x4E, 0x47] then .ok (some .pong, .idle)
    else .ok (some (.simple (lossy status)), .idle)
  | 0x2D :: text => .ok (some (.error (lossy text)), .idle)
  | 0x3A :: _ => do
    let n ← number line
    .ok (some (.integer n), .idle)
  | _ => .error (.unknownPrefix (lossy line))

/-- Reads a line inside an array: the header of an element, or an element without one. -/
def continueArray (missing : Nat) (collected : List Bytes) (line : Bytes) :
    Except Fault (Option Message × Pending) :=
  match line with
  | 0x24 :: _ => do
    let length ← number line
    if length < 0 then .ok (addElement missing collected [])
    else .ok (none, .array missing collected (some length.toInt.toNat))
  | _ => .ok (addElement missing collected line)

/-- Reads the next line or body, whichever the message under way asks for; none if more bytes are
needed. -/
def readUnit? (pending : Pending) (buffer : Bytes) :
    Option (Except Fault (Option Message × Pending) × Bytes) :=
  match pending with
  | .idle => (takeLine? buffer).map (Prod.map (· >>= start) id)
  | .bulk length =>
    (takeBody? length buffer).map (Prod.map (·.map fun body => (some (.bulk body), .idle)) id)
  | .array missing collected none =>
    (takeLine? buffer).map (Prod.map (· >>= continueArray missing collected) id)
  | .array missing collected (some length) =>
    (takeBody? length buffer).map (Prod.map (·.map (addElement missing collected)) id)

theorem splitLine?_length {bytes head rest : Bytes} (split : splitLine? bytes = some (head, rest)) :
    rest.length < bytes.length := by
  induction bytes generalizing head with
  | nil => simp [splitLine?] at split
  | cons b bytes ih =>
      simp only [splitLine?] at split
      split at split
      · simp only [Option.some.injEq, Prod.mk.injEq] at split
        simp [← split.2]
      · obtain ⟨pair, found, same⟩ := Option.map_eq_some_iff.mp split
        have shorter := ih (by rw [found, ← (Prod.mk.inj same).2])
        exact Nat.lt_succ_of_lt shorter

theorem splitExactly?_length {count : Nat} {bytes head rest : Bytes}
    (split : splitExactly? (count + 1) bytes = some (head, rest)) :
    rest.length < bytes.length := by
  simp only [splitExactly?, List.splitAt_eq, Option.ite_none_left_eq_some, Option.some.injEq,
    Prod.mk.injEq, List.length_take] at split
  rw [← split.2.2, List.length_drop]
  omega

theorem takeLine?_length {buffer rest : Bytes} {line : Except Fault Bytes}
    (taken : takeLine? buffer = some (line, rest)) : rest.length < buffer.length := by
  obtain ⟨pair, found, same⟩ := Option.map_eq_some_iff.mp taken
  rw [← (Prod.mk.inj same).2]
  exact splitLine?_length found

theorem takeBody?_length {length : Nat} {buffer rest : Bytes} {body : Except Fault Bytes}
    (taken : takeBody? length buffer = some (body, rest)) : rest.length < buffer.length := by
  obtain ⟨pair, found, same⟩ := Option.map_eq_some_iff.mp taken
  rw [← (Prod.mk.inj same).2]
  exact splitExactly?_length found

theorem readUnit?_length {pending : Pending} {buffer rest : Bytes}
    {result : Except Fault (Option Message × Pending)}
    (read : readUnit? pending buffer = some (result, rest)) : rest.length < buffer.length := by
  unfold readUnit? at read
  split at read <;>
    obtain ⟨pair, found, same⟩ := Option.map_eq_some_iff.mp read <;>
    rw [← (Prod.mk.inj same).2]
  · exact takeLine?_length found
  · exact takeBody?_length found
  · exact takeLine?_length found
  · exact takeBody?_length found

end Wire

structure Decoder where
  pending : Pending := .idle
  buffer : Bytes := []
deriving Repr, DecidableEq, Inhabited

namespace Decoder

open Wire

/-- Reads one line or body: the item it completes, if any, and the decoder behind it. -/
def advance? (decoder : Decoder) : Option (Option Item × Decoder) :=
  (readUnit? decoder.pending decoder.buffer).map fun
    | (.ok (message, pending), rest) => (message.map .ok, ⟨pending, rest⟩)
    | (.error fault, rest) => (some (.error fault), ⟨.idle, rest⟩)

theorem advance?_length {decoder next : Decoder} {item : Option Item}
    (advanced : decoder.advance? = some (item, next)) :
    next.buffer.length < decoder.buffer.length := by
  obtain ⟨⟨result, rest⟩, read, same⟩ := Option.map_eq_some_iff.mp advanced
  have shorter := readUnit?_length read
  cases result with
  | error fault => simp only [Prod.mk.injEq] at same; rw [← same.2]; exact shorter
  | ok pair => simp only [Prod.mk.injEq] at same; rw [← same.2]; exact shorter

def drain (decoder : Decoder) : List Item × Decoder :=
  match _advanced : decoder.advance? with
  | none => ([], decoder)
  | some (item, next) =>
    let (items, last) := next.drain
    (item.toList ++ items, last)
termination_by decoder.buffer.length
decreasing_by exact advance?_length _advanced

def feed (decoder : Decoder) (piece : Bytes) : List Item × Decoder :=
  drain { decoder with buffer := decoder.buffer ++ piece }

def feedAll (decoder : Decoder) : List Bytes → List Item × Decoder
  | [] => ([], decoder)
  | piece :: pieces =>
    let (items, next) := decoder.feed piece
    let (more, last) := next.feedAll pieces
    (items ++ more, last)

end Decoder

namespace Wire

def decode (bytes : Bytes) : List Item :=
  (({} : Decoder).feed bytes).1

/-- How a stream of bytes comes to an end: as its sender means it, or by a failure. -/
inductive Ending where
  | finished
  | failed (cause : String)
deriving Repr, DecidableEq

/-- The item with which a stream ends, if any. A finished stream must not end inside a line or
body; it may end between the elements of an array. -/
def Ending.item? (ending : Ending) (left : Bytes) : Option Item :=
  match ending with
  | .failed cause => some (.error (.transport cause))
  | .finished => if left.isEmpty then none else some (.error .unfinished)

def readStream (pieces : List Bytes) (ending : Ending) : List Item :=
  let (items, last) := ({} : Decoder).feedAll pieces
  items ++ (ending.item? last.buffer).toList

end Wire

end ShardStore
