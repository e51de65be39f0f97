import ShardStore.Proofs.Wire.Resumption
import ShardStore.Wire.Registers

namespace ShardStore

open Bytes Text Wire

/-- What the registers hold while a message is under way. -/
def Pending.registers : Pending → Registers
  | .idle => {}
  | .bulk length => { inside := true, expected := 1, kind := 0x24, body? := some length }
  | .array missing collected body? =>
    { inside := true, expected := collected.length + missing, kind := 0x2A,
      collected := collected.reverse, body? }

namespace Registers

/-- What a decoder comes to, with the message under way held in registers. -/
def inRegisters (result : Except Fault (Option Message × Pending)) :
    Except Fault (Option Message × Registers) :=
  result.map fun (message, pending) => (message, pending.registers)

theorem takeFinished_array {missing : Nat} (wanted : 0 < missing) (collected : List Bytes)
    (element : Bytes) :
    takeFinished (push (Pending.registers (.array missing collected none)) element) =
      ((addElement missing collected element).1,
        (addElement missing collected element).2.registers) := by
  have whole : (push (Pending.registers (.array missing collected none)) element).isFinished ↔
      missing = 1 := by
    simp only [isFinished, Bool.and_eq_true, decide_eq_true_eq, beq_iff_eq]
    simp only [push, Pending.registers, List.length_append, List.length_reverse,
      List.length_singleton]
    omega
  by_cases last : missing = 1
  · rw [takeFinished, if_pos (whole.mpr last), addElement, if_pos last]
    simp [push, Pending.registers]
  · rw [takeFinished, if_neg (mt whole.mp last), addElement, if_neg last]
    have count : collected.length + missing = (element :: collected).length + (missing - 1) := by
      simp only [List.length_cons]
      omega
    simp only [push, Pending.registers, count, List.reverse_cons]

theorem begin_idle (line : Bytes) : begin {} line = inRegisters (start line) := by
  unfold begin
  split
  · next content =>
    rw [start]
    cases number (0x2A :: content) with
    | error fault => rfl
    | ok count =>
        simp only [bind, Except.bind]
        repeat' split
        all_goals simp [inRegisters, Except.map, Pending.registers]
  · next content =>
    rw [start]
    cases number (0x24 :: content) with
    | error fault => rfl
    | ok length =>
        simp only [bind, Except.bind]
        repeat' split
        all_goals rfl
  · rw [start]
    repeat' split
    all_goals rfl
  · rfl
  · next content =>
    rw [start]
    cases number (0x3A :: content) <;> rfl
  · rw [start]
    · rfl
    all_goals assumption

theorem resume_array {missing : Nat} (wanted : 0 < missing) (collected : List Bytes)
    (line : Bytes) :
    resume (Pending.registers (.array missing collected none)) line =
      inRegisters (continueArray missing collected line) := by
  have added := takeFinished_array wanted collected
  unfold resume
  split
  · next content =>
    rw [continueArray]
    cases number (0x24 :: content) with
    | error fault => rfl
    | ok length =>
        simp only [bind, Except.bind, added]
        split <;> rfl
  · rw [continueArray, added]
    · rfl
    all_goals assumption

/-- A line or body is taken in as the decoder reads it. -/
theorem takeIn_nextPart? {pending : Pending} (valid : pending.Valid) (buffer : Bytes) :
    (pending.registers.nextPart? buffer).map (fun (part, next, rest) =>
        (part >>= next.takeIn, rest)) =
      (readUnit? pending buffer).map (Prod.map inRegisters id) := by
  cases pending with
  | idle =>
      simp only [nextPart?, Pending.registers, readUnit?, Option.map_map]
      rcases takeLine? buffer with _ | ⟨line | line, rest⟩
      · rfl
      · rfl
      · exact congrArg (fun result => some (result, rest)) (begin_idle line)
  | bulk length =>
      simp only [nextPart?, Pending.registers, readUnit?, Option.map_map]
      rcases takeBody? length buffer with _ | ⟨body | body, rest⟩ <;> rfl
  | array missing collected body? =>
      cases body? with
      | none =>
          simp only [nextPart?, Pending.registers, readUnit?, Option.map_map]
          rcases takeLine? buffer with _ | ⟨line | line, rest⟩
          · rfl
          · rfl
          · exact congrArg (fun result => some (result, rest)) (resume_array valid collected line)
      | some length =>
          simp only [nextPart?, Pending.registers, readUnit?, Option.map_map]
          rcases takeBody? length buffer with _ | ⟨body | body, rest⟩
          · rfl
          · rfl
          · exact congrArg (fun result => some (Except.ok result, rest))
              (takeFinished_array valid collected body)

/-- A step on what the registers hold is the step of the decoder. -/
theorem step?_registers {pending : Pending} (valid : pending.Valid) (buffer : Bytes) :
    pending.registers.step? buffer = (Decoder.advance? ⟨pending, buffer⟩).map fun step =>
      (step.1, step.2.pending.registers, step.2.buffer) := by
  have taken := congrArg (Option.map fun read => ((settle read.1).1, (settle read.1).2, read.2))
    (takeIn_nextPart? valid buffer)
  simp only [Option.map_map] at taken
  refine taken.trans ?_
  rw [Decoder.advance?, Option.map_map]
  refine congrFun (congrArg Option.map (funext fun read => ?_)) _
  obtain ⟨result, rest⟩ := read
  cases result <;> rfl

theorem drain_of_stuck {registers : Registers} {buffer : Bytes}
    (stuck : registers.step? buffer = none) :
    registers.drain buffer = ([], registers, buffer) := by
  rw [drain, decode_of_stuck stuck]

theorem drain_of_step {registers next : Registers} {buffer rest : Bytes} {item? : Option Item}
    (stepped : registers.step? buffer = some (item?, next, rest)) :
    registers.drain buffer =
      (item?.toList ++ (next.drain rest).1, (next.drain rest).2) := by
  cases item? with
  | none => rw [drain, decode_of_part stepped, drain]; rfl
  | some item => rw [drain, decode_of_item stepped]; rfl

theorem drain_registers (decoder : Decoder) (valid : decoder.pending.Valid) :
    decoder.pending.registers.drain decoder.buffer =
      (decoder.drain.1, decoder.drain.2.pending.registers, decoder.drain.2.buffer) := by
  induction decoder using Decoder.drain.induct with
  | case1 decoder stuck =>
      have still : decoder.pending.registers.step? decoder.buffer = none := by
        rw [step?_registers valid, stuck]
        rfl
      rw [drain_of_stuck still, Decoder.drain_of_stuck stuck]
  | case2 decoder item next advanced _ _ _ ih =>
      have stepped : decoder.pending.registers.step? decoder.buffer =
          some (item, next.pending.registers, next.buffer) := by
        rw [step?_registers valid, advanced]
        rfl
      rw [drain_of_step stepped, Decoder.drain_of_advance advanced,
        ih (Decoder.advance?_valid valid advanced)]

theorem feedAll_registers (decoder : Decoder) (valid : decoder.pending.Valid)
    (pieces : List Bytes) :
    decoder.pending.registers.feedAll decoder.buffer pieces =
      ((decoder.feedAll pieces).1, (decoder.feedAll pieces).2.pending.registers,
        (decoder.feedAll pieces).2.buffer) := by
  induction pieces generalizing decoder with
  | nil => rfl
  | cons piece pieces ih =>
      have drained := drain_registers ⟨decoder.pending, decoder.buffer ++ piece⟩ valid
      have further := ih _ (Decoder.drain_valid ⟨decoder.pending, decoder.buffer ++ piece⟩ valid)
      simp only [feedAll, drained, further]
      rfl

/-- Registers that are kept between pieces of a stream, wherever it is cut, find the items that the plain
reader finds in all of it, and so does the decoder. To either, a line is what stands in front of the
first line feed and a body has the length that was told for it, both are to end in the line terminator,
and a number is a signed word in any of its spellings. -/
theorem feedAll_eq_readAll (pieces : List Bytes) :
    (feedAll {} [] pieces).1 = readAll pieces.flatten ∧
      (Decoder.feedAll {} pieces).1 = readAll pieces.flatten ∧
      (∀ buffer line rest, takeLine? buffer = some (line, rest) ↔
        ∃ front, lf ∉ front ∧ buffer = front ++ lf :: rest ∧ Framed (front ++ [lf]) line) ∧
      (∀ length buffer body rest, takeBody? length buffer = some (body, rest) ↔
        ∃ chunk, chunk.length = length + 2 ∧ buffer = chunk ++ rest ∧ Framed chunk body) ∧
      (∀ header n, number header = .ok n ↔ Decimal.Spells (header.drop 1) n.toInt) ∧
      ∀ header fault, number header = .error fault ↔ fault = .invalidHeader (lossy header) ∧
        ∀ n : Int64, ¬ Decimal.Spells (header.drop 1) n.toInt := by
  have fresh : (Decoder.feedAll {} pieces).1 = readAll pieces.flatten := by
    have drained := Decoder.drain_eq_readOn ⟨.idle, pieces.flatten⟩ trivial
    rw [Decoder.feedAll_eq_feed rfl, ← readOn_idle]
    exact drained
  have kept : (feedAll {} [] pieces).1 = (Decoder.feedAll {} pieces).1 :=
    congrArg Prod.fst (feedAll_registers {} trivial pieces)
  exact ⟨kept.trans fresh, fresh, fun _ _ _ => takeLine?_eq_some_iff,
    fun _ _ _ _ => takeBody?_eq_some_iff, fun _ _ => number_eq_ok_iff,
    fun _ _ => number_eq_error_iff⟩

end Registers

end ShardStore
