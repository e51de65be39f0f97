import ShardStore.Proofs.Wire.Canonical
import ShardStore.Wire.Registers

namespace ShardStore

open Bytes Text Wire

namespace Registers

variable {registers next : Registers} {buffer rest : Bytes} {item? : Option Item}

/-- Whether a message is under way, and elements of it are missing. Of a bulk string the body is
missing, of which the length has been told. -/
structure UnderWay (registers : Registers) : Prop where
  inside : registers.inside = true
  missing : registers.collected.length < registers.expected
  bulk : registers.kind = 0x24 → registers.expected = 1 ∧ registers.collected = [] ∧
    registers.body?.isSome = true
  fits : ∀ length ∈ registers.body?, length ≤ maxLength

def Sound (registers : Registers) : Prop :=
  registers = {} ∨ registers.UnderWay

/-- A message that is complete is given out whole: a body, or all the elements. -/
theorem takeFinished_push (registers : Registers) (element : Bytes) :
    (registers.push element).takeFinished =
      if (registers.push element).isFinished = true then
        (some (if registers.kind = 0x24 then .bulk element
          else .ofList (registers.collected ++ [element])), {})
      else (none, registers.push element) := by
  rw [takeFinished]
  split
  · have last : (registers.push element).collected.getLast? = some element := by simp [push]
    rw [last]
    by_cases bulk : registers.kind = 0x24
    · rw [if_pos (show (registers.push element).kind = 0x24 from bulk), if_pos bulk]
      rfl
    · rw [if_neg (show ¬ (registers.push element).kind = 0x24 from bulk), if_neg bulk]
      rfl
  · rfl

/-- What taking in a line or body may come to: a fault, a message with nothing left of it, or more of
the message under way. -/
def Leaves : Except Fault (Option Message × Registers) → Prop
  | .error _ => True
  | .ok (some _, next) => next = {}
  | .ok (none, next) => next.UnderWay

theorem isFinished_push_iff (registers : Registers) (element : Bytes) :
    (registers.push element).isFinished = true ↔
      registers.collected.length + 1 = registers.expected := by
  simp only [isFinished, Bool.and_eq_true, decide_eq_true_eq, beq_iff_eq]
  simp only [push, List.length_append, List.length_singleton]
  omega

theorem UnderWay.push_bulk (underWay : registers.UnderWay) (bulk : registers.kind = 0x24)
    (element : Bytes) : (registers.push element).isFinished = true := by
  obtain ⟨single, none_yet, -⟩ := underWay.bulk bulk
  rw [isFinished_push_iff, single, none_yet]
  rfl

theorem UnderWay.push (underWay : registers.UnderWay) (element : Bytes) :
    Leaves (.ok (Registers.push { registers with body? := none } element).takeFinished) := by
  rw [takeFinished_push]
  split
  · rfl
  · next more =>
    have wanted : ¬ registers.collected.length + 1 = registers.expected :=
      fun last => more ((isFinished_push_iff _ element).mpr last)
    have missing := underWay.missing
    refine ⟨underWay.inside, ?_, fun bulk => ?_, fun length told => ?_⟩
    · simp only [Registers.push, List.length_append, List.length_singleton]
      omega
    · exact absurd (underWay.push_bulk bulk element) more
    · cases told

theorem nextPart?_registers {part : Except Fault Part}
    (read : registers.nextPart? buffer = some (part, next, rest)) :
    next = { registers with body? := none } := by
  unfold nextPart? at read
  split at read
  · obtain ⟨pair, -, same⟩ := Option.map_eq_some_iff.mp read
    cases same
    rfl
  · next waits =>
    obtain ⟨pair, -, same⟩ := Option.map_eq_some_iff.mp read
    cases same
    rw [← waits]

theorem begin_leaves (line : Bytes) : Leaves (begin {} line) := by
  unfold begin
  split
  · next content =>
    cases number (0x2A :: content) with
    | error fault => trivial
    | ok count =>
        simp only [bind, Except.bind]
        split
        · rfl
        split
        · rfl
        split
        · trivial
        · next zero _ negative =>
          exact ⟨rfl, positive_count zero negative, nofun, nofun⟩
  · next content =>
    cases number (0x24 :: content) with
    | error fault => trivial
    | ok length =>
        simp only [bind, Except.bind]
        split
        · rfl
        split
        · trivial
        · refine ⟨rfl, Nat.zero_lt_one, fun _ => ⟨rfl, rfl, rfl⟩, fun told same => ?_⟩
          cases same
          exact toNat_count_le length
  · split
    · rfl
    · split
      · rfl
      · rfl
  · rfl
  · next content =>
    cases number (0x3A :: content) with
    | error fault => trivial
    | ok n => rfl
  · trivial

theorem UnderWay.resume (underWay : registers.UnderWay) (waits : registers.body? = none)
    (line : Bytes) : Leaves (registers.resume line) := by
  have pushed : ∀ element, Leaves (.ok (registers.push element).takeFinished) := by
    have same : { registers with body? := none } = registers := by rw [← waits]
    have pushed := underWay.push
    rwa [same] at pushed
  unfold Registers.resume
  split
  · next content =>
    cases number (0x24 :: content) with
    | error fault => trivial
    | ok length =>
        simp only [bind, Except.bind]
        split
        · exact pushed []
        · refine ⟨underWay.inside, underWay.missing, fun bulk => ?_, fun told same => ?_⟩
          · obtain ⟨single, none_yet, -⟩ := underWay.bulk bulk
            exact ⟨single, none_yet, rfl⟩
          · cases same
            exact toNat_count_le length
  · exact pushed line

theorem Sound.takeIn (sound : registers.Sound) {part : Except Fault Part}
    (read : registers.nextPart? buffer = some (part, next, rest)) :
    Leaves (part >>= next.takeIn) := by
  cases part with
  | error fault => trivial
  | ok part =>
      unfold nextPart? at read
      split at read
      · next length told =>
        obtain ⟨⟨body, left⟩, -, same⟩ := Option.map_eq_some_iff.mp read
        cases body with
        | error fault => cases same
        | ok body =>
            cases same
            rcases sound with rfl | underWay
            · cases told
            · exact underWay.push body
      · next waits =>
        obtain ⟨⟨line, left⟩, -, same⟩ := Option.map_eq_some_iff.mp read
        cases line with
        | error fault => cases same
        | ok line =>
            cases same
            rcases sound with rfl | underWay
            · exact begin_leaves line
            · have resumed := underWay.resume waits line
              simpa only [bind, Except.bind, Registers.takeIn, underWay.inside, if_true]
                using resumed

theorem Sound.length_lt (sound : registers.Sound) {length : Nat}
    (told : length ∈ registers.body?) : length + 2 < UInt64.size := by
  rcases sound with rfl | underWay
  · cases told
  · have most := underWay.fits length told
    rw [maxLength] at most
    rw [UInt64.size]
    omega

/-- A round leaves the registers inside of a message, or with an item and as at the beginning. -/
theorem Sound.step (sound : registers.Sound)
    (stepped : registers.step? buffer = some (item?, next, rest)) :
    item? = none ∧ next.UnderWay ∨ item?.isSome = true ∧ next = {} := by
  obtain ⟨⟨part, middle, left⟩, read, same⟩ := Option.map_eq_some_iff.mp stepped
  have leaves := sound.takeIn read
  dsimp only at same
  generalize (part >>= middle.takeIn) = result at leaves same
  rcases result with fault | ⟨_ | message, last⟩
  · cases same
    exact .inr ⟨rfl, rfl⟩
  · cases same
    exact .inl ⟨rfl, leaves⟩
  · cases same
    exact .inr ⟨rfl, leaves⟩

theorem Sound.decode (sound : registers.Sound) (buffer : Bytes) :
    let read := registers.decode buffer
    read.2.1.Sound ∧ (read.1.isSome = true → read.2.1 = {}) := by
  induction registers, buffer using decode.induct with
  | case1 registers buffer stuck =>
      rw [decode_of_stuck stuck]
      exact ⟨sound, fun found => by cases found⟩
  | case2 registers buffer item next rest stepped =>
      rw [decode_of_item stepped]
      rcases sound.step stepped with ⟨none, -⟩ | ⟨-, cleared⟩
      · cases none
      · exact ⟨.inl cleared, fun _ => cleared⟩
  | case3 registers buffer next rest stepped ih =>
      rw [decode_of_part stepped]
      rcases sound.step stepped with ⟨-, underWay⟩ | ⟨found, -⟩
      · exact ih (.inr underWay)
      · cases found

/-- Whether a call for the next item comes by some registers and bytes: they are left by rounds that
complete nothing. -/
inductive Passes (registers : Registers) (buffer : Bytes) : Registers → Bytes → Prop
  | start : Passes registers buffer registers buffer
  | round {middle next : Registers} {left rest : Bytes}
      (passed : Passes registers buffer middle left)
      (stepped : middle.step? left = some (none, next, rest)) : Passes registers buffer next rest

theorem Passes.sound (passed : Passes registers buffer next rest) (sound : registers.Sound) :
    next.Sound := by
  induction passed with
  | start => exact sound
  | round _ stepped ih =>
      rcases ih.step stepped with ⟨-, underWay⟩ | ⟨found, -⟩
      · exact .inr underWay
      · cases found

/-- What happens to a reader: bytes arrive, or it is asked for the next item. -/
inductive Turn where
  | arrive (piece : Bytes)
  | decode
deriving Repr, DecidableEq

/-- The registers and the bytes that are not used behind a turn. -/
def turn (state : Registers × Bytes) : Turn → Registers × Bytes
  | .arrive piece => (state.1, state.2 ++ piece)
  | .decode => (state.1.decode state.2).2

theorem Sound.turn {state : Registers × Bytes} (sound : state.1.Sound) (turn : Turn) :
    (Registers.turn state turn).1.Sound := by
  cases turn with
  | arrive piece => exact sound
  | decode => exact (sound.decode state.2).1

theorem Sound.turns {state : Registers × Bytes} (sound : state.1.Sound) (turns : List Turn) :
    (turns.foldl Registers.turn state).1.Sound := by
  induction turns generalizing state with
  | nil => exact sound
  | cons turn turns ih => exact ih (sound.turn turn)

/-- However bytes arrive and items are asked for, behind each call the registers are as at the
beginning or inside of a message of which something is missing, and behind an item they are as at the
beginning. In every round of the call the end of a body that is waited for is within the range of a
word, and an element that completes a message is never lost: the body of a bulk string is the
message. -/
theorem turns_sound (turns : List Turn) :
    let state := turns.foldl turn ({}, [])
    let read := state.1.decode state.2
    (read.2.1 = {} ∨ read.2.1.UnderWay) ∧
    (read.1.isSome = true → read.2.1 = {}) ∧
    ∀ registers left, Passes state.1 state.2 registers left →
      (registers = {} ∨ registers.UnderWay) ∧
      (∀ length ∈ registers.body?, length + 2 < UInt64.size) ∧
      ∀ part next rest, registers.nextPart? left = some (.ok part, next, rest) → ∀ element,
        ((next.push element).isFinished = true →
          ∃ message, (next.push element).takeFinished = (some message, {})) ∧
        (next.kind = 0x24 → (next.push element).takeFinished = (some (.bulk element), {})) := by
  intro state read
  have standing : state.1.Sound := Sound.turns (.inl rfl) turns
  obtain ⟨sound, cleared⟩ := standing.decode state.2
  refine ⟨sound, cleared, fun registers left passed => ?_⟩
  have here := passed.sound standing
  refine ⟨here, fun length told => ?_,
    fun part next rest taken element => ⟨fun whole => ?_, fun bulk => ?_⟩⟩
  · exact here.length_lt told
  · exact ⟨_, by rw [takeFinished_push, if_pos whole]⟩
  · obtain rfl := nextPart?_registers taken
    rcases here with rfl | underWay
    · cases bulk
    · have whole : (push { registers with body? := none } element).isFinished = true :=
        underWay.push_bulk bulk element
      rw [takeFinished_push, if_pos whole, if_pos bulk]

/-- A bulk string of which the length has come, and a part of the body. -/
example :
    [.arrive [0x24, 0x33, 0x0D, 0x0A, 0x61], .decode, .arrive [0x62], .decode].foldl turn ({}, []) =
      ({ inside := true, expected := 1, kind := 0x24, body? := some 3 }, [0x61, 0x62]) := by
  decide +kernel

end Registers

end ShardStore
