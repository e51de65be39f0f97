import ShardStore.Proofs.Wire.Items
import ShardStore.Proofs.Wire.Resumption

namespace ShardStore

open Bytes Text Wire

/-- Whether an array under way, with the elements still missing, has room in memory. -/
def Pending.Room : Pending → Prop
  | .array missing collected _ =>
    0 < missing ∧ collected.length + missing ≤ maxLength ∧
      ∀ element ∈ collected, element.length ≤ maxLength
  | _ => True

namespace Wire

/-- Whether a message has room in memory and is in its normal form. -/
structure Settled (message : Message) : Prop where
  addressable : message.Addressable
  normal : message.normalize = message

/-- What reading a line or body that has room in memory may come to. -/
def Settles : Except Fault (Option Message × Pending) → Prop
  | .error _ => True
  | .ok (message?, pending) => (∀ message, message? = some message → Settled message) ∧ pending.Room

theorem settled_status {status : Bytes} (notOk : status ≠ [0x4F, 0x4B])
    (notPong : status ≠ [0x50, 0x4F, 0x4E, 0x47]) : Settled (.simple (lossy status)) := by
  refine ⟨trivial, Message.normalize_simple (fun same => notOk ?_) fun same => notPong ?_⟩
  · rw [← encode_of_lossy (by simp) same]
    decide +kernel
  · rw [← encode_of_lossy (by simp) same]
    decide +kernel

theorem toNat_count_le (count : Int64) : count.toInt.toNat ≤ maxLength := by
  have bound := Int64.toInt_le count
  rw [← maxLength_eq] at bound
  omega

theorem settles_message {message : Message} (settled : Settled message) :
    Settles (.ok (some message, .idle)) :=
  ⟨fun _ same => by cases same; exact settled, trivial⟩

theorem settles_part {pending : Pending} (room : pending.Room) : Settles (.ok (none, pending)) := by
  refine ⟨?_, room⟩
  intro message same
  cases same

theorem addElement_settles {missing : Nat} {collected : List Bytes} {element : Bytes}
    {body? : Option Nat} (room : Pending.Room (.array missing collected body?))
    (fits : element.length ≤ maxLength) : Settles (.ok (addElement missing collected element)) := by
  obtain ⟨wanted, count, fit⟩ := room
  have each : ∀ word ∈ element :: collected, word.length ≤ maxLength :=
    List.forall_mem_cons.mpr ⟨fits, fit⟩
  unfold addElement
  split
  · next last =>
    refine settles_message ⟨Message.addressable_ofList.mpr ⟨?_, fun word mem => ?_⟩,
      Message.normalize_ofList _⟩
    · rw [List.length_reverse, List.length_cons, ← last]
      exact count
    · exact each word (List.mem_reverse.mp mem)
  · next more =>
    refine settles_part ⟨by omega, ?_, each⟩
    rw [List.length_cons]
    omega

theorem start_settles (line : Bytes) : Settles (start line) := by
  unfold start
  split
  · next content =>
    cases number (0x2A :: content) with
    | error fault => trivial
    | ok count =>
        simp only [bind, Except.bind]
        split
        · refine settles_message ⟨⟨?_, ?_⟩, rfl⟩
          · exact Nat.zero_le _
          · intro bytes mem
            cases mem
        split
        · exact settles_message ⟨trivial, rfl⟩
        split
        · trivial
        · next zero _ negative =>
          refine settles_part ⟨positive_count zero negative, ?_, ?_⟩
          · rw [List.length_nil, Nat.zero_add]
            exact toNat_count_le count
          · intro element mem
            cases mem
  · next content =>
    cases number (0x24 :: content) with
    | error fault => trivial
    | ok length =>
        simp only [bind, Except.bind]
        split
        · exact settles_message ⟨trivial, rfl⟩
        split
        · trivial
        · exact settles_part trivial
  · split
    · exact settles_message ⟨trivial, rfl⟩
    · split
      · exact settles_message ⟨trivial, rfl⟩
      · next notOk notPong => exact settles_message (settled_status notOk notPong)
  · exact settles_message ⟨trivial, rfl⟩
  · next content =>
    cases number (0x3A :: content) with
    | error fault => trivial
    | ok n => exact settles_message ⟨trivial, rfl⟩
  · trivial

theorem continueArray_settles {missing : Nat} {collected : List Bytes} {line : Bytes}
    (room : Pending.Room (.array missing collected none)) (fits : line.length ≤ maxLength) :
    Settles (continueArray missing collected line) := by
  unfold continueArray
  split
  · next content =>
    cases number (0x24 :: content) with
    | error fault => trivial
    | ok length =>
        simp only [bind, Except.bind]
        split
        · exact addElement_settles room (Nat.zero_le _)
        · exact settles_part room
  · exact addElement_settles room fits

theorem takeLine?_fits {buffer line rest : Bytes}
    (taken : takeLine? buffer = some (.ok line, rest)) : line.length ≤ buffer.length := by
  obtain ⟨chunk, split, stripped⟩ := takeLine?_eq taken
  rw [split, stripTerminator_eq_ok stripped.symm]
  simp only [List.length_append]
  omega

theorem takeBody?_fits {length : Nat} {buffer body rest : Bytes}
    (taken : takeBody? length buffer = some (.ok body, rest)) : body.length ≤ buffer.length := by
  obtain ⟨chunk, split, -, stripped⟩ := takeBody?_eq taken
  rw [split, stripTerminator_eq_ok stripped.symm]
  simp only [List.length_append]
  omega

theorem readUnit?_settles {pending : Pending} {buffer rest : Bytes}
    {result : Except Fault (Option Message × Pending)} (room : pending.Room)
    (fits : buffer.length ≤ maxLength) (read : readUnit? pending buffer = some (result, rest)) :
    Settles result := by
  rcases result with fault | ⟨message, next⟩
  · trivial
  have inside := Decoder.readUnit?_ok read
  cases pending with
  | idle =>
      obtain ⟨line, -, started⟩ := inside
      rw [← started]
      exact start_settles line
  | bulk length =>
      obtain ⟨body, taken, rfl, rfl⟩ := inside
      exact settles_message ⟨Nat.le_trans (takeBody?_fits taken) fits, rfl⟩
  | array missing collected body? =>
      cases body? with
      | none =>
          obtain ⟨line, taken, continued⟩ := inside
          rw [← continued]
          exact continueArray_settles room (Nat.le_trans (takeLine?_fits taken) fits)
      | some length =>
          obtain ⟨body, taken, added⟩ := inside
          rw [← added]
          exact addElement_settles room (Nat.le_trans (takeBody?_fits taken) fits)

end Wire

namespace Decoder

/-- Whether what a decoder keeps has room in memory. -/
structure Fits (decoder : Decoder) : Prop where
  room : decoder.pending.Room
  buffer : decoder.buffer.length ≤ maxLength

theorem advance?_settled {decoder next : Decoder} {item? : Option Item} (fits : decoder.Fits)
    (advanced : decoder.advance? = some (item?, next)) :
    next.Fits ∧ ∀ item, item? = some item → ∀ message, item = .ok message → Settled message := by
  have shorter : next.buffer.length ≤ maxLength :=
    Nat.le_trans (Nat.le_of_lt (advance?_length advanced)) fits.buffer
  obtain ⟨⟨result, rest⟩, read, same⟩ := Option.map_eq_some_iff.mp advanced
  have settles := readUnit?_settles fits.room fits.buffer read
  rcases result with fault | ⟨message?, pending⟩
  · cases same
    refine ⟨⟨trivial, shorter⟩, ?_⟩
    rintro item found message rfl
    cases found
  · cases same
    refine ⟨⟨settles.2, shorter⟩, ?_⟩
    rintro item found message rfl
    obtain ⟨other, held, same⟩ := Option.map_eq_some_iff.mp found
    cases same
    exact settles.1 message held

theorem settled_of_mem_drain {decoder : Decoder} (fits : decoder.Fits) {message : Message}
    (found : .ok message ∈ decoder.drain.1) : Settled message :=
  (drain_keeps advance?_settled fits).2 _ found message rfl

theorem plain_of_mem_feedAll {pieces : List Bytes} {message : Message}
    (room : pieces.flatten.length ≤ maxLength) (found : .ok message ∈ (feedAll {} pieces).1) :
    message.Plain := by
  have oneLine : message.OneLine := readable_of_mem_feedAll found
  rw [feedAll_eq_feed rfl] at found
  have fits : Fits ⟨.idle, pieces.flatten⟩ := ⟨trivial, room⟩
  have settled : Settled message := settled_of_mem_drain fits found
  exact ⟨oneLine, settled.addressable, settled.normal⟩

/-- A message that is found in bytes, wherever they are cut, is the only thing that is found in what is
written for it, and none of that is left over. The bytes are not longer than memory. -/
theorem feed_found {pieces : List Bytes} {message : Message}
    (room : pieces.flatten.length ≤ maxLength) (found : .ok message ∈ (feedAll {} pieces).1) :
    feed {} (Wire.encode message) = ([.ok message], {}) :=
  feed_plain (plain_of_mem_feedAll room found)

/-- An element of a negative length and one without a length: what is found is written with both lengths,
and found again. -/
theorem feed_found_without_lengths :
    let pieces : List Bytes :=
      [[0x2A, 0x32, 0x0D], [0x0A, 0x24, 0x2D, 0x35, 0x0D, 0x0A, 0x61, 0x0D, 0x0A]]
    let message : Message := .ofList [[], [0x61]]
    pieces.flatten.length ≤ maxLength ∧ .ok message ∈ (feedAll {} pieces).1 ∧
      feed {} (Wire.encode message) = ([.ok message], {}) := by
  intro pieces message
  have room : pieces.flatten.length ≤ maxLength := by decide
  have header : advance? ⟨.idle, pieces.flatten⟩ =
      some (none, ⟨.array 2 [] none, pieces.flatten.drop 4⟩) := rfl
  have first : advance? ⟨.array 2 [] none, pieces.flatten.drop 4⟩ =
      some (none, ⟨.array 1 [[]] none, [0x61, 0x0D, 0x0A]⟩) := rfl
  have second : advance? ⟨.array 1 [[]] none, [0x61, 0x0D, 0x0A]⟩ =
      some (some (.ok message), {}) := rfl
  have read : drain ⟨.idle, pieces.flatten⟩ = ([.ok message], {}) := by
    rw [drain_of_advance header, drain_of_advance first, drain_of_advance second, drain_nil]
    rfl
  have found : .ok message ∈ (feedAll {} pieces).1 := by
    rw [feedAll_eq_feed rfl, show feed {} pieces.flatten = drain ⟨.idle, pieces.flatten⟩ from rfl,
      read]
    exact List.mem_cons_self
  exact ⟨room, found, feed_found room found⟩

end Decoder

end ShardStore
