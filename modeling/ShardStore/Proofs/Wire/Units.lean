import ShardStore.Proofs.Text.Decimal
import ShardStore.Wire.Decoder
import ShardStore.Wire.Encoding

namespace ShardStore

open Bytes Text

theorem bind_eq_ok {ε α β : Type} {first : Except ε α} {next : α → Except ε β} {result : β}
    (done : first >>= next = .ok result) : ∃ a, first = .ok a ∧ next a = .ok result := by
  cases first with
  | error cause => cases done
  | ok a => exact ⟨a, rfl, done⟩

/-- The greatest length of anything in memory, which is the greatest signed word. -/
def maxLength : Nat := 9223372036854775807

theorem maxLength_eq : (maxLength : Int) = Int64.maxValue.toInt := by decide

/-- Whether a command line has room in memory, where each of its words takes some bytes. -/
def CommandLine.Addressable (line : CommandLine) : Prop :=
  line.length < maxLength ∧ ∀ word ∈ line, word.length ≤ maxLength

namespace Wire

theorem splitLine?_line {content : Bytes} (unbroken : lf ∉ content) (rest : Bytes) :
    splitLine? (content ++ lf :: rest) = some (content ++ [lf], rest) := by
  induction content with
  | nil => simp [splitLine?]
  | cons b content ih =>
      have differs : b ≠ lf := fun same => unbroken (by simp [same])
      have tail := ih fun mem => unbroken (by simp [mem])
      simp only [List.cons_append, splitLine?, if_neg differs, tail, Option.map_some]

theorem splitLine?_append {bytes head rest : Bytes} (split : splitLine? bytes = some (head, rest))
    (more : Bytes) : splitLine? (bytes ++ more) = some (head, rest ++ more) := by
  induction bytes generalizing head with
  | nil => cases split
  | cons b bytes ih =>
      simp only [List.cons_append, splitLine?] at split ⊢
      by_cases feed : b = lf
      · rw [if_pos feed] at split ⊢
        cases split
        rfl
      · rw [if_neg feed] at split ⊢
        obtain ⟨⟨front, back⟩, found, same⟩ := Option.map_eq_some_iff.mp split
        cases same
        rw [ih found, Option.map_some]

theorem splitLine?_eq {bytes head rest : Bytes} (split : splitLine? bytes = some (head, rest)) :
    bytes = head ++ rest := by
  induction bytes generalizing head with
  | nil => cases split
  | cons b bytes ih =>
      simp only [splitLine?] at split
      by_cases feed : b = lf
      · rw [if_pos feed] at split
        cases split
        rfl
      · rw [if_neg feed] at split
        obtain ⟨⟨front, back⟩, found, same⟩ := Option.map_eq_some_iff.mp split
        cases same
        rw [ih found, List.cons_append]

theorem splitLine?_front {bytes head rest : Bytes} (split : splitLine? bytes = some (head, rest)) :
    ∃ front, head = front ++ [lf] ∧ lf ∉ front := by
  induction bytes generalizing head with
  | nil => cases split
  | cons b bytes ih =>
      simp only [splitLine?] at split
      by_cases feed : b = lf
      · rw [if_pos feed] at split
        cases split
        exact ⟨[], by rw [feed]; rfl, List.not_mem_nil⟩
      · rw [if_neg feed] at split
        obtain ⟨⟨chunk, tail⟩, found, same⟩ := Option.map_eq_some_iff.mp split
        cases same
        obtain ⟨front, rfl, unbroken⟩ := ih found
        refine ⟨b :: front, rfl, ?_⟩
        simp only [List.mem_cons, not_or]
        exact ⟨Ne.symm feed, unbroken⟩

/-- What a chunk holds that should end in the line terminator. -/
def Framed (chunk : Bytes) : Except Fault Bytes → Prop
  | .ok content => chunk = content ++ crlf
  | .error fault => ¬ crlf <:+ chunk ∧ fault = .missingTerminator (lossy chunk)

theorem stripTerminator_crlf (content : Bytes) :
    stripTerminator (content ++ crlf) = .ok content := by
  simp [stripTerminator, crlf, cr, lf]

theorem stripTerminator_eq_ok {chunk content : Bytes} (stripped : stripTerminator chunk = .ok content) :
    chunk = content ++ crlf := by
  unfold stripTerminator at stripped
  split at stripped
  · next front reversed =>
    cases stripped
    have whole := congrArg List.reverse reversed
    rw [List.reverse_reverse] at whole
    rw [whole]
    simp [crlf, cr, lf]
  · cases stripped

theorem stripTerminator_eq_error {chunk : Bytes} {fault : Fault}
    (stripped : stripTerminator chunk = .error fault) : fault = .missingTerminator (lossy chunk) := by
  unfold stripTerminator at stripped
  split at stripped
  · cases stripped
  · exact (Except.error.inj stripped).symm

theorem stripTerminator_framed (chunk : Bytes) : Framed chunk (stripTerminator chunk) := by
  cases stripped : stripTerminator chunk with
  | ok content => exact stripTerminator_eq_ok stripped
  | error fault =>
      refine ⟨?_, stripTerminator_eq_error stripped⟩
      rintro ⟨content, rfl⟩
      rw [stripTerminator_crlf] at stripped
      cases stripped

theorem stripTerminator_eq_iff {chunk : Bytes} {held : Except Fault Bytes} :
    stripTerminator chunk = held ↔ Framed chunk held := by
  refine ⟨fun same => same ▸ stripTerminator_framed chunk, fun framed => ?_⟩
  cases held with
  | ok content =>
      rw [show chunk = content ++ crlf from framed]
      exact stripTerminator_crlf content
  | error fault =>
      obtain ⟨broken, rfl⟩ := framed
      cases stripped : stripTerminator chunk with
      | ok content => exact absurd ⟨content, (stripTerminator_eq_ok stripped).symm⟩ broken
      | error other => rw [stripTerminator_eq_error stripped]

theorem takeLine?_line {content : Bytes} (unbroken : lf ∉ content) (rest : Bytes) :
    takeLine? (content ++ crlf ++ rest) = some (.ok content, rest) := by
  have carriage : lf ∉ content ++ [cr] := by
    simp only [List.mem_append, List.mem_singleton, not_or]
    exact ⟨unbroken, by decide⟩
  have split := splitLine?_line carriage rest
  have whole : content ++ [cr] ++ [lf] = content ++ crlf := by simp [crlf]
  have same : content ++ crlf ++ rest = content ++ [cr] ++ lf :: rest := by simp [crlf]
  simp only [takeLine?, same, split, Option.map_some, whole, stripTerminator_crlf]

theorem takeLine?_append {buffer rest : Bytes} {line : Except Fault Bytes}
    (taken : takeLine? buffer = some (line, rest)) (more : Bytes) :
    takeLine? (buffer ++ more) = some (line, rest ++ more) := by
  obtain ⟨⟨chunk, tail⟩, split, same⟩ := Option.map_eq_some_iff.mp taken
  cases same
  rw [takeLine?, splitLine?_append split, Option.map_some]

theorem takeLine?_eq {buffer rest : Bytes} {line : Except Fault Bytes}
    (taken : takeLine? buffer = some (line, rest)) :
    ∃ chunk, buffer = chunk ++ rest ∧ line = stripTerminator chunk := by
  obtain ⟨⟨chunk, tail⟩, split, same⟩ := Option.map_eq_some_iff.mp taken
  cases same
  exact ⟨chunk, splitLine?_eq split, rfl⟩

/-- A line goes up to the first line feed. -/
theorem takeLine?_eq_some_iff {buffer rest : Bytes} {line : Except Fault Bytes} :
    takeLine? buffer = some (line, rest) ↔
      ∃ front, lf ∉ front ∧ buffer = front ++ lf :: rest ∧ Framed (front ++ [lf]) line := by
  constructor
  · intro taken
    obtain ⟨⟨chunk, tail⟩, split, same⟩ := Option.map_eq_some_iff.mp taken
    obtain ⟨stripped, rfl⟩ := Prod.mk.inj same
    obtain ⟨front, rfl, unbroken⟩ := splitLine?_front split
    refine ⟨front, unbroken, ?_, stripTerminator_eq_iff.mp stripped⟩
    rw [splitLine?_eq split, List.append_assoc]
    rfl
  · rintro ⟨front, unbroken, rfl, framed⟩
    rw [takeLine?, splitLine?_line unbroken, Option.map_some]
    exact congrArg (fun line => some (line, rest)) (stripTerminator_eq_iff.mpr framed)

theorem takeBody?_of_le {length : Nat} {buffer : Bytes} (enough : length + 2 ≤ buffer.length) :
    takeBody? length buffer =
      some (stripTerminator (buffer.take (length + 2)), buffer.drop (length + 2)) := by
  have whole : ¬ (buffer.take (length + 2)).length < length + 2 := by
    rw [List.length_take]
    omega
  simp only [takeBody?, splitExactly?, List.splitAt_eq, if_neg whole, Option.map_some]

theorem takeBody?_eq_none {length : Nat} {buffer : Bytes} (short : buffer.length < length + 2) :
    takeBody? length buffer = none := by
  have partly : (buffer.take (length + 2)).length < length + 2 := by
    rw [List.length_take]
    omega
  simp only [takeBody?, splitExactly?, List.splitAt_eq, if_pos partly, Option.map_none]

theorem takeBody?_body (body rest : Bytes) :
    takeBody? body.length (body ++ crlf ++ rest) = some (.ok body, rest) := by
  have width : (body ++ crlf).length = body.length + 2 := by simp [crlf]
  rw [takeBody?_of_le (by simp only [List.length_append] at width ⊢; omega), ← width,
    List.take_left, List.drop_left, stripTerminator_crlf]

theorem takeBody?_append {length : Nat} {buffer rest : Bytes} {body : Except Fault Bytes}
    (taken : takeBody? length buffer = some (body, rest)) (more : Bytes) :
    takeBody? length (buffer ++ more) = some (body, rest ++ more) := by
  by_cases enough : length + 2 ≤ buffer.length
  · rw [takeBody?_of_le enough] at taken
    cases taken
    rw [takeBody?_of_le (by simp only [List.length_append]; omega),
      List.take_append_of_le_length enough, List.drop_append_of_le_length enough]
  · rw [takeBody?_eq_none (by omega)] at taken
    cases taken

theorem takeBody?_eq {length : Nat} {buffer rest : Bytes} {body : Except Fault Bytes}
    (taken : takeBody? length buffer = some (body, rest)) :
    ∃ chunk, buffer = chunk ++ rest ∧ chunk.length = length + 2 ∧ body = stripTerminator chunk := by
  by_cases enough : length + 2 ≤ buffer.length
  · rw [takeBody?_of_le enough] at taken
    cases taken
    refine ⟨_, (List.take_append_drop _ _).symm, ?_, rfl⟩
    rw [List.length_take]
    omega
  · rw [takeBody?_eq_none (by omega)] at taken
    cases taken

/-- A body takes its length in bytes and two more. -/
theorem takeBody?_eq_some_iff {length : Nat} {buffer rest : Bytes} {body : Except Fault Bytes} :
    takeBody? length buffer = some (body, rest) ↔
      ∃ chunk, chunk.length = length + 2 ∧ buffer = chunk ++ rest ∧ Framed chunk body := by
  constructor
  · intro taken
    obtain ⟨chunk, split, width, stripped⟩ := takeBody?_eq taken
    exact ⟨chunk, width, split, stripTerminator_eq_iff.mp stripped.symm⟩
  · rintro ⟨chunk, width, rfl, framed⟩
    rw [takeBody?_of_le (by rw [List.length_append]; omega), ← width, List.take_left,
      List.drop_left, stripTerminator_eq_iff.mpr framed]

theorem number_eq_ok_iff {header : Bytes} {n : Int64} :
    number header = .ok n ↔ Decimal.Spells (header.drop 1) n.toInt := by
  rw [← Decimal.int64?_eq_some_iff, number]
  cases Decimal.int64? (header.drop 1) with
  | none => simp
  | some m => simp

theorem number_eq_error_iff {header : Bytes} {fault : Fault} :
    number header = .error fault ↔ fault = .invalidHeader (lossy header) ∧
      ∀ n : Int64, ¬ Decimal.Spells (header.drop 1) n.toInt := by
  simp only [← Decimal.int64?_eq_some_iff, number]
  cases Decimal.int64? (header.drop 1) with
  | none => simp [eq_comm]
  | some m => simp

theorem number_ofNat (sigil : UInt8) {n : Nat} (fits : n ≤ maxLength) :
    number (sigil :: Decimal.ofNat n) = .ok (Int64.ofInt n) := by
  have word : (n : Int) ≤ Int64.maxValue.toInt := by
    rw [← maxLength_eq]
    exact_mod_cast fits
  rw [number, List.drop_succ_cons, List.drop_zero, Decimal.int64?_ofNat word]

theorem number_ofInt (sigil : UInt8) (n : Int64) :
    number (sigil :: Decimal.ofInt n.toInt) = .ok n := by
  rw [number, List.drop_succ_cons, List.drop_zero, Decimal.int64?_ofInt]

theorem toInt_count {n : Nat} (fits : n ≤ maxLength) : (Int64.ofInt (n : Int)).toInt = n := by
  unfold maxLength at fits
  exact Int64.toInt_ofInt_of_le (by omega) (by omega)

theorem count_not_negative {n : Nat} (fits : n ≤ maxLength) : ¬ Int64.ofInt (n : Int) < 0 := by
  rw [Int64.lt_iff_toInt_lt, toInt_count fits]
  exact Int.not_lt.mpr (Int.natCast_nonneg n)

theorem count_ne_minus_one {n : Nat} (fits : n ≤ maxLength) : Int64.ofInt (n : Int) ≠ -1 := by
  intro same
  have value := toInt_count fits
  rw [same] at value
  have : (-1 : Int64).toInt = -1 := by decide
  omega

theorem count_eq_zero_iff {n : Nat} (fits : n ≤ maxLength) : Int64.ofInt (n : Int) = 0 ↔ n = 0 := by
  rw [← Int64.toInt_inj, toInt_count fits, show (0 : Int64).toInt = 0 by decide]
  exact Int.natCast_eq_zero

theorem lf_not_mem_ofNat (n : Nat) : lf ∉ Decimal.ofNat n := fun mem =>
  absurd (Decimal.isDigit_of_mem_ofNat mem) (by decide)

theorem lf_not_mem_ofInt (n : Int) : lf ∉ Decimal.ofInt n := by
  unfold Decimal.ofInt
  split
  · simp only [List.mem_cons, not_or]
    exact ⟨by decide, lf_not_mem_ofNat n.natAbs⟩
  · exact lf_not_mem_ofNat n.natAbs

theorem takeLine?_header {sigil : UInt8} (visible : sigil ≠ lf) (n : Nat) (rest : Bytes) :
    takeLine? (header sigil n ++ rest) = some (.ok (sigil :: Decimal.ofNat n), rest) := by
  have unbroken : lf ∉ sigil :: Decimal.ofNat n := by
    simp only [List.mem_cons, not_or]
    exact ⟨visible.symm, lf_not_mem_ofNat n⟩
  exact takeLine?_line unbroken rest

/-- Bytes that come later do not change what is read from those that are there. -/
theorem readUnit?_append {pending : Pending} {buffer rest : Bytes}
    {result : Except Fault (Option Message × Pending)}
    (read : readUnit? pending buffer = some (result, rest)) (more : Bytes) :
    readUnit? pending (buffer ++ more) = some (result, rest ++ more) := by
  unfold readUnit? at read ⊢
  cases pending with
  | idle =>
      obtain ⟨⟨line, tail⟩, taken, same⟩ := Option.map_eq_some_iff.mp read
      cases same
      simp only [takeLine?_append taken, Option.map_some, Prod.map, id]
  | bulk length =>
      obtain ⟨⟨body, tail⟩, taken, same⟩ := Option.map_eq_some_iff.mp read
      cases same
      simp only [takeBody?_append taken, Option.map_some, Prod.map, id]
  | array missing collected body? =>
      cases body? with
      | none =>
          obtain ⟨⟨line, tail⟩, taken, same⟩ := Option.map_eq_some_iff.mp read
          cases same
          simp only [takeLine?_append taken, Option.map_some, Prod.map, id]
      | some length =>
          obtain ⟨⟨body, tail⟩, taken, same⟩ := Option.map_eq_some_iff.mp read
          cases same
          simp only [takeBody?_append taken, Option.map_some, Prod.map, id]

end Wire

namespace Decoder

open Wire

theorem advance?_of_read {pending next : Pending} {buffer rest : Bytes} {message : Option Message}
    (read : readUnit? pending buffer = some (.ok (message, next), rest)) :
    Decoder.advance? ⟨pending, buffer⟩ = some (message.map .ok, ⟨next, rest⟩) := by
  simp only [advance?, read, Option.map_some]

theorem advance?_of_fault {pending : Pending} {buffer rest : Bytes} {fault : Fault}
    (read : readUnit? pending buffer = some (.error fault, rest)) :
    Decoder.advance? ⟨pending, buffer⟩ = some (some (.error fault), ⟨.idle, rest⟩) := by
  simp only [advance?, read, Option.map_some]

theorem advance?_append {decoder next : Decoder} {item : Option Item}
    (advanced : decoder.advance? = some (item, next)) (more : Bytes) :
    advance? { decoder with buffer := decoder.buffer ++ more } =
      some (item, { next with buffer := next.buffer ++ more }) := by
  obtain ⟨⟨result, rest⟩, read, same⟩ := Option.map_eq_some_iff.mp advanced
  have further := readUnit?_append read more
  cases result with
  | error fault => cases same; exact advance?_of_fault further
  | ok pair => cases same; exact advance?_of_read further

theorem drain_of_advance {decoder next : Decoder} {item : Option Item}
    (advanced : decoder.advance? = some (item, next)) :
    decoder.drain = (item.toList ++ next.drain.1, next.drain.2) := by
  rw [drain]
  split
  · next stuck => rw [advanced] at stuck; cases stuck
  · next other after found =>
    rw [advanced] at found
    cases found
    rfl

theorem drain_of_stuck {decoder : Decoder} (stuck : decoder.advance? = none) :
    decoder.drain = ([], decoder) := by
  rw [drain]
  split
  · rfl
  · next item next advanced => rw [stuck] at advanced; cases advanced

theorem drain_stuck (decoder : Decoder) : decoder.drain.2.advance? = none := by
  induction decoder using drain.induct with
  | case1 decoder stuck =>
      rw [drain_of_stuck stuck]
      exact stuck
  | case2 decoder item next advanced _ _ _ ih =>
      rw [drain_of_advance advanced]
      exact ih

/-- What every step keeps is kept to the end, and what every step knows of its item holds of all. -/
theorem drain_keeps {Kept : Decoder → Prop} {Found : Item → Prop}
    (step : ∀ {decoder next : Decoder} {item? : Option Item}, Kept decoder →
      decoder.advance? = some (item?, next) → Kept next ∧ ∀ item, item? = some item → Found item)
    {decoder : Decoder} (kept : Kept decoder) :
    Kept decoder.drain.2 ∧ ∀ item ∈ decoder.drain.1, Found item := by
  induction decoder using drain.induct with
  | case1 decoder stuck =>
      rw [drain_of_stuck stuck]
      exact ⟨kept, fun item mem => by cases mem⟩
  | case2 decoder item? next advanced _ _ _ ih =>
      obtain ⟨keptNext, here⟩ := step kept advanced
      obtain ⟨keptLast, later⟩ := ih keptNext
      rw [drain_of_advance advanced]
      refine ⟨keptLast, fun item mem => ?_⟩
      rcases List.mem_append.mp mem with now | behind
      · exact here item (Option.mem_toList.mp now)
      · exact later item behind

/-- Reading can stop anywhere and go on when more bytes are there. -/
theorem drain_append (decoder : Decoder) (more : Bytes) :
    drain { decoder with buffer := decoder.buffer ++ more } =
      (decoder.drain.1 ++ (decoder.drain.2.feed more).1, (decoder.drain.2.feed more).2) := by
  induction decoder using drain.induct with
  | case1 decoder stuck => rw [drain_of_stuck stuck]; rfl
  | case2 decoder item next advanced _ _ _ ih =>
      rw [drain_of_advance (advance?_append advanced more), drain_of_advance advanced, ih,
        List.append_assoc]

theorem feed_append (decoder : Decoder) (piece more : Bytes) :
    decoder.feed (piece ++ more) =
      ((decoder.feed piece).1 ++ ((decoder.feed piece).2.feed more).1,
        ((decoder.feed piece).2.feed more).2) := by
  have reading := drain_append { decoder with buffer := decoder.buffer ++ piece } more
  rw [feed, ← List.append_assoc, reading]
  rfl

theorem feed_stuck (decoder : Decoder) (piece : Bytes) : (decoder.feed piece).2.advance? = none :=
  drain_stuck _

/-- A decoder that needs more bytes is not moved by none. -/
theorem feed_nil {decoder : Decoder} (stuck : decoder.advance? = none) :
    decoder.feed [] = ([], decoder) := by
  rw [feed, List.append_nil]
  exact drain_of_stuck stuck

/-- Pieces are read as if all their bytes had come at once. -/
theorem feedAll_eq_feed {decoder : Decoder} (stuck : decoder.advance? = none)
    (pieces : List Bytes) : decoder.feedAll pieces = decoder.feed pieces.flatten := by
  induction pieces generalizing decoder with
  | nil => exact (feed_nil stuck).symm
  | cons piece pieces ih =>
      rw [List.flatten_cons, feed_append, ← ih (feed_stuck decoder piece)]
      rfl

theorem feedAll_stuck {decoder : Decoder} (stuck : decoder.advance? = none) (pieces : List Bytes) :
    (decoder.feedAll pieces).2.advance? = none := by
  rw [feedAll_eq_feed stuck]
  exact feed_stuck decoder pieces.flatten

/-- Where bytes are cut into pieces changes neither what is read from them, nor what is left of them
unread, nor what is read from any bytes that come later, however these are cut. -/
theorem feedAll_cut_invariant {left right : List Bytes} (same : left.flatten = right.flatten) :
    let first := feedAll {} left
    let second := feedAll {} right
    first.1 = second.1 ∧ first.2.buffer = second.2.buffer ∧
      ∀ later other : List Bytes, later.flatten = other.flatten →
        (first.2.feedAll later).1 = (second.2.feedAll other).1 := by
  intro first second
  have fresh : advance? {} = none := rfl
  have alike : first = second := by
    simp only [first, second, feedAll_eq_feed fresh, same]
  refine ⟨congrArg Prod.fst alike, congrArg (·.2.buffer) alike, fun later other sameLater => ?_⟩
  have waits : second.2.advance? = none := feedAll_stuck fresh right
  rw [alike, feedAll_eq_feed waits, feedAll_eq_feed waits, sameLater]

/-- A cut in a length and one in a terminator: the array is read at the same place in the stream. -/
theorem feedAll_cut_invariant_inside_a_length :
    let left : List Bytes := [[0x2A, 0x31, 0x0D], [0x0A, 0x24], [], [0x31, 0x0D, 0x0A, 0x6B, 0x0D]]
    let right : List Bytes := [[0x2A, 0x31, 0x0D, 0x0A, 0x24, 0x31], [0x0D, 0x0A, 0x6B, 0x0D]]
    let first := feedAll {} left
    let second := feedAll {} right
    left.flatten = right.flatten ∧ first.1 = second.1 ∧ first.2.buffer = second.2.buffer ∧
      ∀ later other : List Bytes, later.flatten = other.flatten →
        (first.2.feedAll later).1 = (second.2.feedAll other).1 :=
  ⟨rfl, feedAll_cut_invariant rfl⟩

end Decoder

end ShardStore
