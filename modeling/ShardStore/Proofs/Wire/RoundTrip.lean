import ShardStore.Proofs.Text.Utf8
import ShardStore.Proofs.Wire.Units

namespace ShardStore

open Bytes Text

namespace Message

/-- Whether the text of a message, if it has one, stays on the line it is written on. -/
def OneLine : Message → Prop
  | .simple text => '\n' ∉ text.toList
  | .error text => '\n' ∉ text.toList
  | _ => True

/-- Whether a message has room in memory. -/
def Addressable : Message → Prop
  | .bulk bytes => bytes.length ≤ maxLength
  | .array elements =>
    elements.length ≤ maxLength ∧ ∀ bytes, some bytes ∈ elements → bytes.length ≤ maxLength
  | _ => True

theorem addressable_ofList {line : CommandLine} :
    (ofList line).Addressable ↔ line.length ≤ maxLength ∧ ∀ word ∈ line, word.length ≤ maxLength := by
  simp [ofList, Addressable]

theorem addressable_of_line {line : CommandLine} (room : line.Addressable) :
    (ofList line).Addressable :=
  addressable_ofList.mpr ⟨Nat.le_of_lt room.1, room.2⟩

/-- Whether a message is read as what it was when it was written. -/
structure Plain (message : Message) : Prop where
  oneLine : message.OneLine
  addressable : message.Addressable
  normal : message.normalize = message

theorem normalize_simple {text : String} (notOk : text ≠ "OK") (notPong : text ≠ "PONG") :
    (simple text).normalize = simple text := by
  unfold normalize
  split
  · next same => cases same; exact absurd rfl notOk
  · next same => cases same; exact absurd rfl notPong
  · next same => cases same
  · rfl

theorem normalize_ofList (elements : List Bytes) :
    (ofList elements).normalize = ofList elements := by
  simp [ofList, normalize, Function.comp_def]

theorem plain_ofList {line : CommandLine} (room : (ofList line).Addressable) :
    (ofList line).Plain :=
  ⟨trivial, room, normalize_ofList line⟩

theorem plain_ofBytes? {value? : Option Bytes}
    (room : ∀ value, value? = some value → value.length ≤ maxLength) : (ofBytes? value?).Plain := by
  cases value? with
  | none => exact ⟨trivial, trivial, rfl⟩
  | some value => exact ⟨trivial, room value rfl, rfl⟩

theorem plain_ok : ok.Plain :=
  ⟨trivial, trivial, rfl⟩

theorem plain_ofNat (n : Nat) : (ofNat n).Plain :=
  ⟨trivial, trivial, rfl⟩

end Message

namespace Decoder

open Wire

theorem drain_line (content : Bytes) {message : Message} (unbroken : lf ∉ content)
    (whole : start content = .ok (some message, .idle)) (rest : Bytes) :
    drain ⟨.idle, content ++ crlf ++ rest⟩ =
      (.ok message :: (drain ⟨.idle, rest⟩).1, (drain ⟨.idle, rest⟩).2) := by
  have read : readUnit? .idle (content ++ crlf ++ rest) =
      some (.ok (some message, .idle), rest) := by
    simp only [readUnit?, takeLine?_line unbroken, Option.map_some, Prod.map, id]
    exact congrArg (fun result => some (result, rest)) whole
  rw [drain_of_advance (advance?_of_read read)]
  rfl

theorem drain_text {sigil : UInt8} {text : String} {message : Message} (visible : sigil ≠ lf)
    (unbroken : '\n' ∉ text.toList)
    (whole : start (sigil :: Text.encode text) = .ok (some message, .idle)) (rest : Bytes) :
    drain ⟨.idle, line sigil (Text.encode text) ++ rest⟩ =
      (.ok message :: (drain ⟨.idle, rest⟩).1, (drain ⟨.idle, rest⟩).2) := by
  refine drain_line (sigil :: Text.encode text) ?_ whole rest
  have absent := not_mem_encode (b := lf) (by decide) (by decide) unbroken
  simp only [List.mem_cons, not_or]
  exact ⟨visible.symm, absent⟩

theorem drain_bulk {bytes : Bytes} (fits : bytes.length ≤ maxLength) (rest : Bytes) :
    drain ⟨.idle, Wire.bulk bytes ++ rest⟩ =
      (.ok (.bulk bytes) :: (drain ⟨.idle, rest⟩).1, (drain ⟨.idle, rest⟩).2) := by
  have opened : start (0x24 :: Decimal.ofNat bytes.length) =
      .ok (none, .bulk bytes.length) := by
    simp only [start, number_ofNat 0x24 fits, bind, Except.bind, if_neg (count_ne_minus_one fits),
      if_neg (count_not_negative fits), toInt_count fits, Int.toNat_natCast]
  have header : readUnit? .idle (Wire.bulk bytes ++ rest) =
      some (.ok (none, .bulk bytes.length), bytes ++ crlf ++ rest) := by
    simp only [Wire.bulk, List.append_assoc, readUnit?, takeLine?_header (by decide : 0x24 ≠ lf),
      Option.map_some, Prod.map, id, bind, Except.bind, opened]
  have body : readUnit? (.bulk bytes.length) (bytes ++ crlf ++ rest) =
      some (.ok (some (.bulk bytes), .idle), rest) := by
    simp only [readUnit?, takeBody?_body, Option.map_some, Prod.map, id, Except.map]
  rw [drain_of_advance (advance?_of_read header), drain_of_advance (advance?_of_read body)]
  rfl

theorem drain_element {missing : Nat} {collected : List Bytes} {element : Option Bytes}
    (fits : ∀ bytes, element = some bytes → bytes.length ≤ maxLength) (rest : Bytes) :
    drain ⟨.array missing collected none, Wire.element element ++ rest⟩ =
      let (message, pending) := addElement missing collected (element.getD [])
      (message.toList.map .ok ++ (drain ⟨pending, rest⟩).1, (drain ⟨pending, rest⟩).2) := by
  have complete : ∀ message : Option Message,
      (message.map (Except.ok : Message → Item)).toList = message.toList.map .ok := fun message => by
    cases message <;> rfl
  cases element with
  | none =>
      have negative : number [0x24, 0x2D, 0x31] = .ok (-1) := rfl
      have header : readUnit? (.array missing collected none) (Wire.nullBulk ++ rest) =
          some (.ok (addElement missing collected []), rest) := by
        have unbroken : lf ∉ [0x24, 0x2D, 0x31] := by decide
        have taken := takeLine?_line unbroken rest
        simp only [readUnit?]
        rw [show Wire.nullBulk = [0x24, 0x2D, 0x31] ++ crlf from rfl, taken]
        simp only [Option.map_some, Prod.map, id, bind, Except.bind, continueArray, negative]
        rfl
      rw [Wire.element, drain_of_advance (advance?_of_read header), complete]
      rfl
  | some bytes =>
      have room := fits bytes rfl
      have opened : continueArray missing collected (0x24 :: Decimal.ofNat bytes.length) =
          .ok (none, .array missing collected (some bytes.length)) := by
        simp only [continueArray, number_ofNat 0x24 room, bind, Except.bind,
          if_neg (count_not_negative room), toInt_count room, Int.toNat_natCast]
      have header : readUnit? (.array missing collected none) (Wire.bulk bytes ++ rest) =
          some (.ok (none, .array missing collected (some bytes.length)), bytes ++ crlf ++ rest) := by
        simp only [Wire.bulk, List.append_assoc, readUnit?,
          takeLine?_header (by decide : 0x24 ≠ lf), Option.map_some, Prod.map, id, bind,
          Except.bind, opened]
      have body : readUnit? (.array missing collected (some bytes.length)) (bytes ++ crlf ++ rest) =
          some (.ok ((addElement missing collected bytes).1,
            (addElement missing collected bytes).2), rest) := by
        simp only [readUnit?, takeBody?_body, Option.map_some, Prod.map, id, Except.map]
      rw [Wire.element, drain_of_advance (advance?_of_read header),
        drain_of_advance (advance?_of_read body), complete, complete]
      rfl

theorem drain_elements {elements : List (Option Bytes)} (collected : List Bytes)
    (nonempty : elements ≠ [])
    (fits : ∀ bytes, some bytes ∈ elements → bytes.length ≤ maxLength) (rest : Bytes) :
    drain ⟨.array elements.length collected none, elements.flatMap Wire.element ++ rest⟩ =
      (.ok (.ofList (collected.reverse ++ elements.map (·.getD []))) ::
        (drain ⟨.idle, rest⟩).1, (drain ⟨.idle, rest⟩).2) := by
  induction elements generalizing collected with
  | nil => exact absurd rfl nonempty
  | cons element more ih =>
      rw [List.flatMap_cons, List.append_assoc, drain_element fun bytes same =>
        fits bytes (by simp [same])]
      cases more with
      | nil => simp [addElement]
      | cons next more =>
          have tail := ih (element.getD [] :: collected) (by simp)
            fun bytes mem => fits bytes (List.mem_cons_of_mem _ mem)
          simp only [List.length_cons] at tail ⊢
          simp only [addElement, Nat.reduceEqDiff, if_false, Nat.add_sub_cancel, tail]
          simp

theorem drain_array {elements : List (Option Bytes)} (room : elements.length ≤ maxLength)
    (fits : ∀ bytes, some bytes ∈ elements → bytes.length ≤ maxLength) (rest : Bytes) :
    drain ⟨.idle, Wire.encode (.array elements) ++ rest⟩ =
      (.ok (.ofList (elements.map (·.getD []))) :: (drain ⟨.idle, rest⟩).1,
        (drain ⟨.idle, rest⟩).2) := by
  by_cases empty : elements = []
  · subst empty
    have spelled : Wire.encode (.array []) = [0x2A, 0x30] ++ crlf := by decide +kernel
    rw [spelled]
    exact drain_line [0x2A, 0x30] (by decide) rfl rest
  · have positive : ¬ Int64.ofInt (elements.length : Int) = 0 := fun zero =>
      empty (List.length_eq_zero_iff.mp ((count_eq_zero_iff room).mp zero))
    have opened : start (0x2A :: Decimal.ofNat elements.length) =
        .ok (none, .array elements.length [] none) := by
      simp only [start, number_ofNat 0x2A room, bind, Except.bind, if_neg positive,
        if_neg (count_ne_minus_one room), if_neg (count_not_negative room), toInt_count room,
        Int.toNat_natCast]
    have header : readUnit? .idle (Wire.encode (.array elements) ++ rest) =
        some (.ok (none, .array elements.length [] none),
          elements.flatMap Wire.element ++ rest) := by
      simp only [Wire.encode, List.append_assoc, readUnit?,
        takeLine?_header (by decide : 0x2A ≠ lf), Option.map_some, Prod.map, id, bind, Except.bind,
        opened]
    rw [drain_of_advance (advance?_of_read header), drain_elements [] empty fits]
    rfl

theorem start_simple (text : String) :
    start (0x2B :: Text.encode text) = .ok (some (Message.simple text).normalize, .idle) := by
  have spells : ∀ {other : String}, Text.encode text = Text.encode other → text = other :=
    fun same => by rw [← lossy_encode text, same, lossy_encode]
  simp only [start]
  split
  · next ok =>
    have same : text = "OK" := spells (ok.trans (by decide +kernel))
    rw [same]
    rfl
  · next notOk =>
    split
    · next pong =>
      have same : text = "PONG" := spells (pong.trans (by decide +kernel))
      rw [same]
      rfl
    · next notPong =>
      have plain : (Message.simple text).normalize = .simple text :=
        Message.normalize_simple (fun same => notOk (by rw [same]; decide +kernel))
          fun same => notPong (by rw [same]; decide +kernel)
      rw [plain, lossy_encode]

/-- Every written message is read, whatever stands behind it. -/
theorem drain_encode {message : Message} (oneLine : message.OneLine)
    (addressable : message.Addressable) (rest : Bytes) :
    drain ⟨.idle, Wire.encode message ++ rest⟩ =
      (.ok message.normalize :: (drain ⟨.idle, rest⟩).1, (drain ⟨.idle, rest⟩).2) := by
  cases message with
  | simple text => exact drain_text (by decide) oneLine (start_simple text) rest
  | error text =>
      refine drain_text (by decide) oneLine ?_ rest
      simp only [start, lossy_encode, Message.normalize]
  | integer n =>
      refine drain_line (0x3A :: Decimal.ofInt n.toInt) ?_ ?_ rest
      · simp only [List.mem_cons, not_or]
        exact ⟨by decide, lf_not_mem_ofInt n.toInt⟩
      · simp only [start, number_ofInt, bind, Except.bind, Message.normalize]
  | bulk bytes => exact drain_bulk addressable rest
  | null => exact drain_line [0x24, 0x2D, 0x31] (by decide) rfl rest
  | array elements => exact drain_array addressable.1 addressable.2 rest
  | nullArray => exact drain_line [0x2A, 0x2D, 0x31] (by decide) rfl rest
  | ok => exact drain_line [0x2B, 0x4F, 0x4B] (by decide) rfl rest
  | pong => exact drain_line [0x2B, 0x50, 0x4F, 0x4E, 0x47] (by decide) rfl rest

theorem drain_messages {messages : List Message} (oneLine : ∀ m ∈ messages, m.OneLine)
    (addressable : ∀ m ∈ messages, m.Addressable) (rest : Bytes) :
    drain ⟨.idle, messages.flatMap Wire.encode ++ rest⟩ =
      (messages.map (.ok ·.normalize) ++ (drain ⟨.idle, rest⟩).1, (drain ⟨.idle, rest⟩).2) := by
  induction messages with
  | nil => rfl
  | cons message more ih =>
      have tail := ih (fun m mem => oneLine m (List.mem_cons_of_mem _ mem))
        fun m mem => addressable m (List.mem_cons_of_mem _ mem)
      rw [List.flatMap_cons, List.append_assoc, drain_encode (oneLine message List.mem_cons_self)
        (addressable message List.mem_cons_self), tail]
      rfl

theorem encodeLine_eq (commandLine : CommandLine) :
    Wire.encodeLine commandLine = Wire.encode (.ofList commandLine) := by
  simp only [Wire.encodeLine, Wire.encode, Message.ofList, List.length_map, List.flatMap_map,
    Wire.element]

theorem drain_lines (lines : List CommandLine) (addressable : ∀ l ∈ lines, l.Addressable)
    (rest : Bytes) :
    drain ⟨.idle, lines.flatMap Wire.encodeLine ++ rest⟩ =
      (lines.map (.ok <| .ofList ·) ++ (drain ⟨.idle, rest⟩).1, (drain ⟨.idle, rest⟩).2) := by
  have written : lines.flatMap Wire.encodeLine = (lines.map Message.ofList).flatMap Wire.encode := by
    rw [List.flatMap_map, funext encodeLine_eq]
  have room : ∀ m ∈ lines.map Message.ofList, m.Addressable := by
    intro m mem
    obtain ⟨l, listed, rfl⟩ := List.mem_map.mp mem
    exact Message.addressable_of_line (addressable l listed)
  rw [written, drain_messages (by simp [Message.OneLine, Message.ofList]) room]
  simp only [List.map_map, Function.comp_def, Message.normalize_ofList]

theorem drain_nil (pending : Pending) : drain ⟨pending, []⟩ = ([], ⟨pending, []⟩) := by
  refine drain_of_stuck ?_
  cases pending with
  | idle => rfl
  | bulk length => simp [advance?, readUnit?, takeBody?, splitExactly?]
  | array missing collected body? =>
      cases body? with
      | none => rfl
      | some length => simp [advance?, readUnit?, takeBody?, splitExactly?]

/-- A plain message that arrives alone leaves nothing behind. -/
theorem feed_plain {message : Message} (plain : message.Plain) :
    feed {} (Wire.encode message) = ([.ok message], {}) := by
  have read := drain_encode plain.oneLine plain.addressable []
  rw [drain_nil, List.append_nil, plain.normal] at read
  exact read

/-- Messages that were written one behind the other are read as their normal forms, and what stands
behind them is read as if it stood alone. A written command line is read as the array of its words.
Texts that break their line would be read as two messages, and nothing is longer than memory. -/
theorem feed_encode_append (messages : List Message) (commandLine : CommandLine) (rest : Bytes)
    (oneLine : ∀ m ∈ messages, m.OneLine) (addressable : ∀ m ∈ messages, m.Addressable)
    (room : commandLine.Addressable) :
    feed {} (messages.flatMap Wire.encode ++ rest) =
        (messages.map (.ok ·.normalize) ++ (feed {} rest).1, (feed {} rest).2) ∧
      Wire.decode (Wire.encodeLine commandLine) = [.ok (.ofList commandLine)] := by
  constructor
  · exact drain_messages oneLine addressable rest
  · have single := drain_lines [commandLine] (by simpa using room) []
    simp only [List.flatMap_cons, List.flatMap_nil, List.append_nil, drain_nil] at single
    simp only [Wire.decode, feed, List.nil_append, single, List.map_cons, List.map_nil]

theorem feed_encode_append_mixed :
    feed {} ([.simple "OK", .error "a\r", .array [none, some crlf]].flatMap Wire.encode ++ [0x2B]) =
        ([.ok .ok, .ok (.error "a\r"), .ok (.array [some [], some crlf])] ++ (feed {} [0x2B]).1,
          (feed {} [0x2B]).2) ∧
      Wire.decode (Wire.encodeLine [crlf]) = [.ok (.array [some crlf])] := by
  refine feed_encode_append [.simple "OK", .error "a\r", .array [none, some crlf]] [crlf] [0x2B]
    ?_ ?_ ?_
  · simp [Message.OneLine]
  · simp [Message.Addressable, crlf, maxLength]
  · simp [CommandLine.Addressable, crlf, maxLength]

end Decoder

end ShardStore
