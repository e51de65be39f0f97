import ShardStore.Proofs.Wire.RoundTrip

/-!
What a decoder makes of lines that come behind an unfinished unit. The sign that begins the first of
them is read as a part of the unit, so that line is lost, and no array is read but the one that was
under way and those that begin at a later sign (`Decoder.drain_yields`).
-/

namespace ShardStore

open Bytes

/-- The sign that begins an array, which is in the name of no command. -/
def asterisk : UInt8 := 0x2A

/-- Whether one of the words of a line has the sign of an array in it. -/
def CommandLine.Marked (line : CommandLine) : Prop :=
  ∃ word ∈ line, asterisk ∈ word

/-- Whether the arrays that begin somewhere in the bytes are all of three elements, and a line of
three words has some property. -/
def OpensOnly (P : CommandLine → Prop) : Bytes → Prop
  | [] => True
  | b :: rest =>
    (b = asterisk →
      (∃ more, rest = 0x33 :: crlf ++ more) ∧ ∀ line : CommandLine, 3 ≤ line.length → P line) ∧
    OpensOnly P rest

/-- Whether the array under way can only become a line with some property. -/
def Pending.Promises (P : CommandLine → Prop) : Pending → Prop
  | .array missing collected _ =>
    ∀ words : CommandLine, missing ≤ words.length → P (collected.reverse ++ words)
  | _ => True

def Yields (P : CommandLine → Prop) (item : Item) : Prop :=
  ∀ elements, item = .ok (.array elements) → P (elements.map (·.getD []))

variable {P : CommandLine → Prop}

theorem opensOnly_append {front back : Bytes} (opens : OpensOnly P (front ++ back)) :
    OpensOnly P back := by
  induction front with
  | nil => exact opens
  | cons b front ih => exact ih opens.2

theorem opensOnly_of_front {front back : Bytes} (absent : asterisk ∉ front)
    (opens : OpensOnly P back) : OpensOnly P (front ++ back) := by
  induction front with
  | nil => exact opens
  | cons b front ih =>
      simp only [List.mem_cons, not_or] at absent
      exact ⟨fun same => absurd same.symm absent.1, ih absent.2⟩

theorem opensOnly_of_not_mem {bytes : Bytes} (absent : asterisk ∉ bytes) : OpensOnly P bytes := by
  have opens : OpensOnly P (bytes ++ []) := opensOnly_of_front absent trivial
  rwa [List.append_nil] at opens

theorem yields_error (fault : Fault) : Yields P (.error fault) := fun _ same => by cases same

namespace Wire

theorem yields_of_scalar {message : Message} (scalar : ∀ elements, message ≠ .array elements) :
    Yields P (.ok message) := fun elements same => absurd (Except.ok.inj same) (scalar elements)

theorem start_of_ne_asterisk {line : Bytes} {message : Option Message} {pending : Pending}
    (other : line.head? ≠ some asterisk) (started : start line = .ok (message, pending)) :
    pending.Promises P ∧ ∀ m, message = some m → Yields P (.ok m) := by
  unfold start at started
  split at started
  · exact absurd rfl other
  · obtain ⟨length, -, started⟩ := bind_eq_ok started
    split at started
    · cases started
      exact ⟨trivial, fun m same => by cases same; exact yields_of_scalar (by simp)⟩
    · split at started
      · cases started
      · cases started
        exact ⟨trivial, fun m same => by cases same⟩
  · split at started
    · cases started
      exact ⟨trivial, fun m same => by cases same; exact yields_of_scalar (by simp)⟩
    · split at started
      · cases started
        exact ⟨trivial, fun m same => by cases same; exact yields_of_scalar (by simp)⟩
      · cases started
        exact ⟨trivial, fun m same => by cases same; exact yields_of_scalar (by simp)⟩
  · cases started
    exact ⟨trivial, fun m same => by cases same; exact yields_of_scalar (by simp)⟩
  · obtain ⟨n, -, started⟩ := bind_eq_ok started
    cases started
    exact ⟨trivial, fun m same => by cases same; exact yields_of_scalar (by simp)⟩
  · cases started

theorem addElement_promises {missing : Nat} {collected : List Bytes} {element : Bytes}
    (promises : ∀ words : CommandLine, missing ≤ (element :: words).length →
      P (collected.reverse ++ element :: words)) :
    (addElement missing collected element).2.Promises P ∧
      ∀ m, (addElement missing collected element).1 = some m → Yields P (.ok m) := by
  unfold addElement
  split
  · next one =>
    refine ⟨trivial, fun m same => ?_⟩
    cases same
    intro elements spelled
    cases spelled
    simpa [Function.comp_def] using promises [] (by simp [one])
  · next more =>
    refine ⟨fun words enough => ?_, fun m same => by cases same⟩
    simpa using promises words (by rw [List.length_cons]; omega)

theorem continueArray_promises {missing : Nat} {collected : List Bytes} {line : Bytes}
    {message : Option Message} {pending : Pending}
    (promises : ∀ words : CommandLine, missing ≤ words.length → P (collected.reverse ++ words))
    (continued : continueArray missing collected line = .ok (message, pending)) :
    pending.Promises P ∧ ∀ m, message = some m → Yields P (.ok m) := by
  have added := fun element => addElement_promises fun words => promises (element :: words)
  unfold continueArray at continued
  split at continued
  · obtain ⟨length, -, continued⟩ := bind_eq_ok continued
    split at continued
    · have same := Except.ok.inj continued
      have kept := added []
      rw [same] at kept
      exact kept
    · cases continued
      exact ⟨promises, fun m same => by cases same⟩
  · have same := Except.ok.inj continued
    have kept := added line
    rw [same] at kept
    exact kept

theorem start_of_asterisk {buffer line rest : Bytes} (opens : OpensOnly P buffer)
    (taken : takeLine? buffer = some (.ok line, rest)) (begins : line.head? = some asterisk)
    {message : Option Message} {pending : Pending} (started : start line = .ok (message, pending)) :
    pending.Promises P ∧ message = none := by
  obtain ⟨chunk, split, stripped⟩ := takeLine?_eq taken
  obtain ⟨content, rfl⟩ : ∃ content, line = asterisk :: content := by
    cases line with
    | nil => cases begins
    | cons b content => cases begins; exact ⟨content, rfl⟩
  rw [stripTerminator_eq_ok stripped.symm] at split
  subst split
  obtain ⟨⟨more, behind⟩, allowed⟩ := opens.1 rfl
  have header : takeLine? (asterisk :: content ++ crlf ++ rest) =
      some (.ok [asterisk, 0x33], more) := by
    have same : asterisk :: content ++ crlf ++ rest = [asterisk, 0x33] ++ crlf ++ more :=
      congrArg (asterisk :: ·) behind
    have unbroken : lf ∉ [asterisk, 0x33] := by decide
    rw [same, takeLine?_line unbroken]
  rw [header] at taken
  cases taken
  have triple : start [asterisk, 0x33] = .ok (none, .array 3 [] none) := rfl
  rw [triple] at started
  cases started
  exact ⟨fun words enough => allowed words enough, rfl⟩

end Wire

namespace Decoder

open Wire

/-- What holds of a decoder that can only come upon lines with some property. -/
structure Quiet (P : CommandLine → Prop) (decoder : Decoder) : Prop where
  opens : OpensOnly P decoder.buffer
  promises : decoder.pending.Promises P

theorem readUnit?_eq {pending : Pending} {buffer rest : Bytes}
    {result : Except Fault (Option Message × Pending)}
    (read : readUnit? pending buffer = some (result, rest)) : ∃ chunk, buffer = chunk ++ rest := by
  unfold readUnit? at read
  split at read <;> obtain ⟨⟨part, tail⟩, taken, same⟩ := Option.map_eq_some_iff.mp read <;>
    cases same
  · obtain ⟨chunk, split, -⟩ := takeLine?_eq taken
    exact ⟨chunk, split⟩
  · obtain ⟨chunk, split, -⟩ := takeBody?_eq taken
    exact ⟨chunk, split⟩
  · obtain ⟨chunk, split, -⟩ := takeLine?_eq taken
    exact ⟨chunk, split⟩
  · obtain ⟨chunk, split, -⟩ := takeBody?_eq taken
    exact ⟨chunk, split⟩

theorem readUnit?_ok {pending next : Pending} {buffer rest : Bytes} {message : Option Message}
    (read : readUnit? pending buffer = some (.ok (message, next), rest)) :
    match pending with
    | .idle => ∃ line, takeLine? buffer = some (.ok line, rest) ∧ start line = .ok (message, next)
    | .bulk length =>
      ∃ body, takeBody? length buffer = some (.ok body, rest) ∧ message = some (.bulk body) ∧
        next = .idle
    | .array missing collected none =>
      ∃ line, takeLine? buffer = some (.ok line, rest) ∧
        continueArray missing collected line = .ok (message, next)
    | .array missing collected (some length) =>
      ∃ body, takeBody? length buffer = some (.ok body, rest) ∧
        addElement missing collected body = (message, next) := by
  unfold readUnit? at read
  split at read <;> obtain ⟨⟨part, tail⟩, taken, same⟩ := Option.map_eq_some_iff.mp read <;>
    obtain ⟨result, rfl⟩ := Prod.mk.inj same
  · obtain ⟨line, rfl, started⟩ := bind_eq_ok result
    exact ⟨line, taken, started⟩
  · cases part with
    | error fault => cases result
    | ok body => cases result; exact ⟨body, taken, rfl, rfl⟩
  · obtain ⟨line, rfl, continued⟩ := bind_eq_ok result
    exact ⟨line, taken, continued⟩
  · cases part with
    | error fault => cases result
    | ok body => exact ⟨body, taken, Except.ok.inj result⟩

theorem readUnit?_quiet {pending next : Pending} {buffer rest : Bytes} {message : Option Message}
    (quiet : Quiet P ⟨pending, buffer⟩)
    (read : readUnit? pending buffer = some (.ok (message, next), rest)) :
    next.Promises P ∧ ∀ m, message = some m → Yields P (.ok m) := by
  have inside := readUnit?_ok read
  cases pending with
  | idle =>
      obtain ⟨line, taken, started⟩ := inside
      by_cases begins : line.head? = some asterisk
      · obtain ⟨promises, rfl⟩ := start_of_asterisk quiet.opens taken begins started
        exact ⟨promises, fun m same => by cases same⟩
      · exact start_of_ne_asterisk begins started
  | bulk length =>
      obtain ⟨body, -, rfl, rfl⟩ := inside
      exact ⟨trivial, fun m same => by cases same; exact yields_of_scalar (by simp)⟩
  | array missing collected body? =>
      cases body? with
      | none =>
          obtain ⟨line, -, continued⟩ := inside
          exact continueArray_promises quiet.promises continued
      | some length =>
          obtain ⟨body, -, added⟩ := inside
          have kept := addElement_promises fun words => quiet.promises (body :: words)
          rw [added] at kept
          exact kept

theorem advance?_eq {decoder next : Decoder} {item? : Option Item}
    (advanced : decoder.advance? = some (item?, next)) :
    ∃ chunk, decoder.buffer = chunk ++ next.buffer := by
  obtain ⟨⟨result, rest⟩, read, same⟩ := Option.map_eq_some_iff.mp advanced
  obtain ⟨chunk, split⟩ := readUnit?_eq read
  refine ⟨chunk, ?_⟩
  cases result with
  | error fault => cases same; exact split
  | ok pair => cases same; exact split

theorem advance?_quiet {decoder next : Decoder} {item? : Option Item} (quiet : Quiet P decoder)
    (advanced : decoder.advance? = some (item?, next)) :
    Quiet P next ∧ ∀ item, item? = some item → Yields P item := by
  obtain ⟨chunk, split⟩ := advance?_eq advanced
  have opens : OpensOnly P next.buffer := opensOnly_append (split ▸ quiet.opens)
  obtain ⟨⟨result, rest⟩, read, same⟩ := Option.map_eq_some_iff.mp advanced
  cases result with
  | error fault =>
      cases same
      exact ⟨⟨opens, trivial⟩, fun item same => by cases same; exact yields_error fault⟩
  | ok pair =>
      obtain ⟨message, pending⟩ := pair
      cases same
      obtain ⟨promises, yields⟩ := readUnit?_quiet quiet read
      refine ⟨⟨opens, promises⟩, fun item same => ?_⟩
      obtain ⟨m, found, rfl⟩ := Option.map_eq_some_iff.mp same
      exact yields m found

theorem drain_of_quiet {decoder : Decoder} (quiet : Quiet P decoder) :
    ∀ item ∈ decoder.drain.1, Yields P item :=
  (drain_keeps advance?_quiet quiet).2

theorem not_mem_of_takeLine?_eq_none {buffer : Bytes} (missing : takeLine? buffer = none) :
    lf ∉ buffer := by
  have unsplit := Option.map_eq_none_iff.mp missing
  clear missing
  induction buffer with
  | nil => simp
  | cons b buffer ih =>
      simp only [splitLine?] at unsplit
      split at unsplit
      · cases unsplit
      · next differs =>
        simp only [List.mem_cons, not_or]
        exact ⟨Ne.symm differs, ih (Option.map_eq_none_iff.mp unsplit)⟩

theorem length_lt_of_takeBody?_eq_none {length : Nat} {buffer : Bytes}
    (missing : takeBody? length buffer = none) : buffer.length < length + 2 := by
  rcases Nat.lt_or_ge buffer.length (length + 2) with short | enough
  · exact short
  · rw [takeBody?_of_le enough] at missing
    cases missing

theorem number_of_asterisk {sigil : UInt8} {content : Bytes} (mem : asterisk ∈ content) :
    number (sigil :: content) = .error (.invalidHeader (Text.lossy (sigil :: content))) := by
  rw [number, List.drop_succ_cons, List.drop_zero,
    Text.Decimal.int64?_eq_none mem (by decide) (by decide) (by decide)]

/-- A body that reaches into a line behind it has the first sign of that line in it, or its
terminator is wrong. -/
theorem asterisk_mem_of_body {buffer more body rest : Bytes} {length : Nat}
    (short : buffer.length < length + 2)
    (taken : takeBody? length (buffer ++ asterisk :: more) = some (.ok body, rest)) :
    asterisk ∈ body := by
  obtain ⟨chunk, split, width, stripped⟩ := takeBody?_eq taken
  rw [stripTerminator_eq_ok stripped.symm] at split width
  have size : body.length = length := by simpa [crlf] using width
  have sign : (body ++ crlf ++ rest)[buffer.length]? = some asterisk := by
    rw [← split, List.getElem?_append_right (Nat.le_refl _), Nat.sub_self]
    rfl
  by_cases inside : buffer.length < body.length
  · rw [List.append_assoc, List.getElem?_append_left inside] at sign
    exact List.mem_of_getElem? sign
  · exfalso
    rw [List.append_assoc, List.getElem?_append_right (by omega)] at sign
    obtain first | second : buffer.length - body.length = 0 ∨ buffer.length - body.length = 1 := by
      omega
    · rw [first] at sign
      exact absurd sign (by simp [crlf, cr, asterisk])
    · rw [second] at sign
      exact absurd sign (by simp [crlf, lf, asterisk])

theorem rest_of_body {buffer more rest : Bytes} {length : Nat} {body : Except Fault Bytes}
    (short : buffer.length < length + 2)
    (taken : takeBody? length (buffer ++ asterisk :: more) = some (body, rest)) :
    ∃ front, more = front ++ rest := by
  obtain ⟨chunk, split, width, -⟩ := takeBody?_eq taken
  have behind := congrArg (List.drop (buffer.length + 1)) split
  refine ⟨chunk.drop (buffer.length + 1), ?_⟩
  rw [← List.drop_append_of_le_length (by omega), ← behind]
  simp [List.drop_append]

theorem takeLine?_unfinished {buffer : Bytes} {c : UInt8} (unbroken : lf ∉ buffer)
    (sameLine : c ≠ lf) (rest : Bytes) :
    takeLine? (buffer ++ asterisk :: (c :: crlf ++ rest)) =
      some (.ok (buffer ++ [asterisk, c]), rest) := by
  have whole : lf ∉ buffer ++ [asterisk, c] := by
    simp only [List.mem_append, List.mem_cons, List.not_mem_nil, or_false, not_or]
    exact ⟨unbroken, by decide, sameLine.symm⟩
  have taken := takeLine?_line whole rest
  rwa [List.append_assoc, List.append_assoc] at taken

theorem start_asterisk {content : Bytes} (mem : asterisk ∈ content) :
    start (asterisk :: content) = .error (.invalidHeader (Text.lossy (asterisk :: content))) := by
  simp only [start, asterisk]
  change (number (asterisk :: content) >>= _) = _
  rw [number_of_asterisk mem]
  rfl

theorem start_unfinished {buffer : Bytes} {c : UInt8} (begun : buffer ≠ [])
    {message : Option Message} {next : Pending}
    (started : start (buffer ++ [asterisk, c]) = .ok (message, next)) :
    next.Promises P ∧ ∀ m, message = some m → Yields P (.ok m) := by
  obtain ⟨b, tail, rfl⟩ := List.exists_cons_of_ne_nil begun
  by_cases begins : b = asterisk
  · subst begins
    rw [List.cons_append, start_asterisk (by simp)] at started
    cases started
  · exact start_of_ne_asterisk (by simpa using begins) started

theorem addElement_marked {missing : Nat} {collected : List Bytes} {element : Bytes}
    (marked : ∀ line : CommandLine, line.Marked → P line) (mem : asterisk ∈ element)
    {message : Option Message} {next : Pending}
    (added : addElement missing collected element = (message, next)) :
    next.Promises P ∧ ∀ m, message = some m → Yields P (.ok m) := by
  have promises : ∀ words : CommandLine, missing ≤ (element :: words).length →
      P (collected.reverse ++ element :: words) := fun words _ => marked _ ⟨element, by simp, mem⟩
  have kept := addElement_promises promises
  rw [added] at kept
  exact kept

theorem continueArray_unfinished {missing : Nat} {collected : List Bytes} {buffer : Bytes}
    {c : UInt8} (marked : ∀ line : CommandLine, line.Marked → P line)
    {message : Option Message} {next : Pending}
    (continued : continueArray missing collected (buffer ++ [asterisk, c]) = .ok (message, next)) :
    next.Promises P ∧ ∀ m, message = some m → Yields P (.ok m) := by
  have mem : asterisk ∈ buffer ++ [asterisk, c] := by simp
  generalize spelled : buffer ++ [asterisk, c] = line at continued mem
  unfold continueArray at continued
  split at continued
  · next content =>
    have behind : asterisk ∈ content := (List.mem_cons.mp mem).resolve_left (by decide)
    rw [number_of_asterisk behind] at continued
    cases continued
  · exact addElement_marked marked mem (Except.ok.inj continued)

theorem readUnit?_unfinished {pending : Pending} {buffer behind rest : Bytes} {c : UInt8}
    {result : Except Fault (Option Message × Pending)} (waiting : readUnit? pending buffer = none)
    (unfinished : pending = .idle → buffer ≠ []) (sameLine : c ≠ lf)
    (marked : ∀ line : CommandLine, line.Marked → P line)
    (read : readUnit? pending (buffer ++ asterisk :: (c :: crlf ++ rest)) = some (result, behind)) :
    (∃ front, c :: crlf ++ rest = front ++ behind) ∧ ∀ message next, result = .ok (message, next) →
      next.Promises P ∧ ∀ m, message = some m → Yields P (.ok m) := by
  cases pending with
  | idle =>
      have unbroken := not_mem_of_takeLine?_eq_none (Option.map_eq_none_iff.mp waiting)
      rw [readUnit?, takeLine?_unfinished unbroken sameLine] at read
      cases read
      exact ⟨⟨c :: crlf, rfl⟩, fun message next started =>
        start_unfinished (unfinished rfl) started⟩
  | bulk length =>
      have short := length_lt_of_takeBody?_eq_none (Option.map_eq_none_iff.mp waiting)
      obtain ⟨⟨body, tail⟩, taken, same⟩ := Option.map_eq_some_iff.mp read
      cases same
      refine ⟨rest_of_body short taken, fun message next done => ?_⟩
      cases body with
      | error fault => cases done
      | ok body =>
          cases done
          exact ⟨trivial, fun m same => by cases same; exact yields_of_scalar (by simp)⟩
  | array missing collected body? =>
      cases body? with
      | none =>
          have unbroken := not_mem_of_takeLine?_eq_none (Option.map_eq_none_iff.mp waiting)
          rw [readUnit?, takeLine?_unfinished unbroken sameLine] at read
          cases read
          exact ⟨⟨c :: crlf, rfl⟩, fun message next continued =>
            continueArray_unfinished marked continued⟩
      | some length =>
          have short := length_lt_of_takeBody?_eq_none (Option.map_eq_none_iff.mp waiting)
          obtain ⟨⟨body, tail⟩, taken, same⟩ := Option.map_eq_some_iff.mp read
          cases same
          refine ⟨rest_of_body short taken, fun message next done => ?_⟩
          cases body with
          | error fault => cases done
          | ok body =>
              exact addElement_marked marked (asterisk_mem_of_body short taken)
                (Except.ok.inj done)

/-- A decoder that waits for the rest of a unit reads the first line behind it as a part of that
unit. -/
theorem advance?_unfinished {decoder next : Decoder} {item? : Option Item} {c : UInt8}
    {rest : Bytes} (stuck : decoder.advance? = none) (unfinished : decoder ≠ {}) (sameLine : c ≠ lf)
    (marked : ∀ line : CommandLine, line.Marked → P line)
    (advanced : advance? { decoder with
      buffer := decoder.buffer ++ asterisk :: (c :: crlf ++ rest) } = some (item?, next)) :
    (∃ front, c :: crlf ++ rest = front ++ next.buffer) ∧ next.pending.Promises P ∧
      ∀ item, item? = some item → Yields P item := by
  obtain ⟨pending, buffer⟩ := decoder
  have waiting := Option.map_eq_none_iff.mp stuck
  have nonempty : pending = .idle → buffer ≠ [] := fun idle empty =>
    unfinished (by rw [idle, empty])
  obtain ⟨⟨result, behind⟩, read, same⟩ := Option.map_eq_some_iff.mp advanced
  obtain ⟨split, kept⟩ := readUnit?_unfinished waiting nonempty sameLine marked read
  cases result with
  | error fault =>
      cases same
      exact ⟨split, trivial, fun item same => by cases same; exact yields_error fault⟩
  | ok pair =>
      cases same
      obtain ⟨promises, yields⟩ := kept _ _ rfl
      refine ⟨split, promises, fun item same => ?_⟩
      obtain ⟨m, found, rfl⟩ := Option.map_eq_some_iff.mp same
      exact yields m found

/-- All lines that are read behind an unfinished unit are marked by the sign of the first of them,
or begin behind it. -/
theorem drain_yields {decoder : Decoder} {c : UInt8} {rest : Bytes}
    (stuck : decoder.advance? = none) (unfinished : decoder ≠ {}) (sameLine : c ≠ lf)
    (marked : ∀ line : CommandLine, line.Marked → P line)
    (opens : OpensOnly P (c :: crlf ++ rest)) :
    ∀ item ∈ (decoder.feed (asterisk :: (c :: crlf ++ rest))).1, Yields P item := by
  cases advanced : advance? { decoder with
      buffer := decoder.buffer ++ asterisk :: (c :: crlf ++ rest) } with
  | none =>
      rw [feed, drain_of_stuck advanced]
      simp
  | some pair =>
      obtain ⟨item?, next⟩ := pair
      obtain ⟨⟨front, split⟩, promises, yields⟩ :=
        advance?_unfinished stuck unfinished sameLine marked advanced
      have quiet : Quiet P next := ⟨opensOnly_append (split ▸ opens), promises⟩
      rw [feed, drain_of_advance advanced]
      intro item mem
      rcases List.mem_append.mp mem with here | later
      · exact yields item (Option.mem_toList.mp here)
      · exact drain_of_quiet quiet item later

theorem addElement_underway (missing : Nat) (collected : List Bytes) (element : Bytes) :
    (addElement missing collected element).1 = none ↔
      (addElement missing collected element).2 ≠ .idle := by
  unfold addElement
  split <;> simp

/-- A message is complete exactly if the next one is not begun. -/
theorem readUnit?_underway {pending next : Pending} {buffer rest : Bytes}
    {message : Option Message}
    (read : readUnit? pending buffer = some (.ok (message, next), rest)) :
    message = none ↔ next ≠ .idle := by
  have inside := readUnit?_ok read
  cases pending with
  | idle =>
      obtain ⟨line, -, started⟩ := inside
      unfold start at started
      split at started
      · obtain ⟨count, -, started⟩ := bind_eq_ok started
        repeat' split at started
        all_goals cases started <;> simp
      · obtain ⟨count, -, started⟩ := bind_eq_ok started
        repeat' split at started
        all_goals cases started <;> simp
      · repeat' split at started
        all_goals
          cases started
          simp
      · cases started
        simp
      · obtain ⟨n, -, started⟩ := bind_eq_ok started
        cases started
        simp
      · cases started
  | bulk length =>
      obtain ⟨body, -, rfl, rfl⟩ := inside
      simp
  | array missing collected body? =>
      cases body? with
      | none =>
          obtain ⟨line, -, continued⟩ := inside
          unfold continueArray at continued
          split at continued
          · obtain ⟨length, -, continued⟩ := bind_eq_ok continued
            split at continued
            · have added := addElement_underway missing collected []
              rwa [Except.ok.inj continued] at added
            · cases continued
              simp
          · have added := addElement_underway missing collected line
            rwa [Except.ok.inj continued] at added
      | some length =>
          obtain ⟨body, -, added⟩ := inside
          have underway := addElement_underway missing collected body
          rwa [added] at underway

theorem advance?_underway {decoder next : Decoder} {item? : Option Item}
    (advanced : decoder.advance? = some (item?, next)) : item? = none ↔ next.pending ≠ .idle := by
  obtain ⟨⟨result, rest⟩, read, same⟩ := Option.map_eq_some_iff.mp advanced
  cases result with
  | error fault => cases same; simp
  | ok pair =>
      cases same
      simpa using readUnit?_underway read

/-- Whoever has read nothing and stands at the start has had nothing to read. -/
theorem eq_of_drain_silent {decoder : Decoder} (silent : decoder.drain = ([], {})) :
    decoder = {} := by
  induction decoder using drain.induct with
  | case1 decoder stuck =>
      rw [drain_of_stuck stuck] at silent
      exact congrArg Prod.snd silent
  | case2 decoder item next advanced _ _ _ ih =>
      rw [drain_of_advance advanced] at silent
      obtain ⟨items, last⟩ := Prod.mk.inj silent
      obtain ⟨front, back⟩ := List.append_eq_nil_iff.mp items
      have started := ih (Prod.ext back last)
      have none : item = none := by simpa using front
      exact absurd (congrArg pending started) ((advance?_underway advanced).mp none)

end Decoder

end ShardStore
