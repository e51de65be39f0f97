import ShardStore.Keyspace.Backtracking
import ShardStore.Proofs.Keyspace.Pieces

/-!
Matching with two cursors. Going back to the last star is enough: what an earlier star could still be
given, the last one can take as well. So the cursors come to an end without leaving pattern and text,
and find out whether the text can be cut into pieces that the tokens take (`scan_spec`).
-/

namespace ShardStore.Glob

variable {pattern text : Bytes} {byte : UInt8} {i : Nat}

theorem drop_of_getElem? {b : UInt8} (found : pattern[i]? = some b) :
    pattern.drop i = b :: pattern.drop (i + 1) := by
  obtain ⟨inside, rfl⟩ := List.getElem?_eq_some_iff.mp found
  exact List.drop_eq_getElem_cons inside

theorem drop_of_getElem?_none (missing : pattern[i]? = none) : pattern.drop i = [] :=
  List.drop_eq_nil_of_le (List.getElem?_eq_none_iff.mp missing)

theorem escaped_eq {b : UInt8} (found : pattern[i]? = some b) :
    readEscaped? (pattern.drop i) =
      (if b = backslash then pattern[i + 1]?.map (·, i + 1) else some (b, i)).map
        fun (low, j) => (low, pattern.drop (j + 1)) := by
  rw [drop_of_getElem? found]
  unfold readEscaped?
  dsimp only
  split
  · cases behind : pattern[i + 1]? with
    | none => rw [drop_of_getElem?_none behind]; rfl
    | some c => rw [drop_of_getElem? behind]; rfl
  · rfl

theorem lowerAt?_eq (pattern : Bytes) (i : Nat) :
    readEscaped? (pattern.drop i) =
      (lowerAt? pattern i).map fun (low, j) => (low, pattern.drop (j + 1)) := by
  unfold lowerAt?
  split
  · next missing => rw [drop_of_getElem?_none missing]; rfl
  · next b found => exact escaped_eq found

theorem upperAt_eq {b : UInt8} (found : pattern[i]? = some b) :
    ∃ upper?, upperAt pattern i = .ok upper? ∧ readEscaped? (pattern.drop i) =
      upper?.map fun (high, j) => (high, pattern.drop (j + 1)) := by
  refine ⟨_, ?_, escaped_eq found⟩
  rw [upperAt, byteAt, found]
  rfl

theorem isRangeAt_iff : isRangeAt pattern i = true ↔
    ∃ b, b ≠ closeBracket ∧ pattern[i + 1]? = some dash ∧ pattern[i + 2]? = some b := by
  rw [isRangeAt, Bool.and_eq_true, beq_iff_eq, Option.any_eq_true]
  constructor
  · rintro ⟨dashed, b, found, other⟩
    exact ⟨b, by simpa using other, dashed, found⟩
  · rintro ⟨b, other, dashed, found⟩
    exact ⟨dashed, b, found, by simpa using other⟩

theorem readUpper?_range {low b : UInt8} (other : b ≠ closeBracket)
    (dashed : pattern[i + 1]? = some dash) (found : pattern[i + 2]? = some b) :
    readUpper? low (pattern.drop (i + 1)) =
      (readEscaped? (pattern.drop (i + 2))).map fun (high, rest) => (⟨low, high⟩, rest) := by
  rw [drop_of_getElem? dashed, drop_of_getElem? found, readUpper?]
  simp [other]

theorem readUpper?_single {low : UInt8} (single : isRangeAt pattern i = false) :
    readUpper? low (pattern.drop (i + 1)) = some (⟨low, low⟩, pattern.drop (i + 1)) := by
  cases first : pattern[i + 1]? with
  | none => rw [drop_of_getElem?_none first]; rfl
  | some d =>
      rw [drop_of_getElem? first]
      cases second : pattern[i + 2]? with
      | none => rw [drop_of_getElem?_none second]; rfl
      | some b =>
          rw [drop_of_getElem? second, readUpper?]
          rw [isRangeAt, first, second] at single
          split
          · next range =>
            simp only [Bool.and_eq_true, decide_eq_true_eq] at range
            simp [range] at single
          · rfl

theorem contains_single (low : UInt8) : (ByteRange.mk low low).contains byte = (low == byte) := by
  rw [ByteRange.contains, if_pos (UInt8.le_refl low), Bool.eq_iff_iff, Bool.and_eq_true,
    decide_eq_true_eq, decide_eq_true_eq, beq_iff_eq]
  constructor
  · exact fun bounds => UInt8.le_antisymm bounds.1 bounds.2
  · rintro rfl
    exact ⟨UInt8.le_refl _, UInt8.le_refl _⟩

theorem contains_ordered (low high : UInt8) :
    (ByteRange.mk low high).contains byte =
      let (low, high) := if low ≤ high then (low, high) else (high, low)
      (low ≤ byte && byte ≤ high) := by
  rw [ByteRange.contains]
  split
  · rfl
  · rfl

/-- The index behind a member is that of what is left. -/
theorem memberAt_eq (pattern : Bytes) (byte : UInt8) (i : Nat) :
    match readMember? (pattern.drop i) with
    | none => memberAt pattern byte i = .ok none
    | some (range, rest) => ∃ next, rest = pattern.drop next ∧
        memberAt pattern byte i = .ok (some (range.contains byte, next)) := by
  rw [readMember?, lowerAt?_eq, memberAt]
  cases lowerAt? pattern i with
  | none => rfl
  | some pair =>
      obtain ⟨low, j⟩ := pair
      dsimp only [Option.map_some, Option.bind_some]
      by_cases range : isRangeAt pattern j = true
      · rw [if_pos range]
        obtain ⟨b, other, dashed, found⟩ := isRangeAt_iff.mp range
        obtain ⟨upper?, reading, same⟩ := upperAt_eq found
        rw [readUpper?_range other dashed found, same, reading]
        cases upper? with
        | none => rfl
        | some pair =>
            obtain ⟨high, last⟩ := pair
            exact ⟨last + 1, rfl, by rw [contains_ordered]; rfl⟩
      · rw [if_neg range, readUpper?_single (by simpa using range)]
        exact ⟨j + 1, rfl, by rw [contains_single]⟩

section

variable {b : UInt8} {rest left : Bytes} {range : ByteRange} {negated matched first hit : Bool}
  {next : Nat}

theorem readMembers?_close : readMembers? (closeBracket :: rest) = some ([], rest) := by
  rw [readMembers?, if_pos rfl]

theorem readMembers?_none (other : b ≠ closeBracket) (broken : readMember? (b :: rest) = none) :
    readMembers? (b :: rest) = none := by
  rw [readMembers?, if_neg other]
  split
  · rfl
  · next range left found => rw [broken] at found; cases found

theorem readMembers?_member (other : b ≠ closeBracket)
    (read : readMember? (b :: rest) = some (range, left)) :
    readMembers? (b :: rest) =
      (readMembers? left).map fun (members, rest) => (range :: members, rest) := by
  rw [readMembers?, if_neg other]
  split
  · next missing => rw [read] at missing; cases missing
  · next found => rw [read] at found; cases found; rfl

theorem membersAt_end (missing : pattern[i]? = none) :
    membersAt pattern byte negated i matched first = .ok none := by
  rw [membersAt, missing]

theorem membersAt_close (closes : pattern[i]? = some closeBracket) :
    membersAt pattern byte negated i matched false = .ok (some (matched != negated, i + 1)) := by
  rw [membersAt, closes]
  rfl

theorem membersAt_none (found : pattern[i]? = some b) (other : (b = closeBracket && !first) = false)
    (broken : memberAt pattern byte i = .ok none) :
    membersAt pattern byte negated i matched first = .ok none := by
  rw [membersAt, found]
  dsimp only
  rw [other]
  split
  · next missing => cases missing
  · split
    · next failed => rw [broken] at failed; cases failed
    · rfl
    · next read => rw [broken] at read; cases read

theorem membersAt_member (found : pattern[i]? = some b)
    (other : (b = closeBracket && !first) = false)
    (read : memberAt pattern byte i = .ok (some (hit, next))) :
    membersAt pattern byte negated i matched first =
      membersAt pattern byte negated next (matched || hit) false := by
  rw [membersAt, found]
  dsimp only
  rw [other]
  split
  · next missing => cases missing
  · split
    · next failed => rw [read] at failed; cases failed
    · next broken => rw [read] at broken; cases broken
    · next again => rw [read] at again; cases again; rfl

/-- The members up to the closing bracket are those that the reading of tokens finds. -/
theorem membersAt_eq (pattern : Bytes) (byte : UInt8) (negated : Bool) (i : Nat) (matched : Bool) :
    match readMembers? (pattern.drop i) with
    | none => membersAt pattern byte negated i matched false = .ok none
    | some (members, rest) => ∃ next ≤ pattern.length, rest = pattern.drop next ∧
        membersAt pattern byte negated i matched false =
          .ok (some ((matched || members.any (·.contains byte)) != negated, next)) := by
  induction size : pattern.length - i using Nat.strongRecOn generalizing i matched with
  | _ size ih =>
    cases found : pattern[i]? with
    | none =>
        rw [drop_of_getElem?_none found, readMembers?]
        exact membersAt_end found
    | some b =>
        have front := drop_of_getElem? found
        by_cases closes : b = closeBracket
        · subst closes
          obtain ⟨inside, -⟩ := List.getElem?_eq_some_iff.mp found
          rw [front, readMembers?_close]
          exact ⟨i + 1, inside, rfl, by simpa using membersAt_close found⟩
        · have other : (b = closeBracket && !false) = false := by simp [closes]
          have member := memberAt_eq pattern byte i
          cases read : readMember? (pattern.drop i) with
          | none =>
              rw [read] at member
              rw [front] at read ⊢
              rw [readMembers?_none closes read]
              exact membersAt_none found other member
          | some pair =>
              obtain ⟨range, left⟩ := pair
              rw [read] at member
              obtain ⟨next, rfl, step⟩ := member
              obtain ⟨later, within⟩ := memberAt_lt step
              have tail := ih (pattern.length - next) (by omega) next
                (matched || range.contains byte) rfl
              rw [front] at read ⊢
              rw [readMembers?_member closes read, membersAt_member found other step]
              cases more : readMembers? (pattern.drop next) with
              | none => rw [more] at tail; exact tail
              | some pair =>
                  obtain ⟨members, rest⟩ := pair
                  rw [more] at tail
                  obtain ⟨last, inside, rfl, done⟩ := tail
                  exact ⟨last, inside, rfl, by rw [done, List.any_cons, Bool.or_assoc]⟩

theorem readMember?_suffix (read : readMember? pattern = some (range, rest)) :
    rest <:+ pattern := by
  have member := memberAt_eq pattern 0 0
  rw [List.drop_zero, read] at member
  obtain ⟨next, rfl, -⟩ := member
  exact List.drop_suffix next pattern

theorem readMember?_front (read : readMember? pattern = some (range, rest)) :
    ∃ front, front ≠ [] ∧ pattern = front ++ rest := by
  obtain ⟨front, rfl⟩ := readMember?_suffix read
  refine ⟨front, ?_, rfl⟩
  rintro rfl
  exact absurd (readMember?_length read) (Nat.lt_irrefl _)

/-- The members of a class end in front of a closing bracket. -/
theorem readMembers?_front {members : List ByteRange}
    (read : readMembers? pattern = some (members, rest)) :
    ∃ front, pattern = front ++ closeBracket :: rest := by
  fun_induction readMembers? pattern generalizing members with
  | case1 => cases read
  | case2 =>
      cases read
      exact ⟨[], rfl⟩
  | case3 => cases read
  | case4 b after _ range middle member ih =>
      obtain ⟨⟨more, last⟩, found, same⟩ := Option.map_eq_some_iff.mp read
      cases same
      obtain ⟨front, -, split⟩ := readMember?_front member
      obtain ⟨further, rfl⟩ := ih found
      exact ⟨front ++ further, by rw [split, List.append_assoc]⟩

theorem readNegation_drop (pattern : Bytes) (i : Nat) :
    let negated := pattern[i]? == some 0x5E || pattern[i]? == some 0x21
    readNegation (pattern.drop i) = (negated, pattern.drop (if negated then i + 1 else i)) := by
  intro negated
  cases found : pattern[i]? with
  | none => simp [negated, found, drop_of_getElem?_none found, readNegation]
  | some b =>
      have front := drop_of_getElem? found
      by_cases sign : b = 0x5E ∨ b = 0x21
      · have yes : negated = true := by simpa [negated, found] using sign
        rw [yes, front]
        simp [readNegation, sign]
      · have no : negated = false := by simpa [negated, found] using sign
        rw [no, front]
        simp [readNegation, sign, front]

theorem readNegation_suffix (pattern : Bytes) : (readNegation pattern).2 <:+ pattern := by
  have negation := readNegation_drop pattern 0
  rw [List.drop_zero] at negation
  rw [negation]
  exact List.drop_suffix _ _

/-- A class is closed exactly if its members can be read up to a closing bracket. -/
theorem readClass?_eq (pattern : Bytes) :
    readClass? pattern = (readMember? (readNegation pattern).2).bind fun (first, rest) =>
      (readMembers? rest).map fun (members, rest) =>
        (⟨(readNegation pattern).1, first :: members⟩, rest) := by
  rw [readClass?]
  by_cases closed : pattern.contains closeBracket = true
  · rw [if_pos closed]
  · rw [if_neg closed]
    symm
    rw [Option.bind_eq_none_iff]
    rintro ⟨first, middle⟩ member
    rw [Option.map_eq_none_iff, Option.eq_none_iff_forall_ne_some]
    rintro ⟨members, last⟩ read
    obtain ⟨front, rfl⟩ := readMembers?_front read
    have inBody := (readMember?_suffix member).subset (List.mem_append_right front List.mem_cons_self)
    exact closed (by simpa using (readNegation_suffix pattern).subset inBody)

/-- Whether a class is closed, and where, does not depend on the byte that is to be taken. -/
theorem classAt_eq (pattern : Bytes) (start : Nat) (byte : UInt8) :
    match readClass? (pattern.drop (start + 1)) with
    | none => classAt pattern start byte = .ok none
    | some (byteClass, rest) => ∃ next ≤ pattern.length, rest = pattern.drop next ∧
        classAt pattern start byte = .ok (some (byteClass.contains byte, next)) := by
  rw [readClass?_eq, readNegation_drop, classAt]
  generalize (pattern[start + 1]? == some 0x5E || pattern[start + 1]? == some 0x21) = negated
  dsimp only
  generalize (if negated = true then start + 1 + 1 else start + 1) = i
  cases found : pattern[i]? with
  | none =>
      rw [drop_of_getElem?_none found]
      exact membersAt_end found
  | some b =>
      have member := memberAt_eq pattern byte i
      cases read : readMember? (pattern.drop i) with
      | none =>
          rw [read] at member
          exact membersAt_none found (by simp) member
      | some pair =>
          obtain ⟨range, left⟩ := pair
          rw [read] at member
          obtain ⟨next, rfl, step⟩ := member
          have tail := membersAt_eq pattern byte negated next (false || range.contains byte)
          rw [membersAt_member found (by simp) step]
          dsimp only [Option.bind_some]
          cases more : readMembers? (pattern.drop next) with
          | none => rw [more] at tail; exact tail
          | some pair =>
              obtain ⟨members, rest⟩ := pair
              rw [more] at tail
              obtain ⟨last, inside, rfl, done⟩ := tail
              exact ⟨last, inside, rfl, by rw [done, ByteClass.contains, List.any_cons, Bool.false_or]⟩

end

theorem byteAt_eq_ok {bytes : Bytes} {b : UInt8} (found : bytes[i]? = some b) :
    byteAt bytes i = .ok b := by
  rw [byteAt, found]

theorem tokens_cons (b : UInt8) (rest : Bytes) :
    tokens (b :: rest) = (readToken b rest).1 :: tokens (readToken b rest).2 := by
  rw [tokens]

/-- How a move of the cursors answers to the tokens of the pattern from its cursor on. -/
inductive Moves (pattern : Bytes) (p : Nat) (c : UInt8) :
    List Token → Except OutOfRange Move → Prop where
  | nothing : Moves pattern p c [] (.ok .stuck)
  | star (inside : p < pattern.length) :
      Moves pattern p c (.star :: tokens (pattern.drop (p + 1))) (.ok .star)
  | taken {atom : Atom} {next : Nat} (accepted : atom.accepts c = true)
      (inside : next ≤ pattern.length) :
      Moves pattern p c (.one atom :: tokens (pattern.drop next)) (.ok (.take next))
  | refused {atom : Atom} {rest : List Token} (refused : atom.accepts c = false) :
      Moves pattern p c (.one atom :: rest) (.ok .stuck)

theorem moves_atom {b : UInt8} (atom : Atom) {rest : Bytes} {p next : Nat} {c : UInt8}
    {move : Except OutOfRange Move} (read : readToken b rest = (.one atom, pattern.drop next))
    (inside : next ≤ pattern.length)
    (decided : move = .ok (if atom.accepts c = true then .take next else .stuck)) :
    Moves pattern p c (tokens (b :: rest)) move := by
  rw [tokens_cons, read, decided]
  cases accepted : atom.accepts c with
  | true => exact .taken accepted inside
  | false => exact .refused accepted

theorem readToken_open (rest : Bytes) : readToken openBracket rest =
    match readClass? rest with
    | some (byteClass, rest) => (.one (.oneOf byteClass), rest)
    | none => (.one (.literal openBracket), rest) := rfl

theorem readToken_backslash (rest : Bytes) : readToken backslash rest =
    match rest with
    | escaped :: rest => (.one (.literal escaped), rest)
    | [] => (.one (.literal backslash), []) := rfl

theorem readToken_literal {b : UInt8} (noStar : b ≠ starSign) (noQuestion : b ≠ questionMark)
    (noOpen : b ≠ openBracket) (noBackslash : b ≠ backslash) (rest : Bytes) :
    readToken b rest = (.one (.literal b), rest) := by
  unfold readToken
  rw [if_neg (by exact noStar), if_neg (by exact noQuestion), if_neg noOpen, if_neg noBackslash]

theorem readToken_one {b : UInt8} (noStar : b ≠ starSign) (rest : Bytes) :
    ∃ atom left, readToken b rest = (.one atom, left) := by
  unfold readToken
  rw [if_neg (by exact noStar)]
  repeat' split
  all_goals exact ⟨_, _, rfl⟩

theorem accepts_literal {b c : UInt8} : (Atom.literal b).accepts c = true ↔ b = c := by
  rw [Atom.accepts, decide_eq_true_eq, eq_comm]

/-- At a bracket a class takes the byte, or the bracket stands for itself. -/
theorem moves_open {p : Nat} (inside : p < pattern.length) (c : UInt8) :
    Moves pattern p c (tokens (openBracket :: pattern.drop (p + 1))) (do
      match ← classAt pattern p c with
      | some (true, next) => .ok (.take next)
      | some (false, _) => .ok .stuck
      | none => .ok (if c = openBracket then .take (p + 1) else .stuck)) := by
  have read := classAt_eq pattern p c
  cases closed : readClass? (pattern.drop (p + 1)) with
  | none =>
      rw [closed] at read
      rw [read]
      refine moves_atom (.literal openBracket) ?_ inside ?_
      · rw [readToken_open, closed]
      · have same : (Atom.literal openBracket).accepts c = true ↔ c = openBracket := by
          rw [accepts_literal, eq_comm]
        simp only [same]
        rfl
  | some pair =>
      obtain ⟨byteClass, rest⟩ := pair
      rw [closed] at read
      obtain ⟨next, within, rfl, done⟩ := read
      rw [done]
      refine moves_atom (.oneOf byteClass) ?_ within ?_
      · rw [readToken_open, closed]
      · rw [Atom.accepts]
        cases byteClass.contains c <;> rfl

theorem moves_literal {b c : UInt8} {p next : Nat} {rest : Bytes}
    (read : readToken b rest = (.one (.literal byte), pattern.drop next))
    (inside : next ≤ pattern.length) :
    Moves pattern p c (tokens (b :: rest)) (.ok (if byte = c then .take next else .stuck)) := by
  refine moves_atom (.literal byte) read inside ?_
  simp only [accepts_literal]

theorem moveAt_moves {p t : Nat} {c : UInt8} (there : text[t]? = some c) :
    Moves pattern p c (tokens (pattern.drop p)) (moveAt pattern text p t) := by
  cases found : pattern[p]? with
  | none =>
      have outside : ¬ p < pattern.length := Nat.not_lt.mpr (List.getElem?_eq_none_iff.mp found)
      rw [drop_of_getElem?_none found, tokens, moveAt, if_neg outside]
      exact .nothing
  | some b =>
      obtain ⟨inside, -⟩ := List.getElem?_eq_some_iff.mp found
      rw [drop_of_getElem? found, moveAt, if_pos inside, byteAt_eq_ok found, byteAt_eq_ok there]
      simp only [bind, Except.bind]
      by_cases isStar : b = starSign
      · subst isStar
        rw [if_pos rfl, tokens_cons]
        exact .star inside
      by_cases isQuestion : b = questionMark
      · subst isQuestion
        exact moves_atom .any rfl inside rfl
      by_cases isOpen : b = openBracket
      · subst isOpen
        exact moves_open inside c
      rw [if_neg isStar, if_neg isQuestion, if_neg isOpen]
      by_cases isBackslash : b = backslash
      · subst isBackslash
        cases behind : pattern[p + 1]? with
        | none =>
            have last : pattern.length ≤ p + 1 := List.getElem?_eq_none_iff.mp behind
            have ends : (backslash = backslash && decide (p + 1 < pattern.length)) = false := by
              simp [Nat.not_lt.mpr last]
            rw [ends]
            refine moves_literal ?_ inside
            rw [readToken_backslash, drop_of_getElem?_none behind]
        | some escaped =>
            obtain ⟨further, -⟩ := List.getElem?_eq_some_iff.mp behind
            have goes : (backslash = backslash && decide (p + 1 < pattern.length)) = true := by
              simp [further]
            rw [goes, byteAt_eq_ok behind]
            refine moves_literal ?_ further
            rw [readToken_backslash, drop_of_getElem? behind]
      · have plain : (b = backslash && decide (p + 1 < pattern.length)) = false := by
          simp [isBackslash]
        rw [plain]
        exact moves_literal (readToken_literal isStar isQuestion isOpen isBackslash _) inside

/-- Whether the cursors are where the moves can bring them: between the last star and the pattern's
cursor are tokens that have taken one byte each. -/
structure Cursors.Sound (pattern text : Bytes) (cursors : Cursors) : Prop where
  inPattern : cursors.inPattern ≤ pattern.length
  inText : cursors.inText ≤ text.length
  stretch : ∀ p t, cursors.lastStar? = some (p, t) → p ≤ pattern.length ∧
    ∃ atoms : List Atom, cursors.inText = t + atoms.length ∧
      tokens (pattern.drop p) = atoms.map .one ++ tokens (pattern.drop cursors.inPattern)

/-- Whether the rest of the text can be taken from here, or from the last star on if it takes more. -/
def Cursors.Hopeful (pattern text : Bytes) (cursors : Cursors) : Prop :=
  Takes (tokens (pattern.drop cursors.inPattern)) (text.drop cursors.inText) ∨
    ∃ last, cursors.lastStar? = some last ∧
      Takes (.star :: tokens (pattern.drop last.1)) (text.drop (last.2 + 1))

theorem takes_nil_iff (pattern : Bytes) :
    Takes (tokens pattern) [] ↔ pattern.all (· == starSign) = true := by
  induction pattern with
  | nil => simp [tokens, takes_empty_iff]
  | cons b rest ih =>
      by_cases isStar : b = starSign
      · subst isStar
        have read : readToken starSign rest = (.star, rest) := rfl
        rw [tokens_cons, read, takes_star_iff]
        simpa using ih
      · obtain ⟨atom, left, read⟩ := readToken_one isStar rest
        rw [tokens_cons, read]
        simp [not_takes_one_nil, isStar]

theorem Moves.ne_error {p : Nat} {c : UInt8} {tokens : List Token} {move : Except OutOfRange Move}
    (moves : Moves pattern p c tokens move) (cause : OutOfRange) : move ≠ .error cause := by
  cases moves with
  | _ => exact nofun

theorem Moves.not_takes {p : Nat} {c : UInt8} {tokens : List Token}
    (stuck : Moves pattern p c tokens (.ok .stuck)) : ¬ Takes tokens (c :: text) := by
  cases stuck with
  | nothing => simp [takes_empty_iff]
  | refused refused => simp [takes_one_iff, refused]

/-- What an earlier star could still be given, the tokens behind the stretch can be given as well. -/
theorem Takes.exchange {atoms : List Atom} {rest : List Token} {t : Nat}
    (taken : Takes (.star :: (atoms.map .one ++ rest)) (text.drop (t + 1))) :
    ∃ k, Takes rest ((text.drop (t + atoms.length)).drop k) := by
  obtain ⟨k, taken⟩ := takes_star_iff.mp taken
  have behind := taken.behind_stretch
  refine ⟨k + 1, ?_⟩
  rw [List.drop_drop, List.drop_drop] at behind
  rwa [List.drop_drop, show t + atoms.length + (k + 1) = t + 1 + (k + atoms.length) by omega]

namespace Cursors

variable {cursors : Cursors}

theorem Sound.passStar (sound : cursors.Sound pattern text)
    (inside : cursors.inPattern < pattern.length) : cursors.passStar.Sound pattern text := by
  refine ⟨inside, sound.inText, fun p t last => ?_⟩
  cases last
  exact ⟨inside, [], rfl, rfl⟩

theorem Sound.takeByte {atom : Atom} {next : Nat} (sound : cursors.Sound pattern text)
    (within : next ≤ pattern.length) (inside : cursors.inText < text.length)
    (spelled : tokens (pattern.drop cursors.inPattern) = .one atom :: tokens (pattern.drop next)) :
    (cursors.takeByte next).Sound pattern text := by
  refine ⟨within, inside, fun p t last => ?_⟩
  obtain ⟨valid, atoms, place, stretch⟩ := sound.stretch p t last
  refine ⟨valid, atoms ++ [atom], ?_, ?_⟩
  · rw [List.length_append, List.length_singleton, ← Nat.add_assoc, ← place]
    rfl
  · rw [stretch, spelled]
    simp [Cursors.takeByte]

theorem Sound.resume {p t : Nat} (sound : cursors.Sound pattern text)
    (inside : cursors.inText < text.length) (last : cursors.lastStar? = some (p, t)) :
    (Cursors.resume p t).Sound pattern text := by
  obtain ⟨valid, atoms, place, -⟩ := sound.stretch p t last
  refine ⟨valid, ?_, fun q s again => ?_⟩
  · show t + 1 ≤ text.length
    omega
  · cases again
    exact ⟨valid, [], rfl, rfl⟩

theorem hopeful_passStar (sound : cursors.Sound pattern text)
    (spelled : tokens (pattern.drop cursors.inPattern) =
      .star :: tokens (pattern.drop (cursors.inPattern + 1))) :
    cursors.passStar.Hopeful pattern text ↔ cursors.Hopeful pattern text := by
  have now : cursors.passStar.Hopeful pattern text ↔
      Takes (.star :: tokens (pattern.drop (cursors.inPattern + 1)))
        (text.drop cursors.inText) := by
    rw [takes_star_drop, Hopeful]
    simp [passStar]
  rw [now, Hopeful, spelled]
  constructor
  · exact .inl
  · rintro (taken | ⟨⟨p, t⟩, last, taken⟩)
    · exact taken
    · obtain ⟨-, atoms, place, stretch⟩ := sound.stretch p t last
      rw [stretch, spelled] at taken
      obtain ⟨k, behind⟩ := taken.exchange
      rw [place]
      exact behind.of_suffix

theorem hopeful_takeByte {atom : Atom} {next : Nat} {c : UInt8} (accepted : atom.accepts c = true)
    (spelled : tokens (pattern.drop cursors.inPattern) = .one atom :: tokens (pattern.drop next))
    (front : text.drop cursors.inText = c :: text.drop (cursors.inText + 1)) :
    (cursors.takeByte next).Hopeful pattern text ↔ cursors.Hopeful pattern text := by
  rw [Hopeful, Hopeful, spelled, front, takes_one_iff, accepted]
  simp [takeByte]

theorem hopeful_resume {p t : Nat}
    (stuck : ¬ Takes (tokens (pattern.drop cursors.inPattern)) (text.drop cursors.inText))
    (last : cursors.lastStar? = some (p, t)) :
    (Cursors.resume p t).Hopeful pattern text ↔ cursors.Hopeful pattern text := by
  have now : (Cursors.resume p t).Hopeful pattern text ↔
      Takes (.star :: tokens (pattern.drop p)) (text.drop (t + 1)) := by
    rw [takes_star_drop, Hopeful]
    simp [resume]
  rw [now, Hopeful]
  simp [stuck, last]

theorem hopeful_at_end (sound : cursors.Sound pattern text)
    (ended : text.length ≤ cursors.inText) :
    cursors.Hopeful pattern text ↔ Takes (tokens (pattern.drop cursors.inPattern)) [] := by
  have nothing : text.drop cursors.inText = [] := List.drop_eq_nil_of_le ended
  rw [Hopeful, nothing]
  constructor
  · rintro (taken | ⟨⟨p, t⟩, last, taken⟩)
    · exact taken
    · obtain ⟨-, atoms, place, stretch⟩ := sound.stretch p t last
      rw [stretch] at taken
      obtain ⟨k, behind⟩ := taken.exchange
      rwa [← place, nothing, List.drop_nil] at behind
  · exact .inl

end Cursors

theorem scanFrom_spec {cursors : Cursors} (sound : cursors.Sound pattern text) :
    ∃ answer, scanFrom pattern text cursors = .ok answer ∧
      (answer = true ↔ cursors.Hopeful pattern text) := by
  have movesAt : ∀ {cursors : Cursors} (inside : cursors.inText < text.length),
      text.drop cursors.inText = text[cursors.inText] :: text.drop (cursors.inText + 1) ∧
        Moves pattern cursors.inPattern text[cursors.inText]
          (tokens (pattern.drop cursors.inPattern))
          (moveAt pattern text cursors.inPattern cursors.inText) := fun inside =>
    ⟨List.drop_eq_getElem_cons inside, moveAt_moves (List.getElem?_eq_getElem inside)⟩
  fun_induction scanFrom pattern text cursors with
  | case1 cursors inside cause move =>
      exact absurd move ((movesAt inside).2.ne_error cause)
  | case2 cursors inside move ih =>
      obtain ⟨-, moves⟩ := movesAt inside
      rw [move] at moves
      generalize spelled : tokens (pattern.drop cursors.inPattern) = here at moves
      cases moves with
      | star valid =>
          rw [← Cursors.hopeful_passStar sound spelled]
          exact ih (sound.passStar valid)
  | case3 cursors inside next move ih =>
      obtain ⟨front, moves⟩ := movesAt inside
      rw [move] at moves
      generalize spelled : tokens (pattern.drop cursors.inPattern) = here at moves
      cases moves with
      | taken accepted within =>
          rw [← Cursors.hopeful_takeByte accepted spelled front]
          exact ih (sound.takeByte within inside spelled)
  | case4 cursors inside move first =>
      obtain ⟨front, moves⟩ := movesAt inside
      rw [move] at moves
      refine ⟨false, rfl, iff_of_false Bool.false_ne_true ?_⟩
      rw [Cursors.Hopeful, front]
      rintro (taken | ⟨last, resumes, -⟩)
      · exact moves.not_takes taken
      · rw [first] at resumes
        cases resumes
  | case5 cursors inside move p t last ih =>
      obtain ⟨front, moves⟩ := movesAt inside
      rw [move] at moves
      rw [← Cursors.hopeful_resume (by rw [front]; exact moves.not_takes) last]
      exact ih (sound.resume inside last)
  | case6 cursors ended inside =>
      refine ⟨_, rfl, ?_⟩
      rw [Cursors.hopeful_at_end sound (Nat.not_lt.mp ended), takes_nil_iff]
  | case7 cursors ended outside => exact absurd sound.inPattern outside

/-- The cursors come to an end inside of pattern and text, and find the pieces if there are any. -/
theorem scan_spec (pattern text : Bytes) :
    ∃ answer, scan pattern text = .ok answer ∧ (answer = true ↔ Takes (tokens pattern) text) := by
  have start : Cursors.Sound pattern text {} := by
    refine ⟨Nat.zero_le _, Nat.zero_le _, ?_⟩
    intro p t starred
    cases starred
  obtain ⟨answer, done, right⟩ := scanFrom_spec start
  refine ⟨answer, done, right.trans ?_⟩
  simp [Cursors.Hopeful]

end ShardStore.Glob
