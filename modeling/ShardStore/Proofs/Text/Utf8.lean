import ShardStore.Text.Utf8

namespace ShardStore.Text

theorem isTail_iff {b : UInt8} : isTail b = true ↔ 0x80 ≤ b.toNat ∧ b.toNat ≤ 0xBF := by
  simp [isTail, UInt8.le_iff_toNat_le]

theorem scalarAt_one {a : UInt8} (lead : a.toNat < 0x80) (rest : Bytes) :
    scalarAt a rest = (some (Char.ofNat a.toNat), 0) := by
  have below : a < 0x80 := UInt8.lt_iff_toNat_lt.mpr lead
  simp only [scalarAt, below, if_true]

theorem scalarAt_two {a b : UInt8} (lead : 0xC2 ≤ a.toNat ∧ a.toNat ≤ 0xDF)
    (second : isTail b = true) (rest : Bytes) :
    scalarAt a (b :: rest) = (some (scalar2 a b), 1) := by
  have above : ¬ a < 0x80 := fun below => by
    have : a.toNat < 0x80 := UInt8.lt_iff_toNat_lt.mp below
    omega
  have within : (0xC2 ≤ a && a ≤ 0xDF) = true := by
    simpa [UInt8.le_iff_toNat_le] using lead
  simp only [scalarAt, above, within, second, if_true, if_false]

theorem scalarAt_three {a b c : UInt8} (lead : 0xE0 ≤ a.toNat ∧ a.toNat ≤ 0xEF)
    (second : isSecondOfThree a b = true) (third : isTail c = true) (rest : Bytes) :
    scalarAt a (b :: c :: rest) = (some (scalar3 a b c), 2) := by
  have above : ¬ a < 0x80 := fun below => by
    have : a.toNat < 0x80 := UInt8.lt_iff_toNat_lt.mp below
    omega
  have behindTwo : (0xC2 ≤ a && a ≤ 0xDF) = false := by
    simp only [Bool.and_eq_false_iff, decide_eq_false_iff_not, UInt8.le_iff_toNat_le,
      UInt8.reduceToNat]
    omega
  have within : (0xE0 ≤ a && a ≤ 0xEF) = true := by
    simpa [UInt8.le_iff_toNat_le] using lead
  simp only [scalarAt, above, behindTwo, within, second, third, Bool.not_true, if_true, if_false,
    Bool.false_eq_true]

theorem scalarAt_four {a b c d : UInt8} (lead : 0xF0 ≤ a.toNat ∧ a.toNat ≤ 0xF4)
    (second : isSecondOfFour a b = true) (third : isTail c = true) (fourth : isTail d = true)
    (rest : Bytes) : scalarAt a (b :: c :: d :: rest) = (some (scalar4 a b c d), 3) := by
  have above : ¬ a < 0x80 := fun below => by
    have : a.toNat < 0x80 := UInt8.lt_iff_toNat_lt.mp below
    omega
  have behindTwo : (0xC2 ≤ a && a ≤ 0xDF) = false := by
    simp only [Bool.and_eq_false_iff, decide_eq_false_iff_not, UInt8.le_iff_toNat_le,
      UInt8.reduceToNat]
    omega
  have behindThree : (0xE0 ≤ a && a ≤ 0xEF) = false := by
    simp only [Bool.and_eq_false_iff, decide_eq_false_iff_not, UInt8.le_iff_toNat_le,
      UInt8.reduceToNat]
    omega
  have within : (0xF0 ≤ a && a ≤ 0xF4) = true := by
    simpa [UInt8.le_iff_toNat_le] using lead
  simp only [scalarAt, above, behindTwo, behindThree, within, second, third, fourth, Bool.not_true,
    if_true, if_false, Bool.false_eq_true]

theorem scalars_cons {a : UInt8} {rest : Bytes} {scalar : Option Char} {width : Nat}
    (found : scalarAt a rest = (scalar, width)) :
    scalars (a :: rest) = scalar :: scalars (rest.drop width) := by
  rw [scalars, found]

theorem toNat_byte {n : Nat} (small : n < 256) : (UInt8.ofNat n).toNat = n := by
  simpa using small

theorem isTail_byte (n : Nat) : isTail (UInt8.ofNat (n % 0x40 + 0x80)) = true := by
  rw [isTail_iff, toNat_byte (by omega)]
  omega

theorem isSecondOfThree_iff {a b : UInt8} : isSecondOfThree a b = true ↔
    0x80 ≤ b.toNat ∧ b.toNat ≤ 0xBF ∧ (a.toNat = 0xE0 → 0xA0 ≤ b.toNat) ∧
      (a.toNat = 0xED → b.toNat ≤ 0x9F) := by
  simp only [isSecondOfThree, isTail, ← UInt8.toNat_inj, UInt8.reduceToNat]
  split
  · simp only [Bool.and_eq_true, decide_eq_true_eq, UInt8.le_iff_toNat_le, UInt8.reduceToNat]
    omega
  · split
    · simp only [Bool.and_eq_true, decide_eq_true_eq, UInt8.le_iff_toNat_le, UInt8.reduceToNat]
      omega
    · simp only [Bool.and_eq_true, decide_eq_true_eq, UInt8.le_iff_toNat_le, UInt8.reduceToNat]
      omega

theorem isSecondOfFour_iff {a b : UInt8} : isSecondOfFour a b = true ↔
    0x80 ≤ b.toNat ∧ b.toNat ≤ 0xBF ∧ (a.toNat = 0xF0 → 0x90 ≤ b.toNat) ∧
      (a.toNat = 0xF4 → b.toNat ≤ 0x8F) := by
  simp only [isSecondOfFour, isTail, ← UInt8.toNat_inj, UInt8.reduceToNat]
  split
  · simp only [Bool.and_eq_true, decide_eq_true_eq, UInt8.le_iff_toNat_le, UInt8.reduceToNat]
    omega
  · split
    · simp only [Bool.and_eq_true, decide_eq_true_eq, UInt8.le_iff_toNat_le, UInt8.reduceToNat]
      omega
    · simp only [Bool.and_eq_true, decide_eq_true_eq, UInt8.le_iff_toNat_le, UInt8.reduceToNat]
      omega

/-- The bytes of a character are read as that character, whatever stands behind them. -/
theorem scalars_utf8EncodeChar (c : Char) (rest : Bytes) :
    scalars (String.utf8EncodeChar c ++ rest) = some c :: scalars rest := by
  have range : c.val.toNat < 0xD800 ∨ 0xDFFF < c.val.toNat ∧ c.val.toNat < 0x110000 := c.valid
  have whole : Char.ofNat c.val.toNat = c := Char.ofNat_toNat c
  unfold String.utf8EncodeChar
  dsimp only
  generalize c.val.toNat = n at range whole ⊢
  -- One case for each number of bytes.
  split
  case isTrue one =>
    have lead := toNat_byte (n := n) (by omega)
    have found := scalarAt_one (a := UInt8.ofNat n) (by omega) rest
    rw [List.singleton_append, scalars_cons found, lead, whole]
    rfl
  split
  case isTrue two =>
    have lead := toNat_byte (n := n / 64 % 0x20 + 0xC0) (by omega)
    have last := toNat_byte (n := n % 0x40 + 0x80) (by omega)
    have found := scalarAt_two (a := UInt8.ofNat (n / 64 % 0x20 + 0xC0)) (by omega)
      (isTail_byte n) rest
    have value : (n / 64 % 0x20 + 0xC0 - 0xC0) * 64 + (n % 0x40 + 0x80 - 0x80) = n := by omega
    rw [List.cons_append, List.singleton_append, scalars_cons found, scalar2, lead, last, value,
      whole]
    rfl
  split
  case isTrue three =>
    have lead := toNat_byte (n := n / 4096 % 0x10 + 0xE0) (by omega)
    have second := toNat_byte (n := n / 64 % 0x40 + 0x80) (by omega)
    have last := toNat_byte (n := n % 0x40 + 0x80) (by omega)
    have allowed : isSecondOfThree (UInt8.ofNat (n / 4096 % 0x10 + 0xE0))
        (UInt8.ofNat (n / 64 % 0x40 + 0x80)) = true := by
      rw [isSecondOfThree_iff, lead, second]
      omega
    have found := scalarAt_three (by omega) allowed (isTail_byte n) rest
    have value : (n / 4096 % 0x10 + 0xE0 - 0xE0) * 4096 + (n / 64 % 0x40 + 0x80 - 0x80) * 64 +
        (n % 0x40 + 0x80 - 0x80) = n := by omega
    rw [List.cons_append, List.cons_append, List.singleton_append, scalars_cons found, scalar3,
      lead, second, last, value, whole]
    rfl
  case isFalse four =>
    have lead := toNat_byte (n := n / 262144 % 0x08 + 0xF0) (by omega)
    have second := toNat_byte (n := n / 4096 % 0x40 + 0x80) (by omega)
    have third := toNat_byte (n := n / 64 % 0x40 + 0x80) (by omega)
    have last := toNat_byte (n := n % 0x40 + 0x80) (by omega)
    have allowed : isSecondOfFour (UInt8.ofNat (n / 262144 % 0x08 + 0xF0))
        (UInt8.ofNat (n / 4096 % 0x40 + 0x80)) = true := by
      rw [isSecondOfFour_iff, lead, second]
      omega
    have found := scalarAt_four (by omega) allowed (isTail_byte (n / 64)) (isTail_byte n) rest
    have value : (n / 262144 % 0x08 + 0xF0 - 0xF0) * 262144 +
        (n / 4096 % 0x40 + 0x80 - 0x80) * 4096 + (n / 64 % 0x40 + 0x80 - 0x80) * 64 +
        (n % 0x40 + 0x80 - 0x80) = n := by omega
    rw [List.cons_append, List.cons_append, List.cons_append, List.singleton_append,
      scalars_cons found, scalar4, lead, second, third, last, value, whole]
    rfl

theorem scalars_flatMap (cs : List Char) :
    scalars (cs.flatMap String.utf8EncodeChar) = cs.map some := by
  induction cs with
  | nil => simp [scalars]
  | cons c rest ih =>
      rw [List.flatMap_cons, scalars_utf8EncodeChar, ih, List.map_cons]

theorem lossy_encode (text : String) : lossy (encode text) = text := by
  have kept : (text.toList.map some).map (·.getD replacement) = text.toList := by
    simp [Function.comp_def]
  rw [lossy, encode, scalars_flatMap, kept, String.ofList_toList]

theorem mem_utf8EncodeChar_of_lt {c : Char} {b : UInt8} (mem : b ∈ String.utf8EncodeChar c)
    (ascii : b.toNat < 0x80) : b.toNat = c.toNat := by
  unfold String.utf8EncodeChar at mem
  dsimp only at mem
  change b.toNat = c.val.toNat
  generalize c.val.toNat = n at mem ⊢
  split at mem
  · next one =>
    rw [List.mem_singleton.mp mem, toNat_byte (by omega)]
  · have high : ∀ k, k < 0x80 → b = UInt8.ofNat (k + 0x80) → b.toNat = n := fun k bound same => by
      rw [same, toNat_byte (by omega)] at ascii
      omega
    split at mem
    · simp only [List.mem_cons, List.not_mem_nil, or_false] at mem
      rcases mem with same | same
      · exact high (n / 64 % 0x20 + 0x40) (by omega) same
      · exact high (n % 0x40) (by omega) same
    · split at mem
      · simp only [List.mem_cons, List.not_mem_nil, or_false] at mem
        rcases mem with same | same | same
        · exact high (n / 4096 % 0x10 + 0x60) (by omega) same
        · exact high (n / 64 % 0x40) (by omega) same
        · exact high (n % 0x40) (by omega) same
      · simp only [List.mem_cons, List.not_mem_nil, or_false] at mem
        rcases mem with same | same | same | same
        · exact high (n / 262144 % 0x08 + 0x70) (by omega) same
        · exact high (n / 4096 % 0x40) (by omega) same
        · exact high (n / 64 % 0x40) (by omega) same
        · exact high (n % 0x40) (by omega) same

theorem not_mem_encode {text : String} {b : UInt8} {c : Char} (ascii : b.toNat < 0x80)
    (same : b.toNat = c.toNat) (absent : c ∉ text.toList) : b ∉ encode text := by
  intro mem
  obtain ⟨other, member, byte⟩ := List.mem_flatMap.mp mem
  have equal : other = c := Char.toNat_inj.mp ((mem_utf8EncodeChar_of_lt byte ascii).symm.trans same)
  exact absent (equal ▸ member)

theorem isTail_high {b : UInt8} (tail : isTail b = true) : 0x80 ≤ b.toNat :=
  (isTail_iff.mp tail).1

theorem isSecondOfThree_high {a b : UInt8} (second : isSecondOfThree a b = true) :
    0x80 ≤ b.toNat :=
  (isSecondOfThree_iff.mp second).1

theorem isSecondOfFour_high {a b : UInt8} (second : isSecondOfFour a b = true) : 0x80 ≤ b.toNat :=
  (isSecondOfFour_iff.mp second).1

/-- A byte that is counted to the one in front of it is no ASCII. -/
theorem scalarAt_taken (lead : UInt8) (rest : Bytes) :
    ∀ b ∈ rest.take (scalarAt lead rest).2, 0x80 ≤ b.toNat := by
  have tail := @isTail_high
  have ofThree := @isSecondOfThree_high lead
  have ofFour := @isSecondOfFour_high lead
  unfold scalarAt
  repeat' split
  all_goals simp_all

/-- A byte of ASCII is shown as its character, even among bytes that spell none. -/
theorem mem_lossy {bytes : Bytes} {b : UInt8} (mem : b ∈ bytes) (ascii : b.toNat < 0x80) :
    Char.ofNat b.toNat ∈ (lossy bytes).toList := by
  suffices found : some (Char.ofNat b.toNat) ∈ scalars bytes by
    rw [lossy, String.toList_ofList]
    exact List.mem_map_of_mem found
  induction bytes using scalars.induct with
  | case1 => cases mem
  | case2 lead rest scalar width split ih =>
      rw [scalars_cons split]
      rcases List.mem_cons.mp mem with same | mem
      · rw [← same, scalarAt_one ascii] at split
        cases split
        exact List.mem_cons_self
      · rw [← List.take_append_drop width rest] at mem
        rcases List.mem_append.mp mem with taken | mem
        · have high := scalarAt_taken lead rest b (by rwa [split])
          omega
        · exact List.mem_cons_of_mem _ (ih mem)

theorem toNat_ofNat_or (n : Nat) : (Char.ofNat n).toNat = n ∨ (Char.ofNat n).toNat = 0 := by
  by_cases valid : n.isValidChar
  · rw [Char.ofNat, dif_pos valid]
    exact .inl rfl
  · rw [Char.ofNat, dif_neg valid]
    exact .inr rfl

/-- A character of ASCII, other than NUL, stands for a byte of its own. -/
theorem scalarAt_ascii {lead : UInt8} {rest : Bytes} {c : Char}
    (found : (scalarAt lead rest).1 = some c) (ascii : c.toNat < 0x80) (visible : 0 < c.toNat) :
    lead.toNat = c.toNat := by
  have wide : ∀ n, 0x80 ≤ n → Char.ofNat n ≠ c := by
    intro n large same
    have value := toNat_ofNat_or n
    rw [same] at value
    omega
  unfold scalarAt at found
  split at found
  · cases found
    have value := toNat_ofNat_or lead.toNat
    omega
  split at found
  · next two =>
    simp only [Bool.and_eq_true, decide_eq_true_eq, UInt8.le_iff_toNat_le, UInt8.reduceToNat] at two
    repeat' split at found
    all_goals simp only [reduceCtorEq, Option.some.injEq] at found
    refine absurd found (wide _ ?_)
    omega
  split at found
  · next three =>
    simp only [Bool.and_eq_true, decide_eq_true_eq, UInt8.le_iff_toNat_le, UInt8.reduceToNat] at three
    repeat' split at found
    all_goals simp only [reduceCtorEq, Option.some.injEq] at found
    next b c _ second _ =>
    have range := isSecondOfThree_iff.mp (by simpa using second)
    refine absurd found (wide _ ?_)
    omega
  split at found
  · next four =>
    simp only [Bool.and_eq_true, decide_eq_true_eq, UInt8.le_iff_toNat_le, UInt8.reduceToNat] at four
    repeat' split at found
    all_goals simp only [reduceCtorEq, Option.some.injEq] at found
    next b c d _ second _ _ =>
    have range := isSecondOfFour_iff.mp (by simpa using second)
    refine absurd found (wide _ ?_)
    omega
  · cases found

theorem eq_some_of_getD {scalar : Option Char} {c : Char} (shown : scalar.getD replacement = c)
    (ascii : c.toNat < 0x80) : scalar = some c := by
  cases scalar with
  | some d => exact congrArg some shown
  | none =>
      rw [← shown, Option.getD_none, show replacement.toNat = 0xFFFD from rfl] at ascii
      omega

/-- A character of ASCII is shown only where its byte is. -/
theorem mem_of_mem_lossy {bytes : Bytes} {b : UInt8} (ascii : b.toNat < 0x80)
    (visible : 0 < b.toNat) (mem : Char.ofNat b.toNat ∈ (lossy bytes).toList) : b ∈ bytes := by
  have value : (Char.ofNat b.toNat).toNat = b.toNat := by
    rw [Char.ofNat, dif_pos (.inl (by omega))]
    rfl
  rw [lossy, String.toList_ofList] at mem
  obtain ⟨scalar, spelled, shown⟩ := List.mem_map.mp mem
  clear mem
  have found := eq_some_of_getD shown (by omega)
  subst found
  induction bytes using scalars.induct with
  | case1 => simp [scalars] at spelled
  | case2 lead rest scalar width split ih =>
      rw [scalars_cons split] at spelled
      rcases List.mem_cons.mp spelled with same | spelled
      · have lead : (scalarAt lead rest).1 = some (Char.ofNat b.toNat) := by rw [split, same]
        have lone := scalarAt_ascii lead (by omega) (by omega)
        rw [value] at lone
        exact List.mem_cons.mpr (.inl (UInt8.toNat_inj.mp lone.symm))
      · exact List.mem_cons_of_mem _ (List.mem_of_mem_drop (ih spelled))

theorem utf8EncodeChar_ascii {c : Char} (ascii : c.toNat < 0x80) :
    String.utf8EncodeChar c = [UInt8.ofNat c.toNat] := by
  have one : c.val.toNat ≤ 0x7F := Nat.le_of_lt_succ ascii
  simp only [String.utf8EncodeChar, if_pos one]
  rfl

theorem flatMap_utf8EncodeChar_of_scalars {cs : List Char} {bytes : Bytes}
    (ascii : ∀ c ∈ cs, 0 < c.toNat ∧ c.toNat < 0x80)
    (shown : (scalars bytes).map (·.getD replacement) = cs) :
    cs.flatMap String.utf8EncodeChar = bytes := by
  induction bytes using scalars.induct generalizing cs with
  | case1 =>
      rw [scalars] at shown
      rw [← shown]
      rfl
  | case2 lead rest scalar width split ih =>
      rw [scalars_cons split, List.map_cons] at shown
      subst shown
      obtain ⟨visible, small⟩ := ascii _ List.mem_cons_self
      have found := eq_some_of_getD rfl small
      generalize scalar.getD replacement = c at found visible small
      subst found
      have lone : lead.toNat = c.toNat := scalarAt_ascii (by rw [split]) small visible
      rw [scalarAt_one (by omega)] at split
      cases split
      have tail := ih (fun c mem => ascii c (List.mem_cons_of_mem _ mem)) rfl
      rw [List.drop_zero] at tail
      rw [List.flatMap_cons, List.drop_zero, tail, utf8EncodeChar_ascii small, ← lone]
      simp

/-- Only the bytes of a text of ASCII are shown as that text. -/
theorem encode_of_lossy {bytes : Bytes} {text : String}
    (ascii : ∀ c ∈ text.toList, 0 < c.toNat ∧ c.toNat < 0x80) (shown : lossy bytes = text) :
    encode text = bytes := by
  refine flatMap_utf8EncodeChar_of_scalars ascii ?_
  rw [← shown, lossy, String.toList_ofList]

end ShardStore.Text
