import ShardStore.Keyspace.Glob

/-!
Cutting a text into pieces. A star may take nothing, or one byte and go on; so what a star in front can
take of a text it can take of any text that ends in it (`Takes.of_suffix`). That is why it is enough to
look for each stretch between two stars at the first place where it fits
(`matchesTokens_iff_takes`).
-/

namespace ShardStore.Glob

variable {rest : List Token} {text left : Bytes} {atoms : List Atom}

theorem takes_empty_iff : Takes [] text ↔ text = [] := by
  constructor
  · intro taken
    cases taken
    rfl
  · rintro rfl
    exact .nil

theorem takes_one_iff {atom : Atom} {b : UInt8} :
    Takes (.one atom :: rest) (b :: text) ↔ atom.accepts b = true ∧ Takes rest text := by
  constructor
  · intro taken
    cases taken with
    | one accepted taken => exact ⟨accepted, taken⟩
  · rintro ⟨accepted, taken⟩
    exact .one accepted taken

theorem not_takes_one_nil {atom : Atom} : ¬ Takes (.one atom :: rest) [] := nofun

theorem takes_star_iff : Takes (.star :: rest) text ↔ ∃ k, Takes rest (text.drop k) := by
  constructor
  · intro taken
    cases taken with
    | star piece taken => exact ⟨piece.length, by rwa [List.drop_left]⟩
  · rintro ⟨k, taken⟩
    have whole := Takes.star (text.take k) taken
    rwa [List.take_append_drop] at whole

/-- A star may leave what it is offered to the tokens behind it, or take one byte of it. -/
theorem takes_star_drop (k : Nat) :
    Takes (.star :: rest) (text.drop k) ↔
      Takes rest (text.drop k) ∨ Takes (.star :: rest) (text.drop (k + 1)) := by
  simp only [takes_star_iff, List.drop_drop]
  constructor
  · rintro ⟨more, taken⟩
    cases more with
    | zero => exact .inl taken
    | succ more => exact .inr ⟨more, by rwa [show k + 1 + more = k + (more + 1) by omega]⟩
  · rintro (taken | ⟨more, taken⟩)
    · exact ⟨0, taken⟩
    · exact ⟨more + 1, by rwa [show k + (more + 1) = k + 1 + more by omega]⟩

/-- A star can take whatever comes in front as well. -/
theorem Takes.of_suffix {k : Nat} (taken : Takes (.star :: rest) (text.drop k)) :
    Takes (.star :: rest) text := by
  obtain ⟨more, taken⟩ := takes_star_iff.mp taken
  exact takes_star_iff.mpr ⟨k + more, by rwa [List.drop_drop] at taken⟩

theorem afterStretch?_eq (fits : afterStretch? atoms text = some left) :
    left = text.drop atoms.length ∧ atoms.length ≤ text.length := by
  induction atoms generalizing text with
  | nil =>
      cases fits
      exact ⟨rfl, Nat.zero_le _⟩
  | cons atom atoms ih =>
      cases text with
      | nil => cases fits
      | cons b text =>
          rw [afterStretch?] at fits
          split at fits
          · obtain ⟨same, enough⟩ := ih fits
            exact ⟨same, Nat.succ_le_succ enough⟩
          · cases fits

theorem takes_stretch_iff :
    Takes (atoms.map .one ++ rest) text ↔
      ∃ left, afterStretch? atoms text = some left ∧ Takes rest left := by
  induction atoms generalizing text with
  | nil => simp [afterStretch?]
  | cons atom atoms ih =>
      cases text with
      | nil => simp [afterStretch?, not_takes_one_nil]
      | cons b text =>
          rw [List.map_cons, List.cons_append, takes_one_iff, ih, afterStretch?]
          by_cases accepted : atom.accepts b = true
          · simp [accepted]
          · simp [accepted]

/-- What is behind a stretch takes what is behind as many bytes. -/
theorem Takes.behind_stretch (taken : Takes (atoms.map .one ++ rest) text) :
    Takes rest (text.drop atoms.length) := by
  obtain ⟨left, fits, taken⟩ := takes_stretch_iff.mp taken
  rwa [(afterStretch?_eq fits).1] at taken

/-- The tokens of which these are the stretches. -/
def joined (first : List Atom) (more : List (List Atom)) : List Token :=
  first.map .one ++ more.flatMap fun stretch => .star :: stretch.map .one

theorem joined_stretches (pattern : List Token) :
    joined (stretches pattern).1 (stretches pattern).2 = pattern := by
  induction pattern with
  | nil => rfl
  | cons token rest ih =>
      cases token with
      | star => exact congrArg (Token.star :: ·) ih
      | one atom => exact congrArg (Token.one atom :: ·) ih

/-- Where a stretch fits at all, what is behind its first place is behind any other place as well. -/
theorem seek?_spec (atoms : List Atom) (text : Bytes) :
    match seek? atoms text with
    | some left => ∃ k, afterStretch? atoms (text.drop k) = some left ∧
        ∀ j other, afterStretch? atoms (text.drop j) = some other → ∃ d, other = left.drop d
    | none => ∀ k, afterStretch? atoms (text.drop k) = none := by
  induction text with
  | nil =>
      rw [seek?]
      cases fits : afterStretch? atoms [] with
      | none => simpa using fits
      | some left =>
          refine ⟨0, fits, fun j other found => ⟨0, ?_⟩⟩
          rw [List.drop_nil, fits] at found
          exact (Option.some.inj found).symm
  | cons b text ih =>
      rw [seek?]
      cases fits : afterStretch? atoms (b :: text) with
      | some left =>
          obtain ⟨same, enough⟩ := afterStretch?_eq fits
          refine ⟨0, fits, fun j other found => ⟨j, ?_⟩⟩
          rw [(afterStretch?_eq found).1, same, List.drop_drop, List.drop_drop, Nat.add_comm]
      | none =>
          cases sought : seek? atoms text with
          | none =>
              rw [sought] at ih
              intro k
              cases k with
              | zero => exact fits
              | succ k => exact ih k
          | some left =>
              rw [sought] at ih
              obtain ⟨k, found, first⟩ := ih
              refine ⟨k + 1, found, fun j other there => ?_⟩
              cases j with
              | zero => rw [List.drop_zero, fits] at there; cases there
              | succ j => exact first j other there

theorem takes_star_stretch_iff :
    Takes (.star :: (atoms.map .one ++ rest)) text ↔
      ∃ k left, afterStretch? atoms (text.drop k) = some left ∧ Takes rest left := by
  rw [takes_star_iff]
  exact exists_congr fun k => takes_stretch_iff

theorem fitsEnd_iff_takes :
    fitsEnd atoms text = true ↔ Takes (.star :: atoms.map .one) text := by
  have last : Takes (.star :: atoms.map .one) text ↔
      ∃ k, afterStretch? atoms (text.drop k) = some [] := by
    have whole : Takes (.star :: (atoms.map .one ++ [])) text ↔
        ∃ k left, afterStretch? atoms (text.drop k) = some left ∧ Takes [] left :=
      takes_star_stretch_iff
    rw [List.append_nil] at whole
    simpa [takes_empty_iff] using whole
  rw [last, fitsEnd, Bool.and_eq_true, decide_eq_true_eq, beq_iff_eq]
  constructor
  · rintro ⟨-, fits⟩
    exact ⟨_, fits⟩
  · rintro ⟨k, fits⟩
    obtain ⟨ends, enough⟩ := afterStretch?_eq fits
    have lengths := congrArg List.length ends
    simp only [List.length_nil, List.length_drop] at lengths enough
    have short : atoms.length ≤ text.length := by omega
    refine ⟨short, ?_⟩
    by_cases inside : k ≤ text.length
    · rwa [show text.length - atoms.length = k by omega]
    · -- Behind the end only the empty stretch fits, and it fits at the end as well.
      have none : atoms = [] := List.length_eq_zero_iff.mp (by omega)
      subst none
      simp [afterStretch?]

theorem matchesBehindStar_iff_takes {more : List (List Atom)} :
    matchesBehindStar atoms more text = true ↔ Takes (.star :: joined atoms more) text := by
  induction more generalizing atoms text with
  | nil =>
      rw [matchesBehindStar, fitsEnd_iff_takes, joined, List.flatMap_nil, List.append_nil]
  | cons next more ih =>
      have tokens : joined atoms (next :: more) =
          atoms.map .one ++ .star :: joined next more := by
        simp [joined]
      rw [matchesBehindStar, tokens, takes_star_stretch_iff]
      have sought := seek?_spec atoms text
      cases found : seek? atoms text with
      | none =>
          rw [found] at sought
          simp [sought]
      | some left =>
          rw [found] at sought
          obtain ⟨k, fits, first⟩ := sought
          rw [ih]
          constructor
          · exact fun taken => ⟨k, left, fits, taken⟩
          · rintro ⟨j, other, there, taken⟩
            obtain ⟨d, rfl⟩ := first j other there
            exact taken.of_suffix

/-- A text matches exactly if it can be cut into pieces that the tokens take. -/
theorem matchesTokens_iff_takes (pattern : List Token) (text : Bytes) :
    matchesTokens pattern text = true ↔ Takes pattern text := by
  have whole := joined_stretches pattern
  rw [matchesTokens]
  split
  · next only cut =>
    rw [cut] at whole
    rw [← whole, joined, List.flatMap_nil, takes_stretch_iff, beq_iff_eq]
    simp [takes_empty_iff]
  · next first next more cut =>
    have tokens : joined first (next :: more) = first.map .one ++ .star :: joined next more := by
      simp [joined]
    rw [cut, tokens] at whole
    rw [← whole, takes_stretch_iff]
    cases fits : afterStretch? first text with
    | none => simp
    | some left => simp [matchesBehindStar_iff_takes]

end ShardStore.Glob
