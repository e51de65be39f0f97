import ShardStore.Text.Decimal

namespace ShardStore.Text.Decimal

theorem digit_toNat {n : Nat} (small : n < 10) : (digit n).toNat = 0x30 + n := by
  have fits : n % 2 ^ 8 = n := Nat.mod_eq_of_lt (by omega)
  simp only [digit, UInt8.toNat_add, UInt8.reduceToNat, Nat.toUInt8, UInt8.toNat_ofNat', fits]
  omega

theorem isDigit_iff {b : UInt8} : isDigit b = true ↔ 0x30 ≤ b.toNat ∧ b.toNat ≤ 0x39 := by
  simp [isDigit, UInt8.le_iff_toNat_le]

theorem isDigit_digit {n : Nat} (small : n < 10) : isDigit (digit n) = true := by
  rw [isDigit_iff, digit_toNat small]
  omega

theorem isDigit_of_mem_ofNat {n : Nat} {b : UInt8} (mem : b ∈ ofNat n) : isDigit b = true := by
  induction n using ofNat.induct with
  | case1 n small =>
      rw [ofNat, if_pos small, List.mem_singleton] at mem
      rw [mem]
      exact isDigit_digit small
  | case2 n large ih =>
      rw [ofNat, if_neg large, List.mem_append, List.mem_singleton] at mem
      rcases mem with front | last
      · exact ih front
      · rw [last]
        exact isDigit_digit (Nat.mod_lt n (by decide))

theorem ofNat_ne_nil (n : Nat) : ofNat n ≠ [] := by
  rw [ofNat]
  split <;> simp

theorem readDigits_append (value : Nat) (front back : Bytes) :
    readDigits value (front ++ back) =
      (readDigits value front).bind fun value => readDigits value back := by
  induction front generalizing value with
  | nil => rfl
  | cons b front ih =>
      simp only [List.cons_append, readDigits]
      split
      · exact ih _
      · rfl

theorem readDigits_ofNat (n : Nat) : readDigits 0 (ofNat n) = some n := by
  induction n using ofNat.induct with
  | case1 n small =>
      rw [ofNat, if_pos small]
      simp only [readDigits, isDigit_digit small, digit_toNat small, if_true]
      congr 1
      omega
  | case2 n large ih =>
      have last : n % 10 < 10 := Nat.mod_lt n (by decide)
      rw [ofNat, if_neg large, readDigits_append, ih]
      simp only [Option.bind_some, readDigits, isDigit_digit last, digit_toNat last, if_true]
      congr 1
      omega

theorem nat?_of_ne_nil {bytes : Bytes} (nonempty : bytes ≠ []) :
    nat? bytes = readDigits 0 bytes := by
  cases bytes with
  | nil => exact absurd rfl nonempty
  | cons b rest => rfl

theorem nat?_ofNat (n : Nat) : nat? (ofNat n) = some n := by
  rw [nat?_of_ne_nil (ofNat_ne_nil n), readDigits_ofNat]

theorem unsigned?_ofNat (n : Nat) : unsigned? (ofNat n) = some n := by
  unfold unsigned?
  split
  · next rest spelled =>
    have digit : isDigit 0x2B = true := isDigit_of_mem_ofNat (n := n) (by simp [spelled])
    exact absurd digit (by decide)
  · exact nat?_ofNat n

theorem int?_ofNat (n : Nat) : int? (ofNat n) = some (n : Int) := by
  unfold int?
  split
  · next rest spelled =>
    have digit : isDigit 0x2D = true := isDigit_of_mem_ofNat (n := n) (by simp [spelled])
    exact absurd digit (by decide)
  · rw [unsigned?_ofNat]
    rfl

theorem int?_ofInt (n : Int) : int? (ofInt n) = some n := by
  unfold ofInt
  split
  · next negative =>
    have value : -((n.natAbs : Nat) : Int) = n := by omega
    rw [int?, nat?_ofNat]
    exact congrArg some value
  · next nonnegative =>
    rw [int?_ofNat, Option.some.injEq]
    omega

/-- Every signed word is read back from its own spelling. -/
theorem int64?_ofInt (n : Int64) : int64? (ofInt n.toInt) = some n := by
  have low := n.minValue_le_toInt
  have high := n.toInt_le
  simp only [int64?, int?_ofInt, Option.bind_some]
  rw [if_pos ⟨low, high⟩, Int64.ofInt_toInt]

theorem int64?_ofNat {n : Nat} (fits : (n : Int) ≤ Int64.maxValue.toInt) :
    int64? (ofNat n) = some (Int64.ofInt n) := by
  have low : Int64.minValue.toInt ≤ (n : Int) := Int.le_trans (by decide) (Int.natCast_nonneg n)
  rw [int64?, int?_ofNat, Option.bind_some, if_pos ⟨low, fits⟩]

theorem toInt_of_int64?_ofNat {n : Nat} {word : Int64} (read : int64? (ofNat n) = some word) :
    word.toInt = n := by
  rw [int64?, int?_ofNat, Option.bind_some] at read
  split at read
  · rename_i range
    cases read
    exact Int64.toInt_ofInt_of_le range.1 (Int.lt_of_le_of_lt range.2 (by decide))
  · cases read

theorem ofNat_length_le (n : Nat) : (ofNat n).length ≤ n / 10 + 1 := by
  induction n using Nat.strongRecOn with
  | ind n ih =>
      rw [ofNat]
      split
      · simp
      · have shorter := ih (n / 10) (by omega)
        rw [List.length_append, List.length_singleton]
        omega

theorem isDigit_of_mem_readDigits {value n : Nat} {bytes : Bytes}
    (read : readDigits value bytes = some n) {b : UInt8} (mem : b ∈ bytes) : isDigit b = true := by
  induction bytes generalizing value with
  | nil => simp at mem
  | cons head rest ih =>
      simp only [readDigits] at read
      split at read
      · next digit =>
        rcases List.mem_cons.mp mem with same | mem
        · rwa [same]
        · exact ih read mem
      · cases read

theorem isDigit_of_mem_nat? {n : Nat} {bytes : Bytes} (read : nat? bytes = some n) {b : UInt8}
    (mem : b ∈ bytes) : isDigit b = true := by
  cases bytes with
  | nil => simp at mem
  | cons head rest => exact isDigit_of_mem_readDigits read mem

/-- The number that digits spell, the first one counting most. -/
def value (digits : Bytes) : Nat :=
  digits.foldl (fun read b => read * 10 + (b.toNat - 0x30)) 0

def Digits (bytes : Bytes) : Prop :=
  bytes ≠ [] ∧ ∀ b ∈ bytes, isDigit b = true

/-- The spellings of a number: digits, perhaps with leading zeros, behind a sign or none. -/
inductive Spells : Bytes → Int → Prop where
  | bare {digits : Bytes} (digital : Digits digits) : Spells digits (value digits)
  | plus {digits : Bytes} (digital : Digits digits) : Spells (0x2B :: digits) (value digits)
  | minus {digits : Bytes} (digital : Digits digits) : Spells (0x2D :: digits) (-(value digits : Int))

theorem readDigits_eq_some_iff {before n : Nat} {bytes : Bytes} :
    readDigits before bytes = some n ↔ (∀ b ∈ bytes, isDigit b = true) ∧
      bytes.foldl (fun read b => read * 10 + (b.toNat - 0x30)) before = n := by
  induction bytes generalizing before with
  | nil => simp [readDigits]
  | cons b rest ih =>
      rw [readDigits, List.foldl_cons, List.forall_mem_cons, and_assoc, ← ih]
      by_cases digit : isDigit b = true
      · rw [if_pos digit]
        exact (and_iff_right digit).symm
      · rw [if_neg digit]
        exact ⟨nofun, fun spelled => absurd spelled.1 digit⟩

theorem nat?_eq_some_iff {bytes : Bytes} {n : Nat} :
    nat? bytes = some n ↔ Digits bytes ∧ value bytes = n := by
  cases bytes with
  | nil => exact ⟨nofun, fun spelled => absurd rfl spelled.1.1⟩
  | cons b rest =>
      rw [nat?, readDigits_eq_some_iff, Digits, and_assoc]
      exact (and_iff_right (List.cons_ne_nil b rest)).symm

theorem Digits.head_ne {b sign : UInt8} {rest : Bytes} (digital : Digits (b :: rest))
    (strange : isDigit sign = false) : b ≠ sign := by
  rintro rfl
  rw [digital.2 b List.mem_cons_self] at strange
  cases strange

theorem int?_of_spells {bytes : Bytes} {n : Int} (spelled : Spells bytes n) :
    int? bytes = some n := by
  cases spelled with
  | @bare digits digital =>
      have read := nat?_eq_some_iff.mpr ⟨digital, rfl⟩
      unfold int?
      split
      · exact absurd rfl (digital.head_ne (by decide))
      · unfold unsigned?
        split
        · exact absurd rfl (digital.head_ne (by decide))
        · rw [read]
          rfl
  | plus digital =>
      rw [int?]
      · rw [unsigned?, nat?_eq_some_iff.mpr ⟨digital, rfl⟩]
        rfl
      · exact fun rest same => absurd (List.cons.inj same).1 (by decide)
  | minus digital =>
      rw [int?, nat?_eq_some_iff.mpr ⟨digital, rfl⟩]
      rfl

theorem spells_of_int? {bytes : Bytes} {n : Int} (read : int? bytes = some n) : Spells bytes n := by
  unfold int? at read
  split at read
  · obtain ⟨_, lifted, rfl⟩ := Option.map_eq_some_iff.mp read
    obtain ⟨m, digits, same⟩ := Option.bind_eq_some_iff.mp lifted
    cases same
    obtain ⟨digital, rfl⟩ := nat?_eq_some_iff.mp digits
    exact .minus digital
  · obtain ⟨_, lifted, rfl⟩ := Option.map_eq_some_iff.mp read
    obtain ⟨m, unsigned, same⟩ := Option.bind_eq_some_iff.mp lifted
    cases same
    unfold unsigned? at unsigned
    split at unsigned
    · obtain ⟨digital, rfl⟩ := nat?_eq_some_iff.mp unsigned
      exact .plus digital
    · obtain ⟨digital, rfl⟩ := nat?_eq_some_iff.mp unsigned
      exact .bare digital

/-- A signed word is read exactly from its spellings. -/
theorem int64?_eq_some_iff {bytes : Bytes} {n : Int64} :
    int64? bytes = some n ↔ Spells bytes n.toInt := by
  constructor
  · intro read
    obtain ⟨m, spelled, ranged⟩ := Option.bind_eq_some_iff.mp read
    obtain ⟨range, same⟩ := Option.ite_none_right_eq_some.mp ranged
    have back : (Int64.ofInt m).toInt = m :=
      Int64.toInt_ofInt_of_le range.1 (Int.lt_of_le_of_lt range.2 (by decide))
    rw [← Option.some.inj same, back]
    exact spells_of_int? spelled
  · intro spelled
    rw [int64?, int?_of_spells spelled, Option.bind_some,
      if_pos ⟨n.minValue_le_toInt, n.toInt_le⟩, Int64.ofInt_toInt]

/-- A byte that is neither digit nor sign spoils a number. -/
theorem int64?_eq_none {bytes : Bytes} {b : UInt8} (mem : b ∈ bytes) (strange : isDigit b = false)
    (plus : b ≠ 0x2B) (minus : b ≠ 0x2D) : int64? bytes = none := by
  have signed : int? bytes = none := by
    have behind : ∀ {sign : UInt8} {rest : Bytes}, bytes = sign :: rest → b ≠ sign →
        nat? rest = none := fun spelled differs => by
      rw [spelled] at mem
      have inRest := (List.mem_cons.mp mem).resolve_left differs
      cases read : nat? _ with
      | none => rfl
      | some n => exact absurd (isDigit_of_mem_nat? read inRest) (by simp [strange])
    unfold int?
    split
    · next rest =>
      rw [behind rfl minus]
      rfl
    · unfold unsigned?
      split
      · next rest _ =>
        rw [behind rfl plus]
        rfl
      · cases read : nat? bytes with
        | none => rfl
        | some n => exact absurd (isDigit_of_mem_nat? read mem) (by simp [strange])
  rw [int64?, signed, Option.bind_none]

end ShardStore.Text.Decimal
