import ShardStore.Proofs.Keyspace.Backtracking

namespace ShardStore.Glob

variable {pattern rest body : Bytes} {byteClass : ByteClass} {start : Nat} {sign : UInt8}

/-- A class has at least one byte in front of the bracket that closes it. -/
theorem readClass?_front (read : readClass? pattern = some (byteClass, rest)) :
    ∃ front, front ≠ [] ∧ pattern = front ++ closeBracket :: rest := by
  rw [readClass?_eq] at read
  obtain ⟨⟨first, middle⟩, member, more⟩ := Option.bind_eq_some_iff.mp read
  obtain ⟨⟨members, last⟩, found, same⟩ := Option.map_eq_some_iff.mp more
  cases same
  obtain ⟨signs, unsigned⟩ := readNegation_suffix pattern
  obtain ⟨front, nonempty, behind⟩ := readMember?_front member
  obtain ⟨others, closed⟩ := readMembers?_front found
  refine ⟨signs ++ (front ++ others), by simp [nonempty], ?_⟩
  rw [List.append_assoc, List.append_assoc, ← closed, ← behind, unsigned]

/-- What is read of a class is its answer to a byte, and the index of what is left. -/
theorem classAt_eq_map (pattern : Bytes) (start : Nat) (byte : UInt8) :
    classAt pattern start byte =
      .ok ((readClass? (pattern.drop (start + 1))).map fun (byteClass, rest) =>
        (byteClass.contains byte, pattern.length - rest.length)) := by
  have read := classAt_eq pattern start byte
  cases closed : readClass? (pattern.drop (start + 1)) with
  | none =>
      rw [closed] at read
      exact read
  | some pair =>
      obtain ⟨byteClass, rest⟩ := pair
      rw [closed] at read
      obtain ⟨next, inside, rfl, done⟩ := read
      have index : pattern.length - (pattern.drop next).length = next := by
        rw [List.length_drop]
        omega
      rw [done, Option.map_some]
      simp only [index]

theorem end_of_readClass? (read : readClass? (pattern.drop (start + 1)) = some (byteClass, rest)) :
    start + 2 < pattern.length - rest.length ∧
      pattern[pattern.length - rest.length - 1]? = some closeBracket := by
  obtain ⟨front, nonempty, split⟩ := readClass?_front read
  have some_front : 0 < front.length := List.length_pos_iff.mpr nonempty
  have lengths : pattern.length - (start + 1) = front.length + (rest.length + 1) := by
    rw [← List.length_drop, split, List.length_append, List.length_cons]
  have index : pattern.length - rest.length - 1 = start + 1 + front.length := by omega
  refine ⟨by omega, ?_⟩
  rw [index, ← List.getElem?_drop, split, List.getElem?_append_right (Nat.le_refl _), Nat.sub_self,
    List.getElem?_cons_zero]

theorem contains_negated (members : List ByteRange) (byte : UInt8) :
    ByteClass.contains ⟨true, members⟩ byte = !ByteClass.contains ⟨false, members⟩ byte := by
  simp only [ByteClass.contains, Bool.bne_true, Bool.bne_false]

theorem readNegation_signed (negates : sign = 0x5E ∨ sign = 0x21) (body : Bytes) :
    readNegation (sign :: body) = (true, body) := by
  simp [readNegation, negates]

theorem readNegation_unsigned (noCaret : body.head? ≠ some 0x5E)
    (noMark : body.head? ≠ some 0x21) :
    readNegation body = (false, body) := by
  cases body with
  | nil => rfl
  | cons b body =>
      rw [List.head?_cons, ne_eq, Option.some.injEq] at noCaret noMark
      simp [readNegation, noCaret, noMark]

theorem readClass?_signed (negates : sign = 0x5E ∨ sign = 0x21)
    (noCaret : body.head? ≠ some 0x5E) (noMark : body.head? ≠ some 0x21) :
    readClass? (sign :: body) = (readClass? body).map fun (byteClass, rest) =>
      ({ byteClass with negated := true }, rest) := by
  rw [readClass?_eq, readClass?_eq, readNegation_signed negates, readNegation_unsigned noCaret noMark,
    Option.map_bind]
  congr 1
  funext member
  rw [Function.comp_apply, Option.map_map]
  rfl

theorem negated_of_readClass? (noCaret : body.head? ≠ some 0x5E) (noMark : body.head? ≠ some 0x21)
    (read : readClass? body = some (byteClass, rest)) : byteClass.negated = false := by
  rw [readClass?_eq, readNegation_unsigned noCaret noMark] at read
  obtain ⟨⟨first, middle⟩, -, more⟩ := Option.bind_eq_some_iff.mp read
  obtain ⟨⟨members, last⟩, -, same⟩ := Option.map_eq_some_iff.mp more
  cases same
  rfl

theorem classAt_bracket (front body : Bytes) (byte : UInt8) :
    classAt (front ++ openBracket :: body) front.length byte =
      .ok ((readClass? body).map fun (byteClass, rest) =>
        (byteClass.contains byte, (front ++ openBracket :: body).length - rest.length)) := by
  rw [classAt_eq_map, List.drop_length_add_append]
  rfl

theorem classAt_signed (negates : sign = 0x5E ∨ sign = 0x21) (front : Bytes)
    (noCaret : body.head? ≠ some 0x5E) (noMark : body.head? ≠ some 0x21) (byte : UInt8) :
    classAt (front ++ openBracket :: sign :: body) front.length byte =
      (classAt (front ++ openBracket :: body) front.length byte).map
        (Option.map fun (taken, next) => (!taken, next + 1)) := by
  rw [classAt_bracket, classAt_bracket, readClass?_signed negates noCaret noMark]
  cases read : readClass? body with
  | none => rfl
  | some pair =>
      obtain ⟨⟨negated, members⟩, rest⟩ := pair
      obtain rfl : negated = false := negated_of_readClass? noCaret noMark read
      have shorter := readClass?_length read
      have index : (front ++ openBracket :: sign :: body).length - rest.length =
          (front ++ openBracket :: body).length - rest.length + 1 := by
        simp only [List.length_append, List.length_cons]
        omega
      simp only [Except.map, Option.map_some, contains_negated, index]

/-- A class is read from the pattern alone, and never outside of it. Whether it is closed, and where,
is the same for all bytes: behind a closing bracket that has at least one byte of the class in front
of it. The two signs of negation say the same, and a class with a sign takes the bytes that it does
not take without it. -/
theorem classAt_alike :
    (∀ (pattern : Bytes) (start : Nat) (byte : UInt8),
      classAt pattern start byte =
        .ok ((readClass? (pattern.drop (start + 1))).map fun (byteClass, rest) =>
          (byteClass.contains byte, pattern.length - rest.length))) ∧
    (∀ (pattern : Bytes) (start : Nat),
      (∀ byte, classAt pattern start byte = .ok none) ∨
        ∃ next, start + 2 < next ∧ next ≤ pattern.length ∧
          pattern[next - 1]? = some closeBracket ∧
          ∀ byte, ∃ taken, classAt pattern start byte = .ok (some (taken, next))) ∧
    (∀ (front body : Bytes) (byte : UInt8),
      classAt (front ++ openBracket :: 0x5E :: body) front.length byte =
        classAt (front ++ openBracket :: 0x21 :: body) front.length byte) ∧
    ∀ (front body : Bytes) (byte : UInt8),
      body.head? ≠ some 0x5E → body.head? ≠ some 0x21 →
        classAt (front ++ openBracket :: 0x5E :: body) front.length byte =
          (classAt (front ++ openBracket :: body) front.length byte).map
            (Option.map fun (taken, next) => (!taken, next + 1)) := by
  refine ⟨classAt_eq_map, fun pattern start => ?_, fun front body byte => ?_,
    fun front body byte noCaret noMark => classAt_signed (.inl rfl) front noCaret noMark byte⟩
  · have read := classAt_eq_map pattern start
    cases closed : readClass? (pattern.drop (start + 1)) with
    | none =>
        rw [closed] at read
        exact .inl read
    | some pair =>
        obtain ⟨byteClass, rest⟩ := pair
        rw [closed] at read
        obtain ⟨later, closes⟩ := end_of_readClass? closed
        exact .inr ⟨_, later, Nat.sub_le _ _, closes, fun byte => ⟨_, read byte⟩⟩
  · rw [classAt_bracket, classAt_bracket, readClass?_eq, readClass?_eq,
      readNegation_signed (.inl rfl), readNegation_signed (.inr rfl)]
    simp only [List.length_append, List.length_cons]

end ShardStore.Glob
