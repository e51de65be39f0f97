import ShardStore.Proofs.Wire.Units
import ShardStore.Wire.Reader

namespace ShardStore

open Bytes Text Wire

/-- Whether elements of an array under way are really missing. -/
def Pending.Valid : Pending → Prop
  | .array missing _ _ => 0 < missing
  | _ => True

namespace Wire

/-- What the plain reader makes of the rest of a message of which a part has been read. -/
def resume? (pending : Pending) (bytes : Bytes) : Option (Item × Bytes) :=
  match pending with
  | .idle => readItem? bytes
  | .bulk length =>
    andThen? (takeBody? length bytes) fun body rest => some (.ok (.bulk body), rest)
  | .array missing collected none =>
    andThen? (readElements? missing bytes) fun elements rest =>
      some (.ok (.ofList (collected.reverse ++ elements)), rest)
  | .array missing collected (some length) =>
    andThen? (takeBody? length bytes) fun element rest =>
      andThen? (readElements? (missing - 1) rest) fun elements rest =>
        some (.ok (.ofList (collected.reverse ++ element :: elements)), rest)

/-- How the step that a decoder takes at a line or body answers to what the plain reader reads behind
it. -/
def Agrees (read : Option (Item × Bytes)) (rest : Bytes) :
    Except Fault (Option Message × Pending) → Prop
  | .error fault => read = some (.error fault, rest)
  | .ok (some message, pending) => read = some (.ok message, rest) ∧ pending = .idle
  | .ok (none, pending) => read = resume? pending rest ∧ pending.Valid

theorem andThen?_assoc {α β γ : Type} (read : Option (Except Fault α × Bytes))
    (next : α → Bytes → Option (Except Fault β × Bytes))
    (last : β → Bytes → Option (Except Fault γ × Bytes)) :
    andThen? (andThen? read next) last = andThen? read fun part rest =>
      andThen? (next part rest) last := by
  cases read with
  | none => rfl
  | some pair =>
      obtain ⟨part, rest⟩ := pair
      cases part with
      | error fault => rfl
      | ok part => rfl

/-- An element that has been read is the next one of the array. -/
theorem addElement_agrees {missing : Nat} (wanted : 0 < missing) (collected : List Bytes)
    (element rest : Bytes) :
    Agrees (andThen? (readElements? (missing - 1) rest) fun elements rest =>
        some (.ok (.ofList (collected.reverse ++ element :: elements)), rest)) rest
      (.ok (addElement missing collected element)) := by
  obtain ⟨missing, rfl⟩ : ∃ more, missing = more + 1 := ⟨missing - 1, by omega⟩
  rw [addElement, Nat.add_sub_cancel]
  cases missing with
  | zero =>
      rw [if_pos rfl]
      refine ⟨?_, rfl⟩
      simp [readElements?, andThen?]
  | succ missing =>
      rw [if_neg (by omega)]
      refine ⟨?_, Nat.succ_pos missing⟩
      simp [resume?]

theorem positive_count {count : Int64} (nonzero : count ≠ 0) (nonnegative : ¬ count < 0) :
    0 < count.toInt.toNat := by
  have notZero : count.toInt ≠ 0 := fun zero => nonzero (Int64.toInt_inj.mp (zero.trans rfl))
  have notBelow : ¬ count.toInt < 0 := fun below => nonnegative (Int64.lt_iff_toInt_lt.mpr below)
  omega

/-- What the plain reader makes of a line that begins a message. -/
theorem start_agrees {buffer line rest : Bytes} (taken : takeLine? buffer = some (.ok line, rest)) :
    Agrees (readItem? buffer) rest (start line) := by
  rw [readItem?, taken, andThen?]
  split
  · next content =>
    rw [start, readCounted?]
    cases number (0x2A :: content) with
    | error fault => rfl
    | ok count =>
        simp only [andThen?, bind, Except.bind]
        by_cases zero : count = 0
        · subst zero
          exact ⟨rfl, rfl⟩
        by_cases absent : count = -1
        · subst absent
          exact ⟨rfl, rfl⟩
        by_cases negative : count < 0
        · rw [if_neg zero, if_neg absent, if_pos negative, if_neg absent, if_pos negative]
          rfl
        · rw [if_neg zero, if_neg absent, if_neg negative, if_neg absent, if_neg negative]
          exact ⟨by simp [resume?, andThen?], positive_count zero negative⟩
  · next content =>
    rw [start, readCounted?]
    cases number (0x24 :: content) with
    | error fault => rfl
    | ok length =>
        simp only [andThen?, bind, Except.bind]
        by_cases absent : length = -1
        · subst absent
          exact ⟨rfl, rfl⟩
        by_cases negative : length < 0
        · rw [if_neg absent, if_pos negative, if_neg absent, if_pos negative]
          rfl
        · rw [if_neg absent, if_neg negative, if_neg absent, if_neg negative]
          exact ⟨rfl, trivial⟩
  · next content =>
    rw [start, status]
    split
    · exact ⟨rfl, rfl⟩
    · split
      · exact ⟨rfl, rfl⟩
      · exact ⟨rfl, rfl⟩
  · exact ⟨rfl, rfl⟩
  · next content =>
    rw [start]
    cases number (0x3A :: content) with
    | error fault => rfl
    | ok n => exact ⟨rfl, rfl⟩
  · rw [start]
    · rfl
    all_goals assumption

theorem resume?_array {missing : Nat} (wanted : 0 < missing) (collected : List Bytes)
    (buffer : Bytes) :
    resume? (.array missing collected none) buffer =
      andThen? (readElement? buffer) fun element rest =>
        andThen? (readElements? (missing - 1) rest) fun elements rest =>
          some (.ok (.ofList (collected.reverse ++ element :: elements)), rest) := by
  obtain ⟨missing, rfl⟩ : ∃ more, missing = more + 1 := ⟨missing - 1, by omega⟩
  rw [resume?, readElements?, andThen?_assoc]
  simp only [andThen?_assoc]
  rfl

/-- What the plain reader makes of a line inside an array. -/
theorem continueArray_agrees {missing : Nat} {collected : List Bytes} {buffer line rest : Bytes}
    (wanted : 0 < missing) (taken : takeLine? buffer = some (.ok line, rest)) :
    Agrees (resume? (.array missing collected none) buffer) rest
      (continueArray missing collected line) := by
  have added := fun element => addElement_agrees wanted collected element rest
  rw [resume?_array wanted, readElement?, taken, andThen?]
  split
  · next content =>
    rw [continueArray]
    cases number (0x24 :: content) with
    | error fault => rfl
    | ok length =>
        simp only [andThen?, bind, Except.bind]
        by_cases negative : length < 0
        · rw [if_pos negative, if_pos negative]
          exact added []
        · rw [if_neg negative, if_neg negative]
          exact ⟨rfl, wanted⟩
  · rw [continueArray]
    · exact added line
    all_goals assumption

/-- Each step of a decoder keeps what the plain reader reads. -/
theorem readUnit?_agrees {pending : Pending} (valid : pending.Valid) {buffer rest : Bytes}
    {result : Except Fault (Option Message × Pending)}
    (read : readUnit? pending buffer = some (result, rest)) :
    Agrees (resume? pending buffer) rest result := by
  cases pending with
  | idle =>
      obtain ⟨⟨line, left⟩, taken, same⟩ := Option.map_eq_some_iff.mp read
      cases same
      cases line with
      | error fault =>
          show readItem? buffer = some (.error fault, left)
          rw [readItem?, taken]
          rfl
      | ok line => exact start_agrees taken
  | bulk length =>
      obtain ⟨⟨body, left⟩, taken, same⟩ := Option.map_eq_some_iff.mp read
      cases same
      rw [resume?, taken]
      cases body with
      | error fault => rfl
      | ok body => exact ⟨rfl, rfl⟩
  | array missing collected body? =>
      cases body? with
      | none =>
          obtain ⟨⟨line, left⟩, taken, same⟩ := Option.map_eq_some_iff.mp read
          cases same
          cases line with
          | error fault =>
              show resume? (.array missing collected none) buffer = some (.error fault, left)
              rw [resume?_array valid, readElement?, taken]
              rfl
          | ok line => exact continueArray_agrees valid taken
      | some length =>
          obtain ⟨⟨body, left⟩, taken, same⟩ := Option.map_eq_some_iff.mp read
          cases same
          rw [resume?, taken]
          cases body with
          | error fault => rfl
          | ok body => exact addElement_agrees valid collected body left

theorem resume?_eq_none {pending : Pending} (valid : pending.Valid) {buffer : Bytes}
    (stuck : readUnit? pending buffer = none) : resume? pending buffer = none := by
  cases pending with
  | idle => rw [resume?, readItem?, Option.map_eq_none_iff.mp stuck, andThen?]
  | bulk length => rw [resume?, Option.map_eq_none_iff.mp stuck, andThen?]
  | array missing collected body? =>
      cases body? with
      | none =>
          rw [resume?_array valid, readElement?, Option.map_eq_none_iff.mp stuck, andThen?,
            andThen?]
      | some length => rw [resume?, Option.map_eq_none_iff.mp stuck, andThen?]

/-- What the plain reader reads where a message is under way: the rest of it, and then one message
behind the other. -/
def readOn (pending : Pending) (buffer : Bytes) : List Item :=
  match resume? pending buffer with
  | none => []
  | some (item, rest) => item :: readAll rest

theorem readOn_idle (bytes : Bytes) : readOn .idle bytes = readAll bytes := by
  rw [readAll, readOn, resume?]
  split
  · next missing => rw [missing]
  · next item rest read => rw [read]

theorem readOn_fault {pending : Pending} {buffer rest : Bytes} {fault : Fault}
    (agrees : Agrees (resume? pending buffer) rest (.error fault)) :
    readOn pending buffer = .error fault :: readOn .idle rest := by
  have whole : resume? pending buffer = some (.error fault, rest) := agrees
  rw [readOn_idle, readOn, whole]

theorem readOn_part {pending next : Pending} {buffer rest : Bytes} {message? : Option Message}
    (agrees : Agrees (resume? pending buffer) rest (.ok (message?, next))) :
    readOn pending buffer = (message?.map .ok).toList ++ readOn next rest := by
  cases message? with
  | none =>
      have same : resume? pending buffer = resume? next rest := agrees.1
      rw [readOn, same]
      rfl
  | some message =>
      obtain ⟨whole, rfl⟩ := agrees
      rw [readOn_idle, readOn, whole]
      rfl

theorem Agrees.valid {read : Option (Item × Bytes)} {rest : Bytes} {message? : Option Message}
    {next : Pending} (agrees : Agrees read rest (.ok (message?, next))) : next.Valid := by
  cases message? with
  | none => exact agrees.2
  | some message =>
      obtain ⟨-, rfl⟩ := agrees
      trivial

end Wire

namespace Decoder

theorem advance?_valid {decoder next : Decoder} {item? : Option Item}
    (valid : decoder.pending.Valid) (advanced : decoder.advance? = some (item?, next)) :
    next.pending.Valid := by
  obtain ⟨⟨result, rest⟩, read, same⟩ := Option.map_eq_some_iff.mp advanced
  cases result with
  | error fault => cases same; trivial
  | ok pair => cases same; exact (readUnit?_agrees valid read).valid

theorem drain_valid (decoder : Decoder) (valid : decoder.pending.Valid) :
    decoder.drain.2.pending.Valid :=
  (@drain_keeps (·.pending.Valid) (fun _ => True)
    (fun valid advanced => ⟨advance?_valid valid advanced, fun _ _ => trivial⟩) decoder valid).1

/-- A decoder finds, step by step, what is read in one go from where it stands. -/
theorem drain_eq_readOn (decoder : Decoder) (valid : decoder.pending.Valid) :
    decoder.drain.1 = readOn decoder.pending decoder.buffer := by
  induction decoder using drain.induct with
  | case1 decoder stuck =>
      rw [drain_of_stuck stuck, readOn, resume?_eq_none valid (Option.map_eq_none_iff.mp stuck)]
  | case2 decoder item next advanced _ _ _ ih =>
      rw [drain_of_advance advanced]
      obtain ⟨⟨result, rest⟩, read, same⟩ := Option.map_eq_some_iff.mp advanced
      have agrees := readUnit?_agrees valid read
      cases result with
      | error fault =>
          cases same
          rw [readOn_fault agrees, ih trivial]
          rfl
      | ok pair =>
          cases same
          rw [readOn_part agrees, ih agrees.valid]

end Decoder

end ShardStore
