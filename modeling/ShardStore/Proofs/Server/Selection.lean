import ShardStore.Proofs.Peering.Exchange

namespace ShardStore

theorem getElem?_of_begins {α : Type} {front all : List α} (begins : front <+: all) {place : Nat}
    {element : α} (found : front[place]? = some element) : all[place]? = some element := by
  obtain ⟨rest, rfl⟩ := begins
  rw [List.getElem?_append_left (List.getElem?_eq_some_iff.mp found).1, found]

section Selection

variable {σ : Type} (service : Service σ) (states : Nat → σ)

/-- The database selected on a connection when the line at a place on it is executed. -/
def databaseAt (lines : List CommandLine) : Nat → Nat
  | 0 => 0
  | place + 1 =>
    match lines[place]? with
    | none => databaseAt lines place
    | some line => (service (states place) (databaseAt lines place) line).selected

/-- The replies to the lines that come on a connection. -/
def answersTo (lines : List CommandLine) : List Message :=
  lines.mapIdx fun place line =>
    (service (states place) (databaseAt service states lines place) line).reply

variable {service states}

theorem databaseAt_succ {lines : List CommandLine} {place : Nat} {line : CommandLine}
    (found : lines[place]? = some line) :
    databaseAt service states lines (place + 1) =
      (service (states place) (databaseAt service states lines place) line).selected := by
  rw [databaseAt, found]

/-- Lines that come later make no difference. -/
theorem databaseAt_begins {front lines : List CommandLine} (begins : front <+: lines) {place : Nat}
    (within : place ≤ front.length) :
    databaseAt service states front place = databaseAt service states lines place := by
  induction place with
  | zero => rfl
  | succ place ih =>
      have same : front[place]? = lines[place]? := by
        obtain ⟨rest, rfl⟩ := begins
        rw [List.getElem?_append_left (Nat.lt_of_succ_le within)]
      rw [databaseAt, databaseAt, same, ih (Nat.le_of_succ_le within)]

/-- Lines that leave the selected database make no difference either. -/
theorem databaseAt_of_kept {lines : List CommandLine} {first place : Nat} (later : first ≤ place)
    (kept : ∀ between line, first ≤ between → between < place → lines[between]? = some line →
      ∀ state selected, (service state selected line).selected = selected) :
    databaseAt service states lines place = databaseAt service states lines first := by
  induction later with
  | refl => rfl
  | @step place later ih =>
      have before := ih fun between line low high =>
        kept between line low (Nat.lt_succ_of_lt high)
      rw [databaseAt]
      split
      · exact before
      · rename_i line found
        rw [kept place line later (Nat.lt_succ_self _) found, before]

theorem mem_answersTo {lines : List CommandLine} {place : Nat} {reply : Message}
    (found : (answersTo service states lines)[place]? = some reply) :
    ∃ line, lines[place]? = some line ∧
      reply = (service (states place) (databaseAt service states lines place) line).reply := by
  simp only [answersTo, List.getElem?_mapIdx, Option.map_eq_some_iff] at found
  obtain ⟨line, here, rfl⟩ := found
  exact ⟨line, here, rfl⟩

/-- The session at the far end of a connection when the line at a place is read. -/
def sessionAt (service : Service σ) (states : Nat → σ) (lines : List CommandLine) : Nat → Session
  | 0 => {}
  | place + 1 =>
    match lines[place]? with
    | none => sessionAt service states lines place
    | some line =>
      ((sessionAt service states lines place).receive service (states place)
        (Wire.encodeLine line)).2.1

/-- What a session has selected is what the lines that it has read have selected. -/
theorem sessionAt_eq {lines : List CommandLine}
    (room : ∀ line ∈ lines, (Message.ofList line).Addressable) (place : Nat) :
    sessionAt service states lines place =
      { selected := databaseAt service states lines place } := by
  induction place with
  | zero => rfl
  | succ place ih =>
      rw [sessionAt, databaseAt]
      cases found : lines[place]? with
      | none => exact ih
      | some line =>
        have fresh : (sessionAt service states lines place).decoder = {} := by rw [ih]
        have taken := Session.receive_line fresh service (states place)
          (room line (List.mem_of_getElem? found))
        dsimp only at taken ⊢
        rw [taken, ih]

end Selection

end ShardStore
