import ShardStore.Proofs.Log.History
import ShardStore.Proofs.Log.TornTail

/-!
Loading a log with another number of databases. A SELECT line for a database that the engine does not
have is refused, and what stands behind it runs on the database that was selected before
(`Log.Replay.ofItems_parts_diverted`). So an engine with fewer databases than the one that wrote a log may load
into a database what belongs to another one, and only such an engine does
(`Lifetime.reopened_resized`).
-/

namespace ShardStore

namespace Engine

/-- What becomes of the selected database depends on no other one. -/
theorem exec_databases_congr {left right : Engine} {selected : Nat}
    (same : left.databases[selected]? = right.databases[selected]?) (line : CommandLine) :
    (left.exec selected line).engine.databases[selected]? =
      (right.exec selected line).engine.databases[selected]? := by
  cases line with
  | nil => exact same
  | cons name args =>
      by_cases named : lowerName name = "select"
      · simp only [exec, if_pos named]
        cases left.selectIndex args <;> cases right.selectIndex args <;> exact same
      · have ran : left.runCommand selected (lowerName name) args =
            right.runCommand selected (lowerName name) args := by
          simp only [runCommand, same]
        simp only [exec, if_neg named, ran]
        cases right.runCommand selected (lowerName name) args with
        | error failure => exact same
        | ok effect => simp only [List.getElem?_set_self', same]

theorem execEntries_databases_congr {left right : Engine} {index : Nat}
    (same : left.databases[index]? = right.databases[index]?) (entries : List LogEntry) :
    (left.execEntries entries).databases[index]? =
      (right.execEntries entries).databases[index]? := by
  induction entries generalizing left right with
  | nil => exact same
  | cons entry rest ih =>
      apply ih
      by_cases here : index = entry.database
      · subst here
        exact exec_databases_congr same entry.line
      · rw [exec_databases_of_ne here, exec_databases_of_ne here, same]

@[simp] theorem execEntries_count (engine : Engine) (entries : List LogEntry) :
    (engine.execEntries entries).count = engine.count := by
  induction entries generalizing engine with
  | nil => rfl
  | cons entry rest ih => exact (ih _).trans (engine.exec_count entry.database entry.line)

theorem exec_selectLine_refused {engine : Engine} {database : Nat} (selected : Nat)
    (beyond : engine.count ≤ database) :
    (engine.exec selected (Log.selectLine database)).engine = engine ∧
      (engine.exec selected (Log.selectLine database)).selected = selected := by
  have named : lowerName Log.selectWord = "select" := by decide +kernel
  simp only [exec, Log.selectLine, if_pos named]
  cases allowed : engine.selectIndex [Text.Decimal.ofNat database] with
  | error failure => exact ⟨rfl, rfl⟩
  | ok index =>
      have within := (selectIndex_spec allowed).1
      rw [eq_of_selectIndex_ofNat allowed] at within
      exact absurd within (Nat.not_lt.mpr beyond)

theorem exec_selected_of_named {name : Bytes} (named : lowerName name ≠ "select") (engine : Engine)
    (selected : Nat) (args : List Bytes) :
    (engine.exec selected (name :: args)).selected = selected := by
  simp only [exec, if_neg named]
  cases engine.runCommand selected (lowerName name) args <;> rfl

end Engine

namespace Log

/-- The database on which an engine with so many databases executes an entry of a log: the one selected
before, if it does not have the entry's own. -/
def place (count selected : Nat) (entry : LogEntry) : Nat :=
  if entry.database < count then entry.database else selected

/-- What the entries of a log come to in an engine with so many databases. -/
def diverted (count selected : Nat) : List LogEntry → List LogEntry
  | [] => []
  | entry :: rest =>
    ⟨place count selected entry, entry.line⟩ :: diverted count (place count selected entry) rest

/-- The database that is selected behind the entries of a log. -/
def landed (count selected : Nat) (entries : List LogEntry) : Nat :=
  entries.foldl (place count) selected

/-- Whether an entry can stand in a log: its line does not switch the database. -/
structure Loggable (entry : LogEntry) : Prop where
  fits : entry.database ≤ maxLength
  named : ∃ name args, entry.line = name :: args ∧ Engine.lowerName name ≠ "select"

variable {count selected : Nat} {entries : List LogEntry} {engine : Engine}

theorem diverted_append (count selected : Nat) (front back : List LogEntry) :
    diverted count selected (front ++ back) =
      diverted count selected front ++ diverted count (landed count selected front) back := by
  induction front generalizing selected with
  | nil => rfl
  | cons entry rest ih =>
      rw [List.cons_append, diverted, ih, diverted, List.cons_append]
      rfl

theorem diverted_of_within (within : ∀ entry ∈ entries, entry.database < count) :
    diverted count selected entries = entries := by
  induction entries generalizing selected with
  | nil => rfl
  | cons entry rest ih =>
      rw [diverted, ih fun other mem => within other (List.mem_cons_of_mem entry mem), place,
        if_pos (within entry List.mem_cons_self)]

namespace Replay

theorem ofItems_entry_diverted {entry : LogEntry} (loggable : Loggable entry)
    {current? : Option Nat} (stands : ∀ database, current? = some database →
      database < engine.count → selected = database) :
    let place := place engine.count selected entry
    let replayed := ofItems engine selected ((entryLines current? entry).map .line)
    replayed.engine = (engine.exec place entry.line).engine ∧ replayed.selected = place := by
  obtain ⟨name, args, spelled, named⟩ := loggable.named
  have stays (engine : Engine) (selected : Nat) :
      (engine.exec selected entry.line).selected = selected := by
    rw [spelled]
    exact Engine.exec_selected_of_named named engine selected args
  unfold entryLines place
  by_cases within : entry.database < engine.count
  · rw [if_pos within]
    split
    · next same =>
      rw [stands _ same within]
      simp [ofItems_line, ofItems_nil, stays]
    · obtain ⟨notices, switched⟩ := Engine.exec_selectLine selected loggable.fits within
      simp [ofItems_line, ofItems_nil, switched, stays]
  · rw [if_neg within]
    split
    · simp [ofItems_line, ofItems_nil, stays]
    · obtain ⟨kept, refused⟩ :=
        Engine.exec_selectLine_refused selected (Nat.le_of_not_lt within)
      simp [ofItems_line, ofItems_nil, kept, refused, stays]

theorem ofItems_entries_diverted (loggable : ∀ entry ∈ entries, Loggable entry)
    (current? : Option Nat) (selected : Nat) (stands : ∀ database, current? = some database →
      database < engine.count → selected = database) :
    let replayed := ofItems engine selected ((entriesLines current? entries).map .line)
    replayed.engine = engine.execEntries (diverted engine.count selected entries) ∧
      replayed.selected = landed engine.count selected entries := by
  induction entries generalizing engine current? selected with
  | nil => exact ⟨rfl, rfl⟩
  | cons entry rest ih =>
      let next := place engine.count selected entry
      have standsNext : ∀ database, some entry.database = some database →
          database < (engine.exec next entry.line).engine.count → next = database := by
        rintro database ⟨⟩ within
        rw [Engine.exec_count] at within
        exact if_pos within
      obtain ⟨engines, places⟩ :=
        ofItems_entry_diverted (loggable entry List.mem_cons_self) stands
      obtain ⟨tailEngines, tailPlaces⟩ :=
        ih (fun other mem => loggable other (List.mem_cons_of_mem entry mem)) _ next standsNext
      obtain ⟨wholeEngines, wholePlaces, -⟩ := ofItems_append engine selected
        ((entryLines current? entry).map .line) ((entriesLines (some entry.database) rest).map .line)
      simp only [entriesLines, List.map_append]
      rw [wholeEngines, wholePlaces, engines, places, tailEngines, tailPlaces, Engine.exec_count]
      exact ⟨rfl, rfl⟩

theorem ofItems_parts_diverted {parts : List (List LogEntry)}
    (loggable : ∀ entry ∈ parts.flatten, Loggable entry) (selected : Nat) :
    (ofItems engine selected ((parts.flatMap (entriesLines none)).map .line)).engine =
      engine.execEntries (diverted engine.count selected parts.flatten) := by
  induction parts generalizing engine selected with
  | nil => rfl
  | cons part rest ih =>
      rw [List.flatten_cons] at loggable
      have first : ∀ entry ∈ part, Loggable entry := fun entry mem =>
        loggable entry (List.mem_append_left _ mem)
      obtain ⟨engines, places⟩ : _ ∧ _ :=
        ofItems_entries_diverted first none selected fun _ same => by cases same
      obtain ⟨whole, -, -⟩ := ofItems_append engine selected ((entriesLines none part).map .line)
        ((rest.flatMap (entriesLines none)).map .line)
      rw [List.flatMap_cons, List.map_append, whole, engines, places,
        ih fun entry mem => loggable entry (List.mem_append_right _ mem), Engine.execEntries_count,
        ← Engine.execEntries_append, ← diverted_append, List.flatten_cons]

end Replay

/-- A log that was written by an engine with any number of databases is loaded as its entries, each
wherever the SELECT lines that are not refused have it run. -/
theorem replay_parts {file? : Option Bytes} {parts : List (List LogEntry)}
    (spelled : Spells (file?.getD []) (parts.flatMap (entriesLines none)))
    (loggable : ∀ entry ∈ parts.flatten, Loggable entry) (engine : Engine) :
    (replay engine file?).engine = engine.execEntries (diverted engine.count 0 parts.flatten) := by
  rw [replay_getD, replay_of_spells engine spelled]
  exact Replay.ofItems_parts_diverted loggable 0

end Log

namespace Lifetime

open Log

variable {κ : Type} [DecidableEq κ]

/-- Whether a log is loaded into an engine with so many databases as if the entries of databases that
it does not have were not there, and the databases that it has are those of the engine that wrote the
log. -/
structure Faithful (databases : Nat) (entries : List LogEntry) (written loaded : Engine) : Prop where
  common : ∀ index, index < written.count → index < loaded.count →
    loaded.databases[index]? = written.databases[index]?
  surplus : loaded = (Engine.new databases).execEntries
    (entries.filter fun entry => entry.database < (Engine.new databases).count)

theorem databases_new {databases index : Nat} (within : index < (Engine.new databases).count) :
    (Engine.new databases).databases[index]? = some ∅ := by
  rw [Engine.count, Engine.new, List.length_replicate] at within
  exact List.getElem?_replicate_of_lt within

/-- Entries of databases that both engines have are loaded as they were executed. -/
theorem faithful_of_within {old new : Nat} {entries : List LogEntry}
    (within : ∀ entry ∈ entries, entry.database < (Engine.new new).count) :
    Faithful new entries ((Engine.new old).execEntries entries)
      ((Engine.new new).execEntries (diverted (Engine.new new).count 0 entries)) := by
  rw [diverted_of_within within]
  refine ⟨fun index inOld inNew => ?_, ?_⟩
  · rw [Engine.execEntries_count] at inOld inNew
    apply Engine.execEntries_databases_congr
    rw [databases_new inOld, databases_new inNew]
  · rw [List.filter_eq_self.mpr fun entry mem => by simpa using within entry mem]

/-- Whether every log that engines with so many databases write is loaded faithfully into an engine with
another number of them. -/
def Portable (κ : Type) [DecidableEq κ] (old new : Nat) : Prop :=
  ∀ (file? : Option Bytes) (before : List (SyncPolicy × Lifetime κ)) (last : SyncPolicy × Lifetime κ),
    file?.getD [] = [] → (∀ run ∈ before ++ [last], run.2.Addressable) →
      Faithful new (loggedByEach old file? (before ++ [last])).flatten
        (last.2.live ⟨old, true, last.1⟩ (fileAfterEach old file? before)).state.engine
        (replay (.new new) (fileAfterEach old file? (before ++ [last]))).engine

theorem storing_logged {databases database : Nat} (policy : SyncPolicy) (connection : κ)
    (key value : Bytes) (fits : database ≤ maxLength)
    (within : database < (Engine.new databases).count) :
    loggedByEach databases none [(policy, storing connection database key value)] =
      [[⟨database, setLine key value⟩]] := by
  have present : (replay (.new databases) none).engine.databases[database]? = some ∅ :=
    databases_new within
  have found : database < (replay (.new databases) none).engine.count := within
  obtain ⟨_, switched⟩ := Engine.exec_selectLine 0 fits found
  obtain ⟨_, stored⟩ := exec_setLine present key value
  simp [loggedByEach, logged, storing, loggedIn, added?, act, Clients.call, DurableEngine.service,
    DurableEngine.exec, opened_logged, Selections.initial, Selections.select, switched, stored]

section

variable {old : Nat} {file? : Option Bytes} {runs before : List (SyncPolicy × Lifetime κ)}
  {last : SyncPolicy × Lifetime κ} (fresh : file?.getD [] = [])

include fresh

theorem loaded_diverted (room : ∀ run ∈ runs, run.2.Addressable) (new : Nat) :
    (replay (.new new) (fileAfterEach old file? runs)).engine =
      (Engine.new new).execEntries
        (diverted (Engine.new new).count 0 (loggedByEach old file? runs).flatten) := by
  have empty : Spells (file?.getD []) [] := ⟨fresh, by simp⟩
  obtain ⟨spelled, -⟩ := each_spells old room empty
  obtain ⟨logs, addressable, -⟩ := each_logged room empty
  exact replay_parts spelled (fun entry mem =>
    ⟨(addressable entry mem).1, (Engine.logs_spec logs entry mem).1⟩) (.new new)

theorem written_logged (room : ∀ run ∈ before ++ [last], run.2.Addressable) :
    (last.2.live ⟨old, true, last.1⟩ (fileAfterEach old file? before)).state.engine =
      (Engine.new old).execEntries (loggedByEach old file? (before ++ [last])).flatten := by
  have empty : Spells (file?.getD []) [] := ⟨fresh, by simp⟩
  rw [live_logged room empty, replay_of_fresh _ fresh]

theorem logged_faithful {new : Nat} (room : ∀ run ∈ before ++ [last], run.2.Addressable)
    (within : ∀ entry ∈ (loggedByEach old file? (before ++ [last])).flatten,
      entry.database < (Engine.new new).count) :
    Faithful new (loggedByEach old file? (before ++ [last])).flatten
      (last.2.live ⟨old, true, last.1⟩ (fileAfterEach old file? before)).state.engine
      (replay (.new new) (fileAfterEach old file? (before ++ [last]))).engine := by
  rw [written_logged fresh room, loaded_diverted fresh room new]
  exact faithful_of_within within

theorem within_of_logged (room : ∀ run ∈ runs, run.2.Addressable) :
    ∀ entry ∈ (loggedByEach old file? runs).flatten, entry.database < (Engine.new old).count := by
  have empty : Spells (file?.getD []) [] := ⟨fresh, by simp⟩
  obtain ⟨logs, -, -⟩ := each_logged room empty
  intro entry mem
  have within := (Engine.logs_spec logs entry mem).2
  rwa [replay_count] at within

end

/-- The first database that the new engine lacks: what is put into it is loaded into database 0. -/
theorem not_portable {old new : Nat} (connection : κ) (fits : (Engine.new new).count ≤ maxLength)
    (fewer : (Engine.new new).count < (Engine.new old).count) : ¬ Portable κ old new := by
  intro portable
  let key : Bytes := [0x6B]
  let value : Bytes := [0x31]
  let missing := (Engine.new new).count
  let run : SyncPolicy × Lifetime κ := (.never, storing connection missing key value)
  have positive : 0 < missing := Engine.new_count_pos new
  have room : ∀ other ∈ [] ++ [run], other.2.Addressable := by
    intro other mem
    rw [List.mem_singleton.mp mem]
    exact storing_addressable connection fits (by decide) (by decide)
  have found := (portable none [] run rfl room).common 0
  have logged := storing_logged .never connection key value fits fewer
  rw [written_logged rfl room, loaded_diverted rfl room new, Engine.execEntries_count,
    Engine.execEntries_count, List.nil_append, logged, List.flatten_singleton] at found
  have diverts : diverted missing 0 [⟨missing, setLine key value⟩] = [⟨0, setLine key value⟩] := by
    simp [diverted, place]
  -- The new engine executes the line on database 0, the old one on the one that the new one lacks.
  have fresh : (Engine.new new).databases[0]? = some ∅ := databases_new positive
  obtain ⟨_, stored⟩ := exec_setLine fresh key value
  have loaded : ((Engine.new new).execEntries [⟨0, setLine key value⟩]).databases[0]? =
      some ((∅ : Store).insert key value) := by
    simp only [Engine.execEntries, List.foldl_cons, List.foldl_nil, stored]
    exact List.getElem?_set_self positive
  have kept : ((Engine.new old).execEntries [⟨missing, setLine key value⟩]).databases[0]? =
      some ∅ :=
    (Engine.exec_databases_of_ne (Nat.ne_of_lt positive)).trans
      (databases_new (Engine.new_count_pos old))
  have same := found (Engine.new_count_pos old) positive
  rw [diverts, loaded, kept] at same
  have values := congrArg (fun store : Option Store => store.bind (·.get? key)) same
  simp at values

/-- A log is loaded as its entries, those of databases that the engine does not have on whatever was
selected before them. So the databases that both engines have are loaded as they were if no entry is of
another one. Engines with so many databases write only such logs, whatever they do, exactly if they have
no more of them. -/
theorem reopened_resized (old new : Nat) (connection : κ) (fits : (Engine.new new).count ≤ maxLength) :
    (∀ (file? : Option Bytes) (before : List (SyncPolicy × Lifetime κ)) (last : SyncPolicy × Lifetime κ),
      file?.getD [] = [] → (∀ run ∈ before ++ [last], run.2.Addressable) →
        let entries := (loggedByEach old file? (before ++ [last])).flatten
        let written :=
          (last.2.live ⟨old, true, last.1⟩ (fileAfterEach old file? before)).state.engine
        let loaded := (replay (.new new) (fileAfterEach old file? (before ++ [last]))).engine
        loaded = (Engine.new new).execEntries (diverted (Engine.new new).count 0 entries) ∧
          ((∀ entry ∈ entries, entry.database < (Engine.new new).count) →
            Faithful new entries written loaded)) ∧
    (Portable κ old new ↔ (Engine.new old).count ≤ (Engine.new new).count) := by
  constructor
  · intro file? before last fresh room
    exact ⟨loaded_diverted fresh room new, logged_faithful fresh room⟩
  constructor
  · intro portable
    exact Nat.le_of_not_lt fun fewer => not_portable connection fits fewer portable
  · intro enough file? before last fresh room
    refine logged_faithful fresh room fun entry mem => ?_
    exact Nat.lt_of_lt_of_le (within_of_logged fresh room entry mem) enough

/-- A value that was put into the second of two databases is loaded into the only one of an engine that
has no second one. -/
theorem not_faithful_from_two_to_one :
    let run : SyncPolicy × Lifetime Bool := (.always, storing true 1 [0x6B] [0x31])
    let written := (run.2.live ⟨2, true, .always⟩ none).state.engine
    let loaded := (replay (.new 1) (fileAfterEach 2 none [run])).engine
    ¬ Faithful 1 (loggedByEach 2 none [run]).flatten written loaded := by
  intro run written loaded faithful
  have same := faithful.common 0 (by decide +kernel) (by decide +kernel)
  exact absurd same (by decide +kernel)

theorem reopened_resized_from_two_to_one :
    let before : List (SyncPolicy × Lifetime Bool) := [(.never, storing true 0 [0x6B] [0x32])]
    let last : SyncPolicy × Lifetime Bool := (.always, storing true 1 [0x6B] [0x31])
    let entries := (loggedByEach 2 none (before ++ [last])).flatten
    let written := (last.2.live ⟨2, true, .always⟩ (fileAfterEach 2 none before)).state.engine
    let loaded := (replay (.new 1) (fileAfterEach 2 none (before ++ [last]))).engine
    (Engine.new 1).count ≤ maxLength ∧
      loaded = (Engine.new 1).execEntries (diverted (Engine.new 1).count 0 entries) ∧
      ((∀ entry ∈ entries, entry.database < (Engine.new 1).count) →
        Faithful 1 entries written loaded) ∧
      (Portable Bool 2 1 ↔ (Engine.new 2).count ≤ (Engine.new 1).count) := by
  intro before last entries written loaded
  have fits : (Engine.new 1).count ≤ maxLength := by decide
  have room : ∀ run ∈ before ++ [last], run.2.Addressable := by
    intro run mem
    simp only [before, last, List.cons_append, List.nil_append, List.mem_cons, List.not_mem_nil,
      or_false] at mem
    rcases mem with rfl | rfl
    · exact storing_addressable true (by decide) (by decide) (by decide)
    · exact storing_addressable true (by decide) (by decide) (by decide)
  obtain ⟨exactly, portable⟩ := reopened_resized 2 1 true fits
  obtain ⟨diverts, faithful⟩ := exactly none before last rfl room
  exact ⟨fits, diverts, faithful, portable⟩

end Lifetime

end ShardStore
