import ShardStore.Proofs.Log.History
import ShardStore.Proofs.Log.TornTail

namespace ShardStore

namespace Log

/-- The lines that lie completely within so many bytes of a log. -/
def wholeWithin (cut : Nat) : List CommandLine → List CommandLine
  | [] => []
  | line :: rest =>
    let length := (Wire.encodeLine line).length
    if length ≤ cut then line :: wholeWithin (cut - length) rest else []

theorem wholeWithin_begins (cut : Nat) (lines : List CommandLine) : wholeWithin cut lines <+: lines := by
  induction lines generalizing cut with
  | nil => exact List.prefix_refl _
  | cons line rest ih =>
      simp only [wholeWithin]
      split
      · exact List.cons_prefix_cons.mpr ⟨rfl, ih _⟩
      · exact List.nil_prefix

/-- The first bytes of a log are those of its first lines, and maybe some of those of one more line. -/
theorem take_lines (cut : Nat) (lines : List CommandLine) : ∃ part,
    (lines.flatMap Wire.encodeLine).take cut =
        (wholeWithin cut lines).flatMap Wire.encodeLine ++ part ∧
      (part = [] ∨ ∃ line ∈ lines, ∃ missing, missing ≠ [] ∧
        part ++ missing = Wire.encodeLine line) := by
  induction lines generalizing cut with
  | nil => exact ⟨[], by simp [wholeWithin], .inl rfl⟩
  | cons line rest ih =>
      simp only [wholeWithin]
      split
      · next within =>
        obtain ⟨part, bytes, torn⟩ := ih (cut - (Wire.encodeLine line).length)
        refine ⟨part, ?_, torn.imp_right ?_⟩
        · rw [List.flatMap_cons, List.take_append, List.take_of_length_le within, bytes,
            List.flatMap_cons, List.append_assoc]
        · rintro ⟨other, mem, more⟩
          exact ⟨other, List.mem_cons_of_mem line mem, more⟩
      · next beyond =>
        have short : cut ≤ (Wire.encodeLine line).length := by omega
        refine ⟨(Wire.encodeLine line).take cut, ?_, .inr ⟨line, List.mem_cons_self,
          (Wire.encodeLine line).drop cut, ?_, List.take_append_drop cut _⟩⟩
        · rw [List.flatMap_cons, List.take_append_of_le_length short]
          rfl
        · intro none
          have := List.drop_eq_nil_iff.mp none
          omega

/-- Nothing is read from a line that lacks some bytes. -/
theorem feed_torn {part missing : Bytes} {line : CommandLine} (room : line.Addressable)
    (torn : part ++ missing = Wire.encodeLine line) (some : missing ≠ []) :
    (Decoder.feed {} part).1 = [] := by
  have alone : Spells (Wire.encodeLine line) [line] := ⟨by simp, by simpa using room⟩
  have whole := feed_lines alone
  rw [← torn, Decoder.feed_append] at whole
  obtain ⟨items, last⟩ := Prod.mk.inj whole
  cases read : (Decoder.feed {} part).1 with
  | nil => rfl
  | cons first rest =>
      -- The decoder has read the line already, so it has nothing more to read.
      rw [read, List.map_singleton, List.cons_append] at items
      have nothing := (List.append_eq_nil_iff.mp (List.cons.inj items).2).2
      have stopped := Decoder.eq_of_drain_silent (Prod.ext nothing last)
      have used := congrArg Decoder.buffer stopped
      exact absurd (List.append_eq_nil_iff.mp used).2 some

theorem read_take {log : Bytes} {lines : List CommandLine} (spelled : Spells log lines) (cut : Nat) :
    ∃ tail, read (log.take cut) = (wholeWithin cut lines).map .line ++ tail ∧
      (tail = [] ∨ tail = [.corrupt .unfinished]) := by
  obtain ⟨part, bytes, torn⟩ := take_lines cut lines
  have whole : Spells ((wholeWithin cut lines).flatMap Wire.encodeLine) (wholeWithin cut lines) :=
    ⟨rfl, fun line mem => spelled.2 line ((wholeWithin_begins cut lines).subset mem)⟩
  have silent : itemsOf {} part = [] := by
    rcases torn with rfl | ⟨line, mem, missing, some, same⟩
    · exact congrArg (·.1.map LogItem.ofItem) (Decoder.drain_nil .idle)
    · rw [itemsOf, feed_torn (spelled.2 line mem) same some, List.map_nil]
  have items : itemsOf {} (log.take cut) = (wholeWithin cut lines).map .line := by
    rw [spelled.1, bytes, itemsOf_append, feed_lines whole, silent, List.append_nil,
      itemsOf_lines whole]
  refine ⟨_, by rw [read_eq, items], ?_⟩
  simp only [Wire.Ending.item?]
  split
  · exact .inl rfl
  · exact .inr rfl

theorem switch?_selectLine (database : Nat) : switch? (selectLine database) = some database := by
  simp [switch?, selectLine, Text.Decimal.nat?_ofNat]

theorem switch?_of_named {name : Bytes} (named : Engine.lowerName name ≠ "select")
    (args : List Bytes) : switch? (name :: args) = none := by
  have unlike : name ≠ selectWord := by
    rintro rfl
    exact named (by decide +kernel)
  unfold switch?
  split
  · next same =>
    obtain ⟨rfl, -⟩ := List.cons.inj same
    exact if_neg unlike
  · rfl

theorem switch?_of_logs {engine : Engine} {entries : List LogEntry} (logs : engine.Logs entries) :
    ∀ entry ∈ entries, switch? entry.line = none := by
  intro entry mem
  obtain ⟨⟨name, args, spelled, named⟩, -⟩ := Engine.logs_spec logs entry mem
  rw [spelled, switch?_of_named named]

theorem entriesOf_append (database : Nat) (front back : List CommandLine) : ∃ last,
    entriesOf database (front ++ back) = entriesOf database front ++ entriesOf last back := by
  induction front generalizing database with
  | nil => exact ⟨database, rfl⟩
  | cons line rest ih =>
      simp only [List.cons_append, entriesOf]
      cases switch? line with
      | some next => exact ih next
      | none =>
          obtain ⟨last, same⟩ := ih database
          exact ⟨last, congrArg (⟨database, line⟩ :: ·) same⟩

theorem entriesOf_entriesLines {entries : List LogEntry}
    (plain : ∀ entry ∈ entries, switch? entry.line = none) (current? : Option Nat) (selected : Nat)
    (stands : ∀ database, current? = some database → selected = database)
    (more : List CommandLine) : ∃ last,
    entriesOf selected (entriesLines current? entries ++ more) = entries ++ entriesOf last more := by
  induction entries generalizing current? selected with
  | nil => exact ⟨selected, rfl⟩
  | cons entry rest ih =>
      have unlike := plain entry List.mem_cons_self
      have first (more : List CommandLine) : entriesOf selected (entryLines current? entry ++ more) =
          entry :: entriesOf entry.database more := by
        unfold entryLines
        split
        · next same =>
          obtain rfl := stands _ same
          simp [entriesOf, unlike]
        · simp [entriesOf, switch?_selectLine, unlike]
      obtain ⟨last, same⟩ := ih (fun other mem => plain other (List.mem_cons_of_mem entry mem))
        (some entry.database) entry.database fun database same => Option.some.inj same
      refine ⟨last, ?_⟩
      rw [entriesLines, List.append_assoc, first, same, List.cons_append]

/-- The lines of a log stand for the entries that were logged. -/
theorem entriesOf_parts {parts : List (List LogEntry)}
    (plain : ∀ entry ∈ parts.flatten, switch? entry.line = none) (selected : Nat) :
    entriesOf selected (parts.flatMap (entriesLines none)) = parts.flatten := by
  induction parts generalizing selected with
  | nil => rfl
  | cons part rest ih =>
      rw [List.flatten_cons] at plain
      obtain ⟨last, same⟩ := entriesOf_entriesLines
        (fun entry mem => plain entry (List.mem_append_left _ mem)) none selected
        (fun _ same => by cases same) (rest.flatMap (entriesLines none))
      rw [List.flatMap_cons, same, ih fun entry mem => plain entry (List.mem_append_right _ mem),
        List.flatten_cons]

theorem mem_entriesLines {line : CommandLine} {current? : Option Nat} {entries : List LogEntry}
    (mem : line ∈ entriesLines current? entries) :
    ∃ entry ∈ entries, line = entry.line ∨ line = selectLine entry.database := by
  induction entries generalizing current? with
  | nil => cases mem
  | cons entry rest ih =>
      rcases List.mem_append.mp mem with here | later
      · refine ⟨entry, List.mem_cons_self, ?_⟩
        rcases List.mem_append.mp here with switching | own
        · split at switching
          · cases switching
          · exact .inr (List.mem_singleton.mp switching)
        · exact .inl (List.mem_singleton.mp own)
      · obtain ⟨other, mem, same⟩ := ih later
        exact ⟨other, List.mem_cons_of_mem entry mem, same⟩

theorem switches_of_logs {engine : Engine} {parts : List (List LogEntry)}
    (logs : engine.Logs parts.flatten) (addressable : ∀ entry ∈ parts.flatten, entry.Addressable) :
    ∀ line ∈ parts.flatMap (entriesLines none), ∀ database, switch? line = some database →
      line = selectLine database ∧ database ≤ maxLength ∧ database < engine.count := by
  intro line mem database switching
  obtain ⟨part, logged, inside⟩ := List.mem_flatMap.mp mem
  obtain ⟨entry, held, same⟩ := mem_entriesLines inside
  have known := List.mem_flatten_of_mem logged held
  have plain := switch?_of_logs logs entry known
  rcases same with rfl | rfl
  · rw [plain] at switching
    cases switching
  · rw [switch?_selectLine] at switching
    cases switching
    exact ⟨rfl, (addressable entry known).1, (Engine.logs_spec logs entry known).2⟩

/-- Lines that stand for logged entries are replayed as these, if their SELECT lines name databases. -/
theorem Replay.ofItems_lines {engine : Engine} {lines : List CommandLine} {selected : Nat}
    (switches : ∀ line ∈ lines, ∀ database, switch? line = some database →
      line = selectLine database ∧ database ≤ maxLength ∧ database < engine.count)
    (logs : engine.Logs (entriesOf selected lines)) :
    let replayed := ofItems engine selected (lines.map .line)
    replayed.engine = engine.execEntries (entriesOf selected lines) ∧ replayed.skipped = 0 := by
  induction lines generalizing engine selected with
  | nil => exact ⟨rfl, rfl⟩
  | cons line rest ih =>
      simp only [List.map_cons, ofItems_line, prependLine_engine, prependLine_skipped]
      rw [entriesOf] at logs ⊢
      cases switching : switch? line with
      | some database =>
          obtain ⟨rfl, fits, within⟩ := switches line List.mem_cons_self database switching
          obtain ⟨notices, switched⟩ := Engine.exec_selectLine selected fits within
          simp only [switching] at logs
          obtain ⟨engines, skips⟩ :=
            ih (fun other mem => switches other (List.mem_cons_of_mem _ mem)) logs
          simp only [switched, engines, skips]
          exact ⟨trivial, rfl⟩
      | none =>
          simp only [switching] at logs
          obtain ⟨logged, more⟩ := logs
          obtain ⟨-, kept, plain, -⟩ := Engine.exec_of_logged logged
          have switchesLater : ∀ other ∈ rest, ∀ database, switch? other = some database →
              other = selectLine database ∧ database ≤ maxLength ∧
                database < (engine.exec selected line).engine.count := by
            rw [Engine.exec_count]
            exact fun other mem => switches other (List.mem_cons_of_mem _ mem)
          obtain ⟨engines, skips⟩ := ih switchesLater more
          simp only [kept, plain, engines, skips]
          exact ⟨rfl, rfl⟩

end Log

namespace Lifetime

open Log

variable {κ : Type} [DecidableEq κ]

/-- Of a log that is cut behind some byte, the lines that are whole are read, and at most a fault
behind them. The databases that are loaded from it are those that the engine had at a moment when the
entries had been logged for which these lines stand, and no others. A command line always has room in
memory, since it was there when it was executed. -/
theorem reopened_truncated (databases : Nat) (file? : Option Bytes)
    (runs : List (SyncPolicy × Lifetime κ)) (cut : Nat) (fresh : file?.getD [] = [])
    (room : ∀ run ∈ runs, run.2.Addressable) :
    let log := (fileAfterEach databases file? runs).getD []
    let parts := loggedByEach databases file? runs
    let lines := parts.flatMap (entriesLines none)
    let whole := wholeWithin cut lines
    let replayed := replay (.new databases) (some (log.take cut))
    log = lines.flatMap Wire.encodeLine ∧
      (∃ tail, read (log.take cut) = whole.map .line ++ tail ∧
        (tail = [] ∨ tail = [.corrupt .unfinished])) ∧
      entriesOf 0 whole <+: parts.flatten ∧
      replayed.engine = (Engine.new databases).execEntries (entriesOf 0 whole) ∧
      (runs ≠ [] → Passes databases file? runs (entriesOf 0 whole) replayed.engine) ∧
      replayed.skipped ≤ 1 := by
  intro log parts lines whole replayed
  have empty : Spells (file?.getD []) [] := ⟨fresh, by simp⟩
  have start : (replay (.new databases) file?).engine = .new databases := by
    rw [replay_of_fresh _ fresh]
  obtain ⟨spelled, -⟩ := each_spells databases room empty
  rw [List.nil_append] at spelled
  obtain ⟨logs, addressable, -⟩ := each_logged room empty
  rw [start] at logs
  obtain ⟨tail, items, torn⟩ := read_take spelled cut
  have begins := wholeWithin_begins cut lines
  have entries : entriesOf 0 whole <+: parts.flatten := by
    obtain ⟨behind, same⟩ := begins
    obtain ⟨last, split⟩ := entriesOf_append 0 whole behind
    rw [same, entriesOf_parts (switch?_of_logs logs)] at split
    exact ⟨_, split.symm⟩
  have switches := switches_of_logs logs addressable
  have logsWhole : (Engine.new databases).Logs (entriesOf 0 whole) := by
    obtain ⟨behind, same⟩ := entries
    rw [← same] at logs
    exact (Engine.logs_append.mp logs).1
  obtain ⟨engines, skips⟩ :=
    Replay.ofItems_lines (fun line mem => switches line (begins.subset mem)) logsWhole
  obtain ⟨enginesTail, -, skipsTail⟩ :=
    Replay.ofItems_append (.new databases) 0 (whole.map .line) tail
  have found : replayed = Replay.ofItems (.new databases) 0 (whole.map .line ++ tail) :=
    congrArg (Replay.ofItems (.new databases) 0) items
  have loaded : replayed.engine = (Engine.new databases).execEntries (entriesOf 0 whole) := by
    rw [found, enginesTail, ← engines]
    rcases torn with rfl | rfl <;> rfl
  refine ⟨spelled.1, ⟨tail, items, torn⟩, entries, loaded, fun nonempty => ?_, ?_⟩
  · have passes := passes_of_prefix room empty nonempty entries
    rwa [start, ← loaded] at passes
  · rw [found, skipsTail, skips, Nat.zero_add]
    rcases torn with rfl | rfl
    · exact Nat.zero_le 1
    · exact Nat.le_refl 1

theorem reopened_truncated_in_second_lifetime :
    let runs : List (SyncPolicy × Lifetime Bool) :=
      [(.always, storing true 1 [0x6B] [0x31]), (.never, storing false 0 [0x6B] [0x32])]
    let log := (fileAfterEach 2 none runs).getD []
    let parts := loggedByEach 2 none runs
    let lines := parts.flatMap (entriesLines none)
    let whole := wholeWithin 90 lines
    let replayed := replay (.new 2) (some (log.take 90))
    log = lines.flatMap Wire.encodeLine ∧
      (∃ tail, read (log.take 90) = whole.map .line ++ tail ∧
        (tail = [] ∨ tail = [.corrupt .unfinished])) ∧
      entriesOf 0 whole <+: parts.flatten ∧
      replayed.engine = (Engine.new 2).execEntries (entriesOf 0 whole) ∧
      (runs ≠ [] → Passes 2 none runs (entriesOf 0 whole) replayed.engine) ∧
      replayed.skipped ≤ 1 := by
  intro runs
  refine reopened_truncated 2 none runs 90 rfl ?_
  intro run mem
  simp only [runs, List.mem_cons, List.not_mem_nil, or_false] at mem
  rcases mem with rfl | rfl
  · exact storing_addressable true (by decide) (by decide) (by decide)
  · exact storing_addressable false (by decide) (by decide) (by decide)

end Lifetime

end ShardStore
