import Mathlib.Data.List.Destutter
import ShardStore.Log.Sessions
import ShardStore.Proofs.Log.Appending
import ShardStore.Proofs.Log.Truncation

namespace ShardStore.Log

/-- Whether a line's command is SELECT, in upper or lower case. -/
def isSelect : CommandLine → Bool
  | [] => false
  | name :: _ => Engine.lowerName name == "select"

theorem isSelect_selectLine (database : Nat) : isSelect (selectLine database) = true := by
  have named : Engine.lowerName selectWord = "select" := by decide +kernel
  exact beq_iff_eq.mpr named

theorem switch?_of_unlike {line : CommandLine} (unlike : isSelect line = false) :
    switch? line = none := by
  cases line with
  | nil => rfl
  | cons name args => exact switch?_of_named (by simpa [isSelect] using unlike) args

namespace Writer

theorem flush_file (writer : Writer) (now : Time) : (writer.flush now).file = writer.contents := by
  unfold flush
  split <;> rfl

theorem flush_gathered (writer : Writer) (now : Time) : (writer.flush now).gathered = [] := by
  unfold flush
  split <;> rfl

@[simp] theorem spill_contents (writer : Writer) (count : Nat) :
    (writer.spill count).contents = writer.contents := by
  simp [contents, spill, List.take_append_drop]

theorem write_contents (writer : Writer) (entry : LogEntry) :
    (writer.write entry).contents = writer.contents ++ entryBytes writer.current? entry := by
  simp [contents, write]

/-- What was gathered and is not in the file is lost with a writer. -/
theorem reopen_contents (writer : Writer) (policy : SyncPolicy) (now : Time) :
    (writer.step (.reopen policy now)).contents = writer.file := by
  simp [step, opened, contents]

end Writer

theorem sessions_cons (steps : List WriterStep) :
    ∃ first later, sessions steps = first :: later := by
  induction steps with
  | nil => exact ⟨[], [], rfl⟩
  | cons step rest ih =>
      obtain ⟨first, later, split⟩ := ih
      cases step with
      | write entry => exact ⟨entry :: first, later, by rw [sessions, split, List.modifyHead_cons]⟩
      | reopen policy now => exact ⟨[], sessions rest, rfl⟩
      | spill count => exact ⟨first, later, split⟩
      | flush now => exact ⟨first, later, split⟩
      | sync now => exact ⟨first, later, split⟩

namespace Writer

/-- A flush in front of it is enough for a writer to be given up. -/
theorem losesNothing_flush_reopen (writer : Writer) (flushedAt openedAt : Time) (policy : SyncPolicy)
    (rest : List WriterStep) :
    writer.losesNothing (.flush flushedAt :: .reopen policy openedAt :: rest) =
      (opened policy (some writer.contents) openedAt).losesNothing rest := by
  rw [losesNothing, losesNothing, step, step, flush_gathered, flush_file, List.isEmpty_nil,
    Bool.true_and]
  · intro policy now same
    cases same

/-- A session goes on from the database that its writer stands on, and each later one states its own. -/
theorem run_contents (writer : Writer) {steps : List WriterStep}
    (kept : writer.losesNothing steps = true)
    {first : List LogEntry} {later : List (List LogEntry)} (split : sessions steps = first :: later) :
    (writer.run steps).contents = writer.contents ++
      (entriesBytes writer.current? first ++ later.flatMap (entriesBytes none)) := by
  induction steps generalizing writer first later with
  | nil =>
      cases split
      simp [run, entriesBytes]
  | cons step rest ih =>
      obtain ⟨front, back, tail⟩ := sessions_cons rest
      rw [run, List.foldl_cons, ← run]
      cases step with
      | write entry =>
          rw [sessions, tail] at split
          cases split
          rw [ih _ kept tail, Writer.step, write_contents, entriesBytes]
          simp only [List.append_assoc]
          rfl
      | spill count =>
          rw [ih _ kept split, Writer.step, spill_contents]
          rfl
      | flush now => rw [ih _ kept split, Writer.step, flush_contents, flush_current?]
      | sync now => exact ih (writer.sync now) kept split
      | reopen policy now =>
          obtain ⟨emptied, kept⟩ := Bool.and_eq_true_iff.mp kept
          have whole : writer.file = writer.contents := by
            rw [contents, List.isEmpty_iff.mp emptied, List.append_nil]
          rw [sessions] at split
          cases split
          rw [ih _ kept tail, reopen_contents, whole, tail, List.flatMap_cons]
          rfl

end Writer

theorem sessions_flatten (steps : List WriterStep) : (sessions steps).flatten = written steps := by
  induction steps with
  | nil => rfl
  | cons step rest ih =>
      cases step with
      | write entry =>
          obtain ⟨first, later, split⟩ := sessions_cons rest
          rw [sessions, split, List.modifyHead_cons, List.flatten_cons, List.cons_append,
            ← List.flatten_cons, ← split, ih]
          rfl
      | reopen policy now => exact ih
      | spill count => exact ih
      | flush now => exact ih
      | sync now => exact ih

theorem written_spells {parts : List (List LogEntry)} (room : ∀ entry ∈ parts.flatten,
    entry.database < UInt64.size ∧ entry.line.Addressable) :
    Spells (parts.flatMap (entriesBytes none)) (parts.flatMap (entriesLines none)) := by
  constructor
  · rw [List.flatMap_assoc]
    exact congrArg (List.flatMap · parts) (funext fun entries => entriesBytes_eq none entries)
  · intro line mem
    obtain ⟨entries, part, inside⟩ := List.mem_flatMap.mp mem
    obtain ⟨entry, held, same⟩ := mem_entriesLines inside
    obtain ⟨small, fits⟩ := room entry (List.mem_flatten_of_mem part held)
    rcases same with rfl | rfl
    · exact fits
    · exact selectLine_addressable_of_word small

/-- Behind an entry on some database, a SELECT line stands for each entry on another database than the
one before it. -/
theorem filter_entriesLines_some {entries : List LogEntry}
    (plain : ∀ entry ∈ entries, isSelect entry.line = false) (database : Nat) :
    selectLine database :: (entriesLines (some database) entries).filter isSelect =
      ((entries.map LogEntry.database).destutter' (· ≠ ·) database).map selectLine := by
  induction entries generalizing database with
  | nil => rfl
  | cons entry rest ih =>
      have unlike : ¬ isSelect entry.line = true := by simp [plain entry List.mem_cons_self]
      have later := ih fun other mem => plain other (List.mem_cons_of_mem entry mem)
      rw [entriesLines, List.filter_append, List.map_cons, entryLines]
      by_cases same : database = entry.database
      · rw [if_pos (congrArg some same), List.destutter'_cons_neg _ (not_not_intro same), ← later,
          List.nil_append, List.filter_cons_of_neg unlike, same]
        rfl
      · rw [if_neg (mt Option.some.inj same), List.destutter'_cons_pos _ same, List.map_cons,
          ← later, List.singleton_append,
          List.filter_cons_of_pos (isSelect_selectLine entry.database),
          List.filter_cons_of_neg unlike]
        rfl

theorem filter_entriesLines {entries : List LogEntry}
    (plain : ∀ entry ∈ entries, isSelect entry.line = false) :
    (entriesLines none entries).filter isSelect =
      ((entries.map LogEntry.database).destutter (· ≠ ·)).map selectLine := by
  cases entries with
  | nil => rfl
  | cons entry rest =>
      have unlike : ¬ isSelect entry.line = true := by simp [plain entry List.mem_cons_self]
      have later := filter_entriesLines_some
        (fun other mem => plain other (List.mem_cons_of_mem entry mem)) entry.database
      rw [entriesLines, List.map_cons, List.destutter_cons', ← later, entryLines,
        if_neg (Option.some_ne_none _).symm, List.filter_append, List.singleton_append,
        List.filter_cons_of_pos (isSelect_selectLine entry.database),
        List.filter_cons_of_neg unlike]
      rfl

/-- Whatever the policies, the databases and the bytes of the lines, wherever writers are flushed, synced
or followed by others, and whenever their buffers pass something on: if none is given up with something
gathered, a file of theirs is read as command lines and nothing else. From database 0 on, its SELECT
lines make the others the entries that were written, in their order and each on its database. Each
session has its SELECT lines, one for the first of its entries and one for each that is on another
database than the one before it, right in front. The written lines are no SELECT lines themselves; a
database index is a machine word, and a line has room in memory, since it was there when it was
written. -/
theorem read_sessions (policy : SyncPolicy) (openedAt closedAt : Time) (steps : List WriterStep)
    (kept : (Writer.opened policy none openedAt).losesNothing steps = true)
    (plain : ∀ entry ∈ written steps, isSelect entry.line = false)
    (room : ∀ entry ∈ written steps, entry.database < UInt64.size ∧ entry.line.Addressable) :
    let file := (((Writer.opened policy none openedAt).run steps).flush closedAt).file
    let lines := (sessions steps).flatMap (entriesLines none)
    read file = lines.map .line ∧
      entriesOf 0 lines = written steps ∧
      lines.filter isSelect = (sessions steps).flatMap fun entries =>
        ((entries.map LogEntry.database).destutter (· ≠ ·)).map selectLine := by
  intro file lines
  rw [← sessions_flatten] at plain room
  have bytes : file = (sessions steps).flatMap (entriesBytes none) := by
    obtain ⟨first, later, split⟩ := sessions_cons steps
    have whole := (Writer.opened policy none openedAt).run_contents kept split
    rw [split, List.flatMap_cons]
    exact (Writer.flush_file _ closedAt).trans whole
  refine ⟨?_, ?_, ?_⟩
  · rw [bytes]
    exact read_of_spells (written_spells room)
  · rw [← sessions_flatten]
    exact entriesOf_parts (fun entry mem => switch?_of_unlike (plain entry mem)) 0
  · rw [List.filter_flatMap]
    refine List.flatMap_congr fun entries part => ?_
    exact filter_entriesLines fun entry mem => plain entry (List.mem_flatten_of_mem part mem)

theorem read_sessions_of_two :
    let last : Nat := 18446744073709551615
    let nested : Bytes := Wire.encodeLine (selectLine 1)
    let steps : List WriterStep :=
      [.write ⟨0, [[0x44, 0x45, 0x4C], nested]⟩, .spill 7, .write ⟨last, [nested, []]⟩, .sync 1,
        .write ⟨last, []⟩, .flush 2, .sync 2, .reopen .never 2, .flush 3,
        .write ⟨last, [Bytes.crlf]⟩]
    let file := (((Writer.opened .always none 0).run steps).flush 4).file
    let lines := (sessions steps).flatMap (entriesLines none)
    (Writer.opened .always none 0).losesNothing steps = true ∧
      (∀ entry ∈ written steps, isSelect entry.line = false) ∧
      (∀ entry ∈ written steps, entry.database < UInt64.size ∧ entry.line.Addressable) ∧
      read file = lines.map .line ∧
      entriesOf 0 lines = written steps ∧
      lines.filter isSelect = (sessions steps).flatMap fun entries =>
        ((entries.map LogEntry.database).destutter (· ≠ ·)).map selectLine := by
  intro last nested steps file lines
  have kept : (Writer.opened .always none 0).losesNothing steps = true := by decide +kernel
  have plain : ∀ entry ∈ written steps, isSelect entry.line = false := by decide +kernel
  have short : nested.length ≤ 9223372036854775807 := by decide +kernel
  have room : ∀ entry ∈ written steps,
      entry.database < UInt64.size ∧ entry.line.Addressable := by
    intro entry mem
    simp only [written, steps, List.filterMap_cons, List.filterMap_nil, WriterStep.entry?,
      List.mem_cons, List.not_mem_nil, or_false] at mem
    rcases mem with rfl | rfl | rfl | rfl <;>
      simp [CommandLine.Addressable, Bytes.crlf, maxLength, last, short]
  exact ⟨kept, plain, room, read_sessions .always 0 4 steps kept plain room⟩

/-- The entry of a writer that is given up before it is flushed is not in the file. -/
theorem not_read_of_unflushed :
    let first : LogEntry := ⟨0, [[0x53, 0x45, 0x54], [0x61], [0x31]]⟩
    let second : LogEntry := ⟨0, [[0x53, 0x45, 0x54], [0x62], [0x32]]⟩
    let steps : List WriterStep := [.write first, .reopen .never 0, .write second, .flush 0]
    let file := (((Writer.opened .never none 0).run steps).flush 0).file
    (∀ entry ∈ written steps, isSelect entry.line = false) ∧
      (∀ entry ∈ written steps, entry.database < UInt64.size ∧ entry.line.Addressable) ∧
      file = Wire.encodeLine (selectLine 0) ++ Wire.encodeLine second.line ∧
      ¬ ∃ lines : List CommandLine, read file = lines.map .line ∧
        entriesOf 0 lines = written steps := by
  intro first second steps file
  have plain : ∀ entry ∈ written steps, isSelect entry.line = false := by decide +kernel
  have room : ∀ entry ∈ written steps, entry.database < UInt64.size ∧ entry.line.Addressable := by
    intro entry mem
    simp only [written, steps, List.filterMap_cons, List.filterMap_nil, WriterStep.entry?,
      List.mem_cons, List.not_mem_nil, or_false] at mem
    rcases mem with rfl | rfl <;>
      simp [CommandLine.Addressable, maxLength, first, second]
  refine ⟨plain, room, by decide +kernel, ?_⟩
  rintro ⟨lines, found, same⟩
  have kept : read file = [selectLine 0, second.line].map .line := by decide +kernel
  have inj : Function.Injective LogItem.line := fun _ _ => LogItem.line.inj
  obtain rfl : lines = [selectLine 0, second.line] := inj.list_map (found.symm.trans kept)
  exact absurd same (by decide +kernel)

end ShardStore.Log
