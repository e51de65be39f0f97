import ShardStore.Proofs.Log.Durability
import ShardStore.Proofs.Wire.Unfinished

/-!
Recovery from a torn log. An engine appends to whatever its file holds, so it depends on the decoder
behind the file whether the next engine finds what was appended. Behind whole lines it always does.
Behind an unfinished one it reads the SELECT line of the new entries as a part of it, and what they
did to another database than the one last selected is lost (`Log.recovers_torn_iff`).
-/

namespace ShardStore

open Bytes

namespace Log

/-- Where the decoder stands behind a file, and what it has read by then. -/
def standing (file : Bytes) : Decoder :=
  (Decoder.feed {} file).2

def itemsOf (decoder : Decoder) (file : Bytes) : List LogItem :=
  (decoder.feed file).1.map .ofItem

theorem itemsOf_append (decoder : Decoder) (file more : Bytes) :
    itemsOf decoder (file ++ more) =
      itemsOf decoder file ++ itemsOf (decoder.feed file).2 more := by
  rw [itemsOf, Decoder.feed_append, List.map_append]
  rfl

theorem feed_lines {lines : List CommandLine} {file : Bytes} (spelled : Spells file lines) :
    Decoder.feed {} file = (lines.map (.ok <| .ofList ·), {}) := by
  have drained := Decoder.drain_lines lines spelled.2 []
  rw [Decoder.drain_nil, List.append_nil, List.append_nil, ← spelled.1] at drained
  exact drained

theorem itemsOf_lines {lines : List CommandLine} {file : Bytes} (spelled : Spells file lines) :
    itemsOf {} file = lines.map .line := by
  rw [itemsOf, feed_lines spelled]
  simp [LogItem.ofItem, Message.ofList, Function.comp_def]

theorem read_eq (file : Bytes) : read file = itemsOf {} file ++
    ((Wire.Ending.item? .finished (standing file).buffer).toList.map .ofItem) := by
  simp [read, Wire.readStream, Decoder.feedAll, itemsOf, standing]

/-- Bytes that end inside a unit are replayed as far as they are whole. -/
theorem replay_engine (engine : Engine) (file : Bytes) :
    (replay engine (some file)).engine = (Replay.ofItems engine 0 (itemsOf {} file)).engine := by
  obtain ⟨engines, -, -⟩ := Replay.ofItems_append engine 0 (itemsOf {} file)
    ((Wire.Ending.item? .finished (standing file).buffer).toList.map .ofItem)
  rw [replay, Option.map_some, Option.getD_some, read_eq, engines]
  simp only [Wire.Ending.item?]
  split <;> rfl

namespace Replay

theorem ofItem_eq_line {item : Item} {line : CommandLine} (found : LogItem.ofItem item = .line line) :
    ∃ elements, item = .ok (.array elements) ∧ line = elements.map (·.getD []) := by
  unfold LogItem.ofItem at found
  split at found
  · next elements =>
    cases found
    exact ⟨elements, rfl, rfl⟩
  · cases found
  · cases found

theorem ofItems_selected_lt {engine : Engine} {selected : Nat} (items : List LogItem)
    (within : selected < engine.count) :
    (ofItems engine selected items).selected < (ofItems engine selected items).engine.count := by
  induction items generalizing engine selected with
  | nil => exact within
  | cons item rest ih =>
      cases item with
      | line line =>
          rw [ofItems_line, prependLine_engine, prependLine_selected]
          refine ih ?_
          rw [Engine.exec_count]
          exact Engine.exec_selected_lt within
      | unexpected message => exact ih within
      | corrupt fault => exact ih within

theorem ofItems_frame {items : List Item}
    (unlike : ∀ item ∈ items, Yields (fun line => line.length ≠ 2 ∨ line.Marked) item)
    (engine : Engine) (selected : Nat) {other : Nat} (differs : other ≠ selected) :
    (ofItems engine selected (items.map .ofItem)).engine.databases[other]? =
      engine.databases[other]? := by
  induction items generalizing engine with
  | nil => rfl
  | cons item rest ih =>
      have tail := fun engine =>
        ih (fun item mem => unlike item (List.mem_cons_of_mem _ mem)) engine
      have head := unlike item List.mem_cons_self
      rw [List.map_cons]
      cases found : LogItem.ofItem item with
      | unexpected message => rw [ofItems_unexpected, prependSkip_engine, tail]
      | corrupt fault => rw [ofItems_corrupt, prependSkip_engine, tail]
      | line line =>
          obtain ⟨elements, rfl, rfl⟩ := ofItem_eq_line found
          have kept : (engine.exec selected (elements.map (·.getD []))).selected = selected :=
            Engine.exec_selected_of_unlike_select (head elements rfl)
          rw [ofItems_line, prependLine_engine, kept, tail, Engine.exec_databases_of_ne differs]

theorem ofItems_of_no_lines {items : List Item}
    (lineless : ∀ item ∈ items, Yields (fun _ => False) item) (engine : Engine) (selected : Nat) :
    (ofItems engine selected (items.map .ofItem)).engine = engine := by
  induction items with
  | nil => rfl
  | cons item rest ih =>
      have tail := ih fun item mem => lineless item (List.mem_cons_of_mem _ mem)
      rw [List.map_cons]
      cases found : LogItem.ofItem item with
      | unexpected message => rw [ofItems_unexpected, prependSkip_engine, tail]
      | corrupt fault => rw [ofItems_corrupt, prependSkip_engine, tail]
      | line line =>
          obtain ⟨elements, same, -⟩ := ofItem_eq_line found
          exact absurd (lineless item List.mem_cons_self elements same) id

/-- Whether replaying items changes nothing, or does what one line with some property does. -/
def AtMostOneLine (P : CommandLine → Prop) (items : List Item) : Prop :=
  ∀ engine selected, (ofItems engine selected (items.map .ofItem)).engine = engine ∨
    ∃ line, P line ∧
      (ofItems engine selected (items.map .ofItem)).engine = (engine.exec selected line).engine

theorem atMostOneLine_of_advance {P : CommandLine → Prop} {decoder next : Decoder}
    {item? : Option Item} (advanced : decoder.advance? = some (item?, next))
    (plain : asterisk ∉ next.buffer) (yields : ∀ item, item? = some item → Yields P item)
    (tail : AtMostOneLine P next.drain.1) : AtMostOneLine P decoder.drain.1 := by
  rw [Decoder.drain_of_advance advanced]
  cases item? with
  | none => exact tail
  | some item =>
      have idle : next.pending = .idle := by
        by_cases idle : next.pending = .idle
        · exact idle
        · cases (Decoder.advance?_underway advanced).mpr idle
      have quiet : Decoder.Quiet (fun _ => False) next := by
        refine ⟨opensOnly_of_not_mem plain, ?_⟩
        rw [idle]
        trivial
      intro engine selected
      have rest := fun engine selected =>
        ofItems_of_no_lines (Decoder.drain_of_quiet quiet) engine selected
      simp only [Option.toList_some, List.cons_append, List.nil_append, List.map_cons]
      cases found : LogItem.ofItem item with
      | unexpected message => exact .inl (by rw [ofItems_unexpected, prependSkip_engine, rest])
      | corrupt fault => exact .inl (by rw [ofItems_corrupt, prependSkip_engine, rest])
      | line line =>
          obtain ⟨elements, same, rfl⟩ := ofItem_eq_line found
          exact .inr ⟨_, yields item rfl elements same, by rw [ofItems_line, prependLine_engine, rest]⟩

theorem atMostOneLine_of_promises {P : CommandLine → Prop} {decoder : Decoder}
    (plain : asterisk ∉ decoder.buffer) (promises : decoder.pending.Promises P) :
    AtMostOneLine P decoder.drain.1 := by
  induction decoder using Decoder.drain.induct with
  | case1 decoder stuck =>
      rw [Decoder.drain_of_stuck stuck]
      exact fun engine selected => .inl rfl
  | case2 decoder item? next advanced _ _ _ ih =>
      have quiet : Decoder.Quiet P decoder := ⟨opensOnly_of_not_mem plain, promises⟩
      obtain ⟨kept, yields⟩ := Decoder.advance?_quiet quiet advanced
      obtain ⟨chunk, split⟩ := Decoder.advance?_eq advanced
      have plainNext : asterisk ∉ next.buffer := by
        rw [split] at plain
        exact fun mem => plain (List.mem_append_right _ mem)
      exact atMostOneLine_of_advance advanced plainNext yields (ih plainNext kept.promises)

/-- What is read behind an unfinished unit, if no array begins there but the first. -/
theorem atMostOneLine_of_unfinished {decoder : Decoder} {c : UInt8} {rest : Bytes}
    (stuck : decoder.advance? = none) (unfinished : decoder ≠ {}) (sameLine : c ≠ lf)
    (plain : asterisk ∉ c :: crlf ++ rest) :
    AtMostOneLine CommandLine.Marked (decoder.feed (asterisk :: (c :: crlf ++ rest))).1 := by
  cases advanced : Decoder.advance? { decoder with
      buffer := decoder.buffer ++ asterisk :: (c :: crlf ++ rest) } with
  | none =>
      rw [Decoder.feed, Decoder.drain_of_stuck advanced]
      exact fun engine selected => .inl rfl
  | some pair =>
      obtain ⟨item?, next⟩ := pair
      obtain ⟨⟨front, split⟩, promises, yields⟩ :=
        Decoder.advance?_unfinished stuck unfinished sameLine (fun _ marked => marked) advanced
      have plainNext : asterisk ∉ next.buffer := by
        rw [split] at plain
        exact fun mem => plain (List.mem_append_right _ mem)
      exact atMostOneLine_of_advance advanced plainNext yields
        (atMostOneLine_of_promises plainNext promises)

end Replay

end Log

namespace Lifetime

open Log

variable {κ : Type} [DecidableEq κ]

/-- Whether the databases of any engine that starts on a file are those that are loaded from what it
leaves. -/
def Recovers (κ : Type) [DecidableEq κ] (databases : Nat) (file : Bytes) : Prop :=
  ∀ (policy later : SyncPolicy) (next : Lifetime κ) (now : Time), next.Addressable →
    (DurableEngine.opened ⟨databases, true, later⟩
        (next.fileAfter ⟨databases, true, policy⟩ (some file)) now).engine =
      (next.live ⟨databases, true, policy⟩ (some file)).state.engine

/-- What is appended to a file is loaded again if the decoder takes it for new lines. -/
theorem recovers_of_standing {file : Bytes} (databases : Nat) (stands : standing file = {}) :
    Recovers κ databases file := by
  intro policy later next now room
  have recorded := live_recorded room databases policy (some file)
  generalize next.logged ⟨databases, true, policy⟩ (some file) = entries at recorded
  have spelled := spells_entries recorded.addressable none
  have closed : next.fileAfter ⟨databases, true, policy⟩ (some file) =
      some (file ++ entriesBytes none entries) := LogState.close_records recorded.records next.closedAt
  have items : itemsOf {} (file ++ entriesBytes none entries) =
      itemsOf {} file ++ (entriesLines none entries).map .line := by
    rw [itemsOf_append, ← itemsOf_lines spelled]
    exact congrArg (fun decoder => itemsOf {} file ++ itemsOf decoder _) stands
  obtain ⟨engines, -, -⟩ := Replay.ofItems_append (.new databases) 0 (itemsOf {} file)
    ((entriesLines none entries).map .line)
  have begun := replay_engine (.new databases) file
  obtain ⟨again, -⟩ := Replay.ofItems_entries none
    (Replay.ofItems (.new databases) 0 (itemsOf {} file)).selected (begun ▸ recorded.logs)
    recorded.addressable fun _ none => by cases none
  rw [closed, recorded.engine, begun, ← again, ← engines, ← items, ← replay_engine]
  rfl

def setWord : Bytes :=
  [0x73, 0x65, 0x74]

def setLine (key value : Bytes) : CommandLine :=
  [setWord, key, value]

/-- A lifetime in which a connection puts one value into a database. -/
def storing (connection : κ) (database : Nat) (key value : Bytes) : Lifetime κ :=
  { activities :=
      [.call ⟨connection, selectLine database⟩, .call ⟨connection, setLine key value⟩] }

def storingBytes (database : Nat) (key value : Bytes) : Bytes :=
  Wire.encodeLine (selectLine database) ++ Wire.encodeLine (setLine key value)

theorem exec_setLine {engine : Engine} {selected : Nat} {store : Store}
    (present : engine.databases[selected]? = some store) (key value : Bytes) :
    ∃ notices, engine.exec selected (setLine key value) =
      { reply := .ok, engine := ⟨engine.databases.set selected (store.insert key value)⟩, selected,
        entry? := some ⟨selected, setLine key value⟩, notices } := by
  have named : ¬ Engine.lowerName setWord = "select" := by decide +kernel
  have spelled : Text.lowercase (Engine.lowerName setWord) = "set" := by decide +kernel
  have known : Command.lookup (Engine.lowerName setWord) 3 = .ok .set := by
    rw [Command.lookup, spelled]
    rfl
  have ran : engine.runCommand selected (Engine.lowerName setWord) [key, value] =
      .ok ⟨.ok, store.insert key value, true⟩ := by
    simp only [Engine.runCommand, List.length_cons, List.length_nil, known, present, bind,
      Except.bind]
    rfl
  simp only [setLine, Engine.exec, if_neg named, ran]
  exact ⟨_, rfl⟩

theorem storing_spec {databases database : Nat} {store : Store} {file : Bytes} (policy : SyncPolicy)
    (connection : κ) (key value : Bytes) (fits : database ≤ maxLength)
    (present : (replay (.new databases) (some file)).engine.databases[database]? = some store) :
    ((storing connection database key value).live ⟨databases, true, policy⟩ (some file)).state.engine =
        ⟨(replay (.new databases) (some file)).engine.databases.set database
          (store.insert key value)⟩ ∧
      (storing connection database key value).fileAfter ⟨databases, true, policy⟩ (some file) =
        some (file ++ storingBytes database key value) := by
  have within := (List.getElem?_eq_some_iff.mp present).1
  obtain ⟨_, switched⟩ := Engine.exec_selectLine 0 fits within
  obtain ⟨_, stored⟩ := exec_setLine present key value
  have live : ((storing connection database key value).live ⟨databases, true, policy⟩
      (some file)).state =
      { engine := ⟨(replay (.new databases) (some file)).engine.databases.set database
          (store.insert key value)⟩
        log := .running (.opened policy (some file) 0) [⟨database, setLine key value⟩] } := by
    simp only [Lifetime.live, storing, List.foldl_cons, List.foldl_nil, act, Clients.call,
      DurableEngine.service, DurableEngine.exec, opened_logged, if_true,
      Selections.initial, Selections.select, switched, stored, LogState.enqueue, List.nil_append]
  refine ⟨by rw [live], ?_⟩
  have closed := drain_shutdown (.opened policy (some file) 0) 0 [⟨database, setLine key value⟩]
  simp only [fileAfter, Lifetime.closed, live, DurableEngine.close, LogState.close, LogState.file?]
  refine congrArg some ?_
  simpa [storing, storingBytes, Writer.contents, Writer.opened, entriesBytes, entryBytes]
    using closed

theorem asterisk_not_mem_ofNat (n : Nat) : asterisk ∉ Text.Decimal.ofNat n := fun mem =>
  absurd (Text.Decimal.isDigit_of_mem_ofNat mem) (by decide)

theorem asterisk_not_mem_bulk {word : Bytes} (absent : asterisk ∉ word) :
    asterisk ∉ Wire.bulk word := by
  have digits := asterisk_not_mem_ofNat word.length
  simp only [Wire.bulk, Wire.header, Wire.line, List.mem_append, List.mem_cons, not_or]
  exact ⟨⟨⟨⟨by decide, digits⟩, by decide⟩, absent⟩, by decide⟩

theorem encodeLine_setLine (key value : Bytes) :
    Wire.encodeLine (setLine key value) = asterisk ::
      (0x33 :: crlf ++ (Wire.bulk setWord ++ (Wire.bulk key ++ Wire.bulk value))) := by
  have header : Wire.header 0x2A 3 = asterisk :: 0x33 :: crlf := by decide +kernel
  simp only [Wire.encodeLine, setLine, List.length_cons, List.length_nil, header,
    List.flatMap_cons, List.flatMap_nil, List.append_nil, List.cons_append]

theorem encodeLine_selectLine (database : Nat) :
    Wire.encodeLine (selectLine database) = asterisk ::
      (0x32 :: crlf ++ (Wire.bulk selectWord ++ Wire.bulk (Text.Decimal.ofNat database))) := by
  have header : Wire.header 0x2A 2 = asterisk :: 0x32 :: crlf := by decide +kernel
  simp only [Wire.encodeLine, selectLine, List.length_cons, List.length_nil, header,
    List.flatMap_cons, List.flatMap_nil, List.append_nil, List.cons_append]

theorem setLine_plain {key value : Bytes} (plainKey : asterisk ∉ key)
    (plainValue : asterisk ∉ value) :
    asterisk ∉ 0x33 :: crlf ++ (Wire.bulk setWord ++ (Wire.bulk key ++ Wire.bulk value)) := by
  have word := asterisk_not_mem_bulk (show asterisk ∉ setWord by decide)
  simp only [List.cons_append, List.mem_cons, List.mem_append, not_or]
  exact ⟨by decide, by decide,
    ⟨word, asterisk_not_mem_bulk plainKey, asterisk_not_mem_bulk plainValue⟩⟩

theorem storingBytes_eq (database : Nat) (key value : Bytes) :
    storingBytes database key value = asterisk :: (0x32 :: crlf ++
      ((Wire.bulk selectWord ++ Wire.bulk (Text.Decimal.ofNat database)) ++
        asterisk :: (0x33 :: crlf ++
          (Wire.bulk setWord ++ (Wire.bulk key ++ Wire.bulk value))))) := by
  rw [storingBytes, encodeLine_selectLine, encodeLine_setLine]
  simp only [List.cons_append, List.append_assoc]

/-- Behind an unfinished unit, the lines that put a value into a database do not switch to it. -/
theorem storing_unlike_select {decoder : Decoder} (stuck : decoder.advance? = none)
    (unfinished : decoder ≠ {}) (database : Nat) {key value : Bytes} (plainKey : asterisk ∉ key)
    (plainValue : asterisk ∉ value) :
    ∀ item ∈ (decoder.feed (storingBytes database key value)).1,
      Yields (fun line => line.length ≠ 2 ∨ line.Marked) item := by
  have select : asterisk ∉ Wire.bulk selectWord ++ Wire.bulk (Text.Decimal.ofNat database) := by
    simp only [List.mem_append, not_or]
    exact ⟨asterisk_not_mem_bulk (by decide), asterisk_not_mem_bulk (asterisk_not_mem_ofNat _)⟩
  have triples : ∀ line : CommandLine, 3 ≤ line.length → line.length ≠ 2 ∨ line.Marked :=
    fun line three => .inl (by omega)
  rw [storingBytes_eq]
  refine Decoder.drain_yields stuck unfinished (by decide) (fun _ marked => .inr marked) ?_
  have front : asterisk ∉ 0x32 :: crlf := by decide
  exact opensOnly_of_front front (opensOnly_of_front select
    ⟨fun _ => ⟨⟨_, rfl⟩, triples⟩, opensOnly_of_not_mem (setLine_plain plainKey plainValue)⟩)

/-- The bytes that `storing` appends to an unfinished unit change no database but the one that was
last selected. -/
theorem storing_lost {databases database : Nat} {file : Bytes} (unfinished : standing file ≠ {})
    (differs : database ≠ (Replay.ofItems (.new databases) 0 (itemsOf {} file)).selected)
    {key value : Bytes} (plainKey : asterisk ∉ key) (plainValue : asterisk ∉ value) :
    (replay (.new databases)
        (some (file ++ storingBytes database key value))).engine.databases[database]? =
      (replay (.new databases) (some file)).engine.databases[database]? := by
  rw [replay_engine, replay_engine, itemsOf_append]
  obtain ⟨engines, -, -⟩ := Replay.ofItems_append (.new databases) 0 (itemsOf {} file)
    (itemsOf (standing file) (storingBytes database key value))
  have frame := Replay.ofItems_frame (storing_unlike_select (Decoder.drain_stuck _) unfinished
    database plainKey plainValue) (Replay.ofItems (.new databases) 0 (itemsOf {} file)).engine _
    differs
  exact (congrArg (fun engine => engine.databases[database]?) engines).trans frame

theorem setLine_addressable {key value : Bytes} (roomKey : key.length ≤ maxLength)
    (roomValue : value.length ≤ maxLength) : (setLine key value).Addressable := by
  simp only [CommandLine.Addressable, setLine, setWord, List.length_cons, List.length_nil,
    List.mem_cons, List.not_mem_nil, or_false, forall_eq_or_imp, forall_eq]
  exact ⟨by decide, by decide, roomKey, roomValue⟩

omit [DecidableEq κ] in
theorem storing_addressable (connection : κ) {database : Nat} (fits : database ≤ maxLength)
    {key value : Bytes} (roomKey : key.length ≤ maxLength) (roomValue : value.length ≤ maxLength) :
    (storing connection database key value).Addressable := by
  intro call mem
  simp only [storing, List.mem_cons, List.not_mem_nil, or_false, Activity.call.injEq] at mem
  rcases mem with rfl | rfl
  · exact selectLine_addressable fits
  · exact setLine_addressable roomKey roomValue

/-- If an engine is found again whatever it has done, so is a value that it has put into a
database. -/
theorem stored_of_recovers {databases database : Nat} {store : Store} {file : Bytes}
    (recovers : Recovers κ databases file) (connection : κ) (fits : database ≤ maxLength)
    (present : (replay (.new databases) (some file)).engine.databases[database]? = some store)
    {key value : Bytes} (roomKey : key.length ≤ maxLength) (roomValue : value.length ≤ maxLength) :
    (replay (.new databases) (some (file ++ storingBytes database key value))).engine =
      ⟨(replay (.new databases) (some file)).engine.databases.set database
        (store.insert key value)⟩ := by
  obtain ⟨live, closed⟩ := storing_spec .never connection key value fits present
  have found := recovers .never .never _ 0
    (storing_addressable connection fits roomKey roomValue)
  rw [closed, live] at found
  exact found

/-- With more than one database, nothing that is appended to an unfinished unit is sure to be loaded
again. -/
theorem not_recovers_of_unfinished {databases : Nat} {file : Bytes} (unfinished : standing file ≠ {})
    (several : 1 < (Engine.new databases).count) (connection : κ) : ¬ Recovers κ databases file := by
  intro recovers
  obtain ⟨database, small, differs⟩ : ∃ database, database ≤ 1 ∧
      database ≠ (Replay.ofItems (.new databases) 0 (itemsOf {} file)).selected := by
    by_cases zero : (Replay.ofItems (.new databases) 0 (itemsOf {} file)).selected = 0
    · exact ⟨1, Nat.le_refl 1, by rw [zero]; decide⟩
    · exact ⟨0, Nat.zero_le 1, Ne.symm zero⟩
  have within : database < (replay (.new databases) (some file)).engine.databases.length := by
    have same := Replay.ofItems_count (.new databases) 0 (read file)
    exact Nat.lt_of_lt_of_eq (by omega) same.symm
  have present := List.getElem?_eq_getElem within
  generalize (replay (.new databases) (some file)).engine.databases[database] = store at present
  obtain ⟨value, short, plain, other⟩ : ∃ value : Bytes, value.length = 1 ∧ asterisk ∉ value ∧
      store.get? [0x6B] ≠ some value := by
    by_cases zero : store.get? [0x6B] = some [0x30]
    · exact ⟨[0x31], rfl, by decide, by rw [zero]; decide⟩
    · exact ⟨[0x30], rfl, by decide, zero⟩
  have stored := stored_of_recovers recovers connection (Nat.le_trans small (by decide)) present
    (show [0x6B].length ≤ maxLength by decide) (show value.length ≤ maxLength by rw [short]; decide)
  have lost := storing_lost unfinished differs (show asterisk ∉ [0x6B] by decide) plain
  rw [stored, present, List.getElem?_set_self within] at lost
  have same := congrArg (fun found : Option Store => found.bind (·.get? [0x6B])) lost
  exact other (by simpa using same.symm)

theorem selected_of_single {databases : Nat} (single : (Engine.new databases).count = 1)
    (items : List LogItem) : (Replay.ofItems (.new databases) 0 items).selected = 0 := by
  have within := Replay.ofItems_selected_lt items
    (show 0 < (Engine.new databases).count by omega)
  rw [Replay.ofItems_count, single] at within
  omega

/-- What the new entries of an engine with one database begin with. -/
def selectFirst : Bytes :=
  Wire.encodeLine (selectLine 0)

/-- With one database, an unfinished unit does no harm that the SELECT line behind it brings to an
end without a change to the database. -/
theorem recovers_of_absorbed {databases : Nat} {file : Bytes}
    (single : (Engine.new databases).count = 1) (stands : standing (file ++ selectFirst) = {})
    (kept : (replay (.new databases) (some (file ++ selectFirst))).engine =
      (replay (.new databases) (some file)).engine) : Recovers κ databases file := by
  intro policy later next now room
  have recorded := live_recorded room databases policy (some file)
  generalize next.logged ⟨databases, true, policy⟩ (some file) = entries at recorded
  have closed : next.fileAfter ⟨databases, true, policy⟩ (some file) =
      some (file ++ entriesBytes none entries) := LogState.close_records recorded.records next.closedAt
  rw [closed, recorded.engine]
  change (replay (.new databases) (some (file ++ entriesBytes none entries))).engine = _
  cases entries with
  | nil => rw [entriesBytes, List.append_nil]; rfl
  | cons entry rest =>
      have first : entry.database = 0 := by
        have logged := (Engine.exec_of_logged recorded.logs.1).2.2.2
        rw [replay, Replay.ofItems_count, single] at logged
        omega
      have bytes : file ++ entriesBytes none (entry :: rest) =
          (file ++ selectFirst) ++ entriesBytes (some 0) (entry :: rest) := by
        simp [entriesBytes, entryBytes, first, selectFirst]
      have spelled := spells_entries recorded.addressable (some 0)
      have items : itemsOf {} (file ++ entriesBytes none (entry :: rest)) =
          itemsOf {} (file ++ selectFirst) ++
            (entriesLines (some 0) (entry :: rest)).map .line := by
        rw [bytes, itemsOf_append, ← itemsOf_lines spelled]
        exact congrArg (fun decoder => itemsOf {} _ ++ itemsOf decoder _) stands
      obtain ⟨engines, -, -⟩ := Replay.ofItems_append (.new databases) 0
        (itemsOf {} (file ++ selectFirst)) ((entriesLines (some 0) (entry :: rest)).map .line)
      have begun := replay_engine (.new databases) (file ++ selectFirst)
      obtain ⟨again, -⟩ := Replay.ofItems_entries (some 0)
        (Replay.ofItems (.new databases) 0 (itemsOf {} (file ++ selectFirst))).selected
        (begun ▸ kept.symm ▸ recorded.logs) recorded.addressable fun database same => by
          cases same
          exact selected_of_single single _
      rw [replay_engine, items, engines, again, ← begun, kept]

/-- What one marked line behind an unfinished unit does to a database does not put a value without a
mark under a key. It was there, or it was moved there from another key. -/
theorem origin_of_marked {engine : Engine} {line : CommandLine} (marked : line.Marked)
    {key value : Bytes} (plainKey : asterisk ∉ key) (plainValue : asterisk ∉ value)
    (found : (engine.exec 0 line).engine.value? 0 key = some value) :
    engine.value? 0 key = some value ∨ ∃ source, source ≠ key ∧
      engine.value? 0 source = some value ∧ ∀ other, other ≠ key →
        (engine.exec 0 line).engine.value? 0 other =
          if other = source then none else engine.value? 0 other := by
  rcases Engine.exec_origin found with held | ⟨name, rfl, plainName⟩ | moved
  · exact .inl held
  · obtain ⟨word, mem, mark⟩ := marked
    simp only [List.mem_cons, List.not_mem_nil, or_false] at mem
    rcases mem with rfl | rfl | rfl
    · exact absurd mark plainName
    · exact absurd mark plainKey
    · exact absurd mark plainValue
  · exact .inr moved

theorem value?_set_insert {engine : Engine} {database : Nat} {store : Store}
    (present : engine.databases[database]? = some store) (key value other : Bytes) :
    Engine.value? ⟨engine.databases.set database (store.insert key value)⟩ database other =
      if key = other then some value else engine.value? database other := by
  have within := (List.getElem?_eq_some_iff.mp present).1
  simp only [Engine.value?, List.getElem?_set_self within, present, Option.bind_some,
    Store.get?_insert]

theorem engine_eq_of_single {left right : Engine} (singleLeft : left.count = 1)
    (singleRight : right.count = 1) (same : ∀ key, left.value? 0 key = right.value? 0 key) :
    left = right := by
  obtain ⟨leftStore, spelledLeft⟩ := List.length_eq_one_iff.mp singleLeft
  obtain ⟨rightStore, spelledRight⟩ := List.length_eq_one_iff.mp singleRight
  have stores : leftStore = rightStore := by
    apply Store.ext_get?
    intro key
    simpa [Engine.value?, spelledLeft, spelledRight] using same key
  cases left
  cases right
  simp_all

section

variable {databases : Nat} {file : Bytes}

theorem replay_count (file? : Option Bytes) :
    (replay (.new databases) file?).engine.count = (Engine.new databases).count :=
  Replay.ofItems_count _ _ _

theorem replay_storing (single : (Engine.new databases).count = 1) (key value : Bytes) :
    (replay (.new databases) (some (file ++ storingBytes 0 key value))).engine =
      (Replay.ofItems (replay (.new databases) (some (file ++ selectFirst))).engine 0
        (itemsOf (standing (file ++ selectFirst)) (Wire.encodeLine (setLine key value)))).engine := by
  have bytes : file ++ storingBytes 0 key value =
      (file ++ selectFirst) ++ Wire.encodeLine (setLine key value) := by
    rw [storingBytes, List.append_assoc]
    rfl
  obtain ⟨engines, -, -⟩ := Replay.ofItems_append (.new databases) 0
    (itemsOf {} (file ++ selectFirst))
    (itemsOf (standing (file ++ selectFirst)) (Wire.encodeLine (setLine key value)))
  rw [selected_of_single single] at engines
  rw [bytes, replay_engine, itemsOf_append, replay_engine]
  exact engines

theorem value?_of_recovers (connection : κ) (single : (Engine.new databases).count = 1)
    (recovers : Recovers κ databases file) {key value : Bytes} (roomKey : key.length ≤ maxLength)
    (roomValue : value.length ≤ maxLength) (other : Bytes) :
    (replay (.new databases) (some (file ++ storingBytes 0 key value))).engine.value? 0 other =
      if key = other then some value
      else (replay (.new databases) (some file)).engine.value? 0 other := by
  have within : 0 < (replay (.new databases) (some file)).engine.databases.length :=
    Nat.lt_of_lt_of_eq (by omega) (replay_count (some file)).symm
  have present := List.getElem?_eq_getElem within
  rw [stored_of_recovers recovers connection (Nat.zero_le _) present roomKey roomValue,
    value?_set_insert present]

/-- A value that is found again although its line was spoiled was there before, or it was moved to
its key from another one. -/
theorem origin_of_recovers (connection : κ) (single : (Engine.new databases).count = 1)
    (recovers : Recovers κ databases file) (unfinished : standing (file ++ selectFirst) ≠ {})
    {key value : Bytes} (roomKey : key.length ≤ maxLength) (roomValue : value.length ≤ maxLength)
    (plainKey : asterisk ∉ key) (plainValue : asterisk ∉ value) :
    let loaded := (replay (.new databases) (some file)).engine
    let absorbed := (replay (.new databases) (some (file ++ selectFirst))).engine
    absorbed.value? 0 key = some value ∨ ∃ source, source ≠ key ∧
      absorbed.value? 0 source = some value ∧ ∀ other, other ≠ key →
        loaded.value? 0 other = if other = source then none else absorbed.value? 0 other := by
  intro loaded absorbed
  have found := value?_of_recovers connection single recovers roomKey roomValue
  have plain : asterisk ∉ 0x33 :: crlf ++ (Wire.bulk setWord ++ (Wire.bulk key ++ Wire.bulk value)) :=
    setLine_plain plainKey plainValue
  have one := Replay.atMostOneLine_of_unfinished (Decoder.drain_stuck _) unfinished (by decide)
    plain absorbed 0
  rw [← encodeLine_setLine] at one
  rw [replay_storing single] at found
  rcases one with same | ⟨line, marked, same⟩
  · refine .inl ?_
    have here := found key
    rw [if_pos rfl] at here
    exact (congrArg (fun engine => engine.value? 0 key) same).symm.trans here
  · have executed : ∀ other, (absorbed.exec 0 line).engine.value? 0 other =
        if key = other then some value else loaded.value? 0 other := fun other =>
      (congrArg (fun engine => engine.value? 0 other) same).symm.trans (found other)
    rcases origin_of_marked marked plainKey plainValue ((executed key).trans (if_pos rfl)) with
      held | ⟨source, differs, held, moved⟩
    · exact .inl held
    · refine .inr ⟨source, differs, held, fun other apart => ?_⟩
      rw [← moved other apart, executed other, if_neg (Ne.symm apart)]

theorem eq_of_moved {loaded absorbed : Bytes → Option Value} {key source other : Bytes}
    {first second : Value} (apart : source ≠ key) (held : absorbed source = some first)
    (moved : ∀ k, k ≠ key → loaded k = if k = source then none else absorbed k)
    (heldOther : absorbed other = some second)
    (movedOther : ∀ k, k ≠ key → loaded k = if k = other then none else absorbed k) :
    first = second := by
  have gone := moved source apart
  have kept := movedOther source apart
  rw [if_pos rfl] at gone
  by_cases same : source = other
  · subst same
    exact Option.some.inj (held.symm.trans heldOther)
  · rw [if_neg same, gone, held] at kept
    cases kept

/-- An unfinished unit that is still unfinished behind the SELECT line loses one of three values: two
of them would have to be moved to their key from one other key. -/
theorem standing_of_recovers (connection : κ) (single : (Engine.new databases).count = 1)
    (recovers : Recovers κ databases file) : standing (file ++ selectFirst) = {} := by
  by_cases unfinished : standing (file ++ selectFirst) = {}
  · exact unfinished
  · exfalso
    have roomKey : List.length [0x6B] ≤ maxLength := by decide
    have plainKey : asterisk ∉ [0x6B] := by decide
    have origin := fun value (room : List.length value ≤ maxLength) (plain : asterisk ∉ value) =>
      origin_of_recovers connection single recovers unfinished roomKey room plainKey plain
    have first := origin [0x30] (by decide) (by decide)
    have second := origin [0x31] (by decide) (by decide)
    have third := origin [0x32] (by decide) (by decide)
    rcases first with first | ⟨_, apart, first, moved⟩
    · rcases second with second | ⟨_, apart, second, moved⟩
      · exact absurd (first.symm.trans second) (by decide)
      · rcases third with third | ⟨_, -, third, movedThird⟩
        · exact absurd (first.symm.trans third) (by decide)
        · exact absurd (eq_of_moved apart second moved third movedThird) (by decide)
    · rcases second with second | ⟨_, -, second, movedSecond⟩
      · rcases third with third | ⟨_, -, third, movedThird⟩
        · exact absurd (second.symm.trans third) (by decide)
        · exact absurd (eq_of_moved apart first moved third movedThird) (by decide)
      · exact absurd (eq_of_moved apart first moved second movedSecond) (by decide)

/-- If an engine with one database is found again whatever it has done, the SELECT line has brought
the unfinished unit to an end without a change to the database. -/
theorem absorbed_of_recovers (connection : κ) (single : (Engine.new databases).count = 1)
    (recovers : Recovers κ databases file) :
    (replay (.new databases) (some (file ++ selectFirst))).engine =
      (replay (.new databases) (some file)).engine := by
  have stands := standing_of_recovers connection single recovers
  apply engine_eq_of_single (by rw [replay_count, single]) (by rw [replay_count, single])
  have apart : ∀ key other : Bytes, key.length ≤ maxLength → key ≠ other →
      (replay (.new databases) (some (file ++ selectFirst))).engine.value? 0 other =
        (replay (.new databases) (some file)).engine.value? 0 other := by
    intro key other room differs
    have empty : List.length ([] : Bytes) ≤ maxLength := Nat.zero_le _
    have found := value?_of_recovers connection single recovers room empty other
    have spelled : Spells (Wire.encodeLine (setLine key [])) [setLine key []] :=
      ⟨by simp, by simpa using setLine_addressable room empty⟩
    have within : 0 < (replay (.new databases) (some (file ++ selectFirst))).engine.databases.length :=
      Nat.lt_of_lt_of_eq (by omega) (replay_count (some (file ++ selectFirst))).symm
    have present := List.getElem?_eq_getElem within
    obtain ⟨_, stored⟩ := exec_setLine present key []
    rw [replay_storing single, stands, itemsOf_lines spelled, List.map_singleton,
      Replay.ofItems_line, Replay.prependLine_engine, stored, Replay.ofItems_nil, Replay.mk_engine,
      DurableEngine.unlogged_engine, value?_set_insert present, if_neg differs, if_neg differs]
      at found
    exact found
  intro other
  by_cases same : other = [0x6B]
  · exact apart [0x6C] other (by decide) (by rw [same]; decide)
  · exact apart [0x6B] other (by decide) (Ne.symm same)

theorem recovers_iff (connection : κ) : Recovers κ databases file ↔ standing file = {} ∨
    (Engine.new databases).count = 1 ∧ standing (file ++ selectFirst) = {} ∧
      (replay (.new databases) (some (file ++ selectFirst))).engine =
        (replay (.new databases) (some file)).engine := by
  constructor
  · intro recovers
    by_cases stands : standing file = {}
    · exact .inl stands
    · have positive : 0 < (Engine.new databases).count := by
        simp only [Engine.new, Engine.count, List.length_replicate]
        split
        · decide
        · omega
      have single : (Engine.new databases).count = 1 := by
        rcases Nat.lt_or_ge 1 (Engine.new databases).count with several | most
        · exact absurd recovers (not_recovers_of_unfinished stands several connection)
        · omega
      exact .inr ⟨single, standing_of_recovers connection single recovers,
        absorbed_of_recovers connection single recovers⟩
  · rintro (stands | ⟨single, stands, kept⟩)
    · exact recovers_of_standing databases stands
    · exact recovers_of_absorbed single stands kept

end

/-- Of bytes that the decoder takes for the same lines, and for no more, none are longer. -/
theorem eq_nil_of_feed {front back : Bytes} {items : List Item}
    (whole : Decoder.feed {} (front ++ back) = (items, {}))
    (part : Decoder.feed {} front = (items, {})) : back = [] := by
  rw [Decoder.feed_append, part] at whole
  obtain ⟨read, last⟩ := Prod.mk.inj whole
  have silent : Decoder.feed {} back = ([], {}) :=
    Prod.ext (List.append_cancel_left (read.trans (List.append_nil items).symm)) last
  exact congrArg Decoder.buffer (Decoder.eq_of_drain_silent silent)

/-- A part of a log stands at the start of a new line only where it consists of whole ones. -/
theorem standing_take_iff {log : Bytes} {lines : List CommandLine} (spelled : Spells log lines)
    (cut : Nat) : standing (log.take cut) = {} ↔ ∃ whole, Spells (log.take cut) whole := by
  constructor
  · intro stands
    let items : List Item := (Decoder.feed {} (log.take cut)).1
    have part : Decoder.feed {} (log.take cut) = (items, {}) := Prod.ext rfl stands
    have all := feed_lines spelled
    rw [← List.take_append_drop cut log, Decoder.feed_append, part] at all
    obtain ⟨front, back, split, first, -⟩ := List.map_eq_append_iff.mp (congrArg Prod.fst all).symm
    have spelledFront : Spells (front.flatMap Wire.encodeLine) front :=
      ⟨rfl, fun line mem => spelled.2 line (split ▸ List.mem_append_left _ mem)⟩
    have read := feed_lines spelledFront
    rw [first] at read
    have written : front.flatMap Wire.encodeLine <+: log := by
      rw [spelled.1, split, List.flatMap_append]
      exact List.prefix_append _ _
    refine ⟨front, ?_, spelledFront.2⟩
    rcases List.prefix_or_prefix_of_prefix (List.take_prefix cut log) written with
      ⟨more, longer⟩ | ⟨more, longer⟩
    · rw [← longer] at read
      rw [← longer, eq_nil_of_feed read part, List.append_nil]
    · rw [← longer] at part
      rw [← longer, eq_nil_of_feed part read, List.append_nil]
  · rintro ⟨whole, spelledPart⟩
    rw [standing, feed_lines spelledPart]

/-- What an engine that starts on a torn log has done is loaded again exactly if the log was cut
between two entries, or the engine has a single database and the SELECT line with which it goes on
brings the unfinished entry to an end without a change to the database. -/
theorem recovers_torn_iff (databases : Nat) (file? : Option Bytes)
    (runs : List (SyncPolicy × Lifetime κ)) (cut : Nat) (connection : κ) (fresh : file?.getD [] = [])
    (room : ∀ run ∈ runs, run.2.Addressable) :
    let torn := ((fileAfterEach databases file? runs).getD []).take cut
    Recovers κ databases torn ↔ (∃ lines, Spells torn lines) ∨
      (Engine.new databases).count = 1 ∧ standing (torn ++ selectFirst) = {} ∧
        (replay (.new databases) (some (torn ++ selectFirst))).engine =
          (replay (.new databases) (some torn)).engine := by
  intro torn
  have empty : Spells (file?.getD []) [] := ⟨fresh, by simp⟩
  obtain ⟨spelled, -⟩ := each_spells databases room empty
  rw [recovers_iff connection, standing_take_iff spelled cut]

/-- A log that lacks its last byte: the value that is put into another database afterwards is loaded
into the first one. -/
theorem not_recovers_torn :
    ¬ Recovers Bool 2
      (((fileAfterEach 2 none [(.always, storing true 0 [0x6B] [0x31])]).getD []).take 49) := by
  intro recovers
  have room := storing_addressable true (show 1 ≤ maxLength by decide)
    (show List.length [0x6B] ≤ maxLength by decide) (show List.length [0x32] ≤ maxLength by decide)
  have found := recovers .always .always (storing true 1 [0x6B] [0x32]) 0 room
  exact absurd found (by decide +kernel)

theorem recovers_torn_iff_at_last_byte :
    let torn := ((fileAfterEach 2 none [(.always, storing true 0 [0x6B] [0x31])]).getD []).take 49
    Recovers Bool 2 torn ↔ (∃ lines, Spells torn lines) ∨
      (Engine.new 2).count = 1 ∧ standing (torn ++ selectFirst) = {} ∧
        (replay (.new 2) (some (torn ++ selectFirst))).engine =
          (replay (.new 2) (some torn)).engine := by
  refine recovers_torn_iff 2 none [(.always, storing true 0 [0x6B] [0x31])] 49 true rfl ?_
  intro run mem
  rw [List.mem_singleton.mp mem]
  exact storing_addressable true (Nat.zero_le _) (by decide) (by decide)

end Lifetime

end ShardStore
