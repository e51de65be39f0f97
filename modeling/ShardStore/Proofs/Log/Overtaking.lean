import Mathlib.Data.List.Nodup
import Mathlib.Data.Set.Basic
import ShardStore.Proofs.Command.Independence
import ShardStore.Proofs.Log.Resizing

/-!
The order of a log. A line changes its database before its entry is queued, so the entry of a line
that another connection executes later may be queued first. What the queued entries make, one after
another, is what is in memory as long as an entry overtakes only entries that concern other keys; and
for any turns in which one overtakes an entry on a key of its own there are lines whose log is wrong
(`Race.replayed_iff`).
-/

namespace ShardStore.Race

variable {κ : Type}

/-- A step of a race without the line it executes, of which only a set of keys is known. -/
inductive Turn (κ : Type) where
  | execute (connection : κ) (reach : Set Bytes)
  | enqueue (connection : κ)

/-- Whether a step is one that a turn may be: an executed line concerns no key out of reach. -/
def Turn.Allows : Turn κ → RaceStep κ → Prop
  | .execute connection reach, .execute call =>
    call.connection = connection ∧ ∀ key, call.line.Concerns key → key ∈ reach
  | .enqueue connection, .enqueue other => other = connection
  | _, _ => False

/-- Whether another connection executes a line on some keys and queues its entry before a connection
queues its own. -/
def Passed (connection : κ) (keys : Set Bytes) (turns : List (Turn κ)) : Prop :=
  ∃ other reach during after, turns = during ++ .enqueue connection :: after ∧
    .enqueue connection ∉ during ∧ [.execute other reach, .enqueue other].Sublist during ∧
    (keys ∩ reach).Nonempty

/-- Whether between the execution of a line and the queuing of its entry another connection both
executes a line on a key that the two have in common and queues its entry. -/
def Overtaking (turns : List (Turn κ)) : Prop :=
  ∃ connection reach before rest,
    turns = before ++ .execute connection reach :: rest ∧ Passed connection reach rest

variable [DecidableEq κ]

/-- The race that steps make of an engine with so many empty databases. -/
def after (databases : Nat) (steps : List (RaceStep κ)) : Race κ :=
  run { clients := { state := .new databases } } steps

/-- Whether, if all connections have finished, the queued entries make the databases in memory. -/
def Replayed (databases : Nat) (steps : List (RaceStep κ)) : Prop :=
  (∀ connection, (after databases steps).held connection = none) →
    (Engine.new databases).execEntries (after databases steps).queued =
      (after databases steps).clients.state

variable {connection other : κ} {keys reach : Set Bytes} {turn : Turn κ} {turns : List (Turn κ)}

omit [DecidableEq κ] in
theorem Passed.cons (passed : Passed connection keys turns) (differs : turn ≠ .enqueue connection) :
    Passed connection keys (turn :: turns) := by
  obtain ⟨other, reach, during, after, rfl, unqueued, within, common⟩ := passed
  refine ⟨other, reach, turn :: during, after, rfl, ?_, within.cons turn, common⟩
  rw [List.mem_cons, not_or]
  exact ⟨differs.symm, unqueued⟩

omit [DecidableEq κ] in
theorem Passed.mono {wider : Set Bytes} (passed : Passed connection keys turns)
    (subset : keys ⊆ wider) : Passed connection wider turns := by
  obtain ⟨other, reach, during, after, spelled, unqueued, within, common⟩ := passed
  exact ⟨other, reach, during, after, spelled, unqueued, within,
    common.mono (Set.inter_subset_inter_left reach subset)⟩

omit [DecidableEq κ] in
theorem Overtaking.cons (overtaking : Overtaking turns) : Overtaking (turn :: turns) := by
  obtain ⟨connection, reach, before, rest, rfl, passed⟩ := overtaking
  exact ⟨connection, reach, turn :: before, rest, rfl, passed⟩

/-- Whether a connection queues its entry before another one does. -/
def Ahead (connection other : κ) (turns : List (Turn κ)) : Prop :=
  ∃ during after, turns = during ++ .enqueue other :: after ∧ .enqueue other ∉ during ∧
    .enqueue connection ∈ during

omit [DecidableEq κ] in
theorem Ahead.cons (ahead : Ahead connection other turns) (differs : turn ≠ .enqueue other) :
    Ahead connection other (turn :: turns) := by
  obtain ⟨during, after, rfl, unqueued, mem⟩ := ahead
  refine ⟨turn :: during, after, rfl, ?_, List.mem_cons_of_mem turn mem⟩
  rw [List.mem_cons, not_or]
  exact ⟨differs.symm, unqueued⟩

omit [DecidableEq κ] in
/-- A connection that executes a line and is ahead of another one with its entry passes it. -/
theorem Passed.of_ahead (ahead : Ahead connection other turns) (common : (keys ∩ reach).Nonempty) :
    Passed other keys (.execute connection reach :: turns) := by
  obtain ⟨during, after, rfl, unqueued, mem⟩ := ahead
  refine ⟨connection, reach, .execute connection reach :: during, after, rfl, ?_, ?_, common⟩
  · rw [List.mem_cons, not_or]
    exact ⟨nofun, unqueued⟩
  · exact (List.singleton_sublist.mpr mem).cons_cons _

variable {race : Race κ} {start : Engine} {backlog : List (κ × LogEntry)} {steps : List (RaceStep κ)}

/-- A connection that holds no entry executes its next line. -/
theorem step_execute {call : Call κ} (free : race.held call.connection = none) :
    let selected := race.clients.selections call.connection
    let done := race.clients.state.exec selected call.line
    race.step (.execute call) =
      { clients :=
          { state := done.engine
            selections := race.clients.selections.select call.connection done.selected }
        held := fun other => if other = call.connection then done.entry? else race.held other
        queued := race.queued } := by
  simp only [step, free, hold]

/-- A connection that holds an entry executes nothing until the entry is queued. -/
theorem step_execute_of_held {call : Call κ} {entry : LogEntry}
    (holds : race.held call.connection = some entry) : race.step (.execute call) = race := by
  simp only [step, holds]

theorem step_enqueue {entry : LogEntry} (holds : race.held connection = some entry) :
    race.step (.enqueue connection) =
      { race with
        held := fun other => if other = connection then none else race.held other
        queued := race.queued ++ [entry] } := by
  simp only [step, holds, hold]

theorem step_enqueue_of_free (free : race.held connection = none) :
    race.step (.enqueue connection) = race := by
  simp only [step, free]

/-- An entry is held until it is queued. -/
theorem run_held {entry : LogEntry} (holds : race.held connection = some entry)
    (unqueued : .enqueue connection ∉ steps) : (race.run steps).held connection = some entry := by
  induction steps generalizing race with
  | nil => exact holds
  | cons next rest ih =>
      obtain ⟨differs, later⟩ := not_or.mp (mt List.mem_cons.mpr unqueued)
      refine ih ?_ later
      cases next with
      | execute call =>
          cases free : race.held call.connection with
          | some other => rwa [step_execute_of_held free]
          | none =>
              rw [step_execute free]
              have here : connection ≠ call.connection := fun same => by
                rw [← same, holds] at free
                cases free
              simpa only [if_neg here] using holds
      | enqueue other =>
          have here : connection ≠ other := fun same => differs (by rw [same])
          cases held : race.held other with
          | none => rwa [step_enqueue_of_free held]
          | some entry =>
              rw [step_enqueue held]
              simpa only [if_neg here] using holds

def concerned (entry : LogEntry) : Set Bytes :=
  { key | entry.line.Concerns key }

/-- What holds in a race in front of turns that do not overtake each other: the entries that are
held, in the order in which they were executed, and behind the queued ones, make the databases, and
none of them will overtake an earlier one with which it has a key in common. -/
structure Standing (start : Engine) (race : Race κ) (backlog : List (κ × LogEntry))
    (turns : List (Turn κ)) : Prop where
  distinct : (backlog.map Prod.fst).Nodup
  held : ∀ connection entry, race.held connection = some entry ↔ (connection, entry) ∈ backlog
  engine : race.clients.state =
    (start.execEntries race.queued).execEntries (backlog.map Prod.snd)
  unpassed : ∀ item ∈ backlog, ¬ Passed item.1 (concerned item.2) turns
  ordered : backlog.Pairwise fun first second =>
    (concerned first.2 ∩ concerned second.2).Nonempty → ¬ Ahead second.1 first.1 turns
  sound : ¬ Overtaking turns

omit [DecidableEq κ] in
theorem Standing.tail (standing : Standing start race backlog (turn :: turns))
    (differs : ∀ item ∈ backlog, turn ≠ .enqueue item.1) : Standing start race backlog turns where
  distinct := standing.distinct
  held := standing.held
  engine := standing.engine
  unpassed item mem passed := standing.unpassed item mem (passed.cons (differs item mem))
  ordered := standing.ordered.imp_of_mem fun mem _ unahead common ahead =>
    unahead common (ahead.cons (differs _ mem))
  sound overtaking := standing.sound overtaking.cons

omit [DecidableEq κ] in
theorem Standing.free (standing : Standing start race backlog turns)
    (free : race.held connection = none) : ∀ item ∈ backlog, item.1 ≠ connection := by
  rintro ⟨other, entry⟩ mem rfl
  rw [(standing.held _ entry).mpr mem] at free
  cases free

/-- A connection executes a line and holds its entry. -/
theorem Standing.logged {call : Call κ} {selected : Nat}
    (standing : Standing start race backlog (.execute call.connection reach :: turns))
    (within : ∀ key, call.line.Concerns key → key ∈ reach)
    (free : race.held call.connection = none) (selections : Selections κ) :
    Standing start
      { clients := { state := (race.clients.state.exec selected call.line).engine, selections }
        held := fun other =>
          if other = call.connection then some ⟨selected, call.line⟩ else race.held other
        queued := race.queued }
      (backlog ++ [(call.connection, ⟨selected, call.line⟩)]) turns := by
  have others := standing.free free
  have rest : Standing start race backlog turns := standing.tail nofun
  refine ⟨?_, fun connection entry => ?_, ?_, fun item mem => ?_, ?_, rest.sound⟩
  · rw [List.map_append, List.nodup_append]
    refine ⟨rest.distinct, by simp, fun connection mem other last => ?_⟩
    obtain ⟨item, found, rfl⟩ := List.mem_map.mp mem
    rw [List.mem_singleton.mp last]
    exact others item found
  · rw [List.mem_append, List.mem_singleton, ← rest.held, Prod.mk.injEq]
    by_cases same : connection = call.connection
    · simp [same, free, eq_comm]
    · simp [same]
  · rw [List.map_append, Engine.execEntries_append, ← rest.engine]
    rfl
  · rcases List.mem_append.mp mem with mem | last
    · exact rest.unpassed item mem
    · rw [List.mem_singleton.mp last]
      exact fun passed => standing.sound ⟨_, reach, [], turns, rfl, passed.mono within⟩
  · rw [List.pairwise_append]
    refine ⟨rest.ordered, List.pairwise_singleton _ _, fun first mem second last common ahead => ?_⟩
    rw [List.mem_singleton.mp last] at common ahead
    exact standing.unpassed first mem
      (.of_ahead ahead (common.mono (Set.inter_subset_inter_right _ within)))

theorem Standing.execute {call : Call κ}
    (standing : Standing start race backlog (.execute call.connection reach :: turns))
    (within : ∀ key, call.line.Concerns key → key ∈ reach) :
    ∃ backlog, Standing start (race.step (.execute call)) backlog turns := by
  cases free : race.held call.connection with
  | some entry =>
      rw [step_execute_of_held free]
      exact ⟨backlog, standing.tail nofun⟩
  | none =>
      rw [step_execute free]
      generalize race.clients.selections call.connection = selected
      cases logged : Execution.entry? (race.clients.state.exec selected call.line) with
      | none =>
          have rest : Standing start race backlog turns := standing.tail nofun
          refine ⟨backlog, { rest with held := fun connection entry => ?_, engine := ?_ }⟩
          · rw [← rest.held]
            dsimp only
            split
            · next same => rw [same, free]
            · rfl
          · exact (Engine.exec_of_unlogged logged).trans rest.engine
      | some entry =>
          obtain ⟨rfl, -⟩ := Engine.exec_of_logged logged
          exact ⟨_, standing.logged within free _⟩

section

variable {front back : List (κ × LogEntry)} {entry : LogEntry}

omit [DecidableEq κ] in
theorem Standing.others
    (standing : Standing start race (front ++ (connection, entry) :: back) turns) :
    ∀ item ∈ front ++ back, item.1 ≠ connection := by
  have distinct := standing.distinct
  rw [List.map_append, List.map_cons, List.nodup_middle, List.nodup_cons, ← List.map_append]
    at distinct
  intro item mem same
  have listed : item.1 ∈ (front ++ back).map Prod.fst := List.mem_map_of_mem mem
  rw [same] at listed
  exact distinct.1 listed

omit [DecidableEq κ] in
/-- An entry that is about to be queued is independent of those executed before it, if these are
still to be queued. -/
theorem Standing.independent
    (standing : Standing start race (front ++ (connection, entry) :: back)
      (.enqueue connection :: turns))
    (finishes : ∀ item ∈ front, .enqueue item.1 ∈ turns) :
    ∀ earlier ∈ front.map Prod.snd, Engine.Independent earlier entry := by
  intro earlier listed
  obtain ⟨item, mem, rfl⟩ := List.mem_map.mp listed
  refine .inr fun key mine other => ?_
  obtain ⟨-, -, across⟩ := List.pairwise_append.mp standing.ordered
  refine across item mem _ List.mem_cons_self ⟨key, mine, other⟩ ?_
  obtain ⟨during, after, spelled, absent⟩ := List.eq_append_cons_of_mem (finishes item mem)
  refine ⟨.enqueue connection :: during, after, by rw [spelled]; rfl, ?_, List.mem_cons_self⟩
  rw [List.mem_cons, not_or]
  have differs := standing.others item (List.mem_append_left back mem)
  exact ⟨fun same => differs (Turn.enqueue.inj same), absent⟩

/-- A connection queues its entry in front of those executed before it that are still held. -/
theorem Standing.queued
    (standing : Standing start race (front ++ (connection, entry) :: back)
      (.enqueue connection :: turns))
    (independent : ∀ earlier ∈ front.map Prod.snd, Engine.Independent earlier entry) :
    Standing start
      { race with
        held := fun other => if other = connection then none else race.held other
        queued := race.queued ++ [entry] } (front ++ back) turns := by
  have shorter : (front ++ back).Sublist (front ++ (connection, entry) :: back) :=
    (List.sublist_cons_self _ back).append_left front
  have others := standing.others
  have left : Standing start
      { race with
        held := fun other => if other = connection then none else race.held other
        queued := race.queued ++ [entry] } (front ++ back) (.enqueue connection :: turns) := by
    refine ⟨standing.distinct.sublist (shorter.map _), fun other found => ?_, ?_,
      fun item mem => standing.unpassed item (shorter.subset mem),
      standing.ordered.sublist shorter, standing.sound⟩
    · have spelled := standing.held other found
      by_cases same : other = connection
      · simp only [if_pos same, reduceCtorEq, false_iff]
        exact fun mem => others _ mem same
      · simp only [if_neg same]
        rw [spelled, List.mem_append, List.mem_cons, List.mem_append, Prod.mk.injEq]
        simp only [same, false_and, false_or]
    · rw [standing.engine, Engine.execEntries_append, List.map_append, List.map_append,
        Engine.execEntries_append, Engine.execEntries_append]
      exact congrArg (Engine.execEntries · (back.map Prod.snd))
        (Engine.execEntries_commute independent _).symm
  exact left.tail fun item mem same => others item mem (Turn.enqueue.inj same).symm

end

theorem Standing.enqueue (standing : Standing start race backlog (.enqueue connection :: turns))
    (finishes : ∀ item ∈ backlog, item.1 ≠ connection → .enqueue item.1 ∈ turns) :
    ∃ backlog, Standing start (race.step (.enqueue connection)) backlog turns := by
  cases holds : race.held connection with
  | none =>
      rw [step_enqueue_of_free holds]
      exact ⟨backlog, standing.tail fun item mem same =>
        standing.free holds item mem (Turn.enqueue.inj same).symm⟩
  | some entry =>
      rw [step_enqueue holds]
      obtain ⟨front, back, rfl⟩ := List.append_of_mem ((standing.held connection entry).mp holds)
      refine ⟨_, standing.queued (standing.independent fun item mem => ?_)⟩
      exact finishes item (List.mem_append_left _ mem)
        (standing.others item (List.mem_append_left back mem))

omit [DecidableEq κ] in
theorem Turn.Allows.enqueue_mem (allowed : List.Forall₂ Turn.Allows turns steps)
    (mem : .enqueue connection ∈ steps) : .enqueue connection ∈ turns := by
  induction allowed with
  | nil => cases mem
  | @cons turn next _ _ allows _ ih =>
      rcases List.mem_cons.mp mem with rfl | mem
      · cases turn with
        | execute => exact allows.elim
        | enqueue other => exact List.mem_cons.mpr (.inl (congrArg Turn.enqueue allows))
      · exact List.mem_cons_of_mem _ (ih mem)

/-- If no entry overtakes one with which it has a key in common, the log makes what is in memory. -/
theorem Standing.run (standing : Standing start race backlog turns)
    (allowed : List.Forall₂ Turn.Allows turns steps)
    (finished : ∀ connection, (race.run steps).held connection = none) :
    start.execEntries (race.run steps).queued = (race.run steps).clients.state := by
  induction allowed generalizing race backlog with
  | nil =>
      have empty : backlog = [] := List.eq_nil_iff_forall_not_mem.mpr fun item mem =>
        standing.free (finished item.1) item mem rfl
      rw [show race.run [] = race from rfl, standing.engine, empty]
      rfl
  | @cons turn next turns steps allows rest ih =>
      cases turn with
      | execute connection reach =>
          cases next with
          | enqueue => exact allows.elim
          | execute call =>
              obtain ⟨rfl, within⟩ := allows
              obtain ⟨backlog, standing⟩ := standing.execute within
              exact ih standing finished
      | enqueue connection =>
          cases next with
          | execute => exact allows.elim
          | enqueue other =>
              obtain rfl : other = connection := allows
              have finishes : ∀ item ∈ backlog, item.1 ≠ other → .enqueue item.1 ∈ turns := by
                rintro ⟨holder, entry⟩ mem differs
                have holds := (standing.held holder entry).mpr mem
                by_contra absent
                have unqueued : .enqueue holder ∉ .enqueue other :: steps := fun mem => by
                  rcases List.mem_cons.mp mem with same | later
                  · exact differs (RaceStep.enqueue.inj same)
                  · exact absent (Turn.Allows.enqueue_mem rest later)
                have kept := run_held holds unqueued
                rw [finished holder] at kept
                cases kept
              obtain ⟨backlog, standing⟩ := standing.enqueue finishes
              exact ih standing finished

/-- A connection in its turn, with a line that runs no command. -/
def idle : Turn κ → RaceStep κ
  | .execute connection _ => .execute ⟨connection, []⟩
  | .enqueue connection => .enqueue connection

omit [DecidableEq κ] in
theorem idle_allowed : ∀ turns : List (Turn κ), List.Forall₂ Turn.Allows turns (turns.map idle)
  | [] => .nil
  | .execute _ _ :: turns =>
    .cons ⟨rfl, fun _ concerned => absurd (concerned [] rfl) List.not_mem_nil⟩ (idle_allowed turns)
  | .enqueue _ :: turns => .cons rfl (idle_allowed turns)

theorem step_idle (free : ∀ connection, turn = .enqueue connection → race.held connection = none) :
    race.step (idle turn) = race := by
  cases turn with
  | enqueue connection => exact step_enqueue_of_free (free connection rfl)
  | execute connection reach =>
      cases holds : race.held connection with
      | some entry => exact step_execute_of_held holds
      | none =>
          have held : (fun other => if other = connection then none else race.held other) =
              race.held := by
            funext other
            split
            · next same => rw [same, holds]
            · rfl
          rw [idle, step_execute holds]
          simp only [Engine.exec, Selections.select_self, held]

theorem run_idle (free : ∀ connection, .enqueue connection ∈ turns → race.held connection = none) :
    race.run (turns.map idle) = race := by
  induction turns with
  | nil => rfl
  | cons turn turns ih =>
      have kept : race.step (idle turn) = race :=
        step_idle fun connection same => free connection (same ▸ List.mem_cons_self)
      rw [List.map_cons, run, List.foldl_cons, kept]
      exact ih fun connection mem => free connection (List.mem_cons_of_mem turn mem)

@[simp] theorem run_append (race : Race κ) (first second : List (RaceStep κ)) :
    race.run (first ++ second) = (race.run first).run second :=
  List.foldl_append

@[simp] theorem run_cons (race : Race κ) (next : RaceStep κ) (rest : List (RaceStep κ)) :
    race.run (next :: rest) = (race.step next).run rest :=
  rfl

/-- A race in which all connections are on the first database. -/
structure Stage (engine : Engine) (held : κ → Option LogEntry) (queued : List LogEntry)
    (race : Race κ) : Prop where
  state : race.clients.state = engine
  first : ∀ connection, race.clients.selections connection = 0
  held : race.held = held
  queued : race.queued = queued

section

variable {key : Bytes} {engine : Engine} {held : κ → Option LogEntry} {queued : List LogEntry}

omit [DecidableEq κ] in
theorem setLine_allowed (mem : key ∈ reach) (value : Bytes) :
    (Turn.execute connection reach).Allows (.execute ⟨connection, Lifetime.setLine key value⟩) := by
  refine ⟨rfl, fun other concerned => ?_⟩
  have named : (Lifetime.setLine key value).keys? = some [key] := by
    have known : Command.lookup (Engine.lowerName Lifetime.setWord) 3 = .ok .set := by
      decide +kernel
    simp only [Lifetime.setLine, CommandLine.keys?, List.length_cons, List.length_nil, known]
    rfl
  rwa [List.mem_singleton.mp (concerned _ named)]

theorem Stage.idle (stage : Stage engine held queued race) (turns : List (Turn κ))
    (free : ∀ connection, .enqueue connection ∈ turns → held connection = none) :
    Stage engine held queued (race.run (turns.map idle)) := by
  rwa [run_idle]
  rwa [stage.held]

/-- A connection puts a value under a key and holds its entry. -/
theorem Stage.store (stage : Stage engine held queued race) (nonempty : 0 < engine.count)
    (connection : κ) (key value : Bytes) (free : held connection = none) :
    Stage (engine.exec 0 (Lifetime.setLine key value)).engine
      (fun other =>
        if other = connection then some ⟨0, Lifetime.setLine key value⟩ else held other)
      queued (race.step (.execute ⟨connection, Lifetime.setLine key value⟩)) := by
  obtain ⟨rfl, first, rfl, rfl⟩ := stage
  obtain ⟨notices, stored⟩ :=
    Lifetime.exec_setLine (List.getElem?_eq_getElem nonempty) key value
  rw [step_execute free, first, stored]
  refine ⟨rfl, fun other => ?_, rfl, rfl⟩
  dsimp only [Selections.select]
  split
  · rfl
  · exact first other

theorem Stage.queue {entry : LogEntry} (stage : Stage engine held queued race)
    (connection : κ) (left : κ → Option LogEntry) (holds : held connection = some entry)
    (gone : left connection = none) (kept : ∀ other, other ≠ connection → left other = held other) :
    Stage engine left (queued ++ [entry]) (race.step (.enqueue connection)) := by
  obtain ⟨rfl, first, rfl, rfl⟩ := stage
  rw [step_enqueue holds]
  refine ⟨rfl, first, funext fun other => ?_, rfl⟩
  dsimp only
  split
  · next same => rw [same, gone]
  · next differs => exact (kept other differs).symm

/-- The value that is put last is the one that stays. -/
theorem value_setLine (nonempty : 0 < engine.count) (earlier : CommandLine) (key value : Bytes) :
    ((engine.exec 0 earlier).engine.exec 0 (Lifetime.setLine key value)).engine.value? 0 key =
      some value := by
  have within : 0 < (engine.exec 0 earlier).engine.count := by rwa [Engine.exec_count]
  have present := List.getElem?_eq_getElem within
  obtain ⟨notices, stored⟩ := Lifetime.exec_setLine present key value
  rw [stored, Lifetime.value?_set_insert present, if_pos rfl]

end

/-- Of two connections that put values under one key, the second queues its entry first. -/
theorem not_replayed_of_crossing {before first second third after : List (Turn κ)} {a b : κ}
    (databases : Nat) (apart : b ≠ a) (unqueued : .enqueue a ∉ first ++ (second ++ third))
    (early : .enqueue b ∉ second) (key : Bytes) :
    ¬ Replayed databases (before.map idle ++
      .execute ⟨a, Lifetime.setLine key [0x31]⟩ :: (first.map idle ++
      .execute ⟨b, Lifetime.setLine key [0x32]⟩ :: (second.map idle ++
      .enqueue b :: (third.map idle ++ .enqueue a :: after.map idle)))) := by
  have nonempty := Engine.new_count_pos databases
  have quiet {turns : List (Turn κ)} {connection other : κ} (absent : .enqueue other ∉ turns)
      (mem : .enqueue connection ∈ turns) : connection ≠ other := by
    rintro rfl
    exact absent mem
  obtain ⟨notFirst, notLater⟩ := not_or.mp (mt List.mem_append.mpr unqueued)
  obtain ⟨notSecond, notThird⟩ := not_or.mp (mt List.mem_append.mpr notLater)
  have stage : Stage (.new databases) (fun _ => none) []
      ({ clients := { state := .new databases } } : Race κ) := ⟨rfl, fun _ => rfl, rfl, rfl⟩
  replace stage := stage.idle before fun _ _ => rfl
  replace stage := stage.store nonempty a key [0x31] rfl
  replace stage := stage.idle first fun _ mem => if_neg (quiet notFirst mem)
  replace stage := stage.store (by rwa [Engine.exec_count]) b key [0x32] (if_neg apart)
  replace stage := stage.idle second fun _ mem => by
    rw [if_neg (quiet early mem), if_neg (quiet notSecond mem)]
  replace stage := stage.queue b
    (fun other => if other = a then some ⟨0, Lifetime.setLine key [0x31]⟩ else none)
    (if_pos rfl) (if_neg apart) fun _ differs => (if_neg differs).symm
  replace stage := stage.idle third fun _ mem => if_neg (quiet notThird mem)
  replace stage := stage.queue a (fun _ => none) (if_pos rfl) rfl fun _ differs =>
    (if_neg differs).symm
  replace stage := stage.idle after fun _ _ => rfl
  intro replayed
  simp only [Replayed, Race.after, run_append, run_cons, stage.held, stage.queued, stage.state,
    implies_true, forall_const] at replayed
  have logged := value_setLine nonempty (Lifetime.setLine key [0x32]) key [0x31]
  have live := value_setLine nonempty (Lifetime.setLine key [0x31]) key [0x32]
  rw [← replayed] at live
  exact absurd (logged.symm.trans live) (by decide)

omit [DecidableEq κ] in
/-- Between the execution of a line and the queuing of its entry lie the execution and the queuing of
another one, as soon as possible. -/
theorem Overtaking.spelled (overtaking : Overtaking turns) :
    ∃ a b reachA reachB key before first second third after, b ≠ a ∧
      key ∈ reachA ∩ reachB ∧ turns = before ++ .execute a reachA :: (first ++
        .execute b reachB :: (second ++ .enqueue b :: (third ++ .enqueue a :: after))) ∧
      .enqueue a ∉ first ++ (second ++ third) ∧ .enqueue b ∉ second := by
  obtain ⟨a, reachA, before, _, rfl, passed⟩ := overtaking
  obtain ⟨b, reachB, during, after, rfl, unqueued, within, key, common⟩ := passed
  obtain ⟨front, back, rfl, mem, rest⟩ := List.cons_sublist_iff.mp within
  obtain ⟨first, tail, rfl⟩ := List.append_of_mem mem
  obtain ⟨second, third, later, early⟩ :=
    List.eq_append_cons_of_mem (List.mem_append_right tail (List.singleton_sublist.mp rest))
  have spelled : first ++ .execute b reachB :: tail ++ back =
      first ++ .execute b reachB :: (second ++ .enqueue b :: third) := by
    rw [List.append_assoc, List.cons_append, later]
  rw [spelled] at unqueued ⊢
  simp only [List.mem_append, List.mem_cons, reduceCtorEq, Turn.enqueue.injEq, false_or, not_or,
    eq_comm (a := a)] at unqueued
  obtain ⟨absentFirst, absentSecond, apart, absentThird⟩ := unqueued
  refine ⟨a, b, reachA, reachB, key, before, first, second, third, after, apart, common, ?_, ?_,
    early⟩
  · simp only [List.append_assoc, List.cons_append]
  · simp only [List.mem_append, not_or]
    exact ⟨absentFirst, absentSecond, absentThird⟩

/-- That the log makes what is in memory, whatever lines the connections execute on keys of theirs,
holds exactly if no connection, between another's execution of a line and the queuing of its entry,
executes a line on a key that they have in common and queues the entry. -/
theorem replayed_iff (databases : Nat) (turns : List (Turn κ)) :
    (∀ steps, List.Forall₂ Turn.Allows turns steps → Replayed databases steps) ↔
      ¬ Overtaking turns := by
  constructor
  · intro replayed overtaking
    obtain ⟨a, b, reachA, reachB, key, before, first, second, third, after, apart, common, rfl,
      unqueued, early⟩ := overtaking.spelled
    have idling := @idle_allowed κ
    exact not_replayed_of_crossing databases apart unqueued early key (replayed _
      (List.rel_append (idling before) (.cons (setLine_allowed common.1 _)
        (List.rel_append (idling first) (.cons (setLine_allowed common.2 _)
          (List.rel_append (idling second) (.cons rfl
            (List.rel_append (idling third) (.cons rfl (idling after))))))))))
  · intro sound steps allowed
    have standing : Standing (.new databases)
        ({ clients := { state := .new databases } } : Race κ) [] turns :=
      ⟨List.nodup_nil, by simp, rfl, nofun, .nil, sound⟩
    exact standing.run allowed

/-- A connection puts a value, another one puts its own under the same key and queues its entry
first: the log makes the value that is gone from memory. -/
theorem not_replayed_of_two_writers :
    ¬ Replayed 1 ([.execute ⟨true, Lifetime.setLine [0x6B] [0x31]⟩,
      .execute ⟨false, Lifetime.setLine [0x6B] [0x32]⟩, .enqueue false, .enqueue true] :
        List (RaceStep Bool)) := by
  intro replayed
  exact absurd (replayed (by decide +kernel)) (by decide +kernel)

end ShardStore.Race
