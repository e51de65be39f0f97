import ShardStore.Proofs.Log.Batches
import ShardStore.Proofs.Log.Sessions

namespace ShardStore.Log

/-- The entries in front of the first marker. -/
def entriesAhead : List Request → List LogEntry
  | .append entry :: rest => entry :: entriesAhead rest
  | _ => []

/-- The place of the first marker. -/
def marker? (requests : List Request) : Option Nat :=
  requests.findIdx? (· == .shutdown)

theorem entriesAhead_appends (entries : List LogEntry) (rest : List Request) :
    entriesAhead (entries.map .append ++ rest) = entries ++ entriesAhead rest := by
  induction entries with
  | nil => rfl
  | cons entry more ih => exact congrArg (entry :: ·) ih

theorem marker?_appends (entries : List LogEntry) (rest : List Request) :
    marker? (entries.map .append ++ rest) = (marker? rest).map (· + entries.length) := by
  have none : (entries.map Request.append).findIdx? (· == .shutdown) = none := by
    simp [List.findIdx?_eq_none_iff]
  rw [marker?, List.findIdx?_append, none, Option.none_or, List.length_map]
  rfl

namespace Writer

/-- Whether a writer came from another one by writing some entries, wherever their bytes are now. -/
structure Follows (start writer : Writer) (entries : List LogEntry) : Prop where
  contents : writer.contents = start.contents ++ entriesBytes start.current? entries
  database : writer.current? = switched start.current? entries

variable {start middle writer : Writer} {entries more : List LogEntry}

theorem follows_self (writer : Writer) : writer.Follows writer [] :=
  ⟨by simp [entriesBytes], rfl⟩

theorem Follows.trans (first : start.Follows middle entries) (second : middle.Follows writer more) :
    start.Follows writer (entries ++ more) := by
  constructor
  · rw [second.contents, first.contents, first.database, entriesBytes_append, List.append_assoc]
  · rw [second.database, first.database, switched_append]

/-- Moving bytes from the buffer to the file, or to disk, makes no difference. -/
theorem Follows.moved (follows : start.Follows middle entries)
    (contents : writer.contents = middle.contents) (database : writer.current? = middle.current?) :
    start.Follows writer entries :=
  ⟨contents.trans follows.contents, database.trans follows.database⟩

theorem Follows.write (follows : start.Follows writer entries) (entry : LogEntry) :
    start.Follows (writer.write entry) (entries ++ [entry]) := by
  refine follows.trans ⟨?_, rfl⟩
  rw [write_contents, entriesBytes, entriesBytes, List.append_nil]

theorem Follows.flush (follows : start.Follows writer entries) (now : Time) :
    start.Follows (writer.flush now) entries :=
  follows.moved (writer.flush_contents now) (writer.flush_current? now)

/-- All that was written is in the file and on disk. -/
structure Safe (writer : Writer) : Prop where
  flushed : writer.gathered = []
  synced : writer.synced = writer.file.length

theorem Follows.file (follows : start.Follows writer entries) (flushed : writer.gathered = []) :
    writer.file = (entries.foldl Writer.write start).contents := by
  have whole := follows.contents
  rwa [Writer.contents, flushed, List.append_nil, ← (start.writeAll_spec entries).1] at whole

theorem spill_of_flushed (flushed : writer.gathered = []) (count : Nat) :
    writer.spill count = writer := by
  have kept : ({ writer with file := writer.file, gathered := [] } : Writer) = writer := by
    rw [← flushed]
  rw [spill, flushed, List.take_nil, List.drop_nil, List.append_nil, kept]

end Writer

namespace Task

variable {start : Writer} {task : Task} {entries : List LogEntry} {ahead : List Request}

/-- Why a task is about to end: it holds the first marker, or there is nobody any more who could put
anything into the queue. -/
def Concludes (hasSenders : Bool) (entries : List LogEntry) (ahead : List Request) :
    Option Nat → Prop
  | some place => place = entries.length ∧ ahead.head? = some .shutdown
  | none => ahead = [] ∧ hasSenders = false

/-- Where the task stands when it has written some of the entries that arrived, and others are ahead. -/
def Stands (task : Task) (entries : List LogEntry) (ahead : List Request) : Prop :=
  match task.stage with
  | .waiting | .looking | .flushing => task.taken = entries.length
  | .holding place request =>
    place = entries.length ∧ task.taken = place + 1 ∧ ahead.head? = some request
  | .finishing marker? => Concludes task.hasSenders entries ahead marker?
  | .syncing marker? => Concludes task.hasSenders entries ahead marker? ∧ task.writer.gathered = []
  | .answering marker? => Concludes task.hasSenders entries ahead marker? ∧ task.writer.Safe
  | .ended => ∃ marker?, Concludes task.hasSenders entries ahead marker? ∧ task.writer.Safe ∧
      task.acknowledged = marker?.toList

/-- What holds at every moment of a task that began with some writer. -/
structure Sound (start : Writer) (task : Task) (entries : List LogEntry) (ahead : List Request) :
    Prop where
  queue : task.arrived = entries.map .append ++ ahead
  written : start.Follows task.writer entries
  stands : task.Stands entries ahead
  silent : task.stage ≠ .ended → task.acknowledged = []

theorem start_sound (start : Writer) : Sound start { writer := start } [] [] :=
  ⟨rfl, start.follows_self, rfl, fun _ => rfl⟩

/-- What the task finds next is what is ahead. -/
theorem next?_eq (queue : task.arrived = entries.map .append ++ ahead)
    (place : task.taken = entries.length) : task.next? = ahead.head? := by
  rw [next?, queue, place, List.getElem?_append_right (by simp), List.length_map, Nat.sub_self,
    List.head?_eq_getElem?]

/-- Where a task stands does not depend on what others do in the meantime, as long as the queue keeps its
front, a reason to end stays one, and a buffer with nothing in it stays as it is. -/
theorem Stands.kept {later : Task} {ahead' : List Request} (stands : task.Stands entries ahead)
    (stage : later.stage = task.stage) (taken : later.taken = task.taken)
    (acknowledged : later.acknowledged = task.acknowledged)
    (front : ∀ request, ahead.head? = some request → ahead'.head? = some request)
    (concludes : ∀ place?, Concludes task.hasSenders entries ahead place? →
      Concludes later.hasSenders entries ahead' place?)
    (flushed : task.writer.gathered = [] → later.writer = task.writer) :
    later.Stands entries ahead' := by
  cases here : task.stage with
  | waiting | looking | flushing =>
      simp only [Stands, stage, here] at stands ⊢
      rw [taken, stands]
  | holding place request =>
      simp only [Stands, stage, here] at stands ⊢
      exact ⟨stands.1, taken ▸ stands.2.1, front request stands.2.2⟩
  | finishing place? =>
      simp only [Stands, stage, here] at stands ⊢
      exact concludes place? stands
  | syncing place? =>
      simp only [Stands, stage, here] at stands ⊢
      rw [flushed stands.2]
      exact ⟨concludes place? stands.1, stands.2⟩
  | answering place? =>
      simp only [Stands, stage, here] at stands ⊢
      rw [flushed stands.2.flushed]
      exact ⟨concludes place? stands.1, stands.2⟩
  | ended =>
      simp only [Stands, stage, here] at stands ⊢
      obtain ⟨place?, before, safe, answered⟩ := stands
      rw [flushed safe.flushed, acknowledged]
      exact ⟨place?, concludes place? before, safe, answered⟩

theorem Sound.arrive (sound : Sound start task entries ahead) (request : Request) :
    ∃ ahead', Sound start (task.arrive request) entries ahead' := by
  unfold Task.arrive
  split
  · next accepted =>
    have front (next : Request) (found : ahead.head? = some next) :
        (ahead ++ [request]).head? = some next := by
      rw [List.head?_append, found, Option.some_or]
    refine ⟨ahead ++ [request], by simp [sound.queue], sound.written, ?_, sound.silent⟩
    refine sound.stands.kept rfl rfl rfl front (fun place? before => ?_) fun _ => rfl
    cases place? with
    | none => exact absurd (before.2.symm.trans accepted.1) (by decide)
    | some place => exact ⟨before.1, front _ before.2⟩
  · exact ⟨ahead, sound⟩

theorem Sound.hangUp (sound : Sound start task entries ahead) :
    Sound start { task with hasSenders := false } entries ahead := by
  refine ⟨sound.queue, sound.written, ?_, sound.silent⟩
  refine sound.stands.kept rfl rfl rfl (fun _ => id) (fun place? before => ?_) fun _ => rfl
  cases place? with
  | none => exact ⟨before.1, rfl⟩
  | some place => exact before

theorem Sound.spill (sound : Sound start task entries ahead) (count : Nat) :
    Sound start { task with writer := task.writer.spill count } entries ahead := by
  refine ⟨sound.queue, sound.written.moved (task.writer.spill_contents count) rfl, ?_,
    sound.silent⟩
  exact sound.stands.kept rfl rfl rfl (fun _ => id) (fun _ => id)
    fun flushed => Writer.spill_of_flushed flushed count

theorem Sound.tick (sound : Sound start task entries ahead) (now : Time) :
    Sound start (task.tick now) entries ahead := by
  unfold Task.tick
  split
  · next heard =>
    have stands := sound.stands
    simp only [Stands, heard.1] at stands
    refine ⟨sound.queue, sound.written.flush now, ?_, sound.silent⟩
    simpa only [Stands, heard.1] using stands
  · exact sound

theorem Sound.take (sound : Sound start task entries ahead) (place : task.taken = entries.length)
    {request : Request} (found : ahead.head? = some request) (running : task.stage ≠ .ended) :
    Sound start (task.take request) entries ahead :=
  ⟨sound.queue, sound.written, ⟨place, rfl, found⟩, fun _ => sound.silent running⟩

theorem Sound.proceed (sound : Sound start task entries ahead) (now : Time) :
    ∃ entries' ahead', Sound start (task.proceed now) entries' ahead' := by
  have stands := sound.stands
  have silent := sound.silent
  cases stage : task.stage with
  | waiting =>
      simp only [Stands, stage] at stands
      simp only [Task.proceed, stage, next?_eq sound.queue stands]
      cases found : ahead.head? with
      | some request => exact ⟨entries, ahead, sound.take stands found (by simp [stage])⟩
      | none =>
          dsimp only
          split
          · exact ⟨entries, ahead, sound⟩
          · next gone =>
            refine ⟨entries, ahead, sound.queue, sound.written, ?_, fun _ => silent (by simp [stage])⟩
            exact ⟨List.head?_eq_none_iff.mp found, by simpa using gone⟩
  | holding place request =>
      simp only [Stands, stage] at stands
      obtain ⟨rfl, taken, found⟩ := stands
      obtain ⟨rest, rfl⟩ := List.head?_eq_some_iff.mp found
      cases request with
      | append entry =>
          refine ⟨entries ++ [entry], rest, ?_, ?_, ?_, ?_⟩
          · simp [Task.proceed, stage, sound.queue]
          · simpa [Task.proceed, stage] using sound.written.write entry
          · simpa [Task.proceed, stage, Stands] using taken
          · simpa [Task.proceed, stage] using silent
      | shutdown =>
          refine ⟨entries, .shutdown :: rest, ?_, ?_, ?_, ?_⟩
          · simp [Task.proceed, stage, sound.queue]
          · simpa [Task.proceed, stage] using sound.written
          · simp [Task.proceed, stage, Stands, Concludes]
          · simpa [Task.proceed, stage] using silent
  | looking =>
      simp only [Stands, stage] at stands
      simp only [Task.proceed, stage, next?_eq sound.queue stands]
      cases found : ahead.head? with
      | some request => exact ⟨entries, ahead, sound.take stands found (by simp [stage])⟩
      | none =>
          exact ⟨entries, ahead, sound.queue, sound.written, stands,
            fun _ => silent (by simp [stage])⟩
  | flushing =>
      simp only [Stands, stage] at stands
      simp only [Task.proceed, stage]
      exact ⟨entries, ahead, sound.queue, sound.written.flush now, stands,
        fun _ => silent (by simp [stage])⟩
  | finishing marker? =>
      simp only [Stands, stage] at stands
      simp only [Task.proceed, stage]
      exact ⟨entries, ahead, sound.queue, sound.written.moved task.writer.pushOut_contents rfl,
        ⟨stands, rfl⟩, fun _ => silent (by simp [stage])⟩
  | syncing marker? =>
      simp only [Stands, stage] at stands
      simp only [Task.proceed, stage]
      exact ⟨entries, ahead, sound.queue, sound.written.moved rfl rfl,
        ⟨stands.1, stands.2, rfl⟩, fun _ => silent (by simp [stage])⟩
  | answering marker? =>
      simp only [Stands, stage] at stands
      simp only [Task.proceed, stage]
      refine ⟨entries, ahead, sound.queue, sound.written, ⟨marker?, stands.1, stands.2, ?_⟩,
        fun running => absurd rfl running⟩
      rw [silent (by simp [stage]), List.nil_append]
  | ended =>
      simp only [Task.proceed, stage]
      exact ⟨entries, ahead, sound⟩

theorem Sound.step (sound : Sound start task entries ahead) (step : TaskStep) :
    ∃ entries' ahead', Sound start (task.step step) entries' ahead' := by
  cases step with
  | arrive request => exact ⟨entries, sound.arrive request⟩
  | hangUp => exact ⟨entries, ahead, sound.hangUp⟩
  | tick now => exact ⟨entries, ahead, sound.tick now⟩
  | spill count => exact ⟨entries, ahead, sound.spill count⟩
  | proceed now => exact sound.proceed now

theorem Sound.run (sound : Sound start task entries ahead) (steps : List TaskStep) :
    ∃ entries' ahead', Sound start (task.run steps) entries' ahead' := by
  induction steps generalizing task entries ahead with
  | nil => exact ⟨entries, ahead, sound⟩
  | cons step rest ih =>
      obtain ⟨entries', ahead', further⟩ := sound.step step
      exact ih further

theorem Concludes.spec {hasSenders : Bool} {place? : Option Nat}
    (concludes : Concludes hasSenders entries ahead place?) :
    entriesAhead (entries.map .append ++ ahead) = entries ∧
      marker? (entries.map .append ++ ahead) = place? := by
  rw [entriesAhead_appends, marker?_appends]
  cases place? with
  | none =>
      obtain ⟨rfl, -⟩ := concludes
      exact ⟨List.append_nil entries, rfl⟩
  | some place =>
      obtain ⟨rfl, first⟩ := concludes
      obtain ⟨rest, rfl⟩ := List.head?_eq_some_iff.mp first
      exact ⟨List.append_nil entries, by simp [marker?, List.findIdx?_cons]⟩

/-- When the answer to the marker is all that is left, everything is in the file and on disk. -/
theorem Sound.safe (sound : Sound start task entries ahead)
    (late : (∃ place?, task.stage = .answering place?) ∨ task.stage = .ended) :
    task.writer.file = ((entriesAhead task.arrived).foldl Writer.write start).contents ∧
      task.writer.Safe := by
  have stands := sound.stands
  obtain ⟨place?, concludes, safe⟩ : ∃ place?, Concludes task.hasSenders entries ahead place? ∧
      task.writer.Safe := by
    rcases late with ⟨place?, stage⟩ | stage
    · simp only [Stands, stage] at stands
      exact ⟨place?, stands⟩
    · simp only [Stands, stage] at stands
      obtain ⟨place?, concludes, safe, -⟩ := stands
      exact ⟨place?, concludes, safe⟩
  rw [sound.queue, concludes.spec.1]
  exact ⟨sound.written.file safe.flushed, safe⟩

theorem Sound.answered (sound : Sound start task entries ahead) :
    task.acknowledged = if task.stage = .ended then (marker? task.arrived).toList else [] := by
  split
  · next stage =>
    have stands := sound.stands
    simp only [Stands, stage] at stands
    obtain ⟨place?, concludes, -, answered⟩ := stands
    rw [answered, sound.queue, concludes.spec.2]
  · next running => exact sound.silent running

/-- How many steps the task has still to do if nothing more arrives, at most. -/
def remaining (task : Task) : Nat :=
  4 * (task.arrived.length - task.taken) +
    match task.stage with
    | .holding _ _ => 7
    | .looking => 6
    | .flushing => 5
    | .waiting => 4
    | .finishing _ => 3
    | .syncing _ => 2
    | .answering _ => 1
    | .ended => 0

theorem remaining_take {request : Request} (found : task.next? = some request) :
    (task.take request).remaining + 1 =
      4 * (task.arrived.length - task.taken) + 4 := by
  obtain ⟨inside, -⟩ := List.getElem?_eq_some_iff.mp found
  simp only [remaining, Task.take]
  omega

/-- A task that has a marker to find, or is alone, does not stand still. -/
theorem Sound.proceed_remaining (sound : Sound start task entries ahead)
    (bounded : .shutdown ∈ task.arrived ∨ task.hasSenders = false) (running : task.stage ≠ .ended)
    (now : Time) : (task.proceed now).remaining < task.remaining := by
  have stands := sound.stands
  cases stage : task.stage with
  | waiting =>
      simp only [Stands, stage] at stands
      simp only [Task.proceed, stage]
      cases found : task.next? with
      | some request =>
          have less := remaining_take found
          simp only [remaining, stage] at less ⊢
          omega
      | none =>
          have alone : task.hasSenders = false := by
            refine bounded.resolve_left fun mem => ?_
            rw [next?_eq sound.queue stands, List.head?_eq_none_iff] at found
            simp [sound.queue, found] at mem
          simp [alone, remaining, stage]
  | looking =>
      simp only [Task.proceed, stage]
      cases found : task.next? with
      | some request =>
          have less := remaining_take found
          simp only [remaining, stage] at less ⊢
          omega
      | none => simp [remaining, stage]
  | holding place request => cases request <;> simp [Task.proceed, stage, remaining]
  | flushing | finishing | syncing | answering => simp [Task.proceed, stage, remaining]
  | ended => exact absurd stage running

theorem proceed_queue (task : Task) (now : Time) :
    (task.proceed now).arrived = task.arrived ∧ (task.proceed now).hasSenders = task.hasSenders := by
  unfold Task.proceed
  split
  · split
    · exact ⟨rfl, rfl⟩
    · split <;> exact ⟨rfl, rfl⟩
  · exact ⟨rfl, rfl⟩
  · exact ⟨rfl, rfl⟩
  · split <;> exact ⟨rfl, rfl⟩
  all_goals exact ⟨rfl, rfl⟩

theorem run_ended {task : Task} (stage : task.stage = .ended) (times : List Time) :
    (task.run (times.map .proceed)).stage = .ended := by
  induction times with
  | nil => exact stage
  | cons now rest ih =>
      have still : task.proceed now = task := by simp only [Task.proceed, stage]
      rwa [List.map_cons, run, List.foldl_cons, Task.step, still]

theorem Sound.ends (sound : Sound start task entries ahead)
    (bounded : .shutdown ∈ task.arrived ∨ task.hasSenders = false) {times : List Time}
    (enough : task.remaining ≤ times.length) :
    (task.run (times.map .proceed)).stage = .ended := by
  induction times generalizing task entries ahead with
  | nil =>
      have none : task.remaining = 0 := Nat.le_zero.mp enough
      cases stage : task.stage with
      | ended => exact stage
      | _ => simp [remaining, stage] at none
  | cons now rest ih =>
      by_cases stage : task.stage = .ended
      · exact run_ended stage (now :: rest)
      · have less := sound.proceed_remaining bounded stage now
        obtain ⟨entries', ahead', further⟩ := sound.proceed now
        obtain ⟨arrived, senders⟩ := task.proceed_queue now
        rw [List.length_cons] at enough
        change ((task.proceed now).run (rest.map .proceed)).stage = .ended
        exact ih further (by rwa [arrived, senders]) (by omega)

end Task

/-- What comes behind a marker makes no difference. -/
theorem ahead_of_mem {front : List Request} (mem : .shutdown ∈ front) (back : List Request) :
    entriesAhead (front ++ back) = entriesAhead front ∧ marker? (front ++ back) = marker? front := by
  constructor
  · induction front with
    | nil => cases mem
    | cons request rest ih =>
        cases request with
        | append entry => exact congrArg (entry :: ·) (ih (by simpa using mem))
        | shutdown => rfl
  · have found : (front.findIdx? (· == .shutdown)).isSome := by
      rw [List.findIdx?_isSome, List.any_eq_true]
      exact ⟨.shutdown, mem, rfl⟩
    rw [marker?, List.findIdx?_append, Option.or_of_isSome found]
    rfl

theorem Loop.run_spec (writer : Writer) (events : List Wake) (last : Time) :
    let after := ({ writer } : Loop).run events last
    let requests := events.flatMap Wake.requests
    after.writer.file = ((entriesAhead requests).foldl Writer.write writer).contents ∧
      after.writer.Safe ∧ after.acknowledged = (marker? requests).isSome := by
  intro after requests
  obtain ⟨task, ⟨steps, rfl⟩, stage, same, answered, ⟨back, whole⟩, known⟩ :=
    run_reached writer events last
  obtain ⟨entries, ahead, sound⟩ := (Task.start_sound writer).run steps
  generalize ({ writer } : Task).run steps = task at *
  have agree : entriesAhead requests = entriesAhead task.arrived ∧
      marker? requests = marker? task.arrived := by
    rcases known with mem | all
    · rw [← ahead_of_mem mem back |>.1, ← ahead_of_mem mem back |>.2, whole]
      exact ⟨rfl, rfl⟩
    · rw [all]
      exact ⟨rfl, rfl⟩
  rw [agree.1, agree.2]
  obtain ⟨file, safe⟩ := sound.safe (.inr stage)
  rw [same] at file safe
  refine ⟨file, safe, ?_⟩
  rw [sound.answered, if_pos stage] at answered
  cases marker : marker? task.arrived <;> simpa [marker] using answered.symm

/-- A task, however its steps fall between the arrivals, writes the entries in front of the first marker in
their order, each once, and no others. They are in the file and on disk before that marker is acknowledged,
which no other one is. It ends if there is a marker or if nobody can put requests into the queue any more;
and whatever batches the loop takes the same requests in, it comes to the same. -/
theorem Task.drained (start : Writer) (steps : List TaskStep) :
    let task := ({ writer := start } : Task).run steps
    let whole := (entriesAhead task.arrived).foldl Writer.write start
    (∃ entries, entries <+: entriesAhead task.arrived ∧
      task.writer.contents = (entries.foldl Writer.write start).contents) ∧
    ((∃ place?, task.stage = .answering place?) ∨ task.stage = .ended →
      task.writer.file = whole.contents ∧ task.writer.Safe) ∧
    task.acknowledged = (if task.stage = .ended then (marker? task.arrived).toList else []) ∧
    (.shutdown ∈ task.arrived ∨ task.hasSenders = false →
      ∀ times : List Time, task.remaining ≤ times.length →
        (task.run (times.map .proceed)).stage = .ended) ∧
    ∀ events last, events.flatMap Wake.requests = task.arrived →
      let after := ({ writer := start } : Loop).run events last
      after.writer.file = whole.contents ∧ after.writer.Safe ∧
        after.acknowledged = (marker? task.arrived).isSome := by
  intro task whole
  obtain ⟨entries, ahead, sound⟩ := (start_sound start).run steps
  refine ⟨⟨entries, ?_, ?_⟩, sound.safe, sound.answered, fun bounded times enough =>
    sound.ends bounded enough, fun events last batched => ?_⟩
  · rw [sound.queue, entriesAhead_appends]
    exact List.prefix_append _ _
  · rw [sound.written.contents, (start.writeAll_spec entries).1]
  · have spec := Loop.run_spec start events last
    rwa [batched] at spec

theorem Task.drained_past_a_second_marker :
    let entry : LogEntry := ⟨1, [[0x44], []]⟩
    let start := Writer.opened .never (some [0x2A]) 0
    let steps : List TaskStep :=
      [.arrive (.append entry), .proceed 1, .proceed 1, .arrive .shutdown, .arrive (.append entry),
        .arrive .shutdown, .proceed 2, .spill 3, .tick 2, .proceed 3, .proceed 3, .proceed 4, .hangUp,
        .proceed 5]
    let task := ({ writer := start } : Task).run steps
    task.stage = .ended ∧ task.writer.file = (start.write entry).contents ∧ task.writer.Safe ∧
      task.acknowledged = [1] := by
  intro entry start steps task
  have stage : task.stage = .ended := by decide +kernel
  have ahead : entriesAhead task.arrived = [entry] := by decide +kernel
  have marker : marker? task.arrived = some 1 := by decide +kernel
  have spec := drained start steps
  obtain ⟨file, safe⟩ := spec.2.1 (.inr stage)
  have answered := spec.2.2.1
  rw [ahead] at file
  rw [if_pos stage, marker] at answered
  exact ⟨stage, file, safe, answered⟩

end ShardStore.Log
