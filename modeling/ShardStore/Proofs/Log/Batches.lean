import ShardStore.Log.Task

namespace ShardStore.Log

def Wake.requests : Wake → List Request
  | .tick _ => []
  | .batch _ first more => first :: more

namespace Task

variable {task middle later : Task}

/-- Whether some steps lead from one task to another. -/
def Reaches (task later : Task) : Prop :=
  ∃ steps, task.run steps = later

theorem reaches_self (task : Task) : task.Reaches task :=
  ⟨[], rfl⟩

theorem Reaches.trans (first : task.Reaches middle) (second : middle.Reaches later) :
    task.Reaches later := by
  obtain ⟨steps, rfl⟩ := first
  obtain ⟨more, rfl⟩ := second
  exact ⟨steps ++ more, List.foldl_append⟩

theorem reaches_step (task : Task) (step : TaskStep) : task.Reaches (task.step step) :=
  ⟨[step], rfl⟩

theorem Reaches.proceed (reaches : task.Reaches later) (now : Time) :
    task.Reaches (later.proceed now) :=
  reaches.trans (later.reaches_step (.proceed now))

/-- A task that waits and has taken all there was. -/
def idle (writer : Writer) (requests : List Request) : Task :=
  { writer, arrived := requests, taken := requests.length }

theorem reaches_arrivals (writer : Writer) (front : List Request) (taken : Nat)
    (more : List Request) :
    ({ writer, arrived := front, taken } : Task).Reaches
      { writer, arrived := front ++ more, taken } := by
  induction more generalizing front with
  | nil => rw [List.append_nil]; exact reaches_self _
  | cons request rest ih =>
      have further := ih (front ++ [request])
      rw [List.append_assoc, List.singleton_append] at further
      exact (reaches_step _ (.arrive request)).trans further

/-- Whether a task stands where the loop does after some requests. A task that has ended takes no more. -/
structure Mirrors (loop : Loop) (requests : List Request) (task : Task) : Prop where
  writer : task.writer = loop.writer
  running : loop.acknowledged = false → task = idle loop.writer requests
  stopped : loop.acknowledged = true → task.stage = .ended ∧ task.acknowledged ≠ [] ∧
    .shutdown ∈ task.arrived ∧ task.arrived <+: requests

theorem mirrors_idle (writer : Writer) (requests : List Request) :
    Mirrors { writer } requests (idle writer requests) :=
  ⟨rfl, fun _ => rfl, nofun⟩

/-- A task in the midst of a batch, which has taken a request and not dealt with it yet. -/
def busy (writer : Writer) (front : List Request) (request : Request) (rest : List Request) :
    Task :=
  { writer
    arrived := front ++ request :: rest
    taken := front.length + 1
    stage := .holding front.length request }

theorem proceed_of_found {request : Request} (stage : task.stage = .waiting ∨ task.stage = .looking)
    (found : task.next? = some request) (now : Time) : task.proceed now = task.take request := by
  rcases stage with stage | stage <;> simp only [Task.proceed, stage, found]

theorem flushed_of_none (stage : task.stage = .looking) (none : task.next? = none) (now : Time) :
    (task.proceed now).proceed now =
      { task with writer := task.writer.flush now, stage := .waiting } := by
  have flushing : task.proceed now = { task with stage := .flushing } := by
    simp only [Task.proceed, stage, none]
  rw [flushing]
  rfl

/-- The task with the next entry written. -/
def wrote (writer : Writer) (front : List Request) (entry : LogEntry) (rest : List Request) :
    Task :=
  { writer := writer.write entry
    arrived := front ++ .append entry :: rest
    taken := front.length + 1
    stage := .looking }

theorem busy_proceed_append (writer : Writer) (front : List Request) (entry : LogEntry)
    (rest : List Request) (now : Time) :
    (busy writer front (.append entry) rest).proceed now = wrote writer front entry rest :=
  rfl

theorem wrote_proceed_cons (writer : Writer) (front : List Request) (entry : LogEntry)
    (next : Request) (rest : List Request) (now : Time) :
    (wrote writer front entry (next :: rest)).proceed now =
      busy (writer.write entry) (front ++ [.append entry]) next rest := by
  have found : (wrote writer front entry (next :: rest)).next? = some next := by
    simp [wrote, next?]
  rw [proceed_of_found (.inr rfl) found]
  simp [wrote, take, busy]

theorem shutdown_reaches (writer : Writer) (front rest : List Request) (now : Time) :
    ∃ task, (busy writer front .shutdown rest).Reaches task ∧
      Mirrors (({ writer } : Loop).wake (.batch now .shutdown rest)) (front ++ .shutdown :: rest) task := by
  -- It finishes, syncs, answers and ends.
  have ended := (reaches_self (busy writer front .shutdown rest)).proceed now
    |>.proceed now |>.proceed now |>.proceed now
  exact ⟨_, ended, rfl, nofun, fun _ => ⟨rfl, List.cons_ne_nil _ _, by simp [busy, Task.proceed],
    List.prefix_rfl⟩⟩

/-- The rest of a batch, from a request on that was taken. -/
theorem busy_reaches (writer : Writer) (front : List Request) (request : Request)
    (rest : List Request) (now : Time) :
    ∃ task, (busy writer front request rest).Reaches task ∧
      Mirrors (({ writer } : Loop).wake (.batch now request rest)) (front ++ request :: rest) task := by
  induction rest generalizing writer front request with
  | nil =>
      cases request with
      | shutdown => exact shutdown_reaches writer front [] now
      | append entry =>
          have waiting := ((reaches_self (busy writer front (.append entry) [])).proceed now
            |>.proceed now |>.proceed now)
          rw [busy_proceed_append, flushed_of_none rfl (by simp [wrote, next?])] at waiting
          refine ⟨_, waiting, rfl, fun _ => ?_, nofun⟩
          simp [wrote, idle, Loop.wake, takeBatch]
  | cons next rest ih =>
      cases request with
      | shutdown => exact shutdown_reaches writer front (next :: rest) now
      | append entry =>
          obtain ⟨task, reaches, mirrors⟩ :=
            ih (writer.write entry) (front ++ [.append entry]) next
          rw [List.append_assoc, List.singleton_append] at mirrors
          have taken := (reaches_self (busy writer front (.append entry) (next :: rest))).proceed now
            |>.proceed now
          rw [busy_proceed_append, wrote_proceed_cons] at taken
          exact ⟨task, taken.trans reaches, mirrors⟩

end Task

namespace Loop

variable {loop : Loop} {requests : List Request} {task : Task}

/-- By what the loop does when it wakes the task gets as far as the loop. -/
theorem wake_reached (mirrors : Task.Mirrors loop requests task) (event : Wake) :
    ∃ later, task.Reaches later ∧
      Task.Mirrors (loop.wake event) (requests ++ event.requests) later := by
  obtain ⟨writer, acknowledged⟩ := loop
  cases acknowledged with
  | true =>
      obtain ⟨stage, answered, mem, front⟩ := mirrors.stopped rfl
      refine ⟨task, task.reaches_self, mirrors.writer, nofun, fun _ => ⟨stage, answered, mem, ?_⟩⟩
      exact front.trans (List.prefix_append _ _)
  | false =>
      obtain rfl := mirrors.running rfl
      cases event with
      | tick now =>
          refine ⟨_, Task.reaches_step _ (.tick now), ?_⟩
          by_cases heard : writer.policy = .everySecond
          · simpa [wake, Task.step, Task.tick, Task.idle, heard, Wake.requests]
              using Task.mirrors_idle (writer.flush now) requests
          · simpa [wake, Task.step, Task.tick, Task.idle, heard, Wake.requests]
              using Task.mirrors_idle writer requests
      | batch now first more =>
          have taken :=
            (Task.reaches_arrivals writer requests requests.length (first :: more)).proceed now
          have found : ({ writer, arrived := requests ++ first :: more, taken := requests.length } :
              Task).next? = some first := by simp [Task.next?]
          rw [Task.proceed_of_found (.inl rfl) found] at taken
          obtain ⟨later, reaches, mirrors⟩ := Task.busy_reaches writer requests first more now
          exact ⟨later, taken.trans reaches, mirrors⟩

theorem wakeAll_reached (mirrors : Task.Mirrors loop requests task) (events : List Wake) :
    ∃ later, task.Reaches later ∧
      Task.Mirrors (events.foldl wake loop) (requests ++ events.flatMap Wake.requests) later := by
  induction events generalizing loop requests task with
  | nil => exact ⟨task, task.reaches_self, by simpa using mirrors⟩
  | cons event rest ih =>
      obtain ⟨woken, first, woke⟩ := wake_reached mirrors event
      obtain ⟨later, second, last⟩ := ih woke
      rw [List.append_assoc, ← List.flatMap_cons] at last
      exact ⟨later, first.trans second, last⟩

/-- Whatever wakes the loop, the task can end with the same writer, having been given the same requests,
but for those that come too late. -/
theorem run_reached (writer : Writer) (events : List Wake) (last : Time) :
    let after := ({ writer } : Loop).run events last
    let requests := events.flatMap Wake.requests
    ∃ task, ({ writer } : Task).Reaches task ∧ task.stage = .ended ∧ task.writer = after.writer ∧
      (task.acknowledged ≠ [] ↔ after.acknowledged) ∧ task.arrived <+: requests ∧
      (.shutdown ∈ task.arrived ∨ task.arrived = requests) := by
  obtain ⟨task, reaches, mirrors⟩ := wakeAll_reached (Task.mirrors_idle writer []) events
  simp only [run]
  split
  · next stopped =>
    obtain ⟨stage, answered, mem, front⟩ := mirrors.stopped stopped
    exact ⟨task, reaches, stage, mirrors.writer, iff_of_true answered stopped, front, .inl mem⟩
  · next running =>
    obtain rfl := mirrors.running (by simpa using running)
    rw [List.nil_append] at reaches
    have alone (writer : Writer) (requests : List Request) :
        ((Task.idle writer requests).step .hangUp).proceed last =
          { Task.idle writer requests with hasSenders := false, stage := .finishing none } := by
      simp [Task.step, Task.proceed, Task.idle, Task.next?]
    -- It finishes, syncs, has nobody to answer to and ends.
    have ended := (reaches.trans (Task.reaches_step _ .hangUp)).proceed last
      |>.proceed last |>.proceed last |>.proceed last
    rw [alone] at ended
    exact ⟨_, ended, rfl, rfl, iff_of_false (by simp [Task.proceed, Task.idle]) running,
      List.prefix_rfl, .inr rfl⟩

end Loop

end ShardStore.Log
