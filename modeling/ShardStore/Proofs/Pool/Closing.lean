import Mathlib.Data.List.Nodup
import ShardStore.Proofs.Pool.Undisturbed

namespace ShardStore

open scoped List

namespace Pool

variable {α : Type} {limits : PoolLimits} {pool : Pool α} {factory : Factory α}

abbrev History (α : Type) := List (Factory α × PoolEvent α)

/-- Whether a pool is closed and has nothing left to hand out. -/
structure Shut (pool : Pool α) : Prop where
  closed : pool.closed = true
  empty : pool.idle = []

/-- Whether an event is that of somebody who wants an object: who asks now, or asked before and has not
been answered. -/
def Awaits (pool : Pool α) : PoolEvent α → Prop
  | .request _ _ => True
  | .resume ticket _ => ticket ∈ pool.tickets
  | .giveBack _ => False
  | .close => False

/-- The object that an event brings back, if it is out. -/
def returned (pool : Pool α) : PoolEvent α → List Nat
  | .giveBack pooled => if pooled.number ∈ pool.borrowed then [pooled.number] else []
  | _ => []

/-- Whether an object is given back at some time. -/
def GivenBack (history : History α) (number : Nat) : Prop :=
  ∃ event ∈ history, ∃ pooled, event.2 = .giveBack pooled ∧ pooled.number = number

/-- Whether the borrower with a ticket goes on at some time. -/
def Resumed (history : History α) (ticket : Nat) : Prop :=
  ∃ event ∈ history, ∃ now, event.2 = .resume ticket now

/-- What an event comes to in a closed pool. -/
structure TurnedAway (before : Pool α) (event : PoolEvent α)
    (outcome : Option (Result α) × Pool α) : Prop where
  shut : outcome.2.Shut
  /-- Whoever wants an object is told that there are none any more. -/
  refused : before.Awaits event → outcome.1 = some (.error .closed)
  silent : ¬ before.Awaits event → outcome.1 = none
  made : outcome.2.made = before.made
  /-- What comes back is destroyed, and what is not out any more stays away. -/
  borrowed : outcome.2.borrowed = before.borrowed.diff (before.returned event)
  destroyed : outcome.2.destroyed = before.destroyed ++ before.returned event
  /-- Nobody is forgotten who waits. -/
  tickets : ∀ ticket ∈ before.tickets, (∀ now, event ≠ .resume ticket now) →
    ticket ∈ outcome.2.tickets

theorem releasePermit_tickets (pool : Pool α) : pool.releasePermit.tickets = pool.tickets := by
  rw [releasePermit]
  split
  · rfl
  · next waiter rest waiting =>
    simp only [tickets, waiting, List.map_cons, List.append_assoc, List.singleton_append]

/-- A permit that is given back changes nothing about the objects. -/
theorem releasePermit_eq (pool : Pool α) : ∃ free waiting granted,
    pool.releasePermit = { pool with free, waiting, granted } := by
  rw [releasePermit]
  split
  · exact ⟨_, _, _, rfl⟩
  · exact ⟨_, _, _, rfl⟩

theorem deadline?_eq_none {ticket : Nat} :
    pool.deadline? ticket = none ↔ ticket ∉ pool.waiting.map Waiter.ticket := by
  simp [deadline?, List.find?_eq_none]

theorem mem_tickets {ticket : Nat} :
    ticket ∈ pool.tickets ↔ ticket ∈ pool.granted ∨ ticket ∈ pool.waiting.map Waiter.ticket :=
  List.mem_append

theorem mem_leave_tickets {ticket other : Nat} (differs : other ≠ ticket)
    (waits : other ∈ pool.tickets) : other ∈ (pool.leave ticket).tickets := by
  rcases mem_tickets.mp waits with granted | waiting
  · exact mem_tickets.mpr (.inl granted)
  · obtain ⟨waiter, listed, rfl⟩ := List.mem_map.mp waiting
    have kept : waiter ∈ pool.waiting.filter (·.ticket != ticket) :=
      List.mem_filter.mpr ⟨listed, by simpa using differs⟩
    exact mem_tickets.mpr (.inr (List.mem_map_of_mem kept))

theorem request_turnedAway (shut : pool.Shut) (ticket : Nat) (now : Time) :
    TurnedAway pool (.request ticket now) (pool.request factory ticket now) := by
  have refused : pool.request factory ticket now = (some (.error .closed), pool) := by
    rw [request, if_pos shut.closed]
  rw [refused]
  exact ⟨shut, fun _ => rfl, fun wanted => absurd trivial wanted, rfl, rfl,
    (List.append_nil _).symm, fun _ waits _ => waits⟩

theorem resume_turnedAway (shut : pool.Shut) (ticket : Nat) (now : Time) :
    TurnedAway pool (.resume ticket now) (pool.resume factory ticket now) := by
  by_cases granted : ticket ∈ pool.granted
  · -- The permit that was meant for this borrower goes to the next one who waits.
    let left := { pool with granted := pool.granted.erase ticket }
    have refused : pool.resume factory ticket now =
        (some (.error .closed), left.releasePermit) := by
      rw [resume, if_pos granted]
      exact if_pos shut.closed
    obtain ⟨free, waiting, rest, released⟩ := left.releasePermit_eq
    have passed := left.releasePermit_tickets
    rw [refused]
    rw [released] at passed ⊢
    refine ⟨⟨shut.closed, shut.empty⟩, fun _ => rfl,
      fun wanted => absurd (mem_tickets.mpr (.inl granted)) wanted, rfl, rfl,
      (List.append_nil _).symm, fun other waits differs => ?_⟩
    have apart : other ≠ ticket := fun same => differs now (by rw [same])
    rw [passed]
    rcases mem_tickets.mp waits with has | waits
    · exact mem_tickets.mpr (.inl ((List.mem_erase_of_ne apart).mpr has))
    · exact mem_tickets.mpr (.inr waits)
  · cases deadline : pool.deadline? ticket with
    | none =>
        have ignored : pool.resume factory ticket now = (none, pool) := by
          simp only [resume, if_neg granted, deadline]
        have nobody : ¬ pool.Awaits (.resume ticket now) := fun waits =>
          (mem_tickets.mp waits).elim granted (deadline?_eq_none.mp deadline)
        rw [ignored]
        exact ⟨shut, fun waits => absurd waits nobody, fun _ => rfl, rfl, rfl,
          (List.append_nil _).symm, fun _ waits _ => waits⟩
    | some time =>
        have refused : pool.resume factory ticket now =
            (some (.error .closed), pool.leave ticket) := by
          simp only [resume, if_neg granted, deadline, if_pos shut.closed]
        have waits : ticket ∈ pool.waiting.map Waiter.ticket := by
          by_contra absent
          rw [deadline?_eq_none.mpr absent] at deadline
          cases deadline
        rw [refused]
        refine ⟨⟨shut.closed, shut.empty⟩, fun _ => rfl,
          fun wanted => absurd (mem_tickets.mpr (.inr waits)) wanted, rfl, rfl,
          (List.append_nil _).symm, fun other others differs => ?_⟩
        exact mem_leave_tickets (fun same => differs now (by rw [same])) others

theorem giveBack_turnedAway (shut : pool.Shut) (pooled : Pooled α) :
    TurnedAway pool (.giveBack pooled) (none, pool.giveBack pooled) := by
  by_cases out : pooled.number ∈ pool.borrowed
  · let left := { pool with
      borrowed := pool.borrowed.erase pooled.number
      destroyed := pool.destroyed ++ [pooled.number] }
    have destroyed : pool.giveBack pooled = left.releasePermit := by
      simp only [giveBack, if_pos out, shut.closed, Bool.not_true, Bool.false_and,
        Bool.false_eq_true, if_false, left]
    have back : pool.returned (.giveBack pooled) = [pooled.number] := if_pos out
    obtain ⟨free, waiting, rest, released⟩ := left.releasePermit_eq
    have passed := left.releasePermit_tickets
    rw [destroyed]
    rw [released] at passed ⊢
    refine ⟨⟨shut.closed, shut.empty⟩, False.elim, fun _ => rfl, rfl, ?_, ?_, fun other waits _ => ?_⟩
    · rw [back, List.diff_cons, List.diff_nil]
    · rw [back]
    · rw [passed]
      exact waits
  · have ignored : pool.giveBack pooled = pool := if_neg out
    have nothing : pool.returned (.giveBack pooled) = [] := if_neg out
    rw [ignored]
    refine ⟨shut, False.elim, fun _ => rfl, rfl, ?_, ?_, fun _ waits _ => waits⟩
    · rw [nothing, List.diff_nil]
    · rw [nothing, List.append_nil]

theorem close_turnedAway (shut : pool.Shut) : TurnedAway pool .close (none, pool.close) := by
  have same : pool.close = pool := if_pos shut.closed
  rw [same]
  exact ⟨shut, False.elim, fun _ => rfl, rfl, rfl, (List.append_nil _).symm, fun _ waits _ => waits⟩

/-- A closed pool hands nothing out, and takes back only to destroy. -/
theorem step_turnedAway (shut : pool.Shut) (event : PoolEvent α) :
    TurnedAway pool event (pool.step factory event) := by
  cases event with
  | request ticket now => exact request_turnedAway shut ticket now
  | resume ticket now => exact resume_turnedAway shut ticket now
  | giveBack pooled => exact giveBack_turnedAway shut pooled
  | close => exact close_turnedAway shut

theorem makeObject_closed (pool : Pool α) :
    (pool.makeObject factory).2.closed = pool.closed := by
  rw [makeObject]
  split
  · rfl
  · obtain ⟨free, waiting, granted, released⟩ :=
      releasePermit_eq { pool with attempts := pool.attempts + 1 }
    dsimp only
    rw [released]

theorem takeObject_closed (pool : Pool α) :
    (pool.takeObject factory).2.closed = pool.closed := by
  rw [takeObject]
  split
  · rfl
  · exact makeObject_closed _

/-- Only closing closes a pool. -/
theorem step_open (opened : pool.closed = false) (event : PoolEvent α) (other : event ≠ .close) :
    (pool.step factory event).2.closed = false := by
  have awake : ¬ pool.closed = true := by simp [opened]
  cases event with
  | request ticket now =>
      rw [step, request, if_neg awake]
      split
      · exact (takeObject_closed _).trans opened
      · exact opened
  | resume ticket now =>
      rw [step, resume]
      dsimp only
      rw [if_neg awake]
      split
      · exact (takeObject_closed _).trans opened
      · split
        · exact opened
        · split
          · exact opened
          · exact opened
  | giveBack pooled =>
      rw [step, giveBack]
      split
      · obtain ⟨free, waiting, granted, released⟩ := releasePermit_eq (
          if !pool.closed && pool.idle.length < pool.limits.idle then
            { pool with borrowed := pool.borrowed.erase pooled.number, idle := pooled :: pool.idle }
          else
            { pool with
              borrowed := pool.borrowed.erase pooled.number
              destroyed := pool.destroyed ++ [pooled.number] })
        dsimp only at released ⊢
        rw [released]
        split
        · exact opened
        · exact opened
      · exact opened
  | close => exact absurd rfl other

theorem shut_of_close (empty : pool.closed = true → pool.idle = []) : pool.close.Shut := by
  rw [close]
  split
  · next closed => exact ⟨closed, empty closed⟩
  · exact ⟨rfl, rfl⟩

theorem run_empty_of_closed (events : History α) (empty : pool.closed = true → pool.idle = []) :
    (pool.run events).2.closed = true → (pool.run events).2.idle = [] := by
  induction events generalizing pool with
  | nil => exact empty
  | cons next rest ih =>
      obtain ⟨factory, event⟩ := next
      refine ih fun (closed : (pool.step factory event).2.closed = true) => ?_
      by_cases before : pool.closed = true
      · exact (step_turnedAway ⟨before, empty before⟩ event).shut.empty
      · by_cases closes : event = .close
        · subst closes
          exact (shut_of_close empty).empty
        · rw [step_open (by simpa using before) event closes] at closed
          cases closed

theorem Conserved.borrowed_nodup {looking asking : Nat}
    (conserved : pool.Conserved limits looking asking) : pool.borrowed.Nodup := by
  have nodup : pool.accounted.Nodup := conserved.objects.nodup_iff.mpr List.nodup_range
  exact (List.nodup_append.mp (List.nodup_append.mp nodup).2.1).1

theorem Conserved.step (conserved : pool.Conserved limits 0 0) (event : PoolEvent α) :
    (pool.step factory event).2.Conserved limits 0 0 :=
  run_conserved conserved [(factory, event)]

/-- An object that was out is out until it is given back. -/
theorem TurnedAway.mem_borrowed {event : PoolEvent α} {outcome : Option (Result α) × Pool α}
    (turned : TurnedAway pool event outcome) (distinct : pool.borrowed.Nodup) (number : Nat) :
    number ∈ outcome.2.borrowed ↔
      number ∈ pool.borrowed ∧ ∀ pooled, event = .giveBack pooled → pooled.number ≠ number := by
  rw [turned.borrowed, distinct.mem_sdiff_iff]
  refine and_congr_right fun out => ?_
  cases event with
  | giveBack pooled =>
      rw [returned]
      split
      · simp [eq_comm]
      · next missing =>
        simp only [List.not_mem_nil, not_false_eq_true, PoolEvent.giveBack.injEq, forall_eq', true_iff]
        exact fun same => missing (same ▸ out)
  | _ => simp [returned]

theorem not_givenBack_cons {next : Factory α × PoolEvent α} {rest : History α} {number : Nat} :
    ¬ GivenBack (next :: rest) number ↔
      (∀ pooled, next.2 = .giveBack pooled → pooled.number ≠ number) ∧ ¬ GivenBack rest number := by
  simp [GivenBack]

theorem not_resumed_cons {next : Factory α × PoolEvent α} {rest : History α} {ticket : Nat} :
    ¬ Resumed (next :: rest) ticket ↔
      (∀ now, next.2 ≠ .resume ticket now) ∧ ¬ Resumed rest ticket := by
  simp [Resumed]

/-- What has become of a closed pool behind a history. -/
structure WoundUp (closed : Pool α) (later : History α)
    (outcome : List (Option (Result α)) × Pool α) : Prop where
  answers : ∀ answer ∈ outcome.1, answer = none ∨ answer = some (.error .closed)
  shut : outcome.2.Shut
  made : outcome.2.made = closed.made
  borrowed : ∀ number, number ∈ outcome.2.borrowed ↔
    number ∈ closed.borrowed ∧ ¬ GivenBack later number
  tickets : ∀ ticket ∈ closed.tickets, ¬ Resumed later ticket → ticket ∈ outcome.2.tickets

theorem run_woundUp (shut : pool.Shut) (conserved : pool.Conserved limits 0 0)
    (later : History α) : WoundUp pool later (pool.run later) := by
  induction later generalizing pool with
  | nil =>
      refine ⟨nofun, shut, rfl, fun number => ?_, fun _ waits _ => waits⟩
      simp [run, GivenBack]
  | cons next rest ih =>
      obtain ⟨factory, event⟩ := next
      have turned : TurnedAway pool event (pool.step factory event) := step_turnedAway shut event
      obtain ⟨answers, after, made, borrowed, tickets⟩ := ih turned.shut (conserved.step event)
      refine ⟨fun answer mem => ?_, after, made.trans turned.made, fun number => ?_,
        fun ticket waits never => ?_⟩
      · rcases List.mem_cons.mp mem with rfl | mem
        · by_cases wanted : pool.Awaits event
          · exact .inr (turned.refused wanted)
          · exact .inl (turned.silent wanted)
        · exact answers answer mem
      · rw [not_givenBack_cons, ← and_assoc, ← turned.mem_borrowed conserved.borrowed_nodup]
        exact borrowed number
      · obtain ⟨here, never⟩ := not_resumed_cons.mp never
        exact tickets ticket (turned.tickets ticket waits here) never

/-- Closing a pool is final and leaks nothing. Whatever has happened before, and whatever comes later:
nothing is handed out, whoever asks and whoever was waiting is told that the pool is closed, nothing is
idle, an object that comes back is destroyed, and when all that were out have been given back, each
object that was ever made has been destroyed, and once. -/
theorem closed_for_good (limits : PoolLimits) (earlier later : History α) :
    let closed := ((new limits).run earlier).2.close
    let answers := (closed.run later).1
    let last := (closed.run later).2
    (∀ answer ∈ answers, answer = none ∨ answer = some (.error .closed)) ∧
      (∀ ticket ∈ closed.tickets, ¬ Resumed later ticket →
        ∀ factory now, (last.resume factory ticket now).1 = some (.error .closed)) ∧
      last.idle = [] ∧
      (∀ factory event, TurnedAway last event (last.step factory event)) ∧
      last.made = closed.made ∧
      (∀ number, number ∈ last.borrowed ↔ number ∈ closed.borrowed ∧ ¬ GivenBack later number) ∧
      ((∀ number ∈ closed.borrowed, GivenBack later number) →
        last.destroyed ~ List.range last.made) := by
  intro closed answers last
  have shut : closed.Shut := shut_of_close (run_empty_of_closed earlier nofun)
  have conserved : closed.Conserved limits 0 0 := (run_conserved (conserved_new limits) earlier).close
  have woundUp : WoundUp closed later (closed.run later) := run_woundUp shut conserved later
  have turned : ∀ factory event, TurnedAway last event (last.step factory event) :=
    fun factory event => step_turnedAway woundUp.shut event
  refine ⟨woundUp.answers, fun ticket waits never factory now => ?_, woundUp.shut.empty, turned,
    woundUp.made, woundUp.borrowed, fun returned => ?_⟩
  · exact (turned factory (.resume ticket now)).refused (woundUp.tickets ticket waits never)
  · have allBack : last.borrowed = [] := List.eq_nil_iff_forall_not_mem.mpr fun number out =>
      ((woundUp.borrowed number).mp out).2 (returned number ((woundUp.borrowed number).mp out).1)
    have objects : last.accounted ~ List.range last.made := (run_conserved conserved later).objects
    rw [accounted, woundUp.shut.empty, allBack] at objects
    exact objects

end Pool

end ShardStore
