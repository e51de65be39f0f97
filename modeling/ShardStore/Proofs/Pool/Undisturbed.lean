import Mathlib.Data.List.TakeDrop
import ShardStore.Proofs.Pool.Conservation

namespace ShardStore

namespace Pool

variable {α : Type} {pool : Pool α} {factory : Factory α} {pooled : Pooled α}
  {rest : List (Pooled α)}

theorem takeObject_empty (empty : pool.idle = []) :
    pool.takeObject factory = pool.makeObject factory := by
  obtain ⟨limits, idle, borrowed, destroyed⟩ := pool
  cases empty
  simp only [takeObject, discardInvalid, List.span_eq_takeWhile_dropWhile, List.takeWhile_nil,
    List.dropWhile_nil, List.map_nil, List.append_nil]

theorem takeObject_valid (found : pool.idle = pooled :: rest)
    (valid : factory.isValid pooled = true) :
    pool.takeObject factory =
      (.ok pooled, { pool with idle := rest, borrowed := pooled.number :: pool.borrowed }) := by
  simp [takeObject, discardInvalid, found, List.span_eq_takeWhile_dropWhile, valid]

theorem takeObject_invalid (found : pool.idle = pooled :: rest)
    (invalid : factory.isValid pooled = false) :
    pool.takeObject factory =
      { pool with
        idle := rest
        destroyed := pool.destroyed ++ [pooled.number] }.takeObject factory := by
  simp [takeObject, discardInvalid, found, List.span_eq_takeWhile_dropWhile, invalid]

end Pool

namespace Borrowing

variable {α : Type} {factory : Factory α} {before between after : Borrowing α}
  {answer? : Option (Result α)}

/-- Whether steps that follow each other at once may bring an answer, or none, and end in a state. -/
def Comes (factory : Factory α) (before : Borrowing α) (answer? : Option (Result α))
    (after : Borrowing α) : Prop :=
  ∃ steps : List (BorrowStep α),
    (before.run (steps.map fun step => (factory, step))).1.filterMap id = answer?.toList ∧
      (before.run (steps.map fun step => (factory, step))).2 = after

theorem Comes.cons (step : BorrowStep α) (first : before.step factory step = (none, between))
    (rest : Comes factory between answer? after) : Comes factory before answer? after := by
  obtain ⟨steps, answered, reached⟩ := rest
  refine ⟨step :: steps, ?_, ?_⟩
  · simp only [List.map_cons, run, first]
    exact answered
  · simp only [List.map_cons, run, first]
    exact reached

theorem Comes.last (step : BorrowStep α) (only : before.step factory step = (answer?, after)) :
    Comes factory before answer? after := by
  refine ⟨[step], ?_, ?_⟩
  · simp only [List.map_cons, List.map_nil, run, only]
    cases answer? <;> rfl
  · simp only [List.map_cons, List.map_nil, run, only]

/-- A borrower who has a permit looks until an object is found, or asks for one. -/
theorem takeObject_comes (pool : Pool α) (ticket : Nat) (looking asking : List Nat) :
    Comes factory ⟨pool, ticket :: looking, asking⟩ (some (pool.takeObject factory).1)
      ⟨(pool.takeObject factory).2, looking, asking⟩ := by
  generalize found : pool.idle = objects
  induction objects generalizing pool with
  | nil =>
      rw [Pool.takeObject_empty found]
      have looks : step ⟨pool, ticket :: looking, asking⟩ factory (.look ticket) =
          (none, ⟨pool, looking, ticket :: asking⟩) := by
        simp [step, look, found]
      have makes : step ⟨pool, looking, ticket :: asking⟩ factory (.make ticket) =
          (some (pool.makeObject factory).1, ⟨(pool.makeObject factory).2, looking, asking⟩) := by
        simp [step, make]
      exact .cons _ looks (.last _ makes)
  | cons pooled rest ih =>
      cases valid : factory.isValid pooled with
      | true =>
          rw [Pool.takeObject_valid found valid]
          exact .last (.look ticket) (by simp [step, look, found, valid])
      | false =>
          rw [Pool.takeObject_invalid found valid]
          exact .cons (.look ticket) (by simp [step, look, found, valid]) (ih _ rfl)

theorem step_undisturbed (pool : Pool α) (looking asking : List Nat) (event : PoolEvent α) :
    Comes factory ⟨pool, looking, asking⟩ (pool.step factory event).1
      ⟨(pool.step factory event).2, looking, asking⟩ := by
  cases event with
  | request ticket now =>
      by_cases free : pool.closed = false ∧ 0 < pool.free
      · let admitted := { pool with free := pool.free - 1 }
        have whole : pool.request factory ticket now =
            (some (admitted.takeObject factory).1, (admitted.takeObject factory).2) := by
          simp [Pool.request, free, admitted]
        rw [Pool.step, whole]
        exact .cons (.request ticket now) (by rw [step, request, if_pos free])
          (takeObject_comes admitted ticket looking asking)
      · exact .last (.request ticket now) (by rw [step, request, if_neg free]; rfl)
  | resume ticket now =>
      by_cases going : pool.closed = false ∧ ticket ∈ pool.granted
      · let admitted := { pool with granted := pool.granted.erase ticket }
        have whole : pool.resume factory ticket now =
            (some (admitted.takeObject factory).1, (admitted.takeObject factory).2) := by
          simp [Pool.resume, going, admitted]
        rw [Pool.step, whole]
        exact .cons (.resume ticket now) (by rw [step, resume, if_pos going])
          (takeObject_comes admitted ticket looking asking)
      · exact .last (.resume ticket now) (by rw [step, resume, if_neg going]; rfl)
  | giveBack pooled => exact .last (.giveBack pooled) rfl
  | close => exact .last .close rfl

theorem Comes.conserved {limits : PoolLimits} (comes : Comes factory before answer? after)
    (conserved : before.Conserved limits) : after.Conserved limits := by
  obtain ⟨steps, -, rfl⟩ := comes
  exact run_conserved conserved _

end Borrowing

theorem Pool.run_conserved {α : Type} {limits : PoolLimits} {pool : Pool α}
    (conserved : pool.Conserved limits 0 0) (events : List (Factory α × PoolEvent α)) :
    (pool.run events).2.Conserved limits 0 0 := by
  induction events generalizing pool with
  | nil => exact conserved
  | cons next rest ih =>
      exact ih ((Borrowing.step_undisturbed pool [] [] next.2).conserved conserved)

end ShardStore
