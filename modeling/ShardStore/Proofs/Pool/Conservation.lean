import Mathlib.Data.List.Count
import Mathlib.Data.List.Perm.Basic
import ShardStore.Pool.Borrowing

/-!
What becomes of the objects and the permits of a pool. That no more objects are alive than there are
permits is checked nowhere: a borrower asks for a new object only behind a look at an empty list, and an
object is back in the list before its permit goes on. `Pool.Conserved` says so together with the count
of the permits, each step keeps it, and so it holds whatever the borrowers do
(`Borrowing.conserved_throughout`).
-/

namespace ShardStore

open scoped List

namespace Pool

variable {α : Type} {limits : PoolLimits} {looking asking : Nat} {pool : Pool α}

/-- The numbers of the objects of which the pool knows what became of them. -/
def accounted (pool : Pool α) : List Nat :=
  pool.idle.map Pooled.number ++ (pool.borrowed ++ pool.destroyed)

/-- What holds of a pool at all times, with so many borrowers who look for an idle object and so many
who wait for a new one. -/
structure Conserved (limits : PoolLimits) (looking asking : Nat) (pool : Pool α) : Prop where
  sized : pool.limits = limits
  /-- Each object is idle, borrowed or destroyed, and just one of these, once. -/
  objects : pool.accounted ~ List.range pool.made
  idle : pool.idle.length ≤ limits.idle
  /-- A new object is asked for only where there is room for it. -/
  total : pool.idle.length + pool.borrowed.length + asking ≤ limits.borrowed
  /-- Each permit is free, or its borrower has an object or is on the way to one. -/
  permits : pool.free + pool.borrowed.length + (pool.granted.length + looking + asking) =
    limits.borrowed

theorem conserved_new (limits : PoolLimits) : (new limits : Pool α).Conserved limits 0 0 :=
  ⟨rfl, .nil, Nat.zero_le _, Nat.zero_le _, rfl⟩

theorem makeObject_eq_ok {factory : Factory α} {pooled : Pooled α}
    (made : (pool.makeObject factory).1 = .ok pooled) :
    pooled.number ∈ (pool.makeObject factory).2.borrowed ∧ pooled.number = pool.made ∧
      factory.make pool.attempts = .ok pooled.object := by
  rw [makeObject] at made ⊢
  split at made
  · next object succeeded =>
    cases made
    rw [succeeded]
    exact ⟨List.mem_cons_self, rfl, rfl⟩
  · cases made

namespace Conserved

/-- Permits that change hands change nothing about the objects. -/
theorem pass (conserved : pool.Conserved limits looking asking) {free later : Nat}
    {granted : List Nat} (waiting : List Waiter)
    (same : free + granted.length + later = pool.free + pool.granted.length + looking) :
    { pool with free, waiting, granted }.Conserved limits later asking := by
  have permits := conserved.permits
  exact { conserved with permits := by dsimp only; omega }

theorem releasePermit (conserved : pool.Conserved limits (looking + 1) asking) :
    pool.releasePermit.Conserved limits looking asking := by
  rw [Pool.releasePermit]
  split
  · exact conserved.pass pool.waiting (by omega)
  · refine conserved.pass _ ?_
    rw [List.length_append, List.length_singleton]
    omega

/-- A borrower who waited for a new object gets none. -/
theorem giveUp (conserved : pool.Conserved limits looking (asking + 1)) :
    pool.Conserved limits (looking + 1) asking := by
  have total := conserved.total
  have permits := conserved.permits
  exact { conserved with total := by omega, permits := by omega }

/-- A borrower who finds no idle object asks for a new one. -/
theorem ask (conserved : pool.Conserved limits (looking + 1) asking) (empty : pool.idle = []) :
    pool.Conserved limits looking (asking + 1) := by
  have permits := conserved.permits
  exact { conserved with total := by rw [empty, List.length_nil]; omega, permits := by omega }

section

variable {pooled : Pooled α} {rest : List (Pooled α)}

theorem take (conserved : pool.Conserved limits (looking + 1) asking)
    (found : pool.idle = pooled :: rest) :
    { pool with idle := rest, borrowed := pooled.number :: pool.borrowed }.Conserved limits
      looking asking := by
  obtain ⟨sized, objects, idle, total, permits⟩ := conserved
  rw [found, List.length_cons] at idle total
  refine ⟨sized, .trans ?_ objects, by dsimp only; omega, ?_, ?_⟩
  · rw [accounted, accounted, found]
    exact List.perm_middle
  · dsimp only [List.length_cons]
    omega
  · dsimp only [List.length_cons]
    omega

theorem discard (conserved : pool.Conserved limits looking asking)
    (found : pool.idle = pooled :: rest) :
    { pool with idle := rest, destroyed := pool.destroyed ++ [pooled.number] }.Conserved limits
      looking asking := by
  obtain ⟨sized, objects, idle, total, permits⟩ := conserved
  rw [found, List.length_cons] at idle total
  refine ⟨sized, .trans ?_ objects, by dsimp only; omega, by dsimp only; omega, permits⟩
  rw [accounted, accounted, found, ← List.append_assoc, ← List.append_assoc, ← List.append_assoc]
  exact List.perm_append_singleton _ _

end

theorem makeObject {factory : Factory α} (conserved : pool.Conserved limits looking (asking + 1)) :
    (pool.makeObject factory).2.Conserved limits looking asking := by
  rw [Pool.makeObject]
  split
  · obtain ⟨sized, objects, idle, total, permits⟩ := conserved
    refine ⟨sized, ?_, idle, ?_, ?_⟩
    · calc pool.idle.map Pooled.number ++ (pool.made :: pool.borrowed ++ pool.destroyed)
          ~ pool.made :: pool.accounted := List.perm_middle
        _ ~ pool.made :: List.range pool.made := objects.cons _
        _ ~ List.range pool.made ++ [pool.made] := (List.perm_append_singleton _ _).symm
        _ = List.range (pool.made + 1) := List.range_succ.symm
    · dsimp only [List.length_cons]
      omega
    · dsimp only [List.length_cons]
      omega
  · have asked : { pool with attempts := pool.attempts + 1 }.Conserved limits (looking + 1) asking :=
      { conserved.giveUp with }
    exact asked.releasePermit

/-- An object that comes back is idle or destroyed before its permit goes to the next borrower. -/
theorem giveBack (conserved : pool.Conserved limits looking asking) (pooled : Pooled α) :
    (pool.giveBack pooled).Conserved limits looking asking := by
  rw [Pool.giveBack]
  split
  · next out =>
    obtain ⟨sized, objects, idle, total, permits⟩ := conserved
    have one := List.length_erase_add_one out
    have back : pool.idle.map Pooled.number ++ (pooled.number ::
        (pool.borrowed.erase pooled.number ++ pool.destroyed)) ~ List.range pool.made :=
      (((List.perm_cons_erase out).symm.append_right _).append_left _).trans objects
    refine releasePermit ?_
    split
    · next room =>
      rw [Bool.and_eq_true, decide_eq_true_eq, sized] at room
      refine ⟨sized, List.perm_middle.symm.trans back, room.2, ?_, ?_⟩
      · dsimp only [List.length_cons]
        omega
      · dsimp only
        omega
    · refine ⟨sized, .trans (.append_left _ ?_) back, idle, ?_, ?_⟩
      · rw [← List.append_assoc]
        exact List.perm_append_singleton _ _
      · dsimp only
        omega
      · dsimp only
        omega
  · exact conserved

theorem close (conserved : pool.Conserved limits looking asking) :
    pool.close.Conserved limits looking asking := by
  rw [Pool.close]
  split
  · exact conserved
  · obtain ⟨sized, objects, idle, total, permits⟩ := conserved
    refine ⟨sized, ?_, Nat.zero_le _, ?_, permits⟩
    · calc pool.borrowed ++ (pool.destroyed ++ pool.idle.reverse.map Pooled.number)
          = pool.borrowed ++ pool.destroyed ++ (pool.idle.map Pooled.number).reverse := by
            rw [List.append_assoc, List.map_reverse]
        _ ~ (pool.idle.map Pooled.number).reverse ++ (pool.borrowed ++ pool.destroyed) :=
            List.perm_append_comm
        _ ~ pool.accounted := (List.reverse_perm _).append_right _
        _ ~ List.range pool.made := objects
    · dsimp only [List.length_nil]
      omega

/-- A borrower who gets no permit is turned away or waits. -/
theorem request (conserved : pool.Conserved limits looking asking) (factory : Factory α)
    (ticket : Nat) (now : Time) (blocked : ¬ (pool.closed = false ∧ 0 < pool.free)) :
    (pool.request factory ticket now).2.Conserved limits looking asking ∧
      ∀ pooled, (pool.request factory ticket now).1 ≠ some (.ok pooled) := by
  rw [Pool.request]
  split
  · exact ⟨conserved, nofun⟩
  · next opened =>
    rw [if_neg fun free => blocked ⟨by simpa using opened, free⟩]
    exact ⟨conserved.pass _ rfl, nofun⟩

/-- A borrower who has waited and does not go on to look for an object is turned away or waits on. -/
theorem resume (conserved : pool.Conserved limits looking asking) (factory : Factory α)
    (ticket : Nat) (now : Time) (blocked : ¬ (pool.closed = false ∧ ticket ∈ pool.granted)) :
    (pool.resume factory ticket now).2.Conserved limits looking asking ∧
      ∀ pooled, (pool.resume factory ticket now).1 ≠ some (.ok pooled) := by
  rw [Pool.resume]
  split
  · next granted =>
    have closed : pool.closed = true := by simpa [granted] using blocked
    have one := List.length_erase_add_one granted
    dsimp only
    rw [if_pos closed]
    exact ⟨(conserved.pass pool.waiting (by omega)).releasePermit, nofun⟩
  · split
    · exact ⟨conserved, nofun⟩
    · split
      · exact ⟨conserved.pass _ rfl, nofun⟩
      · split
        · exact ⟨conserved.pass _ rfl, nofun⟩
        · exact ⟨conserved, nofun⟩

end Conserved

end Pool

namespace Borrowing

variable {α : Type} {limits : PoolLimits} {borrowing : Borrowing α} {factory : Factory α}

/-- What holds at all times of a pool and those who borrow from it. -/
def Conserved (limits : PoolLimits) (borrowing : Borrowing α) : Prop :=
  borrowing.pool.Conserved limits borrowing.looking.length borrowing.asking.length

/-- What a step is to keep, and which objects it may hand out: a valid one that was idle, or one that
has just been made. -/
structure Kept (limits : PoolLimits) (before : Borrowing α) (factory : Factory α)
    (outcome : Option (Result α) × Borrowing α) : Prop where
  conserved : outcome.2.Conserved limits
  handed : ∀ pooled, outcome.1 = some (.ok pooled) →
    pooled.number ∈ outcome.2.pool.borrowed ∧
      (pooled ∈ before.pool.idle ∧ factory.isValid pooled = true ∨
        pooled.number = before.pool.made ∧
          factory.make before.pool.attempts = .ok pooled.object)

theorem request_kept (conserved : borrowing.Conserved limits) (ticket : Nat) (now : Time) :
    Kept limits borrowing factory (borrowing.request factory ticket now) := by
  rw [request]
  split
  · refine ⟨conserved.pass borrowing.pool.waiting ?_, nofun⟩
    rw [List.length_cons]
    omega
  · next blocked =>
    obtain ⟨kept, nothing⟩ := conserved.request factory ticket now blocked
    exact ⟨kept, fun pooled same => absurd same (nothing pooled)⟩

theorem resume_kept (conserved : borrowing.Conserved limits) (ticket : Nat) (now : Time) :
    Kept limits borrowing factory (borrowing.resume factory ticket now) := by
  rw [resume]
  split
  · next going =>
    have one := List.length_erase_add_one going.2
    refine ⟨conserved.pass borrowing.pool.waiting ?_, nofun⟩
    rw [List.length_cons]
    omega
  · next blocked =>
    obtain ⟨kept, nothing⟩ := conserved.resume factory ticket now blocked
    exact ⟨kept, fun pooled same => absurd same (nothing pooled)⟩

theorem look_kept (conserved : borrowing.Conserved limits) (ticket : Nat) :
    Kept limits borrowing factory (borrowing.look factory ticket) := by
  rw [look]
  split
  · next looks =>
    have one := List.length_erase_add_one looks
    rw [Conserved, ← one] at conserved
    split
    · next empty => exact ⟨conserved.ask empty, nofun⟩
    · next pooled rest found =>
      split
      · next valid =>
        refine ⟨conserved.take found, fun other same => ?_⟩
        cases same
        exact ⟨List.mem_cons_self, .inl ⟨found ▸ List.mem_cons_self, valid⟩⟩
      · rw [one] at conserved
        exact ⟨conserved.discard found, nofun⟩
  · exact ⟨conserved, nofun⟩

theorem make_kept (conserved : borrowing.Conserved limits) (ticket : Nat) :
    Kept limits borrowing factory (borrowing.make factory ticket) := by
  rw [make]
  split
  · next asks =>
    rw [Conserved, ← List.length_erase_add_one asks] at conserved
    refine ⟨conserved.makeObject, fun pooled same => ?_⟩
    obtain ⟨out, number, made⟩ := Pool.makeObject_eq_ok (Option.some.inj same)
    exact ⟨out, .inr ⟨number, made⟩⟩
  · exact ⟨conserved, nofun⟩

/-- A step keeps what holds at all times. -/
theorem step_kept (conserved : borrowing.Conserved limits) (step : BorrowStep α) :
    Kept limits borrowing factory (borrowing.step factory step) := by
  cases step with
  | request ticket now => exact request_kept conserved ticket now
  | resume ticket now => exact resume_kept conserved ticket now
  | look ticket => exact look_kept conserved ticket
  | make ticket => exact make_kept conserved ticket
  | giveBack pooled => exact ⟨conserved.giveBack pooled, nofun⟩
  | close => exact ⟨conserved.close, nofun⟩

theorem run_conserved (conserved : borrowing.Conserved limits)
    (steps : List (Factory α × BorrowStep α)) : (borrowing.run steps).2.Conserved limits := by
  induction steps generalizing borrowing with
  | nil => exact conserved
  | cons next rest ih => exact ih (step_kept conserved next.2).conserved

/-- Whatever borrowers do, in whatever order and however the making and the validity of objects turn
out: each object that was made is idle, borrowed or destroyed, and just one of these, no more are idle
than may be, no more are idle and borrowed than may be borrowed, and no permit is lost; and what the next
step hands out has just been made, or was idle and is valid. -/
theorem conserved_throughout (limits : PoolLimits) (history : List (Factory α × BorrowStep α)) :
    let before := ((new limits).run history).2
    before.Conserved limits ∧
      ∀ factory step, Kept limits before factory (before.step factory step) := by
  have opened : (new limits : Borrowing α).Conserved limits := Pool.conserved_new limits
  have conserved := run_conserved opened history
  exact ⟨conserved, fun factory step => step_kept conserved step⟩

end Borrowing

end ShardStore
