import ShardStore.Pool

/-!
Borrowers of a pool at the same time. A borrower who has a permit looks at one idle object after another
and, when there are none, asks for a new one; between any two of these steps others may do theirs.
`Pool.request` and `Pool.resume` are what a borrower does whom nobody interrupts.
-/

namespace ShardStore

/-- A pool, and the borrowers between their permit and their object. -/
structure Borrowing (α : Type) where
  pool : Pool α
  /-- The tickets of borrowers who look for an idle object. -/
  looking : List Nat := []
  /-- The tickets of borrowers who have found none and wait for a new one. -/
  asking : List Nat := []
deriving Repr, DecidableEq

inductive BorrowStep (α : Type) where
  | request (ticket : Nat) (now : Time)
  | resume (ticket : Nat) (now : Time)
  | look (ticket : Nat)
  | make (ticket : Nat)
  | giveBack (pooled : Pooled α)
  | close
deriving Repr, DecidableEq

namespace Borrowing

variable {α : Type}

abbrev Result (α : Type) := Pool.Result α

def new (limits : PoolLimits) : Borrowing α :=
  { pool := .new limits }

/-- Asks for a permit. A borrower who gets one at once goes on to look for an object. -/
def request (borrowing : Borrowing α) (factory : Factory α) (ticket : Nat) (now : Time) :
    Option (Result α) × Borrowing α :=
  let pool := borrowing.pool
  if pool.closed = false ∧ 0 < pool.free then
    (none,
      { borrowing with
        pool := { pool with free := pool.free - 1 }
        looking := ticket :: borrowing.looking })
  else
    let (answer?, pool) := pool.request factory ticket now
    (answer?, { borrowing with pool })

/-- Lets a borrower who waited for a permit go on; one who has got it, to look for an object. -/
def resume (borrowing : Borrowing α) (factory : Factory α) (ticket : Nat) (now : Time) :
    Option (Result α) × Borrowing α :=
  let pool := borrowing.pool
  if pool.closed = false ∧ ticket ∈ pool.granted then
    (none,
      { borrowing with
        pool := { pool with granted := pool.granted.erase ticket }
        looking := ticket :: borrowing.looking })
  else
    let (answer?, pool) := pool.resume factory ticket now
    (answer?, { borrowing with pool })

/-- Takes the first of the idle objects. The borrower gets it if it is valid; otherwise it is destroyed,
and the borrower is to look again. -/
def look (borrowing : Borrowing α) (factory : Factory α) (ticket : Nat) :
    Option (Result α) × Borrowing α :=
  let pool := borrowing.pool
  if ticket ∈ borrowing.looking then
    match pool.idle with
    | [] =>
      (none,
        { borrowing with
          looking := borrowing.looking.erase ticket
          asking := ticket :: borrowing.asking })
    | pooled :: rest =>
      if factory.isValid pooled then
        (some (.ok pooled),
          { borrowing with
            pool := { pool with idle := rest, borrowed := pooled.number :: pool.borrowed }
            looking := borrowing.looking.erase ticket })
      else
        (none,
          { borrowing with
            pool := { pool with idle := rest, destroyed := pool.destroyed ++ [pooled.number] } })
  else (none, borrowing)

/-- Brings a borrower the new object, or the cause why there is none. -/
def make (borrowing : Borrowing α) (factory : Factory α) (ticket : Nat) :
    Option (Result α) × Borrowing α :=
  if ticket ∈ borrowing.asking then
    let (result, pool) := borrowing.pool.makeObject factory
    (some result, { borrowing with pool, asking := borrowing.asking.erase ticket })
  else (none, borrowing)

def step (borrowing : Borrowing α) (factory : Factory α) :
    BorrowStep α → Option (Result α) × Borrowing α
  | .request ticket now => borrowing.request factory ticket now
  | .resume ticket now => borrowing.resume factory ticket now
  | .look ticket => borrowing.look factory ticket
  | .make ticket => borrowing.make factory ticket
  | .giveBack pooled => (none, { borrowing with pool := borrowing.pool.giveBack pooled })
  | .close => (none, { borrowing with pool := borrowing.pool.close })

/-- Runs steps, each with the factory as it is at that moment. -/
def run (borrowing : Borrowing α) :
    List (Factory α × BorrowStep α) → List (Option (Result α)) × Borrowing α
  | [] => ([], borrowing)
  | (factory, step) :: rest =>
    let (result?, borrowing) := borrowing.step factory step
    let (results, borrowing) := borrowing.run rest
    (result? :: results, borrowing)

end Borrowing

end ShardStore
