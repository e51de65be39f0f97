import ShardStore.Clock

/-!
Pools of objects that are worth keeping. A pool has so many permits; a borrower first gets a permit,
for which it may have to wait, and then an object, one of the idle ones if any is still valid, else a
new one. An object that comes back is kept for the next borrower or destroyed, and its permit goes to
the one who has waited longest.

Objects are numbered as they are made, so that it can be said what became of each. A borrower who has
to wait is known by a ticket; `request` and `resume` are the two parts of a borrow that waits.
-/

namespace ShardStore

inductive PoolError where
  | closed
  | factory (cause : String)
  | exhausted
deriving Repr, DecidableEq

def PoolError.message : PoolError → String
  | .closed => "pool is closed"
  | .factory cause => s!"failed to create object: {cause}"
  | .exhausted => "timed out waiting for an idle object"

structure PoolLimits where
  /-- How many objects may be borrowed at a time. -/
  borrowed : Nat := 8
  /-- How many objects are kept while nobody uses them. -/
  idle : Nat := 8
  wait : Time := 3000
deriving Repr, DecidableEq

structure Pooled (α : Type) where
  number : Nat
  object : α
deriving Repr, DecidableEq

structure Factory (α : Type) where
  /-- The outcome of each attempt to make an object, or the cause of its failure. -/
  make : Nat → Except String α
  isValid : Pooled α → Bool

structure Waiter where
  ticket : Nat
  deadline : Time
deriving Repr, DecidableEq

structure Pool (α : Type) where
  limits : PoolLimits
  /-- The objects nobody uses, the one that came back last in front. -/
  idle : List (Pooled α) := []
  borrowed : List Nat := []
  /-- The numbers of the objects that are gone, in the order they went. -/
  destroyed : List Nat := []
  /-- How many objects have been made; their numbers are those below. -/
  made : Nat := 0
  attempts : Nat := 0
  free : Nat
  /-- The borrowers without a permit, the one who has waited longest in front. -/
  waiting : List Waiter := []
  /-- The tickets of borrowers who got a permit while they waited and have not yet gone on. -/
  granted : List Nat := []
  closed : Bool := false
deriving Repr, DecidableEq

inductive PoolEvent (α : Type) where
  | request (ticket : Nat) (now : Time)
  | resume (ticket : Nat) (now : Time)
  | giveBack (pooled : Pooled α)
  | close
deriving Repr, DecidableEq

namespace Pool

variable {α : Type}

abbrev Result (α : Type) := Except PoolError (Pooled α)

def new (limits : PoolLimits) : Pool α :=
  { limits, free := limits.borrowed }

/-- Gives a permit back: to the one who has waited longest, if anybody waits. -/
def releasePermit (pool : Pool α) : Pool α :=
  match pool.waiting with
  | [] => { pool with free := pool.free + 1 }
  | waiter :: rest => { pool with waiting := rest, granted := pool.granted ++ [waiter.ticket] }

/-- Destroys the idle objects that are found invalid before the first valid one. -/
def discardInvalid (pool : Pool α) (factory : Factory α) : Pool α :=
  let (invalid, kept) := pool.idle.span fun pooled => !factory.isValid pooled
  { pool with idle := kept, destroyed := pool.destroyed ++ invalid.map Pooled.number }

def makeObject (pool : Pool α) (factory : Factory α) : Result α × Pool α :=
  let asked := { pool with attempts := pool.attempts + 1 }
  match factory.make pool.attempts with
  | .ok object =>
    (.ok ⟨pool.made, object⟩,
      { asked with made := pool.made + 1, borrowed := pool.made :: pool.borrowed })
  | .error cause => (.error (.factory cause), asked.releasePermit)

def takeObject (pool : Pool α) (factory : Factory α) : Result α × Pool α :=
  let pool := pool.discardInvalid factory
  match pool.idle with
  | pooled :: rest =>
    (.ok pooled, { pool with idle := rest, borrowed := pooled.number :: pool.borrowed })
  | [] => pool.makeObject factory

/-- Asks for an object. Without a result the borrower waits under its ticket. -/
def request (pool : Pool α) (factory : Factory α) (ticket : Nat) (now : Time) :
    Option (Result α) × Pool α :=
  if pool.closed then (some (.error .closed), pool)
  else if 0 < pool.free then
    let (result, pool) := { pool with free := pool.free - 1 }.takeObject factory
    (some result, pool)
  else
    let waiter : Waiter := ⟨ticket, now + pool.limits.wait⟩
    (none, { pool with waiting := pool.waiting ++ [waiter] })

def leave (pool : Pool α) (ticket : Nat) : Pool α :=
  { pool with waiting := pool.waiting.filter (·.ticket != ticket) }

def deadline? (pool : Pool α) (ticket : Nat) : Option Time :=
  (pool.waiting.find? (·.ticket == ticket)).map Waiter.deadline

/-- Lets a borrower who waited go on. Without a result it waits on, or nobody has that ticket. -/
def resume (pool : Pool α) (factory : Factory α) (ticket : Nat) (now : Time) :
    Option (Result α) × Pool α :=
  if ticket ∈ pool.granted then
    let pool := { pool with granted := pool.granted.erase ticket }
    if pool.closed then (some (.error .closed), pool.releasePermit)
    else
      let (result, pool) := pool.takeObject factory
      (some result, pool)
  else
    match pool.deadline? ticket with
    | none => (none, pool)
    | some deadline =>
      if pool.closed then (some (.error .closed), pool.leave ticket)
      else if deadline ≤ now then (some (.error .exhausted), pool.leave ticket)
      else (none, pool)

/-- Takes an object back that is out. It is kept if the pool is open and has room. -/
def giveBack (pool : Pool α) (pooled : Pooled α) : Pool α :=
  if pooled.number ∈ pool.borrowed then
    let pool := { pool with borrowed := pool.borrowed.erase pooled.number }
    let pool :=
      if !pool.closed && pool.idle.length < pool.limits.idle then
        { pool with idle := pooled :: pool.idle }
      else { pool with destroyed := pool.destroyed ++ [pooled.number] }
    pool.releasePermit
  else pool

/-- Turns all further borrowers away and destroys the idle objects, the oldest first. -/
def close (pool : Pool α) : Pool α :=
  if pool.closed then pool
  else
    { pool with
      closed := true
      idle := []
      destroyed := pool.destroyed ++ pool.idle.reverse.map Pooled.number }

def step (pool : Pool α) (factory : Factory α) : PoolEvent α → Option (Result α) × Pool α
  | .request ticket now => pool.request factory ticket now
  | .resume ticket now => pool.resume factory ticket now
  | .giveBack pooled => (none, pool.giveBack pooled)
  | .close => (none, pool.close)

def run (pool : Pool α) : List (Factory α × PoolEvent α) → List (Option (Result α)) × Pool α
  | [] => ([], pool)
  | (factory, event) :: rest =>
    let (result?, pool) := pool.step factory event
    let (results, pool) := pool.run rest
    (result? :: results, pool)

/-- The tickets of all who have asked and not yet been answered, those with a permit in front. -/
def tickets (pool : Pool α) : List Nat :=
  pool.granted ++ pool.waiting.map Waiter.ticket

def resumeFirst (pool : Pool α) (factory : Factory α) (now : Time) :
    List Nat → Option ((Nat × Result α) × Pool α)
  | [] => none
  | ticket :: rest =>
    match pool.resume factory ticket now with
    | (some result, pool) => some ((ticket, result), pool)
    | (none, _) => pool.resumeFirst factory now rest

def resumeSome (factory : Factory α) (now : Time) :
    Nat → Pool α → List (Nat × Result α) × Pool α
  | 0, pool => ([], pool)
  | count + 1, pool =>
    match pool.resumeFirst factory now pool.tickets with
    | none => ([], pool)
    | some (answered, pool) =>
      let (more, pool) := resumeSome factory now count pool
      (answered :: more, pool)

def settle (pool : Pool α) (factory : Factory α) (now : Time) :
    List (Nat × Result α) × Pool α :=
  resumeSome factory now pool.tickets.length pool

end Pool

end ShardStore
