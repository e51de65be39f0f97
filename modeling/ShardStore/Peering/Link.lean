import ShardStore.Clock
import ShardStore.Peering.Dial
import ShardStore.Wire.Decoder
import ShardStore.Wire.Encoding

/-!
Links: connections that a node keeps to a peer. Any number of callers share a link; their requests
are written in the order they were made, and since replies carry no names, each reply belongs to the
oldest request on the connection that still waits for one. A request waits on until its reply comes,
even when its caller has given up, since the reply is on its way all the same.

When the connection is lost every waiting request fails, and the link dials again, up to three times.
-/

namespace ShardStore

inductive LinkError where
  | connect (address : NodeId) (cause : DialError)
  | closed
  | timeout
  | transport (cause : String)
deriving Repr, DecidableEq

namespace LinkError

def message : LinkError → String
  | .connect address cause => s!"connect to {address} failed: {cause.message}"
  | .closed => "connection closed"
  | .timeout => "server time out"
  | .transport cause => s!"transport error: {cause}"

def reply : LinkError → Message
  | .timeout => .error "ERR server time out"
  | failure => .error s!"ERR request failed: {failure.message}"

end LinkError

structure LinkRequest where
  number : Nat
  line : CommandLine
deriving Repr, DecidableEq

def LinkRequest.bytes (request : LinkRequest) : Bytes :=
  Wire.encodeLine request.line

structure Completion where
  number : Nat
  result : Except LinkError Message
deriving Repr

inductive Connection where
  | live
  /-- Nothing comes in any more, and the link is about to close. -/
  | silent
  | gone
deriving Repr, DecidableEq

structure Link where
  address : NodeId
  connection : Connection := .live
  /-- How many connections there have been before the latest. -/
  generation : Nat := 0
  /-- The replies on their way in on the latest connection. -/
  decoder : Decoder := {}
  /-- The requests not yet written, the oldest in front. -/
  pending : List LinkRequest := []
  /-- The requests written on the latest connection and not yet answered, the oldest in front. -/
  waiting : List LinkRequest := []
  abandoned : List Nat := []
  /-- How often the link has dialled in vain since it lost the connection. -/
  failures : Nat := 0
  closed : Bool := false
  next : Nat := 1
deriving Repr, DecidableEq

namespace Link

def maxAttempts : Nat := 3

def sendTimeout : Time := 3000

/-- How long a link is idle before it asks the peer whether it is still there. -/
def heartbeatInterval : Time := 10000

def heartbeatLine : CommandLine := [[0x50, 0x49, 0x4E, 0x47]]

def opened (address : NodeId) : Link :=
  { address }

def connect (network : Network) (address : NodeId) : Except LinkError Link :=
  match network address with
  | .ok () => .ok (opened address)
  | .error cause => .error (.connect address cause)

def complete (link : Link) (request : LinkRequest) (result : Except LinkError Message) :
    List Completion :=
  if request.number ∈ link.abandoned then [] else [⟨request.number, result⟩]

def failWaiting (link : Link) : List Completion × Link :=
  (link.waiting.flatMap fun request => link.complete request (.error .closed),
    { link with waiting := [] })

def submit (link : Link) (line : CommandLine) : Except LinkError Nat × Link :=
  if link.closed then (.error .closed, link)
  else
    (.ok link.next,
      { link with pending := link.pending ++ [⟨link.next, line⟩], next := link.next + 1 })

/-- Writes the oldest request that is not yet written, and gives the request if it goes out. It waits
from before its first byte goes out, so its reply cannot come too early. -/
def transmit (link : Link) (failure? : Option String) :
    Option LinkRequest × List Completion × Link :=
  match link.pending with
  | [] => (none, [], link)
  | request :: rest =>
    let link := { link with pending := rest }
    match link.connection, failure? with
    | .gone, _ => (none, link.complete request (.error .closed), link)
    | _, some cause => (none, link.complete request (.error (.transport cause)), link)
    | _, none => (some request, [], { link with waiting := link.waiting ++ [request] })

/-- Pairs a reply with the oldest waiting request. A reply that nobody waits for is dropped. -/
def takeReply (link : Link) (reply : Message) : List Completion × Link :=
  match link.waiting with
  | [] => ([], link)
  | request :: rest => (link.complete request (.ok reply), { link with waiting := rest })

/-- The connection is lost. A link that is closing lets its last requests be. -/
def lose (link : Link) : List Completion × Link :=
  match link.connection with
  | .live =>
    if link.closed then ([], { link with connection := .silent })
    else failWaiting { link with connection := .gone, decoder := {}, failures := 0 }
  | _ => ([], link)

/-- Takes in what comes after one another on a connection. Behind a fault nothing on the connection
can be trusted, so it counts as lost. -/
def takeItems (link : Link) : List Item → List Completion × Link
  | [] => ([], link)
  | .error _ :: _ => link.lose
  | .ok reply :: rest =>
    let (done, link) := link.takeReply reply
    let (more, link) := link.takeItems rest
    (done ++ more, link)

def receive (link : Link) (piece : Bytes) : List Completion × Link :=
  match link.connection with
  | .live =>
    let (items, decoder) := link.decoder.feed piece
    { link with decoder }.takeItems items
  | _ => ([], link)

def hangUp (link : Link) : List Completion × Link :=
  link.lose

def redial (link : Link) (succeeded : Bool) : List Completion × Link :=
  match link.connection with
  | .gone =>
    if link.closed then ([], link)
    else if succeeded then
      ([], { link with connection := .live, generation := link.generation + 1, decoder := {} })
    else
      let link := { link with failures := link.failures + 1 }
      if link.failures < maxAttempts then ([], link) else failWaiting { link with closed := true }
  | _ => ([], link)

/-- A caller has waited long enough. Its request stays where it is. -/
def expire (link : Link) (number : Nat) : List Completion × Link :=
  if number ∈ (link.pending ++ link.waiting).map LinkRequest.number ∧ number ∉ link.abandoned then
    ([⟨number, .error .timeout⟩], { link with abandoned := number :: link.abandoned })
  else ([], link)

/-- Takes no further requests; those made are still written and may still be answered. -/
def close (link : Link) : Link :=
  { link with closed := true }

def finish (link : Link) : List Completion × Link :=
  if link.closed then failWaiting { link with connection := .gone } else ([], link)

end Link

inductive LinkEvent where
  | submit (line : CommandLine)
  | heartbeat
  | transmit
  | transmitFails (cause : String)
  | receive (piece : Bytes)
  | hangUp
  | redial (succeeded : Bool)
  | expire (number : Nat)
  | close
  | finish
deriving Repr, DecidableEq

/-- What others see of an event: the request that goes out, the replies that have come in, and the
requests that come to an end. -/
structure LinkEffects where
  generation : Nat
  written? : Option LinkRequest := none
  replies : List Message := []
  completions : List Completion := []
deriving Repr

namespace Link

def repliesIn (link : Link) (piece : Bytes) : List Message :=
  match link.connection with
  | .live => messages (link.decoder.feed piece).1
  | _ => []
where
  messages : List Item → List Message
    | .ok reply :: rest => reply :: messages rest
    | _ => []

/-- The effects of an event that at most completes requests. -/
def completing (link : Link) (outcome : List Completion × Link) : LinkEffects × Link :=
  ({ generation := link.generation, completions := outcome.1 }, outcome.2)

def step (link : Link) : LinkEvent → LinkEffects × Link
  | .submit line => link.completing ([], (link.submit line).2)
  | .heartbeat => link.completing ([], (link.submit heartbeatLine).2)
  | .transmit =>
    let (written?, completions, after) := link.transmit none
    ({ generation := link.generation, written?, completions }, after)
  | .transmitFails cause => link.completing (link.transmit (some cause)).2
  | .receive piece =>
    let (completions, after) := link.receive piece
    ({ generation := link.generation, replies := link.repliesIn piece, completions }, after)
  | .hangUp => link.completing link.hangUp
  | .redial succeeded => link.completing (link.redial succeeded)
  | .expire number => link.completing (link.expire number)
  | .close => link.completing ([], link.close)
  | .finish => link.completing link.finish

def run (link : Link) : List LinkEvent → List LinkEffects × Link
  | [] => ([], link)
  | event :: rest =>
    let (effects, link) := link.step event
    let (more, link) := link.run rest
    (effects :: more, link)

end Link

end ShardStore
