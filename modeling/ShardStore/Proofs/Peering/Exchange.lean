import Mathlib.Data.List.TakeDrop
import ShardStore.Node
import ShardStore.Proofs.Wire.RoundTrip

namespace ShardStore

theorem Message.commandLine?_ofList (line : CommandLine) :
    (ofList line).commandLine? = some line := by
  simp [ofList, commandLine?, Function.comp_def]

theorem Session.receive_line {σ : Type} {session : Session} (fresh : session.decoder = {})
    (service : Service σ) (state : σ) {line : CommandLine}
    (room : (Message.ofList line).Addressable) :
    let served := service state session.selected line
    session.receive service state (Wire.encodeLine line) =
      ([served.reply], { selected := served.selected }, served.state) := by
  have read := Decoder.feed_plain (Message.plain_ofList room)
  rw [← Decoder.encodeLine_eq] at read
  simp only [Session.receive, fresh, read, Server.answerAll, Server.answer?,
    Message.commandLine?_ofList]

namespace Channel

/-- Whether the connection of a channel is up and nothing is under way on it. -/
structure Idle (channel : Channel) : Prop where
  live : channel.link.connection = .live
  opened : channel.link.closed = false
  decoder : channel.link.decoder = {}
  pending : channel.link.pending = []
  waiting : channel.link.waiting = []
  abandoned : channel.link.abandoned = []
  far : channel.far.decoder = {}

theorem opened_idle (peer : NodeId) : Idle { link := .opened peer } :=
  ⟨rfl, rfl, rfl, rfl, rfl, rfl, rfl⟩

/-- A channel after a request that met no failure, which has left its peer on some database. -/
def answered (channel : Channel) (selected : Nat) : Channel :=
  { link := { channel.link with next := channel.link.next + 1 }, far := { selected } }

theorem Idle.answered {channel : Channel} (idle : channel.Idle) (selected : Nat) :
    (channel.answered selected).Idle :=
  ⟨idle.live, idle.opened, idle.decoder, idle.pending, idle.waiting, idle.abandoned, rfl⟩

theorem request_idle {σ : Type} {channel : Channel} (idle : channel.Idle) (network : Network)
    {service : Service σ} {state : σ} {line : CommandLine} {served : Served σ}
    (room : (Message.ofList line).Addressable)
    (executed : service state channel.far.selected line = served) (plain : served.reply.Plain) :
    channel.request network service state line =
      (served.reply, channel.answered served.selected, served.state) := by
  obtain ⟨link, session⟩ := channel
  have taken := Session.receive_line idle.far service state room
  dsimp only at executed taken
  rw [executed] at taken
  have written : Server.written [served.reply] = Wire.encode served.reply := by
    simp [Server.written]
  have read := Decoder.feed_plain plain
  obtain ⟨live, opened, decoder, pending, waiting, abandoned, -⟩ := idle
  dsimp only at live opened decoder pending waiting abandoned
  let request : LinkRequest := ⟨link.next, line⟩
  let used : Link := { link with next := link.next + 1 }
  have submitted : link.submit line = (.ok link.next, { used with pending := [request] }) := by
    simp [Link.submit, opened, pending, used, request]
  have transmitted : Link.transmit { used with pending := [request] } none =
      (some request, [], { used with waiting := [request] }) := by
    simp [Link.transmit, live, pending, waiting, used]
  have received : Link.receive { used with waiting := [request] } (Wire.encode served.reply) =
      ([⟨link.next, .ok served.reply⟩], used) := by
    simp [Link.receive, live, decoder, read, Link.takeItems, Link.takeReply, Link.complete,
      waiting, abandoned, used, request]
  have bytes : request.bytes = Wire.encodeLine line := rfl
  simp only [Channel.request, submitted, transmitted, Option.elim_some, bytes, taken, written,
    received]
  simp [outcome, restore, live, used, Channel.answered]

theorem request_spec {σ : Type} {channel : Channel} (idle : channel.Idle) (network : Network)
    {service : Service σ} {state : σ} {line : CommandLine} {served : Served σ}
    (room : (Message.ofList line).Addressable)
    (executed : service state channel.far.selected line = served) (plain : served.reply.Plain) :
    ∃ after : Channel, channel.request network service state line =
        (served.reply, after, served.state) ∧
      after.Idle ∧ after.far.selected = served.selected :=
  ⟨_, request_idle idle network room executed plain, idle.answered _, rfl⟩

end Channel

namespace Pool

/-- Whether a pool is open, nobody waits for it, and nothing is under way on its channels. -/
structure Rested (pool : Pool Channel) : Prop where
  opened : pool.closed = false
  permits : 0 < pool.free
  waiting : pool.waiting = []
  idle : ∀ pooled ∈ pool.idle, pooled.object.Idle

theorem new_rested {limits : PoolLimits} (some : 0 < limits.borrowed) : (new limits).Rested :=
  ⟨rfl, some, rfl, fun _ mem => nomatch mem⟩

theorem giveBack_rested (pool : Pool Channel) (opened : pool.closed = false)
    (waiting : pool.waiting = []) (idle : ∀ pooled ∈ pool.idle, pooled.object.Idle)
    {pooled : Pooled Channel} (lent : pooled.number ∈ pool.borrowed)
    (rests : pooled.object.Idle) : (pool.giveBack pooled).Rested := by
  rw [giveBack, if_pos lent]
  simp only [opened, Bool.not_false, Bool.true_and]
  split
  · simp only [releasePermit, waiting]
    refine ⟨rfl, Nat.succ_pos _, rfl, fun other mem => ?_⟩
    rcases List.mem_cons.mp mem with rfl | mem
    · exact rests
    · exact idle other mem
  · simp only [releasePermit, waiting]
    exact ⟨rfl, Nat.succ_pos _, rfl, idle⟩

/-- What a pool is when it has lent a channel: it has a permit less, and the other channels. -/
structure Lent (pool : Pool Channel) (pooled : Pooled Channel) (after : Pool Channel) : Prop where
  object : pooled.object.Idle
  closed : after.closed = pool.closed
  waiting : after.waiting = pool.waiting
  limits : after.limits = pool.limits
  free : after.free = pool.free - 1
  borrowed : after.borrowed = pooled.number :: pool.borrowed
  idle : ∀ other ∈ after.idle, other.object.Idle

theorem request_lent {pool : Pool Channel} (opened : pool.closed = false) (permits : 0 < pool.free)
    (idle : ∀ pooled ∈ pool.idle, pooled.object.Idle) {network : Network} {peer : NodeId}
    (reachable : network peer = .ok ()) :
    ∃ pooled after, pool.request (Channel.factory network peer) 0 0 = (some (.ok pooled), after) ∧
      pool.Lent pooled after := by
  cases kept : pool.idle with
  | nil =>
      let lent : Pool Channel := { pool with
        free := pool.free - 1
        attempts := pool.attempts + 1
        made := pool.made + 1
        borrowed := pool.made :: pool.borrowed }
      have asked : pool.request (Channel.factory network peer) 0 0 =
          (some (.ok ⟨pool.made, { link := .opened peer }⟩), lent) := by
        simp [request, opened, permits, takeObject, discardInvalid, kept, List.span,
          List.span.loop, makeObject, Channel.factory, Link.connect, reachable, lent]
      exact ⟨_, lent, asked, Channel.opened_idle peer, rfl, rfl, rfl, rfl, rfl, idle⟩
  | cons pooled rest =>
      have fit : pooled.object.Idle := idle pooled (by simp [kept])
      let lent : Pool Channel := { pool with
        free := pool.free - 1
        idle := rest
        borrowed := pooled.number :: pool.borrowed }
      have asked : pool.request (Channel.factory network peer) 0 0 =
          (some (.ok pooled), lent) := by
        simp [request, opened, permits, takeObject, discardInvalid, kept, List.span,
          List.span.loop, Channel.factory, fit.opened, lent]
      have others : ∀ other ∈ rest, other.object.Idle := fun other mem =>
        idle other (by simp [kept, mem])
      exact ⟨pooled, lent, asked, fit, rfl, rfl, rfl, rfl, rfl, others⟩

/-- A rested pool lends a channel, and is rested again when the channel comes back so. -/
theorem request_spec {pool : Pool Channel} (rested : pool.Rested) {network : Network}
    {peer : NodeId} (reachable : network peer = .ok ()) :
    ∃ pooled after, pool.request (Channel.factory network peer) 0 0 = (some (.ok pooled), after) ∧
      pooled.object.Idle ∧
      ∀ channel : Channel, channel.Idle →
        (after.giveBack { pooled with object := channel }).Rested := by
  obtain ⟨pooled, after, asked, lent⟩ :=
    request_lent rested.opened rested.permits rested.idle reachable
  refine ⟨pooled, after, asked, lent.object, fun channel rests => ?_⟩
  have out : pooled.number ∈ after.borrowed := by
    rw [lent.borrowed]
    exact List.mem_cons_self
  exact giveBack_rested after (lent.closed.trans rested.opened)
    (lent.waiting.trans rested.waiting) lent.idle out rests

end Pool

end ShardStore
