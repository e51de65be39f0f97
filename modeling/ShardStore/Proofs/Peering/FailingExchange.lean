import ShardStore.Proofs.Peering.Exchange
import ShardStore.Proofs.Peering.Requests

namespace ShardStore

/-- Whether two services do the same with a line in all good states, and good states stay good. -/
def Service.Alike {σ : Type} (good : σ → Prop) (line : CommandLine) (service other : Service σ) :
    Prop :=
  ∀ state, good state → ∀ selected,
    service state selected line = other state selected line ∧
      good (other state selected line).state

namespace Channel

/-- Whether no request is still to be written on a channel, and the peer has had whole lines only. -/
structure Clear (channel : Channel) : Prop where
  pending : channel.link.pending = []
  far : channel.far.decoder = {}

variable {channel : Channel}

theorem Clear.suffer (clear : channel.Clear) (incident : Incident) :
    (channel.suffer incident).Clear := by
  cases incident with
  | hangUp => exact ⟨(Link.lose_frame channel.link).1.trans clear.pending, clear.far⟩
  | redial succeeded =>
      have pending : (channel.link.redial succeeded).2.pending = [] :=
        (Link.redial_frame succeeded).1.trans clear.pending
      simp only [Channel.suffer]
      split
      · exact ⟨pending, clear.far⟩
      · exact ⟨pending, rfl⟩

theorem Clear.sufferAll (clear : channel.Clear) (incidents : List Incident) :
    (incidents.foldl Channel.suffer channel).Clear := by
  induction incidents generalizing channel with
  | nil => exact clear
  | cons incident rest ih => exact ih (clear.suffer incident)

theorem Clear.restore (clear : channel.Clear) (network : Network) :
    (channel.restore network).Clear := by
  unfold Channel.restore
  split
  · exact clear.suffer _
  · exact clear.sufferAll _
  · exact clear

theorem submit_cases {link : Link} (empty : link.pending = []) (line : CommandLine) :
    link.submit line = (.error .closed, link) ∨
      ∃ used : Link, link.submit line = (.ok link.next, used) ∧
        used.pending = [⟨link.next, line⟩] := by
  unfold Link.submit
  split
  · exact .inl rfl
  · exact .inr ⟨_, rfl, by simp [empty]⟩

theorem transmit_cases {link : Link} {request : LinkRequest} (single : link.pending = [request]) :
    ∃ (written? : Option LinkRequest) (unsent : List Completion) (used : Link),
      link.transmit none = (written?, unsent, used) ∧ used.pending = [] ∧
        (written? = none ∨ written? = some request) := by
  unfold Link.transmit
  rw [single]
  dsimp only
  split
  · exact ⟨_, _, _, rfl, rfl, .inl rfl⟩
  · contradiction
  · exact ⟨_, _, _, rfl, rfl, .inr rfl⟩

theorem receive_nothing {σ : Type} {session : Session} (fresh : session.decoder = {})
    (service : Service σ) (state : σ) :
    session.receive service state [] = ([], session, state) := by
  obtain ⟨decoder, selected⟩ := session
  obtain rfl : decoder = {} := fresh
  have silent : ({} : Decoder).feed [] = ([], {}) := Decoder.drain_nil .idle
  simp only [Session.receive, silent, Server.answerAll]

/-- A request over a clear channel does not reach the peer, or it comes to what the peer makes of its
line. The channel is clear again in either case. -/
theorem request_alike {σ : Type} {good : σ → Prop} (clear : channel.Clear) (network : Network)
    {line : CommandLine} (room : (Message.ofList line).Addressable) {service other : Service σ}
    (alike : Service.Alike good line service other) {state : σ} (held : good state) :
    channel.request network service state line = channel.request network other state line ∧
      (channel.request network other state line).2.1.Clear ∧
      good (channel.request network other state line).2.2 := by
  obtain ⟨link, far⟩ := channel
  have fresh : far.decoder = {} := clear.far
  obtain ⟨same, kept⟩ := alike state held far.selected
  rcases submit_cases clear.pending line with refused | ⟨used, submitted, single⟩
  · simp only [request, refused]
    exact ⟨trivial, clear, held⟩
  · dsimp only at submitted
    obtain ⟨written?, unsent, sent, transmitted, empty, written⟩ := transmit_cases single
    have clean (replies : List Message) {far : Session} (fresh : far.decoder = {}) :
        (restore ⟨(sent.receive (Server.written replies)).2, far⟩ network).Clear :=
      Clear.restore ⟨(Link.receive_frame _).1.trans empty, fresh⟩ network
    rcases written with rfl | rfl
    · simp only [request, submitted, transmitted, Option.elim_none, receive_nothing fresh]
      exact ⟨trivial, clean [] fresh, held⟩
    · have bytes : LinkRequest.bytes ⟨link.next, line⟩ = Wire.encodeLine line := rfl
      simp only [request, submitted, transmitted, Option.elim_some, bytes,
        Session.receive_line fresh _ _ room, same]
      exact ⟨trivial, clean _ rfl, kept⟩

end Channel

namespace Pool

/-- Whether all channels that a pool keeps are clear. -/
def Clear (pool : Pool Channel) : Prop :=
  ∀ pooled ∈ pool.idle, pooled.object.Clear

theorem new_clear (limits : PoolLimits) : (new limits : Pool Channel).Clear :=
  fun _ mem => nomatch mem

variable {pool : Pool Channel}

theorem releasePermit_idle (pool : Pool Channel) : pool.releasePermit.idle = pool.idle := by
  unfold releasePermit
  split <;> rfl

theorem Clear.giveBack (clear : pool.Clear) {pooled : Pooled Channel} (back : pooled.object.Clear) :
    (pool.giveBack pooled).Clear := by
  unfold Pool.giveBack
  split
  · intro other mem
    rw [releasePermit_idle] at mem
    dsimp only at mem
    split at mem
    · rcases List.mem_cons.mp mem with rfl | mem
      · exact back
      · exact clear other mem
    · exact clear other mem
  · exact clear

theorem Clear.close (clear : pool.Clear) : pool.close.Clear := by
  unfold Pool.close
  split
  · exact clear
  · exact fun _ mem => nomatch mem

/-- What a clear pool lends is clear: one of its channels, or a new one. -/
theorem Clear.takeObject (clear : pool.Clear) (network : Network) (peer : NodeId) :
    (pool.takeObject (Channel.factory network peer)).2.Clear ∧
      ∀ pooled, (pool.takeObject (Channel.factory network peer)).1 = .ok pooled →
        pooled.object.Clear := by
  let factory := Channel.factory network peer
  have kept : (pool.discardInvalid factory).Clear := by
    intro pooled mem
    have dropped : (pool.discardInvalid factory).idle =
        pool.idle.dropWhile fun pooled => !factory.isValid pooled := by
      simp only [discardInvalid, List.span_eq_takeWhile_dropWhile]
    rw [dropped] at mem
    exact clear pooled ((List.dropWhile_sublist _).mem mem)
  simp only [Pool.takeObject]
  cases idle : (pool.discardInvalid factory).idle with
  | cons first rest =>
      refine ⟨fun pooled mem => kept pooled ?_, ?_⟩
      · rw [idle]
        exact List.mem_cons_of_mem first mem
      · rintro pooled same
        cases same
        exact kept first (by simp [idle])
  | nil =>
      simp only [makeObject]
      cases made : factory.make (pool.discardInvalid factory).attempts with
      | error cause =>
          refine ⟨fun pooled mem => ?_, fun pooled same => ?_⟩
          · rw [releasePermit_idle] at mem
            exact kept pooled mem
          · cases same
      | ok channel =>
          refine ⟨kept, ?_⟩
          rintro pooled same
          cases same
          simp only [factory, Channel.factory, Link.connect] at made
          cases answered : network peer with
          | error cause => simp [answered] at made
          | ok =>
              simp only [answered, Except.ok.injEq] at made
              rw [← made]
              exact ⟨rfl, rfl⟩

theorem Clear.request (clear : pool.Clear) (network : Network) (peer : NodeId) (ticket : Nat)
    (now : Time) :
    (pool.request (Channel.factory network peer) ticket now).2.Clear ∧
      ∀ pooled, (pool.request (Channel.factory network peer) ticket now).1 = some (.ok pooled) →
        pooled.object.Clear := by
  unfold Pool.request
  split
  · exact ⟨clear, fun _ same => nomatch same⟩
  split
  · have open' : Clear { pool with free := pool.free - 1 } := clear
    obtain ⟨after, lent⟩ := open'.takeObject network peer
    exact ⟨after, fun pooled same => lent pooled (Option.some.inj same)⟩
  · exact ⟨clear, fun _ same => nomatch same⟩

end Pool

end ShardStore
