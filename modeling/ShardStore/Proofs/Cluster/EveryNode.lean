import ShardStore.Proofs.Cluster.Broadcasting
import ShardStore.Proofs.Cluster.Enacting
import ShardStore.Proofs.Cluster.OneEngine

namespace ShardStore

theorem Membership.acquainted_of {ids : List NodeId} {peers : NodeId → List NodeId}
    (named : ∀ id ∈ ids, id ≠ "")
    (known : ∀ id ∈ ids, ∀ node, node = id ∨ node ∈ peers id ↔ node ∈ ids) :
    Acquainted ids fun id => .of id (peers id) := by
  refine ⟨fun id _ => of_self id _, fun id mem other => ?_, fun id _ => of_nodup id _⟩
  have peersNamed : other ∈ peers id → other ≠ "" := fun listed =>
    named other ((known id mem other).mp (.inr listed))
  rw [← known id mem other, ← and_iff_left_of_imp peersNamed]
  exact mem_of_nodes other

namespace Cluster

theorem opened_count (options : DurableOptions) (file? : Option Bytes) (now : Time) :
    (DurableEngine.opened options file? now).engine.count =
      (Engine.new options.databases).count := by
  unfold DurableEngine.opened
  split
  · exact Log.Replay.ofItems_count _ _ _
  · rfl

/-- Nodes that have just been opened have not lent any channel, whatever their files held. -/
theorem opened_lends {ids : List NodeId} {peers : NodeId → List NodeId}
    {durable : NodeId → DurableOptions} {file? : NodeId → Option Bytes} {now : NodeId → Time}
    {databases : Nat} {cluster : Cluster} (count : ∀ id ∈ ids, (durable id).databases = databases)
    (present : ∀ id ∈ ids, cluster.site? id = some (.member
      (.opened { self := id, peers := peers id, durable := durable id } (file? id) (now id)))) :
    cluster.Lends ids (fun id => .of id (peers id)) (Engine.new databases).count fun _ _ => [] := by
  intro id mem
  refine ⟨_, present id mem, rfl, ?_, fun peer listed => ?_⟩
  · rw [← count id mem]
    exact opened_count _ _ _
  · exact ⟨_, lookup_map listed _, Pool.new_lends (by decide)⟩

theorem pool?_execHere (cluster : Cluster) (address : NodeId) (selected : Nat) (line : CommandLine)
    (sender receiver : NodeId) :
    (execHere address cluster selected line).state.pool? sender receiver =
      cluster.pool? sender receiver := by
  cases present : cluster.site? address with
  | none => simp only [execHere, present]
  | some site =>
      simp only [execHere, present, pool?, node?]
      by_cases same : sender = address
      · subst same
        rw [site?_setSite_self present]
        cases site
        · simp only [present, Option.bind_some]
        · simp only [present]
      · rw [site?_setSite_ne same]

end Cluster

namespace Traffic

variable {κ : Type}

/-- Whether a node has handled a line on its own: it sent nothing to its peers, took no channel,
and did what a node does that handles its lines in one go. -/
structure Alone (traffic : Traffic κ) (handled : Served (Traffic κ)) (served : Served Cluster) :
    Prop where
  underWay : handled.state.underWay = traffic.underWay
  received : handled.state.received = traffic.received
  reply : handled.reply = served.reply
  selected : handled.selected = served.selected
  cluster : handled.state.cluster = served.state
  pools : ∀ sender receiver, served.state.pool? sender receiver =
    traffic.cluster.pool? sender receiver

theorem alone_of_execute (traffic : Traffic κ) (number : Nat) (address : NodeId) (selected : Nat)
    (line : CommandLine) :
    Alone traffic (execute number address traffic selected line)
      (Cluster.execHere address traffic.cluster selected line) :=
  ⟨rfl, rfl, rfl, rfl, rfl, Cluster.pool?_execHere _ _ _ _⟩

theorem alone_of_answer (traffic : Traffic κ) (reply : Message) (selected : Nat) :
    Alone traffic ⟨reply, selected, traffic⟩ ⟨reply, selected, traffic.cluster⟩ :=
  ⟨rfl, rfl, rfl, rfl, rfl, fun _ _ => rfl⟩

/-- Whatever stands behind the word that marks a line for every node, a node that gets it sends
nothing to its peers. -/
theorem handle_forwarded {word : Bytes} (marked : Engine.lowerName word = Route.forwardedName)
    (rest : List Bytes) (network : Network) (traffic : Traffic κ) (number : Nat) (address : NodeId)
    (selected : Nat) :
    Alone traffic (handle number address traffic selected (word :: rest))
      (Cluster.service network address traffic.cluster selected (word :: rest)) := by
  cases present : traffic.cluster.site? address with
  | none =>
      simp only [handle, Cluster.service, Cluster.maxHops, Cluster.exec, present]
      exact alone_of_answer traffic Cluster.nobody selected
  | some site =>
      cases site with
      | single durable =>
          simp only [handle, Cluster.service, Cluster.maxHops, Cluster.exec, present]
          exact alone_of_execute traffic number address selected (word :: rest)
      | member node =>
          have planned := Cluster.plan_forwarded marked node.membership rest
          rw [Cluster.service, Cluster.maxHops]
          split at planned
          · rw [handle_answered present planned, Cluster.exec_member_answered present planned]
            exact alone_of_answer traffic _ selected
          · rw [handle_kept present planned, Cluster.exec_member_kept present planned]
            exact alone_of_execute traffic number address selected rest

/-- What a client's line has come to at a node when nothing of it is under way there any more. -/
def Settled (issue : Issue) (id : NodeId) (received : List CommandLine)
    (executed : List (Nat × CommandLine)) : Prop :=
  if id = issue.node then received = [] ∧ executed = [(issue.selected, issue.line)]
  else received = [selectLine issue.selected, Route.forward issue.line] ∧
    ∃ before, executed = [(before, selectLine issue.selected), (issue.selected, issue.line)]

theorem Fate.settled {issue : Issue} {id : NodeId} {received : List CommandLine}
    {executed : List (Nat × CommandLine)} (fate : Fate issue id [] received executed) :
    Settled issue id received executed := by
  cases fate with
  | kept own =>
      rw [Settled, if_pos own]
      exact ⟨rfl, rfl⟩
  | relayed elsewhere before =>
      rw [Settled, if_neg elsewhere]
      exact ⟨rfl, before, rfl⟩

theorem calls_advances (steps : List Nat) :
    calls (steps.map (.advance : Nat → TrafficEvent κ)) = [] := by
  simp [calls]

theorem calls_append (front back : List (TrafficEvent κ)) :
    calls (front ++ back) = calls front ++ calls back :=
  List.filterMap_append

section

variable [DecidableEq κ] {ids : List NodeId} {members : NodeId → Membership} {databases : Nat}
  {network : Network} {home : κ → NodeId} {traffic : Traffic κ}

theorem run_append (network : Network) (home : κ → NodeId) (traffic : Traffic κ)
    (front back : List (TrafficEvent κ)) :
    run network home traffic (front ++ back) =
      run network home (run network home traffic front) back :=
  List.foldl_append

theorem run_advances (network : Network) (home : κ → NodeId) (traffic : Traffic κ)
    (steps : List Nat) :
    run network home traffic (steps.map .advance) = steps.foldl (advance network) traffic :=
  List.foldl_map

variable (acquainted : Membership.Acquainted ids members)
  (reachable : ∀ id ∈ ids, network id = .ok ())

include acquainted reachable

/-- The number of a call's line is that of the calls before it. -/
theorem Sound.run_issue (sound : traffic.Sound ids members databases) (fresh : traffic.issued = [])
    {front back : List (TrafficEvent κ)} {call : Call κ}
    (valid : ∀ other ∈ calls (front ++ .issue call :: back), home other.connection ∈ ids ∧
      other.line.Addressable ∧ ¬ Cluster.Keyed other.line) :
    (Traffic.run network home traffic (front ++ .issue call :: back)).issued[(calls front).length]? =
      some ((Traffic.run network home traffic front).issueOf home call) := by
  have parts : calls (front ++ .issue call :: back) = calls front ++ call :: calls back :=
    calls_append front (.issue call :: back)
  rw [parts] at valid
  obtain ⟨before, issues, all, count⟩ := sound.run acquainted reachable fun other mem =>
    valid other (List.mem_append_left _ mem)
  obtain ⟨here, room, unkeyed⟩ := valid call (List.mem_append_right _ List.mem_cons_self)
  obtain ⟨next, issued⟩ := before.issue acquainted here room unkeyed
  obtain ⟨-, later, allLater, -⟩ := next.run acquainted reachable fun other mem =>
    valid other (List.mem_append_right _ (List.mem_cons_of_mem call mem))
  have place : (Traffic.run network home traffic front).issued.length = (calls front).length := by
    rw [all, fresh, List.nil_append, count]
  have whole : (Traffic.run network home traffic (front ++ .issue call :: back)).issued =
      (Traffic.run network home traffic front).issued ++
        (Traffic.run network home traffic front).issueOf home call :: later := by
    rw [run_append]
    exact allLater.trans (by rw [issued, List.append_assoc, List.singleton_append])
  rw [whole, ← place, List.getElem?_append_right (Nat.le_refl _), Nat.sub_self,
    List.getElem?_cons_zero]

/-- A line for every node has its fate at each of them, whatever else goes on. -/
theorem Sound.run_fate (sound : traffic.Sound ids members databases) (fresh : traffic.issued = [])
    {events front back : List (TrafficEvent κ)} {call : Call κ}
    (valid : ∀ other ∈ calls events, home other.connection ∈ ids ∧ other.line.Addressable ∧
      ¬ Cluster.Keyed other.line)
    (split : events = front ++ .issue call :: back) (broadcast : Broadcast call.line) {id : NodeId}
    (mem : id ∈ ids) :
    let number := (calls front).length
    let last := Traffic.run network home traffic events
    Fate ((Traffic.run network home traffic front).issueOf home call) id
      (last.parcelsFor number id) (last.receivedFor number id) (last.executedFor number id) := by
  subst split
  have last := (sound.run acquainted reachable valid).1
  have found := sound.run_issue acquainted reachable fresh valid
  exact last.booked.fates _ _ found broadcast id mem

end

variable [DecidableEq κ]

/-- DEL and FLUSHDB lines are executed once by every node, on the database that the client had
selected, however they cross each other. The node of the client gets no line for it, and every
other a SELECT of that database and the line with the mark in front. Every line can come to its
end. What is marked is never sent on. The engines are what the executed lines have made of them. -/
theorem broadcast_once {ids : List NodeId} {members : NodeId → Membership} {databases : Nat}
    {cluster : Cluster} {network : Network} (acquainted : Membership.Acquainted ids members)
    (positive : 0 < databases) (rests : cluster.Lends ids members databases fun _ _ => [])
    (reachable : ∀ id ∈ ids, network id = .ok ()) (home : κ → NodeId)
    (events : List (TrafficEvent κ))
    (valid : ∀ call ∈ calls events, home call.connection ∈ ids ∧ call.line.Addressable ∧
      ¬ Cluster.Keyed call.line) :
    let traffic := run network home { cluster } events
    traffic.Enacts cluster ∧
    (∀ front call back, events = front ++ .issue call :: back → Broadcast call.line → ∀ id ∈ ids,
      let number := (calls front).length
      Fate ((run network home { cluster } front).issueOf home call) id
        (traffic.parcelsFor number id) (traffic.receivedFor number id)
        (traffic.executedFor number id)) ∧
    (∃ steps : List Nat,
      let last := run network home traffic (steps.map .advance)
      last.underWay = [] ∧ last.Enacts cluster ∧
      ∀ front call back, events = front ++ .issue call :: back → Broadcast call.line → ∀ id ∈ ids,
        let number := (calls front).length
        Settled ((run network home { cluster } front).issueOf home call) id
          (last.receivedFor number id) (last.executedFor number id)) ∧
    ∀ word rest, Engine.lowerName word = Route.forwardedName →
      ∀ (traffic : Traffic κ) number address selected,
        Alone traffic (handle number address traffic selected (word :: rest))
          (Cluster.service network address traffic.cluster selected (word :: rest)) := by
  intro traffic
  have start : ({ cluster } : Traffic κ).Sound ids members databases := sound_of_rest positive rests
  have enacts : traffic.Enacts cluster := (Enacts.begin cluster).run network home events
  refine ⟨enacts, fun front call back split broadcast id mem =>
    start.run_fate acquainted reachable rfl valid split broadcast mem, ?_,
    fun word rest marked traffic number address selected =>
      handle_forwarded marked rest network traffic number address selected⟩
  obtain ⟨steps, -, idle, -⟩ :=
    (start.run acquainted reachable valid).1.completes acquainted reachable
  rw [← run_advances network home] at idle
  refine ⟨steps, idle, enacts.run network home _,
    fun front call back split broadcast id mem => ?_⟩
  -- The parcels' steps are no calls, so the line has the same number in the longer run.
  have validLonger : ∀ other ∈ calls (events ++ steps.map .advance),
      home other.connection ∈ ids ∧ other.line.Addressable ∧ ¬ Cluster.Keyed other.line := by
    rw [calls_append, calls_advances, List.append_nil]
    exact valid
  have splitLonger : events ++ steps.map .advance =
      front ++ .issue call :: (back ++ steps.map .advance) := by
    rw [split, List.append_assoc, List.cons_append]
  have fate := start.run_fate acquainted reachable rfl validLonger splitLonger broadcast mem
  rw [run_append] at fate
  have none : (run network home traffic (steps.map .advance)).parcelsFor (calls front).length id =
      [] := by
    rw [parcelsFor, idle, List.filter_nil]
  dsimp only [traffic] at fate none
  rw [none] at fate
  exact fate.settled

theorem broadcast_once_on_three_nodes :
    let ids : List NodeId := ["n:1", "n:2", "n:3"]
    let node (self : NodeId) : Site :=
      .member (.opened { self, peers := ids, durable := { databases := 2 } } none 0)
    let network : Network := fun _ => .ok ()
    let home : Bool → NodeId := fun client => if client then "n:1" else "n:2"
    let del : CommandLine := [[0x64, 0x65, 0x6C], [0x6B]]
    let flush : CommandLine := [[0x66, 0x6C, 0x75, 0x73, 0x68, 0x64, 0x62]]
    let events : List (TrafficEvent Bool) :=
      [.issue ⟨true, selectLine 1⟩, .issue ⟨true, del⟩, .advance 1, .advance 1,
        .issue ⟨false, flush⟩, .advance 4, .advance 0]
    let traffic := run network home { cluster := ⟨ids.map fun id => (id, node id)⟩ } events
    ∃ steps : List Nat,
      let last := run network home traffic (steps.map .advance)
      last.underWay = [] ∧ ∀ id ∈ ids,
        Settled ⟨"n:1", 1, del⟩ id (last.receivedFor 1 id) (last.executedFor 1 id) ∧
        Settled ⟨"n:2", 0, flush⟩ id (last.receivedFor 2 id) (last.executedFor 2 id) := by
  intro ids node network home del flush events traffic
  let cluster : Cluster := ⟨ids.map fun id => (id, node id)⟩
  have acquainted : Membership.Acquainted ids fun id => .of id ids := by
    refine Membership.acquainted_of (by decide) fun id mem other => ⟨fun either => ?_, .inr⟩
    exact either.elim (fun same => same ▸ mem) fun listed => listed
  have rests : cluster.Lends ids (fun id => .of id ids) (Engine.new 2).count fun _ _ => [] :=
    Cluster.opened_lends (fun _ _ => rfl) fun id mem => Cluster.lookup_map mem node
  have select : Engine.lowerName Log.selectWord = "select" := by decide +kernel
  have delName : Engine.lowerName [0x64, 0x65, 0x6C] = "del" := by decide +kernel
  have flushName : Engine.lowerName [0x66, 0x6C, 0x75, 0x73, 0x68, 0x64, 0x62] = "flushdb" := by
    decide +kernel
  have valid : ∀ call ∈ calls events, home call.connection ∈ ids ∧ call.line.Addressable ∧
      ¬ Cluster.Keyed call.line := by
    have room : (selectLine 1).Addressable ∧ del.Addressable ∧ flush.Addressable :=
      ⟨Log.selectLine_addressable (by decide), by simp [del, CommandLine.Addressable, maxLength],
        by simp [flush, CommandLine.Addressable, maxLength]⟩
    have unkeyed : ¬ Cluster.Keyed (selectLine 1) ∧ ¬ Cluster.Keyed del ∧ ¬ Cluster.Keyed flush := by
      simp only [Cluster.Keyed, selectLine, Log.selectLine, del, flush, select, delName, flushName]
      decide
    show ∀ call ∈ [(⟨true, selectLine 1⟩ : Call Bool), ⟨true, del⟩, ⟨false, flush⟩], _
    simp [home, ids, room, unkeyed]
  obtain ⟨-, -, ⟨steps, idle, -, settled⟩, -⟩ :=
    broadcast_once acquainted (Engine.new_count_pos 2) rests (fun _ _ => rfl) home events valid
  refine ⟨steps, idle, fun id mem => ⟨?_, ?_⟩⟩
  · have done := settled [.issue ⟨true, selectLine 1⟩] ⟨true, del⟩ _ rfl
      ⟨.del, .inl rfl, delName, by decide⟩ id mem
    have issued : (run network home { cluster } [.issue ⟨true, selectLine 1⟩]).issueOf home
        ⟨true, del⟩ = ⟨"n:1", 1, del⟩ := by decide +kernel
    rwa [issued] at done
  · have done := settled [.issue ⟨true, selectLine 1⟩, .issue ⟨true, del⟩, .advance 1, .advance 1]
      ⟨false, flush⟩ _ rfl ⟨.flushDb, .inr rfl, flushName, by decide⟩ id mem
    have issued : (run network home { cluster } [.issue ⟨true, selectLine 1⟩, .issue ⟨true, del⟩,
        .advance 1, .advance 1]).issueOf home ⟨false, flush⟩ = ⟨"n:2", 0, flush⟩ := by
      decide +kernel
    rwa [issued] at done

end Traffic

end ShardStore
