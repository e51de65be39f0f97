import ShardStore.Cluster
import ShardStore.Proofs.Command.Locality
import ShardStore.Proofs.Log.Durability
import ShardStore.Proofs.Peering.Exchange
import ShardStore.Proofs.Placement.Agreement

namespace ShardStore

/-- Replacing what stands under a name keeps what stands under the others. -/
theorem lookup_replace {β : Type} (entries : List (NodeId × β)) (name other : NodeId) (value : β) :
    (entries.map fun entry => if entry.1 = name then (name, value) else entry).lookup other =
      if other = name then (entries.lookup name).map fun _ => value else entries.lookup other := by
  induction entries with
  | nil => simp
  | cons entry rest ih =>
      obtain ⟨key, held⟩ := entry
      have skipped : ∀ {sought : NodeId} {value : β} {more : List (NodeId × β)}, sought ≠ key →
          ((key, value) :: more).lookup sought = more.lookup sought := by
        intro sought value more differs
        have passed : (sought == key) = false := by simpa using differs
        rw [List.lookup_cons, passed]
      rw [List.map_cons]
      by_cases here : key = name
      · subst here
        rw [if_pos rfl]
        by_cases same : other = key
        · simp [same]
        · rw [skipped same, ih, if_neg same, if_neg same, skipped same]
      · rw [if_neg here, skipped (Ne.symm here)]
        by_cases found : other = key
        · subst found
          simp [here]
        · rw [skipped found, skipped found, ih]

theorem replace_replace {β : Type} (entries : List (NodeId × β)) (name : NodeId)
    (first second : β) :
    ((entries.map fun entry => if entry.1 = name then (name, first) else entry).map fun entry =>
        if entry.1 = name then (name, second) else entry) =
      entries.map fun entry => if entry.1 = name then (name, second) else entry := by
  rw [List.map_map]
  refine List.map_congr_left fun entry _ => ?_
  by_cases same : entry.1 = name
  · simp [same]
  · simp [same]

namespace Node

theorem setPool_setPool (node : Node) (peer : NodeId) (first second : Pool Channel) :
    (node.setPool peer first).setPool peer second = node.setPool peer second :=
  congrArg (fun pools => { node with pools }) (replace_replace node.pools peer first second)

theorem setPool_lookup (node : Node) (peer other : NodeId) (pool : Pool Channel) :
    (node.setPool peer pool).pools.lookup other =
      if other = peer then (node.pools.lookup peer).map fun _ => pool else node.pools.lookup other :=
  lookup_replace node.pools peer other pool

/-- Whether a node is one of some nodes, knows them all and has nothing under way to any of them. -/
structure Rests (ids : List NodeId) (id : NodeId) (node : Node) : Prop where
  self : node.membership.self = id
  known : ∀ other, other ∈ node.membership.nodes ↔ other ∈ ids
  distinct : node.membership.nodes.Nodup
  pools : ∀ peer ∈ node.membership.peers, ∃ pool, node.pools.lookup peer = some pool ∧ pool.Rested

theorem Rests.setPool {ids : List NodeId} {id : NodeId} {node : Node} (rests : node.Rests ids id)
    (peer : NodeId) {pool : Pool Channel} (rested : pool.Rested) :
    (node.setPool peer pool).Rests ids id := by
  refine ⟨rests.self, rests.known, rests.distinct, fun other mem => ?_⟩
  obtain ⟨held, found, restedToo⟩ := rests.pools other mem
  rw [setPool_lookup]
  split
  · next same => exact ⟨pool, by rw [← same, found, Option.map_some], rested⟩
  · exact ⟨held, found, restedToo⟩

theorem Rests.setDurable {ids : List NodeId} {id : NodeId} {node : Node} (rests : node.Rests ids id)
    (durable : DurableEngine) : Node.Rests ids id { node with durable } :=
  ⟨rests.self, rests.known, rests.distinct, rests.pools⟩

theorem Rests.mem_peers {ids : List NodeId} {id peer : NodeId} {node : Node}
    (rests : node.Rests ids id) (mem : peer ∈ ids) (differs : peer ≠ id) :
    peer ∈ node.membership.peers := by
  rcases List.mem_cons.mp ((rests.known peer).mpr mem) with same | mem
  · exact absurd (same.trans rests.self) differs
  · exact mem

end Node

namespace Cluster

variable {cluster : Cluster} {ids : List NodeId}

theorem site?_setSite (cluster : Cluster) (address other : NodeId) (site : Site) :
    (cluster.setSite address site).site? other =
      if other = address then (cluster.site? address).map fun _ => site else cluster.site? other :=
  lookup_replace cluster.sites address other site

theorem site?_setSite_self {address : NodeId} {before : Site}
    (present : cluster.site? address = some before) (site : Site) :
    (cluster.setSite address site).site? address = some site := by
  rw [site?_setSite, if_pos rfl, present, Option.map_some]

theorem site?_setSite_ne {address other : NodeId} (differs : other ≠ address) (site : Site) :
    (cluster.setSite address site).site? other = cluster.site? other := by
  rw [site?_setSite, if_neg differs]

theorem setSite_setSite (cluster : Cluster) (address : NodeId) (first second : Site) :
    (cluster.setSite address first).setSite address second = cluster.setSite address second :=
  congrArg Cluster.mk (replace_replace cluster.sites address first second)

theorem setSite_comm {address other : NodeId} (differs : other ≠ address) (cluster : Cluster)
    (first second : Site) :
    (cluster.setSite address first).setSite other second =
      (cluster.setSite other second).setSite address first := by
  simp only [setSite, List.map_map]
  congr 1
  refine List.map_congr_left fun entry _ => ?_
  by_cases here : entry.1 = address
  · have elsewhere : ¬ address = other := fun same => differs same.symm
    simp [here, elsewhere]
  · by_cases there : entry.1 = other
    · simp [there, differs]
    · simp [here, there]

theorem setPool_eq {node : Node} {address : NodeId}
    (present : cluster.site? address = some (.member node)) (peer : NodeId) (pool : Pool Channel) :
    cluster.setPool address peer pool =
      cluster.setSite address (.member (node.setPool peer pool)) := by
  simp only [setPool, node?, present]

theorem pool?_eq {node : Node} {address : NodeId}
    (present : cluster.site? address = some (.member node)) (peer : NodeId) :
    cluster.pool? address peer = node.pools.lookup peer := by
  simp only [pool?, node?, present, Option.bind_some]

abbrev Engines := NodeId → Engine

def Engines.update (engines : Engines) (id : NodeId) (engine : Engine) : Engines :=
  fun other => if other = id then engine else engines other

@[simp] theorem Engines.update_self (engines : Engines) (id : NodeId) (engine : Engine) :
    engines.update id engine id = engine :=
  if_pos rfl

@[simp] theorem Engines.update_same (engines : Engines) (id : NodeId) :
    engines.update id (engines id) = engines := by
  funext other
  rw [update]
  split
  · next same => rw [same]
  · rfl

theorem Engines.update_of_ne (engines : Engines) {id other : NodeId} (differs : other ≠ id)
    (engine : Engine) : engines.update id engine other = engines other :=
  if_neg differs

theorem Engines.update_exec_count (engines : Engines) (id other : NodeId) (selected : Nat)
    (line : CommandLine) :
    (engines.update id ((engines id).exec selected line).engine other).count =
      (engines other).count := by
  by_cases same : other = id
  · subst same
    rw [update_self, Engine.exec_count]
  · rw [update_of_ne engines same]

/-- Whether a cluster is at rest and its nodes have some engines. -/
def Holds (ids : List NodeId) (engines : Engines) (cluster : Cluster) : Prop :=
  ∀ id ∈ ids, ∃ node, cluster.site? id = some (.member node) ∧ node.Rests ids id ∧
    node.durable.engine = engines id

theorem Holds.congr {engines others : Engines} (holds : cluster.Holds ids engines)
    (same : ∀ id ∈ ids, engines id = others id) : cluster.Holds ids others := by
  intro id mem
  obtain ⟨node, present, rests, engine⟩ := holds id mem
  exact ⟨node, present, rests, engine.trans (same id mem)⟩

/-- A node that rests again with a new engine leaves the others as they are. -/
theorem Holds.setSite {engines : Engines} (holds : cluster.Holds ids engines) {id : NodeId}
    (mem : id ∈ ids) {node : Node} (rests : node.Rests ids id) :
    (cluster.setSite id (.member node)).Holds ids (engines.update id node.durable.engine) := by
  intro other known
  by_cases same : other = id
  · subst same
    obtain ⟨before, present, -⟩ := holds other mem
    exact ⟨node, site?_setSite_self present _, rests, (Engines.update_self _ _ _).symm⟩
  · obtain ⟨held, present, restsToo, engine⟩ := holds other known
    refine ⟨held, ?_, restsToo, ?_⟩
    · rw [site?_setSite_ne same, present]
    · rw [engine, Engines.update_of_ne engines same]

theorem execHere_spec {node : Node} {address : NodeId}
    (present : cluster.site? address = some (.member node)) (selected : Nat) (line : CommandLine) :
    let done := node.durable.engine.exec selected line
    ∃ durable, execHere address cluster selected line =
        ⟨done.reply, done.selected, cluster.setSite address (.member { node with durable })⟩ ∧
      durable.engine = done.engine := by
  obtain ⟨reply, shown, engine, -⟩ := node.durable.exec_spec selected line
  refine ⟨_, ?_, engine⟩
  simp only [execHere, present, Site.durable, DurableEngine.service, reply, shown]

def ask (network : Network) (hops : Nat) (membership : Membership) (address : NodeId)
    (assignment : Assignment) (state : Cluster × Nat) : Message × Cluster × Nat :=
  if assignment.node = membership.self then
    let served := execHere address state.1 state.2 assignment.line
    (served.reply, served.state, served.selected)
  else
    let relayed := relay network (exec network hops assignment.node) address assignment.node state.2
      assignment.line state.1
    (relayed.1, relayed.2, state.2)

theorem exec_member {node : Node} {address : NodeId}
    (present : cluster.site? address = some (.member node)) (network : Network) (hops : Nat)
    (selected : Nat) (line : CommandLine) :
    exec network (hops + 1) address cluster selected line =
      let done := node.membership.carryOut (ask network hops node.membership address) line
        (cluster, selected)
      ⟨done.1, done.2.2, done.2.1⟩ := by
  simp only [exec, present]
  rfl

theorem exec_member_kept {node : Node} {address : NodeId} {line own : CommandLine}
    (present : cluster.site? address = some (.member node))
    (planned : node.membership.plan line = .one ⟨node.membership.self, own⟩) (network : Network)
    (hops selected : Nat) :
    exec network (hops + 1) address cluster selected line =
      execHere address cluster selected own := by
  simp only [exec_member present, Membership.carryOut, planned, Membership.assignments, assignAll,
    ask, if_true, Plan.conclude, List.head?_cons, Option.map_some, Option.getD_some]

theorem exec_own {node : Node} {address : NodeId} {line own : CommandLine}
    (present : cluster.site? address = some (.member node)) (self : node.membership.self = address)
    (planned : node.membership.plan line = .one ⟨address, own⟩) (network : Network) (hops : Nat)
    (selected : Nat) :
    exec network (hops + 1) address cluster selected line =
      execHere address cluster selected own :=
  exec_member_kept present (by rwa [self]) network hops selected

theorem exec_member_answered {node : Node} {address : NodeId} {line : CommandLine} {reply : Message}
    (present : cluster.site? address = some (.member node))
    (planned : node.membership.plan line = .answer reply) (network : Network)
    (hops selected : Nat) :
    exec network (hops + 1) address cluster selected line = ⟨reply, selected, cluster⟩ := by
  simp only [exec_member present, Membership.carryOut, planned, Membership.assignments, assignAll,
    Plan.conclude]

theorem plan_select {word : Bytes} (named : Engine.lowerName word = "select")
    (membership : Membership) (args : List Bytes) :
    membership.plan (word :: args) = .one ⟨membership.self, word :: args⟩ := by
  have route : Route.named? "select" = some .here := by decide
  simp only [Membership.plan, named, route]
  rfl

theorem selectLine_kept (membership : Membership) {database : Nat}
    (fits : database ≤ maxLength) :
    membership.plan (selectLine database) = .one ⟨membership.self, selectLine database⟩ ∧
      (Message.ofList (selectLine database)).Addressable := by
  have named : Engine.lowerName Log.selectWord = "select" := by decide +kernel
  exact ⟨plan_select named membership _,
    Message.addressable_of_line (Log.selectLine_addressable fits)⟩

theorem request_own {node : Node} {peer : NodeId} {channel : Channel} {line own : CommandLine}
    {done : Execution} (present : cluster.site? peer = some (.member node))
    (self : node.membership.self = peer) (idle : channel.Idle)
    (room : (Message.ofList line).Addressable)
    (planned : node.membership.plan line = .one ⟨peer, own⟩)
    (executed : node.durable.engine.exec channel.far.selected own = done)
    (plain : done.reply.Plain) (network : Network) (hops : Nat) :
    ∃ (after : Channel) (durable : DurableEngine),
      channel.request network (exec network (hops + 1) peer) cluster line =
        (done.reply, after, cluster.setSite peer (.member { node with durable })) ∧
      after.Idle ∧ after.far.selected = done.selected ∧ durable.engine = done.engine := by
  obtain ⟨durable, ran, engine⟩ := execHere_spec present channel.far.selected own
  rw [executed] at ran engine
  have served := (exec_own present self planned network hops channel.far.selected).trans ran
  obtain ⟨after, answered, rests, selected⟩ := Channel.request_spec idle network room served plain
  exact ⟨after, durable, answered, rests, selected, engine⟩

/-- Behind a SELECT on an idle channel, the peer executes a line on the selected database. -/
theorem converse_spec {node : Node} {peer : NodeId} {channel : Channel} {selected : Nat}
    {line own : CommandLine} {done : Execution}
    (present : cluster.site? peer = some (.member node)) (self : node.membership.self = peer)
    (idle : channel.Idle) (fits : selected ≤ maxLength)
    (within : selected < node.durable.engine.count) (room : (Message.ofList line).Addressable)
    (planned : node.membership.plan line = .one ⟨peer, own⟩)
    (executed : node.durable.engine.exec selected own = done) (plain : done.reply.Plain)
    (network : Network) (hops : Nat) :
    ∃ (after : Channel) (durable : DurableEngine),
      converse network (exec network (hops + 1) peer) channel selected line cluster =
        (done.reply, after, cluster.setSite peer (.member { node with durable })) ∧
      after.Idle ∧ durable.engine = done.engine := by
  obtain ⟨switching, short⟩ := selectLine_kept node.membership fits
  rw [self] at switching
  obtain ⟨notices, switched⟩ := Engine.exec_selectLine channel.far.selected fits within
  obtain ⟨opened, first, asked, ready, front, kept⟩ := request_own present self idle short
    switching switched Message.plain_ok network hops
  dsimp only at front kept
  -- The line itself finds the node with the same engine as before.
  have present' := site?_setSite_self present (.member { node with durable := first })
  have executed' : first.engine.exec opened.far.selected own = done := by
    rw [kept, front, executed]
  obtain ⟨after, second, answered, rests, -, engine⟩ := request_own present' self ready room
    planned executed' plain network hops
  rw [setSite_setSite] at answered
  refine ⟨after, second, ?_, rests, engine⟩
  have accepted : Message.ok.isError = false := rfl
  simp only [converse, asked, accepted, Bool.false_eq_true, if_false]
  exact answered

/-- Whether every node of some identifier keeps a line that it gets for itself, as another line. -/
def KeptBy (ids : List NodeId) (peer : NodeId) (line own : CommandLine) : Prop :=
  ∀ membership : Membership, membership.self = peer →
    (∀ id, id ∈ membership.nodes ↔ id ∈ ids) → membership.plan line = .one ⟨peer, own⟩

/-- A line that is relayed to a peer which keeps it changes the peer's engine, and nothing else. -/
theorem relay_spec {engines : Engines} (holds : cluster.Holds ids engines) {address peer : NodeId}
    (here : address ∈ ids) (there : peer ∈ ids) (differs : peer ≠ address) {network : Network}
    (reachable : network peer = .ok ()) {selected : Nat} (fits : selected ≤ maxLength)
    (within : selected < (engines peer).count) {line own : CommandLine}
    (room : (Message.ofList line).Addressable) (kept : KeptBy ids peer line own)
    (plain : ((engines peer).exec selected own).reply.Plain) (hops : Nat) :
    let done := (engines peer).exec selected own
    ∃ after : Cluster,
      relay network (exec network (hops + 1) peer) address peer selected line cluster =
        (done.reply, after) ∧
      after.Holds ids (engines.update peer done.engine) := by
  intro done
  obtain ⟨node, present, rests, engine⟩ := holds address here
  obtain ⟨far, presentFar, restsFar, engineFar⟩ := holds peer there
  obtain ⟨pool, held, rested⟩ := rests.pools peer (rests.mem_peers there differs)
  obtain ⟨pooled, lent, borrowed, idle, back⟩ := Pool.request_spec rested reachable
  -- While the channel is out, its pool is the only thing about the node that is not at rest.
  let busy := cluster.setSite address (.member (node.setPool peer lent))
  have presentBusy : busy.site? peer = some (.member far) := by
    rw [site?_setSite_ne differs, presentFar]
  obtain ⟨channel, durable, answered, ready, changed⟩ := converse_spec presentBusy restsFar.self
    idle fits (by rwa [engineFar]) room (kept far.membership restsFar.self restsFar.known)
    (by rw [engineFar]) plain network hops
  let returned := lent.giveBack { pooled with object := channel }
  let served := busy.setSite peer (.member { far with durable })
  have presentServed : served.site? address = some (.member (node.setPool peer lent)) := by
    rw [site?_setSite_ne (Ne.symm differs), site?_setSite_self present]
  have lentStill : (node.setPool peer lent).pools.lookup peer = some lent := by
    rw [Node.setPool_lookup, if_pos rfl, held, Option.map_some]
  have settled : served.setPool address peer returned =
      (cluster.setSite address (.member (node.setPool peer returned))).setSite peer
        (.member { far with durable }) := by
    rw [setPool_eq presentServed, Node.setPool_setPool, setSite_comm (Ne.symm differs),
      setSite_setSite]
  refine ⟨served.setPool address peer returned, ?_, ?_⟩
  · have out : cluster.setPool address peer lent = busy := setPool_eq present peer lent
    have found : served.pool? address peer = some lent := by
      rw [pool?_eq presentServed, lentStill]
    simp only [relay, pool?_eq present, held, borrowed, out, answered]
    rw [show busy.setSite peer (.member { far with durable }) = served from rfl, found]
    rfl
  · have unchanged : engines.update address (node.setPool peer returned).durable.engine =
        engines := by
      rw [show (node.setPool peer returned).durable.engine = engines address from engine,
        Engines.update_same]
    have first := holds.setSite here (rests.setPool peer (back channel ready))
    rw [unchanged] at first
    have second := first.setSite there (restsFar.setDurable durable)
    rw [settled, ← changed]
    exact second

variable {engines : Engines} {network : Network} {address : NodeId} {selected : Nat}
  {line : CommandLine}

theorem ask_own (holds : cluster.Holds ids engines) (here : address ∈ ids) {membership : Membership}
    (self : membership.self = address) (network : Network) (hops selected : Nat)
    (line : CommandLine) :
    let done := (engines address).exec selected line
    ∃ after : Cluster, ask network hops membership address ⟨address, line⟩ (cluster, selected) =
        (done.reply, after, done.selected) ∧
      after.Holds ids (engines.update address done.engine) := by
  obtain ⟨node, present, rests, engine⟩ := holds address here
  obtain ⟨durable, ran, changed⟩ := execHere_spec present selected line
  rw [engine] at ran changed
  have after := holds.setSite here (rests.setDurable durable)
  refine ⟨cluster.setSite address (.member { node with durable }), ?_, ?_⟩
  · simp only [ask, self, if_true, ran]
  · rw [← changed]
    exact after

theorem ask_peer (holds : cluster.Holds ids engines) (here : address ∈ ids) {membership : Membership}
    (self : membership.self = address) {peer : NodeId} (there : peer ∈ ids)
    (differs : peer ≠ address) (reachable : network peer = .ok ()) (fits : selected ≤ maxLength)
    (within : selected < (engines peer).count) {own : CommandLine}
    (room : (Message.ofList line).Addressable) (kept : KeptBy ids peer line own)
    (plain : ((engines peer).exec selected own).reply.Plain) (hops : Nat) :
    let done := (engines peer).exec selected own
    ∃ after : Cluster, ask network (hops + 1) membership address ⟨peer, line⟩ (cluster, selected) =
        (done.reply, after, selected) ∧
      after.Holds ids (engines.update peer done.engine) := by
  obtain ⟨after, relayed, holdsAfter⟩ := relay_spec holds here there differs reachable fits within
    room kept plain hops
  have elsewhere : ¬ peer = membership.self := by rwa [self]
  exact ⟨after, by simp only [ask, if_neg elsewhere, relayed], holdsAfter⟩

theorem maxHops_eq {site : Site} (present : cluster.site? address = some site) :
    ∃ hops, cluster.maxHops = hops + 1 + 1 := by
  cases sites : cluster.sites with
  | nil => simp [site?, sites] at present
  | cons first rest => exact ⟨rest.length, by simp [maxHops, sites]⟩

theorem service_answer (holds : cluster.Holds ids engines) (here : address ∈ ids) {reply : Message}
    (planned : ∀ membership : Membership, membership.plan line = .answer reply)
    (network : Network) (selected : Nat) :
    service network address cluster selected line = ⟨reply, selected, cluster⟩ := by
  obtain ⟨node, present, -, -⟩ := holds address here
  obtain ⟨hops, count⟩ := maxHops_eq present
  rw [service, count, exec_member_answered present (planned node.membership)]

theorem service_one (holds : cluster.Holds ids engines) (here : address ∈ ids) {target : NodeId}
    (there : target ∈ ids) (reachable : ∀ id ∈ ids, network id = .ok ())
    (fits : selected ≤ maxLength) (within : selected < (engines target).count)
    (room : line.Addressable)
    (planned : ∀ membership : Membership, membership.self = address ∨ membership.self = target →
      (∀ id, id ∈ membership.nodes ↔ id ∈ ids) → membership.plan line = .one ⟨target, line⟩)
    (relayable : target ≠ address → ((engines target).exec selected line).reply.Plain ∧
      ((engines target).exec selected line).selected = selected) :
    let done := (engines target).exec selected line
    ∃ after : Cluster, service network address cluster selected line =
        ⟨done.reply, done.selected, after⟩ ∧
      after.Holds ids (engines.update target done.engine) := by
  obtain ⟨node, present, rests, -⟩ := holds address here
  obtain ⟨hops, count⟩ := maxHops_eq present
  have plan := planned node.membership (.inl rests.self) rests.known
  by_cases same : target = address
  · subst same
    obtain ⟨after, asked, holdsAfter⟩ := ask_own holds here rests.self network (hops + 1) selected
      line
    refine ⟨after, ?_, holdsAfter⟩
    simp only [service, count, exec_member present, Membership.carryOut, plan,
      Membership.assignments, assignAll, asked, Plan.conclude, List.head?_cons, Option.map_some,
      Option.getD_some]
  · obtain ⟨plain, stays⟩ := relayable same
    have kept : KeptBy ids target line line := fun membership self known =>
      planned membership (.inr self) known
    have written := Message.addressable_of_line room
    obtain ⟨after, asked, holdsAfter⟩ := ask_peer holds here rests.self there same
      (reachable target there) fits within written kept plain hops
    refine ⟨after, ?_, holdsAfter⟩
    simp only [service, count, exec_member present, Membership.carryOut, plan,
      Membership.assignments, assignAll, asked, Plan.conclude, List.head?_cons, Option.map_some,
      Option.getD_some, stays]

theorem plan_forward (membership : Membership) (word : Bytes) (args : List Bytes) :
    membership.plan (Route.forward (word :: args)) = .one ⟨membership.self, word :: args⟩ := by
  have named : Engine.lowerName (Text.encode Route.forwardedName) = "_forwarded" := by
    decide +kernel
  have route : Route.named? "_forwarded" = some .forwarded := by decide
  simp only [Membership.plan, Route.forward, named, route]
  rfl

theorem addressable_forward (room : line.Addressable) :
    (Message.ofList (Route.forward line)).Addressable := by
  refine Message.addressable_ofList.mpr ⟨room.1, fun word mem => ?_⟩
  rcases List.mem_cons.mp mem with rfl | mem
  · decide +kernel
  · exact room.2 word mem

/-- What a node is told of a line that every node is to carry out. -/
def told (address : NodeId) (line : CommandLine) (id : NodeId) : Assignment :=
  ⟨id, if id = address then line else Route.forward line⟩

variable {word : Bytes} {args : List Bytes}

theorem ask_told (holds : cluster.Holds ids engines) (here : address ∈ ids)
    {membership : Membership} (self : membership.self = address) {id : NodeId} (there : id ∈ ids)
    (reachable : ∀ id ∈ ids, network id = .ok ()) (fits : selected ≤ maxLength)
    (within : selected < (engines id).count)
    (room : (Message.ofList (Route.forward (word :: args))).Addressable)
    (plain : ((engines id).exec selected (word :: args)).reply.Plain)
    (stays : ((engines id).exec selected (word :: args)).selected = selected) (hops : Nat) :
    let done := (engines id).exec selected (word :: args)
    ∃ after : Cluster,
      ask network (hops + 1) membership address (told address (word :: args) id)
          (cluster, selected) = (done.reply, after, selected) ∧
        after.Holds ids (engines.update id done.engine) := by
  by_cases own : id = address
  · subst own
    obtain ⟨after, asked, holdsAfter⟩ :=
      ask_own holds here self network (hops + 1) selected (word :: args)
    rw [stays] at asked
    exact ⟨after, by rw [told, if_pos rfl, asked], holdsAfter⟩
  · have kept : KeptBy ids id (Route.forward (word :: args)) (word :: args) :=
      fun other selfOther _ => by rw [plan_forward, selfOther]
    obtain ⟨after, asked, holdsAfter⟩ := ask_peer holds here self there own (reachable id there)
      fits within room kept plain hops
    exact ⟨after, by rw [told, if_neg own, asked], holdsAfter⟩

/-- Nodes that are told one after another each execute the line. -/
theorem assignAll_told (holds : cluster.Holds ids engines) (here : address ∈ ids)
    {membership : Membership} (self : membership.self = address)
    (reachable : ∀ id ∈ ids, network id = .ok ()) (fits : selected ≤ maxLength)
    (within : ∀ id ∈ ids, selected < (engines id).count)
    (room : (Message.ofList (Route.forward (word :: args))).Addressable) {nodes : List NodeId}
    (distinct : nodes.Nodup) (known : ∀ id ∈ nodes, id ∈ ids)
    (plain : ∀ id ∈ nodes, ((engines id).exec selected (word :: args)).reply.Plain)
    (stays : ∀ id ∈ nodes, ((engines id).exec selected (word :: args)).selected = selected)
    (hops : Nat) :
    ∃ after : Cluster,
      assignAll (ask network (hops + 1) membership address)
          (nodes.map (told address (word :: args))) (cluster, selected) =
        (nodes.map fun id => (id, ((engines id).exec selected (word :: args)).reply),
          after, selected) ∧
      after.Holds ids fun id =>
        if id ∈ nodes then ((engines id).exec selected (word :: args)).engine else engines id := by
  induction nodes generalizing engines cluster with
  | nil => exact ⟨cluster, rfl, by simpa using holds⟩
  | cons first rest ih =>
      obtain ⟨fresh, distinctRest⟩ := List.nodup_cons.mp distinct
      have there := known first List.mem_cons_self
      obtain ⟨middle, asked, holdsMiddle⟩ := ask_told holds here self there reachable fits
        (within first there) room (plain first List.mem_cons_self)
        (stays first List.mem_cons_self) hops
      let engines' := engines.update first ((engines first).exec selected (word :: args)).engine
      -- What the first node did has not changed those that are told later.
      have same : ∀ id ∈ rest, engines' id = engines id := by
        intro id mem
        have differs : id ≠ first := fun hit => fresh (hit ▸ mem)
        exact engines.update_of_ne differs _
      have within' : ∀ id ∈ ids, selected < (engines' id).count := by
        intro id mem
        rw [Engines.update_exec_count]
        exact within id mem
      have plain' : ∀ id ∈ rest, ((engines' id).exec selected (word :: args)).reply.Plain := by
        intro id mem
        rw [same id mem]
        exact plain id (List.mem_cons_of_mem first mem)
      have stays' : ∀ id ∈ rest,
          ((engines' id).exec selected (word :: args)).selected = selected := by
        intro id mem
        rw [same id mem]
        exact stays id (List.mem_cons_of_mem first mem)
      obtain ⟨after, answered, holdsAfter⟩ := ih holdsMiddle within' distinctRest
        (fun id mem => known id (List.mem_cons_of_mem first mem)) plain' stays'
      refine ⟨after, ?_, holdsAfter.congr fun id _ => ?_⟩
      · have replies : rest.map (fun id =>
              (id, ((engines' id).exec selected (word :: args)).reply)) =
            rest.map fun id => (id, ((engines id).exec selected (word :: args)).reply) :=
          List.map_congr_left fun id mem => by rw [same id mem]
        simp only [List.map_cons, assignAll, asked, answered]
        rw [← replies]
        rfl
      · by_cases later : id ∈ rest
        · have unchanged := same id later
          rw [if_pos later, if_pos (List.mem_cons_of_mem first later)]
          exact congrArg (fun engine => (engine.exec selected (word :: args)).engine) unchanged
        · by_cases own : id = first
          · subst own
            rw [if_neg later, if_pos List.mem_cons_self]
            exact engines.update_self id _
          · have absent : id ∉ first :: rest := by simp [own, later]
            rw [if_neg later, if_neg absent]
            exact engines.update_of_ne own _

theorem assignments_all {membership : Membership} (self : membership.self = address)
    (distinct : membership.nodes.Nodup) (merge : Merge) (line : CommandLine) :
    membership.assignments (.all merge line) = membership.nodes.map (told address line) := by
  obtain ⟨fresh, -⟩ := List.nodup_cons.mp distinct
  rw [self] at fresh
  have others : ∀ peer ∈ membership.peers,
      ⟨peer, Route.forward line⟩ = told address line peer := by
    intro peer mem
    have differs : peer ≠ address := fun same => fresh (same ▸ mem)
    rw [told, if_neg differs]
  rw [Membership.assignments, List.map_congr_left others, Membership.nodes, List.map_cons, self,
    told, if_pos rfl]

theorem service_all (holds : cluster.Holds ids engines) (here : address ∈ ids)
    (reachable : ∀ id ∈ ids, network id = .ok ()) (fits : selected ≤ maxLength)
    (within : ∀ id ∈ ids, selected < (engines id).count)
    (room : CommandLine.Addressable (word :: args)) {merge : Merge}
    (planned : ∀ membership : Membership,
      membership.plan (word :: args) = .all merge (word :: args))
    (plain : ∀ id ∈ ids, ((engines id).exec selected (word :: args)).reply.Plain)
    (stays : ∀ id ∈ ids, ((engines id).exec selected (word :: args)).selected = selected) :
    ∃ (nodes : List NodeId) (after : Cluster), nodes.Nodup ∧ (∀ id, id ∈ nodes ↔ id ∈ ids) ∧
      service network address cluster selected (word :: args) =
        ⟨merge.conclude (nodes.map fun id =>
            (id, ((engines id).exec selected (word :: args)).reply)), selected, after⟩ ∧
      after.Holds ids fun id => ((engines id).exec selected (word :: args)).engine := by
  obtain ⟨node, present, rests, -⟩ := holds address here
  obtain ⟨hops, count⟩ := maxHops_eq present
  have written := addressable_forward room
  have known : ∀ id ∈ node.membership.nodes, id ∈ ids := fun id mem => (rests.known id).mp mem
  obtain ⟨after, answered, holdsAfter⟩ := assignAll_told holds here rests.self reachable fits
    within written rests.distinct known (fun id mem => plain id (known id mem))
    (fun id mem => stays id (known id mem)) hops
  refine ⟨node.membership.nodes, after, rests.distinct, rests.known, ?_,
    holdsAfter.congr fun id mem => if_pos ((rests.known id).mpr mem)⟩
  simp only [service, count, exec_member present, Membership.carryOut, planned,
    assignments_all rests.self rests.distinct, answered, Plan.conclude]

end Cluster

end ShardStore
