import ShardStore.Proofs.Cluster.OneEngine
import ShardStore.Proofs.Peering.FailingExchange

/-!
No line is passed on twice. Nodes that were told of each other in different orders may disagree on the
owner of a key, if some of them share a position on the ring. But a node keeps whatever another node
takes to be its (`Membership.owner_keeps`), so a line about keys is executed by the first node that it
is relayed to, at every moment of a cluster's life and whatever connections fail
(`Cluster.relayed_once`).
-/

namespace ShardStore

/-- Whether a node has some membership, and all channels that it keeps are clear. -/
structure Node.Stands (membership : Membership) (node : Node) : Prop where
  membership : node.membership = membership
  clear : ∀ entry ∈ node.pools, entry.2.Clear

namespace Node

variable {membership : Membership} {node : Node}

theorem opened_stands (options : Options) (file? : Option Bytes) (now : Time) :
    (opened options file? now).Stands (.of options.self options.peers) := by
  refine ⟨rfl, fun entry mem => ?_⟩
  obtain ⟨peer, -, rfl⟩ := List.mem_map.mp mem
  exact Pool.new_clear _

theorem Stands.setDurable (stands : node.Stands membership) (durable : DurableEngine) :
    Node.Stands membership { node with durable } :=
  ⟨stands.membership, stands.clear⟩

theorem Stands.setPool (stands : node.Stands membership) (peer : NodeId) {pool : Pool Channel}
    (clear : pool.Clear) : (node.setPool peer pool).Stands membership := by
  refine ⟨stands.membership, fun entry mem => ?_⟩
  obtain ⟨before, held, rfl⟩ := List.mem_map.mp mem
  split
  · exact clear
  · exact stands.clear before held

theorem Stands.close (stands : node.Stands membership) (now : Time) :
    (node.close now).Stands membership := by
  refine ⟨stands.membership, fun entry mem => ?_⟩
  obtain ⟨before, held, rfl⟩ := List.mem_map.mp mem
  exact (stands.clear before held).close

theorem Stands.lookup (stands : node.Stands membership) {peer : NodeId} {pool : Pool Channel}
    (found : node.pools.lookup peer = some pool) : pool.Clear := by
  obtain ⟨before, after, pools, -⟩ := List.lookup_eq_some_iff.mp found
  exact stands.clear (peer, pool) (by simp [pools])

end Node

theorem assignAll_keeps {σ : Type} {good : σ → Prop} {ask : Assignment → σ → Message × σ}
    {assignments : List Assignment}
    (keeps : ∀ assignment ∈ assignments, ∀ state, good state → good (ask assignment state).2)
    {state : σ} (held : good state) : good (assignAll ask assignments state).2 := by
  induction assignments generalizing state with
  | nil => exact held
  | cons assignment rest ih =>
      exact ih (fun later mem => keeps later (List.mem_cons_of_mem assignment mem))
        (keeps assignment List.mem_cons_self state held)

namespace Cluster

variable {members : List NodeId} {peers : NodeId → List NodeId} {cluster : Cluster}
  {address peer : NodeId} {selected : Nat} {line own : CommandLine}

/-- Whether each member is in its place in a cluster, with the peers that it was told of. -/
def Standing (members : List NodeId) (peers : NodeId → List NodeId) (cluster : Cluster) : Prop :=
  ∀ id ∈ members, ∃ node, cluster.site? id = some (.member node) ∧
    node.Stands (.of id (peers id))

namespace Standing

theorem setSite (standing : cluster.Standing members peers) (mem : address ∈ members) {node : Node}
    (stands : node.Stands (.of address (peers address))) :
    (cluster.setSite address (.member node)).Standing members peers := by
  intro id known
  by_cases same : id = address
  · subst same
    obtain ⟨before, present, -⟩ := standing id mem
    exact ⟨node, site?_setSite_self present _, stands⟩
  · obtain ⟨held, present, standsToo⟩ := standing id known
    exact ⟨held, (site?_setSite_ne same _).trans present, standsToo⟩

theorem setPool (standing : cluster.Standing members peers) (mem : address ∈ members)
    (peer : NodeId) {pool : Pool Channel} (clear : pool.Clear) :
    (cluster.setPool address peer pool).Standing members peers := by
  obtain ⟨node, present, stands⟩ := standing address mem
  rw [setPool_eq present]
  exact standing.setSite mem (stands.setPool peer clear)

theorem pool (standing : cluster.Standing members peers) (mem : address ∈ members)
    {pool : Pool Channel} (found : cluster.pool? address peer = some pool) : pool.Clear := by
  obtain ⟨node, present, stands⟩ := standing address mem
  rw [pool?_eq present] at found
  exact stands.lookup found

theorem mapDurable (standing : cluster.Standing members peers) (mem : address ∈ members)
    (change : DurableEngine → DurableEngine) :
    (cluster.mapDurable address change).Standing members peers := by
  obtain ⟨node, present, stands⟩ := standing address mem
  simp only [Cluster.mapDurable, present]
  exact standing.setSite mem (stands.setDurable _)

theorem closeNode (standing : cluster.Standing members peers) (mem : address ∈ members)
    (now : Time) : (cluster.closeNode address now).Standing members peers := by
  obtain ⟨node, present, stands⟩ := standing address mem
  simp only [Cluster.closeNode, present]
  exact standing.setSite mem (stands.close now)

theorem execHere (standing : cluster.Standing members peers) (mem : address ∈ members)
    (selected : Nat) (line : CommandLine) :
    (execHere address cluster selected line).state.Standing members peers := by
  obtain ⟨node, present, stands⟩ := standing address mem
  obtain ⟨durable, ran, -⟩ := execHere_spec present selected line
  rw [ran]
  exact standing.setSite mem (stands.setDurable durable)

end Standing

section

variable (network : Network) {service other : Service Cluster}
  (fits : selected ≤ maxLength) (room : (Message.ofList line).Addressable)
  (selects : Service.Alike (Standing members peers) (selectLine selected) service other)
  (alike : Service.Alike (Standing members peers) line service other)

include fits room selects alike

theorem converse_alike {channel : Channel} (clear : channel.Clear)
    (standing : cluster.Standing members peers) :
    converse network service channel selected line cluster =
        converse network other channel selected line cluster ∧
      (converse network other channel selected line cluster).2.1.Clear ∧
      (converse network other channel selected line cluster).2.2.Standing members peers := by
  have short : (Message.ofList (selectLine selected)).Addressable :=
    Message.addressable_of_line (Log.selectLine_addressable fits)
  obtain ⟨same, clean, stands⟩ := Channel.request_alike clear network short selects standing
  simp only [converse, same]
  split
  · exact ⟨rfl, clean, stands⟩
  · exact Channel.request_alike clean network room alike stands

/-- What comes of relaying a line depends on the peer only by what it makes of this line, and of the
SELECT in front of it. -/
theorem relay_alike (standing : cluster.Standing members peers) (mem : address ∈ members)
    (peer : NodeId) :
    relay network service address peer selected line cluster =
        relay network other address peer selected line cluster ∧
      (relay network other address peer selected line cluster).2.Standing members peers := by
  cases found : cluster.pool? address peer with
  | none =>
      simp only [relay, found]
      exact ⟨trivial, standing⟩
  | some pool =>
      obtain ⟨kept, lent⟩ := (standing.pool mem found).request network peer 0 0
      rcases asked : pool.request (Channel.factory network peer) 0 0 with ⟨_ | failure | pooled, after⟩
      · simp only [relay, found, asked]
        exact ⟨trivial, standing⟩
      · rw [asked] at kept
        dsimp only at kept
        simp only [relay, found, asked]
        exact ⟨trivial, standing.setPool mem peer kept⟩
      · rw [asked] at kept lent
        dsimp only at kept
        have busy := standing.setPool mem peer kept
        obtain ⟨same, clean, stands⟩ :=
          converse_alike network fits room selects alike (lent pooled rfl) busy
        simp only [relay, found, asked, same, true_and]
        split
        · next returned back =>
          obtain ⟨held, present, rfl⟩ := Option.map_eq_some_iff.mp back
          exact stands.setPool mem peer ((stands.pool mem present).giveBack clean)
        · exact stands

end

/-- A line that its receiver keeps is executed by the receiver's engine. -/
theorem Standing.exec_own (standing : cluster.Standing members peers) (mem : address ∈ members)
    (planned : (Membership.of address (peers address)).plan line = .one ⟨address, own⟩)
    (network : Network) (hops selected : Nat) :
    exec network (hops + 1) address cluster selected line =
      Cluster.execHere address cluster selected own := by
  obtain ⟨node, present, stands⟩ := standing address mem
  rw [← stands.membership] at planned
  refine Cluster.exec_own present ?_ planned network hops selected
  rw [stands.membership, Membership.of_self]

theorem exec_alike (mem : address ∈ members)
    (planned : (Membership.of address (peers address)).plan line = .one ⟨address, line⟩)
    (network : Network) (hops : Nat) :
    Service.Alike (Standing members peers) line (exec network (hops + 1) address)
      (execHere address) :=
  fun _ standing selected =>
    ⟨standing.exec_own mem planned network hops selected, standing.execHere mem selected line⟩

theorem plan_selectLine (address : NodeId) (listed : List NodeId) (database : Nat) :
    (Membership.of address listed).plan (selectLine database) =
      .one ⟨address, selectLine database⟩ := by
  have named : Engine.lowerName Log.selectWord = "select" := by decide +kernel
  rw [selectLine, Log.selectLine, plan_select named, Membership.of_self]

/-- Whether a line goes to the node that owns its key, or its two keys. -/
def Keyed : CommandLine → Prop
  | [] => False
  | word :: _ =>
    Route.named? (Engine.lowerName word) = some .owner ∨
      Route.named? (Engine.lowerName word) = some .commonOwner

/-- All nodes reject a line about keys, or each sends it to the one it takes to be the owner. -/
theorem Keyed.plan (keyed : Keyed line) :
    (∃ reply, ∀ membership : Membership, membership.plan line = .answer reply) ∨
    ∃ source target, ∀ membership : Membership, membership.plan line =
      if membership.owner source = membership.owner target then
        .one ⟨membership.owner source, line⟩
      else .answer Membership.differentOwners := by
  cases line with
  | nil => exact keyed.elim
  | cons word args =>
      have named : Engine.lowerName word ≠ "select" := by
        intro same
        have route : Route.named? "select" = some .here := by decide
        simp [Keyed, same, route] at keyed
      cases known : Command.lookup (Engine.lowerName word) (args.length + 1) with
      | error failure =>
          refine .inl ⟨failure.reply, ?_⟩
          rcases keyed with listed | listed
          · exact plan_of_unknown listed (by decide) named known
          · exact plan_of_unknown listed (by decide) named known
      | ok command =>
          rcases keyed with listed | listed
          · cases args with
            | nil => exact .inl ⟨_, fun membership => plan_of_known listed known membership⟩
            | cons key rest =>
                refine .inr ⟨key, key, fun membership => ?_⟩
                rw [plan_of_known listed known, if_pos rfl]
                rfl
          · match args with
            | [] => exact .inl ⟨_, fun membership => plan_of_known listed known membership⟩
            | [_] => exact .inl ⟨_, fun membership => plan_of_known listed known membership⟩
            | source :: target :: rest =>
                exact .inr ⟨source, target, fun membership => plan_of_known listed known membership⟩

/-- What a line about keys comes to at a node with some plan for it: it is answered at once, executed
by the node's engine, or relayed to a peer that executes it with its own engine. -/
inductive HandledOnce (network : Network) (cluster : Cluster) (address : NodeId) (selected : Nat)
    (line : CommandLine) : Plan → Served Cluster → Prop where
  | answered (reply : Message) : HandledOnce network cluster address selected line (.answer reply)
      ⟨reply, selected, cluster⟩
  | kept : HandledOnce network cluster address selected line (.one ⟨address, line⟩)
      (execHere address cluster selected line)
  | relayed {peer : NodeId} (elsewhere : peer ≠ address) :
      HandledOnce network cluster address selected line (.one ⟨peer, line⟩)
        ⟨(relay network (execHere peer) address peer selected line cluster).1, selected,
          (relay network (execHere peer) address peer selected line cluster).2⟩

section

variable (named : ∀ id ∈ members, id ≠ "")
  (lists : ∀ id ∈ members, Membership.Lists members id (peers id))

include named lists

theorem Keyed.kept (keyed : Keyed line) (here : address ∈ members) :
    (∃ reply, (Membership.of address (peers address)).plan line = .answer reply) ∨
    ∃ owner ∈ members, (Membership.of address (peers address)).plan line = .one ⟨owner, line⟩ ∧
      (Membership.of owner (peers owner)).plan line = .one ⟨owner, line⟩ := by
  rcases keyed.plan with ⟨reply, rejected⟩ | ⟨source, target, routed⟩
  · exact .inl ⟨reply, rejected _⟩
  · let owner := (Membership.of address (peers address)).owner source
    have there : owner ∈ members := ((lists address here).owner_spec named source).2
    by_cases together : owner = (Membership.of address (peers address)).owner target
    · have keeps {key : Bytes} (owns : (Membership.of address (peers address)).owner key = owner) :
          (Membership.of owner (peers owner)).owner key = owner :=
        Membership.owner_keeps named (lists address here) (lists owner there) owns
      refine .inr ⟨owner, there, (routed _).trans (if_pos together), ?_⟩
      rw [routed, keeps rfl, keeps together.symm, if_pos rfl]
    · exact .inl ⟨_, (routed _).trans (if_neg together)⟩

theorem service_keyed (standing : cluster.Standing members peers) (network : Network)
    (here : address ∈ members) (fits : selected ≤ maxLength) (room : line.Addressable)
    (keyed : Keyed line) :
    HandledOnce network cluster address selected line
      ((Membership.of address (peers address)).plan line)
      (service network address cluster selected line) := by
  obtain ⟨node, present, stands⟩ := standing address here
  obtain ⟨hops, count⟩ := maxHops_eq present
  have self := Membership.of_self address (peers address)
  simp only [service, count, exec_member present, stands.membership, Membership.carryOut]
  rcases keyed.kept named lists here with ⟨reply, planned⟩ | ⟨owner, there, planned, kept⟩
  · rw [planned]
    exact .answered reply
  · rw [planned]
    by_cases same : owner = address
    · subst same
      simp only [Membership.assignments, assignAll, ask, self, if_true, Plan.conclude,
        List.head?_cons, Option.map_some, Option.getD_some]
      exact .kept
    · have selects := exec_alike there (plan_selectLine owner (peers owner) selected) network hops
      have alike := exec_alike there kept network hops
      have relayed := (relay_alike network fits (Message.addressable_of_line room) selects alike
        standing here owner).1
      simp only [Membership.assignments, assignAll, ask, self, if_neg same, relayed,
        Plan.conclude, List.head?_cons, Option.map_some, Option.getD_some]
      exact .relayed same

end

/-- Something happens to one of the channels that a node keeps to a peer. -/
def disturb (cluster : Cluster) (address peer : NodeId) (number : Nat)
    (incident : Channel.Incident) : Cluster :=
  match cluster.pool? address peer with
  | none => cluster
  | some pool =>
    let strike (pooled : Pooled Channel) : Pooled Channel :=
      if pooled.number = number then { pooled with object := pooled.object.suffer incident }
      else pooled
    cluster.setPool address peer { pool with idle := pool.idle.map strike }

/-- The clusters that come about when each member has been opened with the peers that it was told of,
and then serves clients, works on its log, is closed, and loses and regains connections. -/
inductive Reached (members : List NodeId) (peers : NodeId → List NodeId) : Cluster → Prop where
  | opened {cluster : Cluster}
    (fresh : ∀ id ∈ members, ∃ (options : Node.Options) (file? : Option Bytes) (now : Time),
      options.self = id ∧ options.peers = peers id ∧
        cluster.site? id = some (.member (.opened options file? now))) :
    Reached members peers cluster
  | served {cluster : Cluster} (reached : Reached members peers cluster) (network : Network)
    {address : NodeId} (mem : address ∈ members) {selected : Nat} (fits : selected ≤ maxLength)
    {line : CommandLine} (room : line.Addressable) :
    Reached members peers (service network address cluster selected line).state
  | disturbed {cluster : Cluster} (reached : Reached members peers cluster) {address : NodeId}
    (mem : address ∈ members) (peer : NodeId) (number : Nat) (incident : Channel.Incident) :
    Reached members peers (cluster.disturb address peer number incident)
  | worked {cluster : Cluster} (reached : Reached members peers cluster) {address : NodeId}
    (mem : address ∈ members) (now : Time) : Reached members peers (cluster.work address now)
  | closed {cluster : Cluster} (reached : Reached members peers cluster) {address : NodeId}
    (mem : address ∈ members) (now : Time) : Reached members peers (cluster.closeNode address now)

theorem Standing.disturb (standing : cluster.Standing members peers) (mem : address ∈ members)
    (peer : NodeId) (number : Nat) (incident : Channel.Incident) :
    (cluster.disturb address peer number incident).Standing members peers := by
  unfold Cluster.disturb
  split
  · exact standing
  · next pool found =>
    refine standing.setPool mem peer fun pooled kept => ?_
    obtain ⟨before, held, rfl⟩ := List.mem_map.mp kept
    have clear := standing.pool mem found before held
    split
    · exact clear.suffer incident
    · exact clear

/-- A line that is not about keys is answered at once, or the node that gets it keeps it, or all nodes
get it. -/
theorem plan_unkeyed (unkeyed : ¬ Keyed line) (membership : Membership) :
    (∃ reply, membership.plan line = .answer reply) ∨
    (∃ own, membership.plan line = .one ⟨membership.self, own⟩) ∨
    ∃ merge word args, line = word :: args ∧ membership.plan line = .all merge line := by
  cases line with
  | nil => exact .inl ⟨_, rfl⟩
  | cons word args =>
      cases listed : Route.named? (Engine.lowerName word) with
      | none => exact .inl ⟨_, by simp only [Membership.plan, listed]; rfl⟩
      | some route =>
          have routed : (∃ reply, membership.plan (word :: args) = .answer reply) ∨
              membership.plan (word :: args) = membership.planRoute route (word :: args) := by
            simp only [Membership.plan, listed]
            split
            · exact .inl ⟨_, rfl⟩
            · exact .inr rfl
          rcases routed with answered | routed
          · exact .inl answered
          · rw [routed]
            cases route with
            | owner => exact absurd (.inl listed) unkeyed
            | commonOwner => exact absurd (.inr listed) unkeyed
            | here => exact .inr (.inl ⟨_, rfl⟩)
            | count => exact .inr (.inr ⟨_, word, args, rfl, rfl⟩)
            | acknowledge => exact .inr (.inr ⟨_, word, args, rfl, rfl⟩)
            | forwarded =>
                cases args with
                | nil => exact .inl ⟨_, rfl⟩
                | cons first rest => exact .inr (.inl ⟨_, rfl⟩)

/-- Whether a node keeps what an assignment gives to it. -/
structure KeptAt (members : List NodeId) (peers : NodeId → List NodeId) (assignment : Assignment) :
    Prop where
  mem : assignment.node ∈ members
  room : (Message.ofList assignment.line).Addressable
  kept : ∃ own, (Membership.of assignment.node (peers assignment.node)).plan assignment.line =
    .one ⟨assignment.node, own⟩

section

variable (named : ∀ id ∈ members, id ≠ "")
  (lists : ∀ id ∈ members, Membership.Lists members id (peers id))

include named lists

/-- Whatever a node gives to a peer, the peer keeps. -/
theorem assignments_kept (here : address ∈ members) (room : line.Addressable) :
    let membership := Membership.of address (peers address)
    ∀ assignment ∈ membership.assignments (membership.plan line),
      assignment.node = address ∨ KeptAt members peers assignment := by
  intro membership assignment mem
  have self : membership.self = address := Membership.of_self _ _
  by_cases keyed : Keyed line
  · rcases keyed.kept named lists here with ⟨reply, planned⟩ | ⟨owner, there, planned, kept⟩
    · rw [planned] at mem
      cases mem
    · rw [planned] at mem
      obtain rfl := List.mem_singleton.mp mem
      exact .inr ⟨there, Message.addressable_of_line room, line, kept⟩
  · rcases plan_unkeyed keyed membership with
      ⟨reply, planned⟩ | ⟨own, planned⟩ | ⟨merge, word, args, rfl, planned⟩
    · rw [planned] at mem
      cases mem
    · rw [planned] at mem
      obtain rfl := List.mem_singleton.mp mem
      exact .inl self
    · rw [planned] at mem
      rcases List.mem_cons.mp mem with rfl | mem
      · exact .inl self
      · obtain ⟨peer, listed, rfl⟩ := List.mem_map.mp mem
        have there := (lists address here).mem_nodes (List.mem_cons_of_mem membership.self listed)
        refine .inr ⟨there, addressable_forward room, word :: args, ?_⟩
        rw [plan_forward, Membership.of_self]

end

theorem Standing.ask (standing : cluster.Standing members peers) (here : address ∈ members)
    (fits : selected ≤ maxLength) {assignment : Assignment}
    (given : assignment.node = address ∨ KeptAt members peers assignment) (network : Network)
    (hops : Nat) :
    let asked := Cluster.ask network (hops + 1) (.of address (peers address)) address assignment
      (cluster, selected)
    asked.2.1.Standing members peers ∧ asked.2.2 ≤ maxLength := by
  have self := Membership.of_self address (peers address)
  by_cases same : assignment.node = address
  · simp only [Cluster.ask, self, if_pos same]
    obtain ⟨node, present, -⟩ := standing address here
    refine ⟨standing.execHere here selected assignment.line, ?_⟩
    obtain ⟨durable, ran, -⟩ := execHere_spec present selected assignment.line
    rw [ran]
    exact Engine.exec_selected_le fits
  · simp only [Cluster.ask, self, if_neg same]
    obtain ⟨there, room, own, kept⟩ := given.resolve_left same
    have executes (sent own : CommandLine)
        (planned : (Membership.of assignment.node (peers assignment.node)).plan sent =
          .one ⟨assignment.node, own⟩) :
        Service.Alike (Standing members peers) sent (exec network (hops + 1) assignment.node)
          (exec network (hops + 1) assignment.node) := by
      intro state stands database
      rw [stands.exec_own there planned]
      exact ⟨rfl, stands.execHere there database own⟩
    have selects := executes _ _ (plan_selectLine assignment.node _ selected)
    have alike := executes _ _ kept
    exact ⟨(relay_alike network fits room selects alike standing here assignment.node).2, fits⟩

theorem Standing.service (named : ∀ id ∈ members, id ≠ "")
    (lists : ∀ id ∈ members, Membership.Lists members id (peers id))
    (standing : cluster.Standing members peers) (network : Network) (here : address ∈ members)
    (fits : selected ≤ maxLength) (room : line.Addressable) :
    (service network address cluster selected line).state.Standing members peers := by
  obtain ⟨node, present, stands⟩ := standing address here
  obtain ⟨hops, count⟩ := maxHops_eq present
  let good (state : Cluster × Nat) : Prop :=
    state.1.Standing members peers ∧ state.2 ≤ maxLength
  have kept := assignments_kept named lists here room
  have done : good (assignAll
      (Cluster.ask network (hops + 1) (.of address (peers address)) address) _ (cluster, selected)).2 :=
    assignAll_keeps (fun assignment mem state held =>
      held.1.ask here held.2 (kept assignment mem) network hops)
      ⟨standing, fits⟩
  simp only [Cluster.service, count, exec_member present, stands.membership, Membership.carryOut]
  exact done.1

theorem Reached.standing (named : ∀ id ∈ members, id ≠ "")
    (lists : ∀ id ∈ members, Membership.Lists members id (peers id))
    (reached : Reached members peers cluster) : cluster.Standing members peers := by
  induction reached with
  | opened fresh =>
      intro id mem
      obtain ⟨options, file?, now, rfl, known, present⟩ := fresh id mem
      exact ⟨_, present, known ▸ Node.opened_stands options file? now⟩
  | served _ network mem fits room ih => exact ih.service named lists network mem fits room
  | disturbed _ mem peer number incident ih => exact ih.disturb mem peer number incident
  | worked _ mem now ih => exact ih.mapDurable mem _
  | closed _ mem now ih => exact ih.closeNode mem now

/-- The node that another node routes a key to routes it to itself, and a line about keys that a
client sends to a node is executed by the engine of that node, or of the one that it is relayed to. -/
theorem relayed_once (named : ∀ id ∈ members, id ≠ "")
    (lists : ∀ id ∈ members, Membership.Lists members id (peers id)) :
    (∀ node ∈ members, ∀ key,
      let owner := (Membership.of node (peers node)).owner key
      owner ∈ members ∧ (Membership.of owner (peers owner)).owner key = owner) ∧
    ∀ (cluster : Cluster), Reached members peers cluster →
      ∀ (network : Network) (address : NodeId) (selected : Nat) (line : CommandLine),
        address ∈ members → selected ≤ maxLength → line.Addressable → Keyed line →
          HandledOnce network cluster address selected line
            ((Membership.of address (peers address)).plan line)
            (service network address cluster selected line) := by
  constructor
  · intro node mem key owner
    have there : owner ∈ members := ((lists node mem).owner_spec named key).2
    exact ⟨there, Membership.owner_keeps named (lists node mem) (lists owner there) rfl⟩
  · intro cluster reached network address selected line here fits room keyed
    exact service_keyed named lists (reached.standing named lists) network here fits room keyed

theorem relayed_once_of_three :
    let members : List NodeId := ["10.0.131.28:7000", "10.3.132.139:16379", "10.0.0.1:7000"]
    let peers : NodeId → List NodeId := fun _ => "" :: members
    let site (self : NodeId) : Site := .member (.opened { self, peers := peers self } none 0)
    let cluster : Cluster := ⟨members.map fun id => (id, site id)⟩
    let line : CommandLine := [[0x67, 0x65, 0x74], [0x6B]]
    (∀ id ∈ members, id ≠ "") ∧ (∀ id ∈ members, Membership.Lists members id (peers id)) ∧
      Reached members peers cluster ∧ line.Addressable ∧ Keyed line ∧
      HandledOnce (fun _ => .ok ()) cluster "10.0.0.1:7000" 0 line
        ((Membership.of "10.0.0.1:7000" (peers "10.0.0.1:7000")).plan line)
        (service (fun _ => .ok ()) "10.0.0.1:7000" cluster 0 line) := by
  intro members peers site cluster line
  have named : ∀ id ∈ members, id ≠ "" := by decide
  have lists : ∀ id ∈ members, Membership.Lists members id (peers id) := fun id mem =>
    ⟨mem, fun other listed => List.mem_cons.mp listed,
      fun other known => .inr (List.mem_cons_of_mem "" known)⟩
  have reached : Reached members peers cluster := by
    refine .opened fun id mem => ⟨{ self := id, peers := peers id }, none, 0, rfl, rfl, ?_⟩
    exact lookup_map mem site
  have room : line.Addressable := ⟨by decide, by decide⟩
  have keyed : Keyed line := .inl (by decide +kernel)
  exact ⟨named, lists, reached, room, keyed, (relayed_once named lists).2 cluster reached _ _ 0 line
    (by decide) (Nat.zero_le _) room keyed⟩

end Cluster

end ShardStore
