import ShardStore.Proofs.Cluster.Relaying

/-!
A cluster as one engine. The nodes of a cluster share out what a single engine would hold
(`Cluster.Mirrors`), and a line that any node gets keeps it so and is answered as the single engine
answers it (`Cluster.service_covered`). So no client can tell the two apart (`Cluster.as_one_engine`).
-/

namespace ShardStore

namespace Cluster

/-- Whether a cluster carries out a line as one engine does: a line whose keys are all with one owner,
or one that all nodes carry out for their own keys. -/
def Covered (ids : List NodeId) : CommandLine → Prop
  | [] => False
  | word :: args =>
    match Engine.lowerName word with
    | "select" | "ping" | "get" | "set" | "setnx" | "getset" | "strlen" | "type" => True
    | "del" | "flushdb" => True
    | "exists" => args.length ≤ 1
    | "rename" | "renamenx" =>
      ∀ source target, args = [source, target] →
        (sharedRing ids).owner? source = (sharedRing ids).owner? target
    | _ => False

/-- Whether identifiers can be those of one cluster: none is empty, and each has a place of its own. -/
structure Agreed (ids : List NodeId) : Prop where
  named : ∀ id ∈ ids, id ≠ ""
  separates : Hash.Separates Crc32.checksum ids

/-- A cluster whose nodes know each other's identifiers, in whatever order, and have just been opened,
with as many databases each and nothing in their logs. -/
structure Formed (ids : List NodeId) (databases : Nat) (cluster : Cluster) : Prop
    extends Agreed ids where
  opened : ∀ id ∈ ids, ∃ (options : Node.Options) (file? : Option Bytes) (now : Time),
    options.self = id ∧ (∀ node, node = id ∨ node ∈ options.peers ↔ node ∈ ids) ∧
    options.durable.databases = databases ∧ file?.getD [] = [] ∧
    cluster.site? id = some (.member (.opened options file? now))

/-- Whether the nodes of a cluster share out what an engine holds: every key is with its owner on the
ring, and with no other node. -/
structure Shares (ids : List NodeId) (cluster : Cluster) (engine : Engine) : Prop where
  placed : ∀ id ∈ ids, ∃ site, cluster.site? id = some site ∧
    site.durable.engine.count = engine.count ∧
    ∀ database key, site.durable.engine.value? database key =
      if (sharedRing ids).owner? key = some id then engine.value? database key else none
  owned : ∀ database key value, engine.value? database key = some value →
    ∃ id ∈ ids, (sharedRing ids).owner? key = some id

variable {ids : List NodeId} {engines : Engines} {whole : Engine}

/-- The node that owns a key. -/
def ownerIn (ids : List NodeId) (key : Bytes) : NodeId :=
  ((sharedRing ids).owner? key).getD ""

theorem Agreed.owner_mem (agreed : Agreed ids) {id : NodeId} (mem : id ∈ ids) (key : Bytes) :
    (sharedRing ids).owner? key = some (ownerIn ids key) ∧ ownerIn ids key ∈ ids := by
  let membership : Membership := ⟨id, ids⟩
  have known : ∀ other, other ∈ membership.nodes ↔ other ∈ ids := by
    intro other
    simp only [membership, Membership.nodes, List.mem_cons]
    exact ⟨fun either => either.elim (fun same => same ▸ mem) (fun inside => inside), .inr⟩
  obtain ⟨owned, inside⟩ := Membership.owner_eq_shared agreed.separates agreed.named known key
  have same : ownerIn ids key = membership.owner key := by rw [ownerIn, owned, Option.getD_some]
  exact ⟨by rw [same, owned], by rwa [same]⟩

theorem Agreed.owner_eq (agreed : Agreed ids) {membership : Membership}
    (known : ∀ id, id ∈ membership.nodes ↔ id ∈ ids) (key : Bytes) :
    membership.owner key = ownerIn ids key := by
  obtain ⟨owned, -⟩ := Membership.owner_eq_shared agreed.separates agreed.named known key
  rw [ownerIn, owned, Option.getD_some]

/-- Whether engines of nodes hold what one engine holds, each the keys that its node owns. -/
structure Mirrors (ids : List NodeId) (engines : Engines) (whole : Engine) : Prop where
  count : ∀ id ∈ ids, (engines id).count = whole.count
  roomy : ∀ store ∈ whole.databases, store.Roomy
  parts : ∀ id ∈ ids, ∀ (database : Nat) (part store : Store),
    (engines id).databases[database]? = some part → whole.databases[database]? = some store →
    Store.PartOf (ownerIn ids · = id) part store

theorem Mirrors.part (mirrors : Mirrors ids engines whole) {selected : Nat} {store : Store}
    (present : whole.databases[selected]? = some store) {id : NodeId} (mem : id ∈ ids) :
    ∃ part, (engines id).databases[selected]? = some part ∧
      Store.PartOf (ownerIn ids · = id) part store := by
  have within : selected < (engines id).databases.length := by
    have count : (engines id).databases.length = whole.databases.length := mirrors.count id mem
    rw [count]
    exact (List.getElem?_eq_some_iff.mp present).1
  have found := List.getElem?_eq_getElem within
  exact ⟨_, found, mirrors.parts id mem selected _ store found present⟩

/-- When each node has the part of a new store that it owns, the engines still mirror. -/
theorem Mirrors.set (mirrors : Mirrors ids engines whole) {selected : Nat} {store : Store}
    (roomy : store.Roomy) {after : Engines}
    (changed : ∀ id ∈ ids, ∃ part, after id = ⟨(engines id).databases.set selected part⟩ ∧
      Store.PartOf (ownerIn ids · = id) part store) :
    Mirrors ids after ⟨whole.databases.set selected store⟩ := by
  refine ⟨fun id mem => ?_, fun other mem => ?_, fun id mem database part held found present => ?_⟩
  · obtain ⟨part, same, -⟩ := changed id mem
    have count : (engines id).databases.length = whole.databases.length := mirrors.count id mem
    simpa [same, Engine.count] using count
  · rcases List.mem_or_eq_of_mem_set mem with mem | rfl
    · exact mirrors.roomy other mem
    · exact roomy
  · obtain ⟨new, same, within⟩ := changed id mem
    rw [same] at found
    by_cases here : selected = database
    · subst here
      have inParts := (List.getElem?_eq_some_iff.mp found).1
      have inWhole := (List.getElem?_eq_some_iff.mp present).1
      rw [List.length_set] at inParts inWhole
      rw [List.getElem?_set_self inParts] at found
      rw [List.getElem?_set_self inWhole] at present
      cases found
      cases present
      exact within
    · rw [List.getElem?_set_ne here] at found present
      exact mirrors.parts id mem database part held found present

inductive Placed (ids : List NodeId) (word : Bytes) (args : List Bytes) (command : Command) :
    Prop where
  | here (route : Route.named? (Engine.lowerName word) = some .here)
    (footprint : command.footprint? args = some [])
  | owner {key : Bytes} {rest : List Bytes}
    (route : Route.named? (Engine.lowerName word) = some .owner) (spelled : args = key :: rest)
    (footprint : command.footprint? args = some [key])
  | commonOwner {source target : Bytes}
    (route : Route.named? (Engine.lowerName word) = some .commonOwner)
    (spelled : args = [source, target]) (footprint : command.footprint? args = some [source, target])
    (together : ownerIn ids source = ownerIn ids target)
  | count (route : Route.named? (Engine.lowerName word) = some .count) (removes : command = .del)
  | acknowledge (route : Route.named? (Engine.lowerName word) = some .acknowledge)
    (clears : command = .flushDb)

variable {word : Bytes} {args : List Bytes} {command : Command}

theorem Covered.routed (covered : Covered ids (word :: args)) :
    ∃ route, Route.named? (Engine.lowerName word) = some route ∧ route ≠ .forwarded := by
  simp only [Covered] at covered
  split at covered
  case h_14 => contradiction
  all_goals next title => exact ⟨_, by rw [title]; rfl, by decide⟩

theorem placed_owner {name : String} {other : Command} (title : Engine.lowerName word = name)
    (route : Route.named? name = some .owner)
    (listed : Command.named? (Text.lowercase name) = some other)
    (footprint : ∀ args, other.footprint? args = some (args.take 1))
    (keyed : other.arity.admits 1 = false)
    (known : Command.lookup (Engine.lowerName word) (args.length + 1) = .ok command) :
    Placed ids word args command := by
  rw [title] at known
  obtain ⟨rfl, admitted⟩ := Command.lookup_eq listed known
  cases args with
  | nil => exact absurd admitted (by simp [keyed])
  | cons key rest => exact .owner (title ▸ route) rfl (footprint (key :: rest))

theorem placed_commonOwner {name : String} {other : Command} (title : Engine.lowerName word = name)
    (route : Route.named? name = some .commonOwner)
    (listed : Command.named? (Text.lowercase name) = some other)
    (footprint : ∀ args, other.footprint? args = some (args.take 2))
    (arity : other.arity = .exactly 3)
    (known : Command.lookup (Engine.lowerName word) (args.length + 1) = .ok command)
    (together : ∀ source target, args = [source, target] →
      (sharedRing ids).owner? source = (sharedRing ids).owner? target) :
    Placed ids word args command := by
  rw [title] at known
  obtain ⟨rfl, admitted⟩ := Command.lookup_eq listed known
  rw [arity] at admitted
  obtain ⟨source, target, rfl⟩ := Command.pair_of_admitted admitted
  have same : ownerIn ids source = ownerIn ids target := by
    rw [ownerIn, ownerIn, together source target rfl]
  exact .commonOwner (title ▸ route) rfl (footprint [source, target]) same

theorem Covered.placed (covered : Covered ids (word :: args))
    (named : Engine.lowerName word ≠ "select")
    (known : Command.lookup (Engine.lowerName word) (args.length + 1) = .ok command) :
    Placed ids word args command := by
  simp only [Covered] at covered
  split at covered
  · contradiction
  · next title =>
    rw [title] at known
    obtain ⟨rfl, -⟩ : command = .ping ∧ _ := Command.lookup_eq (by decide +kernel) known
    exact .here (by rw [title]; decide) rfl
  · next title =>
    exact placed_owner title (by decide) (by decide +kernel : _ = some Command.get)
      (fun _ => rfl) rfl known
  · next title =>
    exact placed_owner title (by decide) (by decide +kernel : _ = some Command.set)
      (fun _ => rfl) rfl known
  · next title =>
    exact placed_owner title (by decide) (by decide +kernel : _ = some Command.setNx)
      (fun _ => rfl) rfl known
  · next title =>
    exact placed_owner title (by decide) (by decide +kernel : _ = some Command.getSet)
      (fun _ => rfl) rfl known
  · next title =>
    exact placed_owner title (by decide) (by decide +kernel : _ = some Command.strLen)
      (fun _ => rfl) rfl known
  · next title =>
    exact placed_owner title (by decide) (by decide +kernel : _ = some Command.keyType)
      (fun _ => rfl) rfl known
  · next title =>
    rw [title] at known
    obtain ⟨rfl, -⟩ : command = .del ∧ _ := Command.lookup_eq (by decide +kernel) known
    exact .count (by rw [title]; decide) rfl
  · next title =>
    rw [title] at known
    obtain ⟨rfl, -⟩ : command = .flushDb ∧ _ := Command.lookup_eq (by decide +kernel) known
    exact .acknowledge (by rw [title]; decide) rfl
  · next title =>
    rw [title] at known
    obtain ⟨rfl, admitted⟩ : command = .keyExists ∧ _ := Command.lookup_eq (by decide +kernel) known
    have one : args.length = 1 := by
      have least : 2 ≤ args.length + 1 := by simpa [Command.arity, Arity.admits] using admitted
      omega
    obtain ⟨key, rfl⟩ := List.length_eq_one_iff.mp one
    exact .owner (by rw [title]; decide) rfl rfl
  · next title =>
    exact placed_commonOwner title (by decide) (by decide +kernel : _ = some Command.rename)
      (fun _ => rfl) rfl known covered
  · next title =>
    exact placed_commonOwner title (by decide) (by decide +kernel : _ = some Command.renameNx)
      (fun _ => rfl) rfl known covered
  · contradiction

theorem plan_of_known {route : Route} (listed : Route.named? (Engine.lowerName word) = some route)
    (known : Command.lookup (Engine.lowerName word) (args.length + 1) = .ok command)
    (membership : Membership) :
    membership.plan (word :: args) = membership.planRoute route (word :: args) := by
  simp only [Membership.plan, listed, List.length_cons, known]
  cases Membership.checksArity (Engine.lowerName word) route <;> rfl

theorem plan_of_unknown {route : Route} {failure : Failure}
    (listed : Route.named? (Engine.lowerName word) = some route) (direct : route ≠ .forwarded)
    (named : Engine.lowerName word ≠ "select")
    (unknown : Command.lookup (Engine.lowerName word) (args.length + 1) = .error failure)
    (membership : Membership) : membership.plan (word :: args) = .answer failure.reply := by
  have checked : Membership.checksArity (Engine.lowerName word) route = true := by
    simp [Membership.checksArity, named, direct]
  simp only [Membership.plan, listed, List.length_cons, unknown, checked]

/-- Whether a line on some database came to the same in a cluster as in the engine it mirrors. -/
def Follows (ids : List NodeId) (whole : Engine) (selected : Nat) (line : CommandLine)
    (served : Served Cluster) : Prop :=
  let done := whole.exec selected line
  served.reply = done.reply ∧ served.selected = done.selected ∧
    ∃ engines, served.state.Holds ids engines ∧ Mirrors ids engines done.engine

variable {cluster : Cluster} {network : Network} {address : NodeId} {selected : Nat}

/-- A command whose keys all belong to one node does there what it does in the whole engine. -/
theorem service_owned (holds : cluster.Holds ids engines) (mirrors : Mirrors ids engines whole)
    (here : address ∈ ids) (reachable : ∀ id ∈ ids, network id = .ok ())
    (fits : selected ≤ maxLength) {store : Store}
    (present : whole.databases[selected]? = some store)
    (room : CommandLine.Addressable (word :: args)) (named : Engine.lowerName word ≠ "select")
    (known : Command.lookup (Engine.lowerName word) (args.length + 1) = .ok command)
    {keys : List Bytes} (footprint : command.footprint? args = some keys) {target : NodeId}
    (there : target ∈ ids) (owned : ∀ key ∈ keys, ownerIn ids key = target)
    (planned : ∀ membership : Membership, membership.self = address ∨ membership.self = target →
      (∀ id, id ∈ membership.nodes ↔ id ∈ ids) →
      membership.plan (word :: args) = .one ⟨target, word :: args⟩) :
    Follows ids whole selected (word :: args)
      (service network address cluster selected (word :: args)) := by
  have admitted := (Command.lookup_spec known).2
  have roomy := mirrors.roomy store (List.mem_of_getElem? present)
  obtain ⟨part, presentPart, within⟩ := mirrors.part present there
  obtain ⟨reply, stays, changed⟩ := Engine.exec_known named known presentPart
  obtain ⟨replyWhole, staysWhole, changedWhole⟩ := Engine.exec_known named known present
  obtain ⟨sameReply, withinAfter⟩ := Command.result_owned admitted footprint owned within
  have unlisted : command ≠ .keys := by
    rintro rfl
    cases footprint
  have plain := Command.result_plain admitted unlisted roomy
  rw [← sameReply] at plain
  obtain ⟨after, served, holdsAfter⟩ := service_one holds here there reachable fits
    (List.getElem?_eq_some_iff.mp presentPart).1 room planned
    fun _ => ⟨by rw [reply]; exact plain, stays⟩
  rw [served]
  refine ⟨?_, ?_, _, holdsAfter, ?_⟩
  · exact (reply.trans sameReply).trans replyWhole.symm
  · exact stays.trans staysWhole.symm
  · rw [changedWhole]
    refine mirrors.set (Command.result_roomy admitted (fun other mem => room.2 other
      (List.mem_cons_of_mem word mem)) roomy) fun id mem => ?_
    by_cases same : id = target
    · subst same
      exact ⟨_, (engines.update_self id _).trans changed, withinAfter⟩
    · obtain ⟨kept, presentKept, withinKept⟩ := mirrors.part present mem
      refine ⟨kept, ?_, ?_⟩
      · rw [Engines.update_of_ne engines same, Engine.set_of_getElem? presentKept]
      · refine Command.result_unowned admitted footprint (fun key listed mine => ?_) withinKept
        exact same (mine.symm.trans (owned key listed))

/-- A command that all nodes carry out does together what it does in the whole engine, if the replies
are merged to what the whole engine replies. -/
theorem service_shared (holds : cluster.Holds ids engines) (mirrors : Mirrors ids engines whole)
    (here : address ∈ ids) (reachable : ∀ id ∈ ids, network id = .ok ())
    (fits : selected ≤ maxLength) {store : Store}
    (present : whole.databases[selected]? = some store)
    (room : CommandLine.Addressable (word :: args)) (named : Engine.lowerName word ≠ "select")
    (known : Command.lookup (Engine.lowerName word) (args.length + 1) = .ok command)
    (unlisted : command ≠ .keys) {merge : Merge}
    (planned : ∀ membership : Membership, membership.plan (word :: args) = .all merge (word :: args))
    (divided : ∀ id ∈ ids, ∀ part, Store.PartOf (ownerIn ids · = id) part store →
      Store.PartOf (ownerIn ids · = id) (command.result args part).2 (command.result args store).2)
    (merged : ∀ (nodes : List NodeId) (parts : NodeId → Store), nodes.Nodup →
      (∀ id, id ∈ nodes ↔ id ∈ ids) →
      (∀ id ∈ nodes, Store.PartOf (ownerIn ids · = id) (parts id) store) →
      merge.conclude (nodes.map fun id => (id, (command.result args (parts id)).1)) =
        (command.result args store).1) :
    Follows ids whole selected (word :: args)
      (service network address cluster selected (word :: args)) := by
  have admitted := (Command.lookup_spec known).2
  have roomy := mirrors.roomy store (List.mem_of_getElem? present)
  obtain ⟨replyWhole, staysWhole, changedWhole⟩ := Engine.exec_known named known present
  let parts : NodeId → Store := fun id => ((engines id).databases[selected]?).getD ∅
  have part : ∀ id ∈ ids, (engines id).databases[selected]? = some (parts id) ∧
      Store.PartOf (ownerIn ids · = id) (parts id) store := by
    intro id mem
    obtain ⟨held, found, within⟩ := mirrors.part present mem
    have same : parts id = held := by simp only [parts, found, Option.getD_some]
    rw [same]
    exact ⟨found, within⟩
  have does : ∀ id ∈ ids, ((engines id).exec selected (word :: args)).reply =
        (command.result args (parts id)).1 ∧
      ((engines id).exec selected (word :: args)).selected = selected ∧
      ((engines id).exec selected (word :: args)).engine =
        ⟨(engines id).databases.set selected (command.result args (parts id)).2⟩ :=
    fun id mem => Engine.exec_known named known (part id mem).1
  have plain : ∀ id ∈ ids, ((engines id).exec selected (word :: args)).reply.Plain := by
    intro id mem
    rw [(does id mem).1]
    exact Command.result_plain admitted unlisted ((part id mem).2.roomy roomy)
  have within : ∀ id ∈ ids, selected < (engines id).count := fun id mem =>
    (List.getElem?_eq_some_iff.mp (part id mem).1).1
  obtain ⟨nodes, after, distinct, listed, served, holdsAfter⟩ := service_all holds here reachable
    fits within room planned plain fun id mem => (does id mem).2.1
  have replies : nodes.map (fun id => (id, ((engines id).exec selected (word :: args)).reply)) =
      nodes.map fun id => (id, (command.result args (parts id)).1) :=
    List.map_congr_left fun id mem => by rw [(does id ((listed id).mp mem)).1]
  rw [served, replies, merged nodes parts distinct listed fun id mem =>
    (part id ((listed id).mp mem)).2]
  refine ⟨replyWhole.symm, staysWhole.symm, _, holdsAfter, ?_⟩
  rw [changedWhole]
  refine mirrors.set (Command.result_roomy admitted (fun other mem => room.2 other
    (List.mem_cons_of_mem word mem)) roomy) fun id mem => ?_
  exact ⟨_, (does id mem).2.2, divided id mem _ (part id mem).2⟩

theorem countFrom_ofNat (nodes : List NodeId) (counts : NodeId → Nat) (total : Int64) :
    Merge.countFrom total (nodes.map fun id => (id, .ofNat (counts id))) =
      .integer (total + Int64.ofNat (nodes.map counts).sum) := by
  induction nodes generalizing total with
  | nil => simp [Merge.countFrom]
  | cons id rest ih =>
      rw [List.map_cons, List.map_cons, List.sum_cons, Int64.ofNat_add, ← Int64.add_assoc]
      exact ih (total + Int64.ofNat (counts id))

theorem acknowledgeAll_ok (nodes : List NodeId) :
    Merge.acknowledgeAll (nodes.map fun id => (id, .ok)) = .ok := by
  induction nodes with
  | nil => rfl
  | cons id rest ih => exact ih

/-- A line that a cluster covers comes to the same as in the engine that the cluster mirrors. -/
theorem service_covered (agreed : Agreed ids) (holds : cluster.Holds ids engines)
    (mirrors : Mirrors ids engines whole) (here : address ∈ ids)
    (reachable : ∀ id ∈ ids, network id = .ok ()) (fits : selected ≤ maxLength)
    (within : selected < whole.count) {line : CommandLine} (room : line.Addressable)
    (covered : Covered ids line) :
    Follows ids whole selected line (service network address cluster selected line) := by
  cases line with
  | nil => exact absurd covered id
  | cons word args =>
  by_cases named : Engine.lowerName word = "select"
  · -- SELECT only asks how many databases there are, and all engines have as many.
    have count := mirrors.count address here
    obtain ⟨reply, stays, kept⟩ := Engine.exec_select named count selected args
    obtain ⟨-, -, keptWhole⟩ := Engine.exec_select named (Eq.refl whole.count) selected args
    obtain ⟨after, served, holdsAfter⟩ := service_one holds here here reachable fits
      (by rwa [count]) room
      (fun membership self _ => by rw [plan_select named, self.elim id id])
      fun differs => absurd rfl differs
    rw [kept, Engines.update_same] at holdsAfter
    rw [served]
    exact ⟨reply, stays, engines, holdsAfter, by rwa [keptWhole]⟩
  · have present := List.getElem?_eq_getElem within
    cases known : Command.lookup (Engine.lowerName word) (args.length + 1) with
    | error failure =>
        obtain ⟨route, listed, direct⟩ := covered.routed
        obtain ⟨reply, stays, kept⟩ := Engine.exec_of_unknown named known whole selected
        rw [service_answer holds here (plan_of_unknown listed direct named known)]
        exact ⟨reply.symm, stays.symm, engines, holds, by rwa [kept]⟩
    | ok command =>
        cases covered.placed named known with
        | here route footprint =>
            refine service_owned holds mirrors here reachable fits present room named known
              footprint here (fun _ mem => nomatch mem) fun membership self _ => ?_
            rw [plan_of_known route known, Membership.planRoute, self.elim id id]
        | @owner key rest route spelled footprint =>
            subst spelled
            obtain ⟨-, there⟩ := agreed.owner_mem here key
            refine service_owned holds mirrors here reachable fits present room named known
              footprint there (fun _ mem => by rw [List.mem_singleton.mp mem])
              fun membership _ known' => ?_
            rw [plan_of_known route known, Membership.planRoute, agreed.owner_eq known']
        | @commonOwner source target route spelled footprint together =>
            subst spelled
            obtain ⟨-, there⟩ := agreed.owner_mem here source
            refine service_owned holds mirrors here reachable fits present room named known
              footprint there (fun key mem => ?_) fun membership _ known' => ?_
            · rcases List.mem_pair.mp mem with rfl | rfl
              · rfl
              · exact together.symm
            · rw [plan_of_known route known]
              simp only [Membership.planRoute, agreed.owner_eq known', together, if_true]
        | count route removes =>
            subst removes
            refine service_shared holds mirrors here reachable fits present room named known
              (by decide) (fun membership => plan_of_known route known membership)
              (fun id _ part within => within.removeAll args)
              fun nodes parts distinct listed divided => ?_
            have placed : ∀ key, ownerIn ids key ∈ nodes := fun key =>
              (listed _).mpr (agreed.owner_mem here key).2
            have counted := Store.removeAll_parts distinct placed divided args
            have total := countFrom_ofNat nodes (fun id => ((parts id).removeAll args).1) 0
            rw [← counted, Int64.zero_add] at total
            exact total
        | acknowledge route clears =>
            subst clears
            exact service_shared holds mirrors here reachable fits present room named known
              (by decide) (fun membership => plan_of_known route known membership)
              (fun id _ part _ => Store.partOf_empty) fun nodes _ _ _ _ => acknowledgeAll_ok nodes

variable {κ : Type} [DecidableEq κ]

structure Alike (ids : List NodeId) (clients : Clients κ Cluster)
    (single : Clients κ DurableEngine) : Prop where
  shared : ∃ engines, clients.state.Holds ids engines ∧
    Mirrors ids engines single.state.engine
  selections : clients.selections = single.selections
  fits : ∀ connection, single.selections connection ≤ maxLength
  within : ∀ connection, single.selections connection < single.state.engine.count

variable {clients : Clients κ Cluster} {single : Clients κ DurableEngine} {node : κ → NodeId}

theorem call_alike (agreed : Agreed ids) (reachable : ∀ id ∈ ids, network id = .ok ())
    (alike : Alike ids clients single) {call : Call κ} (here : node call.connection ∈ ids)
    (room : call.line.Addressable) (covered : Covered ids call.line) :
    let served := clients.call (fun connection => service network (node connection)) call
    let expected := single.call (fun _ => DurableEngine.service) call
    served.1 = expected.1 ∧ Alike ids served.2 expected.2 := by
  obtain ⟨⟨engines, holds, mirrors⟩, selections, fits, within⟩ := alike
  have follows := service_covered agreed holds mirrors here reachable (fits call.connection)
    (within call.connection) room covered
  obtain ⟨reply, stays, shared⟩ := follows
  obtain ⟨replySingle, staysSingle, engineSingle, -⟩ :=
    single.state.exec_spec (single.selections call.connection) call.line
  simp only [Clients.call, DurableEngine.service, selections, replySingle, staysSingle]
  refine ⟨reply, by rwa [engineSingle], by rw [stays], fun connection => ?_, fun connection => ?_⟩
  · simp only [Selections.select]
    split
    · exact Engine.exec_selected_le (fits call.connection)
    · exact fits connection
  · simp only [Selections.select, engineSingle, Engine.exec_count]
    split
    · exact Engine.exec_selected_lt (within call.connection)
    · exact within connection

theorem callAll_alike (agreed : Agreed ids) (reachable : ∀ id ∈ ids, network id = .ok ())
    (alike : Alike ids clients single) {calls : List (Call κ)}
    (here : ∀ call ∈ calls, node call.connection ∈ ids)
    (room : ∀ call ∈ calls, call.line.Addressable)
    (covered : ∀ call ∈ calls, Covered ids call.line) :
    let served := clients.callAll (fun connection => service network (node connection)) calls
    let expected := single.callAll (fun _ => DurableEngine.service) calls
    served.1 = expected.1 ∧ Alike ids served.2 expected.2 := by
  induction calls generalizing clients single with
  | nil => exact ⟨rfl, alike⟩
  | cons call rest ih =>
      obtain ⟨reply, alikeAfter⟩ := call_alike agreed reachable alike (here call List.mem_cons_self)
        (room call List.mem_cons_self) (covered call List.mem_cons_self)
      obtain ⟨replies, alikeLast⟩ := ih alikeAfter
        (fun other mem => here other (List.mem_cons_of_mem call mem))
        (fun other mem => room other (List.mem_cons_of_mem call mem))
        fun other mem => covered other (List.mem_cons_of_mem call mem)
      exact ⟨congrArg₂ List.cons reply replies, alikeLast⟩

theorem lookup_map {β : Type} {names : List NodeId} {name : NodeId} (mem : name ∈ names)
    (value : NodeId → β) :
    (names.map fun other => (other, value other)).lookup name = some (value name) := by
  induction names with
  | nil => cases mem
  | cons first rest ih =>
      rw [List.map_cons, List.lookup_cons]
      by_cases same : name = first
      · simp [same]
      · have passed : (name == first) = false := by simpa using same
        rw [passed]
        exact ih ((List.mem_cons.mp mem).resolve_left same)

theorem opened_fresh {file? : Option Bytes} (fresh : file?.getD [] = []) (options : DurableOptions)
    (now : Time) : (DurableEngine.opened options file? now).engine = .new options.databases := by
  unfold DurableEngine.opened
  split
  · exact Log.replay_of_fresh _ fresh
  · rfl

variable {databases : Nat}

theorem Formed.holds (formed : Formed ids databases cluster) :
    cluster.Holds ids fun _ => .new databases := by
  intro id mem
  obtain ⟨options, file?, now, self, known, count, fresh, present⟩ := formed.opened id mem
  have named : ∀ peer ∈ options.peers, peer ≠ "" := fun peer listed =>
    formed.named peer ((known peer).mp (.inr listed))
  refine ⟨_, present, ⟨?_, fun other => ?_, Membership.of_nodup _ _, fun peer listed => ?_⟩, ?_⟩
  · exact (Membership.of_self _ _).trans self
  · rw [← known other, ← self, ← and_iff_left_of_imp (named other)]
    exact Membership.mem_of_nodes other
  · exact ⟨_, lookup_map listed _, Pool.new_rested (by decide)⟩
  · exact (opened_fresh fresh options.durable now).trans (by rw [count])

theorem value?_new (databases database : Nat) (key : Bytes) :
    (Engine.new databases).value? database key = none := by
  rw [Engine.value?]
  cases found : (Engine.new databases).databases[database]? with
  | none => rfl
  | some store =>
      rw [List.eq_of_mem_replicate (List.mem_of_getElem? found)]
      rfl

theorem mirrors_new (ids : List NodeId) (databases : Nat) :
    Mirrors ids (fun _ => .new databases) (.new databases) := by
  have empty : ∀ store ∈ (Engine.new databases).databases, store = ∅ := fun store mem =>
    List.eq_of_mem_replicate mem
  refine ⟨fun _ _ => rfl, fun store mem => ?_, fun id _ database part store found present => ?_⟩
  · rw [empty store mem]
    intro key value held
    cases held
  · rw [empty part (List.mem_of_getElem? found), empty store (List.mem_of_getElem? present)]
    exact Store.partOf_empty

theorem Mirrors.shares (agreed : Agreed ids) (mirrors : Mirrors ids engines whole)
    (holds : cluster.Holds ids engines) (nonempty : ids ≠ []) : Shares ids cluster whole := by
  obtain ⟨first, member⟩ := List.exists_mem_of_ne_nil ids nonempty
  refine ⟨fun id mem => ?_, fun _ key _ _ => ?_⟩
  · obtain ⟨node, present, -, engine⟩ := holds id mem
    have count := mirrors.count id mem
    rw [← engine] at count
    refine ⟨_, present, count, fun database key => ?_⟩
    have owned := (agreed.owner_mem mem key).1
    simp only [Site.durable, engine, owned, Option.some.injEq]
    cases held : whole.databases[database]? with
    | none =>
        have beyond : (engines id).databases[database]? = none := by
          have same : (engines id).databases.length = whole.databases.length :=
            mirrors.count id mem
          rw [List.getElem?_eq_none_iff] at held ⊢
          omega
        simp only [Engine.value?, held, beyond, Option.bind_none, ite_self]
    | some store =>
        obtain ⟨part, found, within⟩ := mirrors.part held mem
        simp only [Engine.value?, held, found, Option.bind_some]
        exact within key
  · obtain ⟨owned, inside⟩ := agreed.owner_mem member key
    exact ⟨_, inside, owned⟩

/-- Clients of a cluster get the replies that one engine would give them, and the nodes share out what
that engine would hold. The lines come one at a time to any nodes, and no connection fails. A command
line always has room in memory, since it was there when it was executed. -/
theorem as_one_engine {ids : List NodeId} {databases : Nat} {cluster : Cluster}
    (formed : Formed ids databases cluster) {network : Network}
    (reachable : ∀ id ∈ ids, network id = .ok ()) (node : κ → NodeId) (calls : List (Call κ))
    (here : ∀ call ∈ calls, node call.connection ∈ ids)
    (room : ∀ call ∈ calls, call.line.Addressable) (covered : ∀ call ∈ calls, Covered ids call.line)
    (options : DurableOptions) (count : options.databases = databases) (file? : Option Bytes)
    (fresh : file?.getD [] = []) (now : Time) :
    let clients : Clients κ Cluster := { state := cluster }
    let single : Clients κ DurableEngine := { state := .opened options file? now }
    let served := clients.callAll (fun connection => service network (node connection)) calls
    let expected := single.callAll (fun _ => DurableEngine.service) calls
    served.1 = expected.1 ∧ Shares ids served.2.state expected.2.state.engine := by
  intro clients single
  have start : single.state.engine = .new databases := by
    rw [← count]
    exact opened_fresh fresh options now
  by_cases nobody : ids = []
  · subst nobody
    cases calls with
    | nil =>
        refine ⟨rfl, (fun _ mem => nomatch mem), fun database key value held => ?_⟩
        have found : single.state.engine.value? database key = some value := held
        rw [start, value?_new] at found
        cases found
    | cons call rest => exact nomatch here call List.mem_cons_self
  · have alike : Alike ids clients single := by
      refine ⟨⟨_, formed.holds, ?_⟩, rfl, fun _ => Nat.zero_le _, fun _ => ?_⟩
      · rw [start]
        exact mirrors_new ids databases
      · rw [start]
        exact Engine.new_count_pos databases
    obtain ⟨replies, ⟨engines, holds, mirrors⟩, -, -, -⟩ :=
      callAll_alike formed.toAgreed reachable alike here room covered
    exact ⟨replies, mirrors.shares formed.toAgreed holds nobody⟩

theorem as_one_engine_on_two_nodes :
    let ids : List NodeId := ["n:1", "n:2"]
    let node (self : NodeId) : Site :=
      .member (.opened { self, peers := ids, durable := { databases := 2 } } none 0)
    let clients : Clients Bool Cluster := { state := ⟨ids.map fun id => (id, node id)⟩ }
    let single : Clients Bool DurableEngine := { state := .opened { databases := 2 } none 0 }
    let calls : List (Call Bool) :=
      [⟨true, selectLine 1⟩, ⟨true, [[0x73, 0x65, 0x74], [0x6B], Bytes.crlf]⟩,
        ⟨false, [[0x64, 0x65, 0x6C], [0x6B], [0x6B]]⟩, ⟨true, [[0x67, 0x65, 0x74]]⟩]
    let served := clients.callAll
      (fun client => service (fun _ => .ok ()) (if client then "n:1" else "n:2")) calls
    let expected := single.callAll (fun _ => DurableEngine.service) calls
    served.1 = expected.1 ∧ Shares ids served.2.state expected.2.state.engine := by
  intro ids node clients single calls
  have digits := Log.selectLine_addressable (show 1 ≤ maxLength by decide)
  have select : Engine.lowerName Log.selectWord = "select" := by decide +kernel
  have set : Engine.lowerName [0x73, 0x65, 0x74] = "set" := by decide +kernel
  have del : Engine.lowerName [0x64, 0x65, 0x6C] = "del" := by decide +kernel
  have get : Engine.lowerName [0x67, 0x65, 0x74] = "get" := by decide +kernel
  have formed : Formed ids 2 clients.state := by
    refine ⟨⟨by decide, ?_⟩, fun id mem => ?_⟩
    · show ∀ a ∈ ids, ∀ b ∈ ids, _ → a = b
      decide +kernel
    · refine ⟨{ self := id, peers := ids, durable := { databases := 2 } }, none, 0, rfl, ?_, rfl,
        rfl, ?_⟩
      · exact fun other => ⟨fun either => either.elim (fun same => same ▸ mem) (fun mem => mem), .inr⟩
      · rcases List.mem_pair.mp mem with rfl | rfl <;> rfl
  refine as_one_engine formed (fun _ _ => rfl) (fun client => if client then "n:1" else "n:2") calls
    (fun call _ => ?_) ?_ ?_ { databases := 2 } rfl none rfl 0
  · cases call.connection <;> decide
  · simpa [calls, selectLine, CommandLine.Addressable, Bytes.crlf, maxLength] using digits
  · simp [calls, Covered, selectLine, Log.selectLine, select, set, del, get]

end Cluster

end ShardStore
