import ShardStore.Proofs.Cluster.Parcels

namespace ShardStore

namespace Parcel.Carries

variable {issue : Issue} {parcel : Parcel} (carries : parcel.Carries issue)

include carries

theorem idle {pooled : Pooled Channel} (borrowed : parcel.stage = .borrowed pooled) :
    pooled.object.Idle := by
  have ready := carries.ready
  rwa [borrowed] at ready

theorem switched {pooled : Pooled Channel} (switched : parcel.stage = .switched pooled) :
    pooled.object.Idle ∧ pooled.object.far.selected = issue.selected := by
  have ready := carries.ready
  rwa [switched] at ready

variable (differs : parcel.receiver ≠ parcel.sender)

include differs

theorem marked : parcel.line = Route.forward issue.line := by
  have elsewhere : parcel.receiver ≠ issue.node := by rwa [← carries.sender]
  rw [carries.line, Cluster.told, if_neg elsewhere]

/-- A parcel takes its line on when its peer has selected the database. -/
theorem switch {pooled : Pooled Channel} (borrowed : parcel.stage = .borrowed pooled) :
    Carries issue { parcel with
      stage := .switched { pooled with object := pooled.object.answered parcel.selected } } :=
  { carries with
    ready := ⟨(carries.idle borrowed).answered _, carries.selected⟩
    own := fun same => absurd same differs }

theorem kept (room : issue.line.Addressable) (membership : Membership) :
    membership.plan parcel.line = .one ⟨membership.self, issue.line⟩ ∧
      (Message.ofList parcel.line).Addressable := by
  have nonempty : issue.line ≠ [] := fun empty => by
    have broadcast := carries.broadcast
    rw [empty] at broadcast
    exact broadcast
  have mark : Engine.lowerName (Text.encode Route.forwardedName) = Route.forwardedName := by
    decide +kernel
  rw [carries.marked differs]
  refine ⟨?_, Cluster.addressable_forward room⟩
  rw [Route.forward, Cluster.plan_forwarded mark, if_neg nonempty]

end Parcel.Carries

namespace Traffic

variable {κ : Type}

section Handling

variable {traffic : Traffic κ} {node : Node} {address : NodeId} {line own : CommandLine}
  (present : traffic.cluster.site? address = some (.member node))

include present

theorem handle_kept (planned : node.membership.plan line = .one ⟨node.membership.self, own⟩)
    (number selected : Nat) :
    handle number address traffic selected line = execute number address traffic selected own := by
  simp only [handle, present, planned, if_true]

theorem handle_answered {reply : Message} (planned : node.membership.plan line = .answer reply)
    (number selected : Nat) :
    handle number address traffic selected line = ⟨reply, selected, traffic⟩ := by
  simp only [handle, present, planned]

theorem handle_all {merge : Merge} (planned : node.membership.plan line = .all merge line)
    (number selected : Nat) :
    handle number address traffic selected line =
      ⟨Cluster.nobody, selected, traffic.send number address selected
        (node.membership.assignments (.all merge line))⟩ := by
  simp only [handle, present, planned]

/-- A peer executes a line that it keeps, and nothing else comes of it. -/
theorem request_kept (planned : node.membership.plan line = .one ⟨node.membership.self, own⟩)
    {channel : Channel} (idle : channel.Idle) (room : (Message.ofList line).Addressable)
    (plain : (node.durable.engine.exec channel.far.selected own).reply.Plain) (network : Network)
    (number : Nat) :
    let done := node.durable.engine.exec channel.far.selected own
    let told := { traffic with received := traffic.received ++ [⟨number, address, line⟩] }
    channel.request network (receive number address) traffic line =
      (done.reply, channel.answered done.selected,
        (execute number address told channel.far.selected own).state) := by
  intro done told
  obtain ⟨durable, ran, -⟩ := Cluster.execHere_spec present channel.far.selected own
  have there : told.cluster.site? address = some (.member node) := present
  have handled := handle_kept there planned number channel.far.selected
  have executed : receive number address traffic channel.far.selected line =
      ⟨done.reply, done.selected,
        (execute number address told channel.far.selected own).state⟩ := by
    rw [receive, handled]
    simp only [execute, told, ran, done]
  exact Channel.request_idle idle network room executed plain

theorem request_select {database : Nat} (fits : database ≤ maxLength)
    (within : database < node.durable.engine.count) {channel : Channel} (idle : channel.Idle)
    (network : Network) (number : Nat) :
    let told := { traffic with
      received := traffic.received ++ [⟨number, address, selectLine database⟩] }
    channel.request network (receive number address) traffic (selectLine database) =
      (.ok, channel.answered database,
        (execute number address told channel.far.selected (selectLine database)).state) := by
  obtain ⟨planned, short⟩ := Cluster.selectLine_kept node.membership fits
  obtain ⟨notices, executed⟩ := Engine.exec_selectLine channel.far.selected fits within
  change node.durable.engine.exec _ (selectLine database) = _ at executed
  have asked := request_kept present planned idle short (by rw [executed]; exact Message.plain_ok)
    network number
  dsimp only at asked
  rwa [executed] at asked

end Handling

theorem place_of_getElem? {parcels : List Parcel} {index : Nat} {parcel : Parcel}
    (found : parcels[index]? = some parcel) :
    ∃ front back, parcels = front ++ parcel :: back ∧
      (∀ next, parcels.set index next = front ++ [next] ++ back) ∧
      parcels.eraseIdx index = front ++ [] ++ back := by
  obtain ⟨within, same⟩ := List.getElem?_eq_some_iff.mp found
  refine ⟨parcels.take index, parcels.drop (index + 1), ?_, fun next => ?_, ?_⟩
  · rw [← same, List.getElem_cons_drop, List.take_append_drop]
  · rw [List.set_eq_take_append_cons_drop, if_pos within]
    simp
  · rw [List.eraseIdx_eq_take_drop_succ]
    simp

theorem finish_eq {traffic : Traffic κ} {parcel : Parcel} {pool : Pool Channel}
    (held : traffic.cluster.pool? parcel.sender parcel.receiver = some pool) (index : Nat)
    (pooled : Pooled Channel) : traffic.finish index parcel pooled =
      (traffic.drop index).setPool parcel (pool.giveBack pooled) := by
  have kept : (traffic.drop index).cluster.pool? parcel.sender parcel.receiver = some pool := held
  simp only [finish, kept]

section Requests

variable {traffic : Traffic κ} {node : Node} {parcel : Parcel} {pooled : Pooled Channel}
  (present : traffic.cluster.site? parcel.receiver = some (.member node))

include present

theorem switch_eq (fits : parcel.selected ≤ maxLength)
    (within : parcel.selected < node.durable.engine.count) (idle : pooled.object.Idle)
    (network : Network) (index : Nat) :
    let told := { traffic with
      received := traffic.received ++
        [⟨parcel.number, parcel.receiver, selectLine parcel.selected⟩] }
    traffic.switch network index parcel pooled =
      (execute parcel.number parcel.receiver told pooled.object.far.selected
        (selectLine parcel.selected)).state.put index { parcel with
          stage := .switched { pooled with object := pooled.object.answered parcel.selected } } := by
  intro told
  simp only [switch, request_select present fits within idle network parcel.number]
  rfl

theorem deliver_eq {issue : Issue} (carries : parcel.Carries issue)
    (differs : parcel.receiver ≠ parcel.sender) (room : issue.line.Addressable)
    (within : issue.selected < node.durable.engine.count) (idle : pooled.object.Idle)
    (selects : pooled.object.far.selected = issue.selected) (network : Network) (index : Nat) :
    let told := { traffic with
      received := traffic.received ++ [⟨parcel.number, parcel.receiver, parcel.line⟩] }
    traffic.deliver network index parcel pooled =
      (execute parcel.number parcel.receiver told pooled.object.far.selected issue.line).state.finish
        index parcel { pooled with object := pooled.object.answered issue.selected } := by
  intro told
  obtain ⟨planned, short⟩ := carries.kept differs room node.membership
  rw [← selects] at within
  obtain ⟨plain, stays⟩ := carries.broadcast.exec within
  have asked := request_kept present planned idle short plain network parcel.number
  dsimp only at asked
  rw [stays, selects] at asked
  simp only [deliver, asked, selects]
  rfl

end Requests

/-- What holds of traffic that meets no failure. -/
structure Sound (ids : List NodeId) (members : NodeId → Membership) (databases : Nat)
    (traffic : Traffic κ) : Prop where
  booked : traffic.Booked ids databases
  lends : traffic.cluster.Lends ids members databases traffic.lent
  selections : ∀ client, traffic.selections client < databases ∧
    traffic.selections client ≤ maxLength

/-- Whether a step has brought traffic nearer to its end. -/
structure Closer (ids : List NodeId) (members : NodeId → Membership) (databases : Nat)
    (traffic after : Traffic κ) : Prop where
  sound : after.Sound ids members databases
  issued : after.issued = traffic.issued
  distance : after.distance + 1 = traffic.distance

section Steps

variable {ids : List NodeId} {members : NodeId → Membership} {databases : Nat} {network : Network}
  {traffic after : Traffic κ} {index : Nat} {parcel : Parcel} {issue : Issue}

theorem Sound.closer (sound : traffic.Sound ids members databases) {next? : Option Parcel}
    {lines : List CommandLine} {deeds : List (Nat × CommandLine)}
    (moved : Moved traffic parcel next? lines deeds after)
    (found : traffic.issued[parcel.number]? = some issue)
    (carries : ∀ next ∈ next?, next.Carries issue)
    (fate : ∀ received executed, Fate issue parcel.receiver [parcel] received executed →
      Fate issue parcel.receiver next?.toList (received ++ lines) (executed ++ deeds))
    (lends : after.cluster.Lends ids members databases after.lent)
    (nearer : next?.elim 0 Parcel.distance + 1 = parcel.distance) :
    Closer ids members databases traffic after := by
  refine ⟨⟨sound.booked.moved moved found carries fate, lends, ?_⟩, moved.issued, ?_⟩
  · rw [moved.selections]
    exact sound.selections
  · have sums := moved.distance
    omega

variable (sound : traffic.Sound ids members databases)
  (found : traffic.issued[parcel.number]? = some issue) (carries : parcel.Carries issue)
  (placed : traffic.underWay[index]? = some parcel)

include sound found carries placed

/-- A node executes the line that it has given to itself. -/
theorem Sound.closer_own (here : parcel.receiver = parcel.sender) (known : parcel.receiver ∈ ids) :
    Closer ids members databases traffic
      (execute parcel.number parcel.receiver (traffic.drop index) parcel.selected
        parcel.line).state := by
  obtain ⟨front, back, before, -, erased⟩ := place_of_getElem? placed
  have waits := carries.own here
  have moved : Moved traffic parcel none [] [(parcel.selected, parcel.line)]
      (execute parcel.number parcel.receiver (traffic.drop index) parcel.selected
        parcel.line).state :=
    ⟨⟨front, back, before, erased⟩, (fun _ mem => nomatch mem), rfl, rfl,
      (List.append_nil _).symm, rfl⟩
  have mine : parcel.receiver = issue.node := here.trans carries.sender
  refine sound.closer moved found (fun _ mem => nomatch mem) (fun received executed fate => ?_) ?_ ?_
  · have line : parcel.line = issue.line := by rw [carries.line, mine, Cluster.told, if_pos rfl]
    rw [carries.selected, line]
    cases fate with
    | sent => exact .kept mine
    | switched elsewhere => exact absurd mine elsewhere
  · refine (sound.lends.execHere known parcel.selected parcel.line).perm ?_
    exact moved.lent_perm (by rw [waits]; rfl)
  · simp [Parcel.distance, here]

variable (differs : parcel.receiver ≠ parcel.sender) (there : parcel.receiver ∈ ids)

include differs there

/-- The peer selects the database of a parcel. -/
theorem Sound.closer_switch {pooled : Pooled Channel} (borrowed : parcel.stage = .borrowed pooled) :
    Closer ids members databases traffic (traffic.switch network index parcel pooled) := by
  obtain ⟨-, -, within, fits⟩ := sound.booked.issued issue (List.mem_of_getElem? found)
  obtain ⟨node, present, membership, count⟩ := sound.lends.node there
  obtain ⟨front, back, before, replaced, -⟩ := place_of_getElem? placed
  rw [← carries.selected] at within fits
  rw [← count] at within
  have idle : pooled.object.Idle := carries.idle borrowed
  let next : Parcel := { parcel with
    stage := .switched { pooled with object := pooled.object.answered parcel.selected } }
  let told : Traffic κ := { traffic with
    received := traffic.received ++
      [⟨parcel.number, parcel.receiver, selectLine parcel.selected⟩] }
  let after : Traffic κ := (execute parcel.number parcel.receiver told
    pooled.object.far.selected (selectLine parcel.selected)).state.put index next
  have stepped : traffic.switch network index parcel pooled = after :=
    switch_eq present fits within idle network index
  have moved : Moved traffic parcel (some next) [selectLine parcel.selected]
      [(pooled.object.far.selected, selectLine parcel.selected)] after :=
    ⟨⟨front, back, before, replaced next⟩, (fun _ mem => by cases mem; exact ⟨rfl, rfl, rfl⟩),
      rfl, rfl, rfl, rfl⟩
  have carried : next.Carries issue := carries.switch differs borrowed
  rw [stepped]
  refine sound.closer moved found (fun _ mem => by cases mem; exact carried)
    (fun received executed fate => ?_) ?_ ?_
  · have elsewhere : parcel.receiver ≠ issue.node := by rwa [← carries.sender]
    have stage : next.stage.Switched := trivial
    rw [carries.selected]
    cases fate with
    | sent => exact .switched elsewhere stage _
    | switched _ stage =>
        rw [borrowed] at stage
        exact stage.elim
  · refine (sound.lends.execHere there _ _).perm ?_
    exact moved.lent_perm (by rw [borrowed]; rfl)
  · simp [Parcel.distance, next, differs, borrowed]

variable (acquainted : Membership.Acquainted ids members) (here : parcel.sender ∈ ids)

include acquainted here

/-- A parcel waits if all channels to its receiver are out, and gets one of them if not. -/
theorem Sound.closer_borrow (reachable : ∀ id ∈ ids, network id = .ok ())
    (waits : parcel.stage = .waiting) :
    (traffic.lent parcel.sender parcel.receiver ≠ [] ∧
        traffic.borrow network index parcel = traffic) ∨
      Closer ids members databases traffic (traffic.borrow network index parcel) := by
  obtain ⟨pool, held, lends⟩ :=
    sound.lends.pool here (acquainted.mem_peers here there differs)
  rcases Nat.eq_zero_or_pos pool.free with exhausted | permits
  · obtain ⟨after, asked⟩ := lends.request_waits exhausted (Channel.factory network parcel.receiver)
    exact .inl ⟨fun none => absurd exhausted (Nat.ne_of_gt (lends.free_pos none)),
      by simp only [borrow, held, asked]⟩
  · obtain ⟨pooled, lent, asked, rests, lendsAfter⟩ :=
      lends.request permits (reachable parcel.receiver there)
    obtain ⟨front, back, before, replaced, -⟩ := place_of_getElem? placed
    let next : Parcel := { parcel with stage := .borrowed pooled }
    let after : Traffic κ := (traffic.setPool parcel lent).put index next
    have moved : Moved traffic parcel (some next) [] [] after :=
      ⟨⟨front, back, before, replaced next⟩, (fun _ mem => by cases mem; exact ⟨rfl, rfl, rfl⟩),
        rfl, rfl, (List.append_nil _).symm, (List.append_nil _).symm⟩
    have carried : next.Carries issue :=
      { carries with ready := rests, own := fun same => absurd same differs }
    have lending : lent.Lends (after.lent parcel.sender parcel.receiver) := by
      obtain ⟨others, out, outAfter⟩ := moved.lent_here
      rw [waits] at out
      exact lendsAfter.perm ((out.cons pooled.number).trans outAfter.symm)
    refine .inr ?_
    simp only [borrow, held, asked]
    refine sound.closer moved found (fun _ mem => by cases mem; exact carried)
      (fun received executed fate => ?_) ?_ ?_
    · rw [List.append_nil, List.append_nil]
      cases fate with
      | sent => exact .sent id
      | switched _ stage =>
          rw [waits] at stage
          exact stage.elim
    · exact sound.lends.setPool here (acquainted.mem_peers here there differs) lending
        fun sender receiver elsewhere => moved.lent_of_elsewhere elsewhere
    · simp [Parcel.distance, next, differs, waits]

/-- The peer executes the line of a parcel, and the channel is given back. -/
theorem Sound.closer_deliver {pooled : Pooled Channel} (switched : parcel.stage = .switched pooled) :
    Closer ids members databases traffic (traffic.deliver network index parcel pooled) := by
  obtain ⟨-, room, within, -⟩ := sound.booked.issued issue (List.mem_of_getElem? found)
  obtain ⟨node, present, membership, count⟩ := sound.lends.node there
  obtain ⟨front, back, before, -, erased⟩ := place_of_getElem? placed
  have elsewhere : parcel.receiver ≠ issue.node := by rwa [← carries.sender]
  obtain ⟨idle, selects⟩ := carries.switched switched
  rw [← count] at within
  let told : Traffic κ := { traffic with
    received := traffic.received ++ [⟨parcel.number, parcel.receiver, parcel.line⟩] }
  let done : Traffic κ := (execute parcel.number parcel.receiver told
    pooled.object.far.selected issue.line).state
  let returned : Pooled Channel :=
    { pooled with object := pooled.object.answered issue.selected }
  have lends := sound.lends.execHere there pooled.object.far.selected issue.line
  obtain ⟨pool, held, lending⟩ := lends.pool here (acquainted.mem_peers here there differs)
  let after : Traffic κ := (done.drop index).setPool parcel (pool.giveBack returned)
  have moved : Moved traffic parcel none [parcel.line]
      [(pooled.object.far.selected, issue.line)] after :=
    ⟨⟨front, back, before, erased⟩, (fun _ mem => nomatch mem), rfl, rfl, rfl, rfl⟩
  have stepped : traffic.deliver network index parcel pooled = after := by
    have kept : done.cluster.pool? parcel.sender parcel.receiver = some pool := held
    rw [deliver_eq present carries differs room within idle selects network index]
    exact finish_eq kept index returned
  rw [stepped]
  refine sound.closer moved found (fun _ mem => nomatch mem) (fun received executed fate => ?_) ?_ ?_
  · rw [carries.marked differs, selects]
    cases fate with
    | sent unswitched =>
        rw [switched] at unswitched
        exact absurd trivial unswitched
    | switched _ _ before => exact .relayed elsewhere before
  · refine lends.setPool here (acquainted.mem_peers here there differs) ?_
      fun sender receiver elsewhere => moved.lent_of_elsewhere elsewhere
    obtain ⟨others, out, outAfter⟩ := moved.lent_here
    rw [switched] at out
    have settled : (pool.giveBack returned).Lends others :=
      Pool.Lends.giveBack (lending.perm out) (idle.answered _)
    exact settled.perm outAfter.symm
  · simp [Parcel.distance, differs, switched]

end Steps

section Running

variable {ids : List NodeId} {members : NodeId → Membership} {databases : Nat} {network : Network}
  {traffic : Traffic κ}
  (acquainted : Membership.Acquainted ids members) (reachable : ∀ id ∈ ids, network id = .ok ())

include acquainted reachable

/-- A parcel goes a step further, unless it waits for a channel and all of them are out. -/
theorem Sound.advance (sound : traffic.Sound ids members databases) {index : Nat} {parcel : Parcel}
    (placed : traffic.underWay[index]? = some parcel) :
    Closer ids members databases traffic (traffic.advance network index) ∨
      parcel.stage = .waiting ∧ traffic.lent parcel.sender parcel.receiver ≠ [] ∧
        traffic.advance network index = traffic := by
  obtain ⟨there, issue, found, carries⟩ :=
    sound.booked.parcels parcel (List.mem_of_getElem? placed)
  have here : parcel.sender ∈ ids := by
    rw [carries.sender]
    exact (sound.booked.issued issue (List.mem_of_getElem? found)).1
  simp only [Traffic.advance, placed]
  split
  · next own => exact .inl (sound.closer_own found carries placed own there)
  · next differs =>
    cases stage : parcel.stage with
    | waiting =>
        rcases sound.closer_borrow found carries placed differs there acquainted here reachable
            stage with ⟨out, stays⟩ | closer
        · exact .inr ⟨rfl, out, stays⟩
        · exact .inl closer
    | borrowed pooled =>
        exact .inl (sound.closer_switch found carries placed differs there stage)
    | switched pooled =>
        exact .inl (sound.closer_deliver found carries placed differs there acquainted here stage)

/-- Advancing keeps traffic sound, whether there is a parcel at the place or not. -/
theorem Sound.advances (sound : traffic.Sound ids members databases) (index : Nat) :
    (traffic.advance network index).Sound ids members databases ∧
      (traffic.advance network index).issued = traffic.issued := by
  cases placed : traffic.underWay[index]? with
  | none =>
      simp only [Traffic.advance, placed, and_true]
      exact sound
  | some parcel =>
      rcases sound.advance acquainted reachable placed with closer | ⟨-, -, stays⟩
      · exact ⟨closer.sound, closer.issued⟩
      · rw [stays]
        exact ⟨sound, rfl⟩

omit acquainted reachable in
theorem stage_of_lent {sender receiver : NodeId} (out : traffic.lent sender receiver ≠ []) :
    ∃ parcel ∈ traffic.underWay, parcel.stage ≠ .waiting := by
  obtain ⟨number, mem⟩ := List.exists_mem_of_ne_nil _ out
  obtain ⟨parcel, listed, held⟩ := List.mem_filterMap.mp mem
  refine ⟨parcel, (List.mem_filter.mp listed).1, fun waits => ?_⟩
  rw [waits] at held
  cases held

/-- As long as parcels are under way, one of them can go a step further. -/
theorem Sound.progress (sound : traffic.Sound ids members databases) (busy : traffic.underWay ≠ []) :
    ∃ index, Closer ids members databases traffic (traffic.advance network index) := by
  obtain ⟨first, mem⟩ := List.exists_mem_of_ne_nil _ busy
  obtain ⟨index, placed⟩ := List.getElem?_of_mem mem
  rcases sound.advance acquainted reachable placed with closer | ⟨-, out, -⟩
  · exact ⟨index, closer⟩
  · obtain ⟨other, memOther, onItsWay⟩ := stage_of_lent out
    obtain ⟨place, placedOther⟩ := List.getElem?_of_mem memOther
    rcases sound.advance acquainted reachable placedOther with closer | ⟨waits, -⟩
    · exact ⟨place, closer⟩
    · exact absurd waits onItsWay

theorem Sound.completes (sound : traffic.Sound ids members databases) :
    ∃ steps : List Nat,
      let last := steps.foldl (Traffic.advance network) traffic
      last.Sound ids members databases ∧ last.underWay = [] ∧ last.issued = traffic.issued := by
  induction distance : traffic.distance using Nat.strong_induction_on generalizing traffic with
  | h distance ih =>
      by_cases idle : traffic.underWay = []
      · exact ⟨[], sound, idle, rfl⟩
      · obtain ⟨index, closer⟩ := sound.progress acquainted reachable idle
        have nearer := closer.distance
        obtain ⟨steps, last, done, issued⟩ := ih _ (by omega) closer.sound rfl
        exact ⟨index :: steps, last, done, issued.trans closer.issued⟩

end Running

section Issuing

variable [DecidableEq κ] {ids : List NodeId} {members : NodeId → Membership} {databases : Nat}
  {home : κ → NodeId} {traffic : Traffic κ} {call : Call κ}

/-- The parcels that a line for every node is sent in. -/
def parcelsTo (number : Nat) (issue : Issue) (nodes : List NodeId) : List Parcel :=
  nodes.map fun id =>
    { number, sender := issue.node, receiver := id, selected := issue.selected
      line := (Cluster.told issue.node issue.line id).line }

theorem filter_parcelsTo {nodes : List NodeId} (distinct : nodes.Nodup) {id : NodeId}
    (mem : id ∈ nodes) (number : Nat) (issue : Issue) :
    (parcelsTo number issue nodes).filter (fun parcel => parcel.receiver = id) =
      parcelsTo number issue [id] := by
  have once : nodes.filter (fun other => other = id) = [id] := by
    have counted := List.count_eq_one_of_mem distinct mem
    rw [List.filter_eq, counted, List.replicate_one]
  rw [parcelsTo, List.filter_map, parcelsTo]
  exact congrArg _ once

theorem issue_of_handled {served : Served (Traffic κ)}
    (handled : handle traffic.issued.length (home call.connection)
      { traffic with issued := traffic.issued ++ [traffic.issueOf home call] }
      (traffic.selections call.connection) call.line = served) :
    traffic.issue home call = { served.state with
      selections := served.state.selections.select call.connection served.selected } := by
  subst handled
  rfl

section

variable {node : Node}
  (present : traffic.cluster.site? (home call.connection) = some (.member node))

include present

theorem issue_answered {reply : Message} (planned : node.membership.plan call.line = .answer reply) :
    traffic.issue home call =
      { traffic with issued := traffic.issued ++ [traffic.issueOf home call] } := by
  let told : Traffic κ := { traffic with
    issued := traffic.issued ++ [traffic.issueOf home call] }
  have there : told.cluster.site? (home call.connection) = some (.member node) := present
  rw [issue_of_handled (handle_answered there planned _ _), Selections.select_self]

theorem issue_kept {own : CommandLine}
    (planned : node.membership.plan call.line = .one ⟨node.membership.self, own⟩) :
    let told := { traffic with issued := traffic.issued ++ [traffic.issueOf home call] }
    let served := Cluster.execHere (home call.connection) traffic.cluster
      (traffic.selections call.connection) own
    let deed : Deed :=
      ⟨traffic.issued.length, home call.connection, traffic.selections call.connection, own⟩
    traffic.issue home call = { told with
      cluster := served.state
      selections := traffic.selections.select call.connection served.selected
      executed := traffic.executed ++ [deed] } := by
  intro told served deed
  have there : told.cluster.site? (home call.connection) = some (.member node) := present
  exact issue_of_handled (handle_kept there planned _ _)

theorem issue_sent {merge : Merge} (self : node.membership.self = home call.connection)
    (distinct : node.membership.nodes.Nodup)
    (planned : node.membership.plan call.line = .all merge call.line) :
    traffic.issue home call = { traffic with
      issued := traffic.issued ++ [traffic.issueOf home call]
      underWay := traffic.underWay ++
        parcelsTo traffic.issued.length (traffic.issueOf home call) node.membership.nodes } := by
  let told : Traffic κ := { traffic with
    issued := traffic.issued ++ [traffic.issueOf home call] }
  have there : told.cluster.site? (home call.connection) = some (.member node) := present
  have handled := handle_all there planned traffic.issued.length
    (traffic.selections call.connection)
  rw [Cluster.assignments_all self distinct] at handled
  rw [issue_of_handled handled]
  simp only [send, List.map_map, told, Selections.select_self]
  rfl

end

theorem Sound.issue_all (sound : traffic.Sound ids members databases)
    (acquainted : Membership.Acquainted ids members) (here : home call.connection ∈ ids)
    (room : call.line.Addressable) (broadcast : Broadcast call.line) :
    (traffic.issue home call).Sound ids members databases ∧
      (traffic.issue home call).issued = traffic.issued ++ [traffic.issueOf home call] := by
  obtain ⟨node, present, membership, -⟩ := sound.lends.node here
  obtain ⟨merge, planned⟩ := broadcast.plan
  obtain ⟨within, fits⟩ := sound.selections call.connection
  obtain ⟨self, known, distinct⟩ := acquainted.member here membership
  let parcels := parcelsTo traffic.issued.length (traffic.issueOf home call) node.membership.nodes
  have sent : traffic.issue home call = { traffic with
      issued := traffic.issued ++ [traffic.issueOf home call]
      underWay := traffic.underWay ++ parcels } :=
    issue_sent present self distinct (planned node.membership)
  have step : Issued traffic (traffic.issueOf home call) parcels [] (traffic.issue home call) := by
    rw [sent]
    refine ⟨rfl, rfl, rfl, (List.append_nil _).symm, fun parcel mem => ?_, fun _ mem => nomatch mem⟩
    obtain ⟨id, -, rfl⟩ := List.mem_map.mp mem
    rfl
  have waits : ∀ parcel ∈ parcels, parcel.stage = .waiting := by
    intro parcel mem
    obtain ⟨id, -, rfl⟩ := List.mem_map.mp mem
    rfl
  refine ⟨⟨sound.booked.issue step ⟨here, room, within, fits⟩ ?_ ?_, ?_, ?_⟩, step.issued⟩
  · intro parcel mem
    obtain ⟨id, listed, rfl⟩ := List.mem_map.mp mem
    exact ⟨(known id).mp listed, broadcast, rfl, rfl, rfl, trivial, fun _ => rfl⟩
  · intro _
    refine ⟨rfl, fun id mem => ⟨_, filter_parcelsTo distinct ((known id).mpr mem) _ _, ?_⟩⟩
    exact fun switched => switched
  · have unchanged : (traffic.issue home call).cluster = traffic.cluster := by rw [sent]
    rw [unchanged]
    exact sound.lends.perm fun sender receiver => by rw [step.lent waits]
  · rw [sent]
    exact sound.selections

theorem Sound.issue_local (sound : traffic.Sound ids members databases)
    (here : home call.connection ∈ ids) (room : call.line.Addressable)
    (unkeyed : ¬ Cluster.Keyed call.line) (single : ¬ Broadcast call.line) :
    (traffic.issue home call).Sound ids members databases ∧
      (traffic.issue home call).issued = traffic.issued ++ [traffic.issueOf home call] := by
  obtain ⟨node, present, -, count⟩ := sound.lends.node here
  obtain ⟨within, fits⟩ := sound.selections call.connection
  have valid : (traffic.issueOf home call).node ∈ ids ∧
      (traffic.issueOf home call).line.Addressable ∧
      (traffic.issueOf home call).selected < databases ∧
      (traffic.issueOf home call).selected ≤ maxLength := ⟨here, room, within, fits⟩
  rcases Cluster.plan_local unkeyed single node.membership with ⟨reply, planned⟩ | ⟨own, planned⟩
  · have answered := issue_answered present planned
    have step : Issued traffic (traffic.issueOf home call) [] [] (traffic.issue home call) := by
      rw [answered]
      exact ⟨rfl, (List.append_nil _).symm, rfl, (List.append_nil _).symm,
        (fun _ mem => nomatch mem), (fun _ mem => nomatch mem)⟩
    refine ⟨⟨sound.booked.issue step valid (fun _ mem => nomatch mem)
      (fun broadcast => absurd broadcast single), ?_, ?_⟩, step.issued⟩
    · rw [answered]
      exact sound.lends
    · rw [answered]
      exact sound.selections
  · have executed := issue_kept present planned
    have step : Issued traffic (traffic.issueOf home call) []
        [⟨traffic.issued.length, home call.connection, traffic.selections call.connection, own⟩]
        (traffic.issue home call) := by
      rw [executed]
      refine ⟨rfl, (List.append_nil _).symm, rfl, rfl, (fun _ mem => nomatch mem),
        fun deed mem => ?_⟩
      rw [List.mem_singleton.mp mem]
    refine ⟨⟨sound.booked.issue step valid (fun _ mem => nomatch mem)
      (fun broadcast => absurd broadcast single), ?_, fun client => ?_⟩, step.issued⟩
    · have lends := sound.lends.execHere here (traffic.selections call.connection) own
      have lent := step.lent fun _ mem => nomatch mem
      rw [executed] at lent ⊢
      exact lends.perm fun sender receiver => by rw [lent]
    · obtain ⟨durable, ran, -⟩ :=
        Cluster.execHere_spec present (traffic.selections call.connection) own
      rw [← count] at within ⊢
      rw [executed]
      simp only [ran, Selections.select]
      split
      · exact ⟨Engine.exec_selected_lt within, Engine.exec_selected_le fits⟩
      · rw [count]
        exact sound.selections client

theorem Sound.issue (sound : traffic.Sound ids members databases)
    (acquainted : Membership.Acquainted ids members) (here : home call.connection ∈ ids)
    (room : call.line.Addressable) (unkeyed : ¬ Cluster.Keyed call.line) :
    (traffic.issue home call).Sound ids members databases ∧
      (traffic.issue home call).issued = traffic.issued ++ [traffic.issueOf home call] := by
  by_cases broadcast : Broadcast call.line
  · exact sound.issue_all acquainted here room broadcast
  · exact sound.issue_local here room unkeyed broadcast

end Issuing

/-- Traffic without anything under way is sound if the nodes have not lent any channel. -/
theorem sound_of_rest {ids : List NodeId} {members : NodeId → Membership} {databases : Nat}
    {cluster : Cluster} (positive : 0 < databases)
    (rests : cluster.Lends ids members databases fun _ _ => []) :
    ({ cluster } : Traffic κ).Sound ids members databases :=
  ⟨⟨nofun, nofun, nofun, nofun, nofun⟩, rests, fun _ => ⟨positive, Nat.zero_le _⟩⟩

/-- The calls among some events. -/
def calls (events : List (TrafficEvent κ)) : List (Call κ) :=
  events.filterMap fun event =>
    match event with
    | .issue call => some call
    | .advance _ => none

section

variable [DecidableEq κ] {ids : List NodeId} {members : NodeId → Membership} {databases : Nat}
  {network : Network} {home : κ → NodeId} {traffic : Traffic κ}
  (acquainted : Membership.Acquainted ids members) (reachable : ∀ id ∈ ids, network id = .ok ())

include acquainted reachable

/-- A run keeps traffic sound, and adds the lines of its calls to those that are issued. -/
theorem Sound.run (sound : traffic.Sound ids members databases) {events : List (TrafficEvent κ)}
    (valid : ∀ call ∈ calls events, home call.connection ∈ ids ∧ call.line.Addressable ∧
      ¬ Cluster.Keyed call.line) :
    (run network home traffic events).Sound ids members databases ∧
      ∃ issues, (run network home traffic events).issued = traffic.issued ++ issues ∧
        issues.length = (calls events).length := by
  induction events generalizing traffic with
  | nil => exact ⟨sound, [], (List.append_nil _).symm, rfl⟩
  | cons event rest ih =>
      cases event with
      | issue call =>
          obtain ⟨here, room, unkeyed⟩ := valid call List.mem_cons_self
          obtain ⟨next, issued⟩ := sound.issue acquainted here room unkeyed
          obtain ⟨last, issues, all, count⟩ :=
            ih next fun other mem => valid other (List.mem_cons_of_mem call mem)
          rw [issued, List.append_assoc] at all
          exact ⟨last, _, all, congrArg Nat.succ count⟩
      | advance index =>
          obtain ⟨next, issued⟩ := sound.advances acquainted reachable index
          obtain ⟨last, issues, all, count⟩ := ih next valid
          rw [issued] at all
          exact ⟨last, issues, all, count⟩

end

end Traffic

end ShardStore
