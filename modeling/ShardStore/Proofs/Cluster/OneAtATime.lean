import ShardStore.Proofs.Cluster.EveryNode

/-!
Lines under way one at a time. A cluster that handles a line and its relayed parts in one go
(`Cluster.service`) does what traffic does in which the parcels of a line go to their ends, one
after the other, before the next line comes (`Traffic.one_at_a_time`).
-/

namespace ShardStore

namespace Cluster

variable {cluster : Cluster} {node next : Node} {peer : NodeId} {channel : Channel}
  {line own : CommandLine} (present : cluster.site? peer = some (.member node))
  (idle : channel.Idle)

include present idle

/-- A peer executes a line that it keeps, and nothing else comes of it. -/
theorem request_kept (planned : node.membership.plan line = .one ⟨node.membership.self, own⟩)
    (room : (Message.ofList line).Addressable)
    (plain : (node.durable.engine.exec channel.far.selected own).reply.Plain) (network : Network)
    (hops : Nat) :
    let done := node.durable.engine.exec channel.far.selected own
    channel.request network (exec network (hops + 1) peer) cluster line =
      (done.reply, channel.answered done.selected,
        (execHere peer cluster channel.far.selected own).state) := by
  intro done
  obtain ⟨durable, ran, -⟩ := execHere_spec present channel.far.selected own
  have executed : exec network (hops + 1) peer cluster channel.far.selected line =
      ⟨done.reply, done.selected,
        (execHere peer cluster channel.far.selected own).state⟩ := by
    rw [exec_member_kept present planned]
    simp only [ran, done]
  exact Channel.request_idle idle network room executed plain

/-- A peer executes a SELECT and the line behind it. -/
theorem converse_kept {selected : Nat} (fits : selected ≤ maxLength)
    (within : selected < node.durable.engine.count)
    (presentNext :
      (execHere peer cluster channel.far.selected (selectLine selected)).state.site? peer =
        some (.member next))
    (planned : next.membership.plan line = .one ⟨next.membership.self, own⟩)
    (room : (Message.ofList line).Addressable)
    (plain : (next.durable.engine.exec selected own).reply.Plain) (network : Network)
    (hops : Nat) :
    let selecting := execHere peer cluster channel.far.selected (selectLine selected)
    let done := next.durable.engine.exec selected own
    converse network (exec network (hops + 1) peer) channel selected line cluster =
      (done.reply, (channel.answered selected).answered done.selected,
        (execHere peer selecting.state selected own).state) := by
  intro selecting done
  obtain ⟨plannedSelect, short⟩ := selectLine_kept node.membership fits
  obtain ⟨notices, executed⟩ := Engine.exec_selectLine channel.far.selected fits within
  change node.durable.engine.exec _ (selectLine selected) = _ at executed
  have asked := request_kept present idle plannedSelect short
    (by rw [executed]; exact Message.plain_ok) network hops
  dsimp only at asked
  rw [executed] at asked
  have answered := request_kept presentNext (idle.answered selected) planned room plain network hops
  have accepted : Message.ok.isError = false := rfl
  simp only [converse, asked, accepted, Bool.false_eq_true, if_false]
  exact answered

end Cluster

namespace Traffic

variable {κ : Type}

theorem finish_cluster (traffic : Traffic κ) (index : Nat) (parcel : Parcel)
    (pooled : Pooled Channel) :
    (traffic.finish index parcel pooled).cluster =
      match (traffic.cluster.pool? parcel.sender parcel.receiver).map (·.giveBack pooled) with
      | some pool => traffic.cluster.setPool parcel.sender parcel.receiver pool
      | none => traffic.cluster := by
  cases held : traffic.cluster.pool? parcel.sender parcel.receiver <;>
    simp only [finish, drop, held, setPool, Option.map]

theorem finish_rest (traffic : Traffic κ) (index : Nat) (parcel : Parcel)
    (pooled : Pooled Channel) :
    (traffic.finish index parcel pooled).underWay = traffic.underWay.eraseIdx index ∧
      (traffic.finish index parcel pooled).selections = traffic.selections := by
  simp only [finish]
  split <;> exact ⟨rfl, rfl⟩

section

variable {ids : List NodeId} {members : NodeId → Membership} {databases : Nat} {network : Network}
  {traffic : Traffic κ} {parcel : Parcel} {rest : List Parcel}
  (acquainted : Membership.Acquainted ids members) (reachable : ∀ id ∈ ids, network id = .ok ())

include acquainted reachable

theorem Sound.advancesAll (sound : traffic.Sound ids members databases) (steps : List Nat) :
    (steps.foldl (Traffic.advance network) traffic).Sound ids members databases := by
  induction steps generalizing traffic with
  | nil => exact sound
  | cons index rest ih => exact ih (sound.advances acquainted reachable index).1

/-- A parcel that has a channel and goes all its way at once is sent behind a SELECT. -/
theorem Sound.conversed (sound : traffic.Sound ids members databases)
    (placed : traffic.underWay = parcel :: rest) {pooled : Pooled Channel}
    (borrowed : parcel.stage = .borrowed pooled) (differs : parcel.receiver ≠ parcel.sender)
    (hops : Nat) :
    let conversed := Cluster.converse network (Cluster.exec network (hops + 1) parcel.receiver)
      pooled.object parcel.selected parcel.line traffic.cluster
    ∃ (done : Traffic κ) (next : Parcel),
      [0, 0].foldl (Traffic.advance network) traffic =
        done.finish 0 next { pooled with object := conversed.2.1 } ∧
      next.sender = parcel.sender ∧ next.receiver = parcel.receiver ∧
      done.cluster = conversed.2.2 ∧ done.underWay = next :: rest ∧
      done.selections = traffic.selections := by
  have mem : parcel ∈ traffic.underWay := by
    rw [placed]
    exact List.mem_cons_self
  obtain ⟨there, issue, found, carries⟩ := sound.booked.parcels parcel mem
  obtain ⟨-, room, within, fits⟩ := sound.booked.issued issue (List.mem_of_getElem? found)
  obtain ⟨node, present, -, count⟩ := sound.lends.node there
  have idle := carries.idle borrowed
  -- The peer selects the database,
  let next : Parcel := { parcel with
    stage := .switched { pooled with object := pooled.object.answered parcel.selected } }
  let told : Traffic κ := { traffic with
    received := traffic.received ++ [⟨parcel.number, parcel.receiver, selectLine parcel.selected⟩] }
  let selecting := execute parcel.number parcel.receiver told pooled.object.far.selected
    (selectLine parcel.selected)
  have first : traffic.advance network 0 = selecting.state.put 0 next := by
    rw [← carries.selected] at within fits
    rw [← count] at within
    simp only [Traffic.advance, placed, List.getElem?_cons_zero, if_neg differs, borrowed]
    exact switch_eq present fits within idle network 0
  have soundNext : (selecting.state.put 0 next).Sound ids members databases := by
    rw [← first]
    exact (sound.advances acquainted reachable 0).1
  have placedNext : (selecting.state.put 0 next).underWay = next :: rest := by
    simp [put, selecting, execute, told, placed]
  -- and executes the line.
  have carriesNext : next.Carries issue := carries.switch differs borrowed
  obtain ⟨far, presentFar, -, countFar⟩ := soundNext.lends.node there
  have presentNext : (selecting.state.put 0 next).cluster.site? next.receiver =
      some (.member far) := presentFar
  rw [← countFar] at within
  let handed : Traffic κ := { selecting.state.put 0 next with
    received := selecting.state.received ++ [⟨parcel.number, parcel.receiver, parcel.line⟩] }
  let done := (execute parcel.number parcel.receiver handed parcel.selected issue.line).state
  have second : (selecting.state.put 0 next).advance network 0 = done.finish 0 next
      { pooled with object :=
        (pooled.object.answered parcel.selected).answered parcel.selected } := by
    let switched : Pooled Channel := { pooled with object := pooled.object.answered parcel.selected }
    have selects : switched.object.far.selected = issue.selected := carries.selected
    have delivered := deliver_eq presentNext carriesNext differs room within (idle.answered _)
      selects network 0
    rw [← carries.selected] at delivered
    simp only [Traffic.advance, placedNext, List.getElem?_cons_zero]
    rw [if_neg differs]
    exact delivered
  have conversed : Cluster.converse network (Cluster.exec network (hops + 1) parcel.receiver)
      pooled.object parcel.selected parcel.line traffic.cluster =
        ((far.durable.engine.exec parcel.selected issue.line).reply,
          (pooled.object.answered parcel.selected).answered parcel.selected, done.cluster) := by
    obtain ⟨planned, short⟩ := carries.kept differs room far.membership
    obtain ⟨plain, stays⟩ := carries.broadcast.exec within
    rw [← carries.selected] at plain stays fits
    have answered := Cluster.converse_kept present idle fits
      (by rwa [count, ← countFar, carries.selected]) presentNext planned short plain network hops
    dsimp only at answered
    rw [stays] at answered
    exact answered
  refine ⟨done, next, ?_, rfl, rfl, ?_, placedNext, rfl⟩
  · rw [conversed, List.foldl_cons, first, List.foldl_cons, second, List.foldl_nil]
  · rw [conversed]

/-- A parcel for a peer that goes all its way at once is relayed. -/
theorem Sound.relayed (sound : traffic.Sound ids members databases)
    (placed : traffic.underWay = parcel :: rest)
    (waits : ∀ other ∈ traffic.underWay, other.stage = .waiting)
    (differs : parcel.receiver ≠ parcel.sender) (hops : Nat) :
    let last := [0, 0, 0].foldl (Traffic.advance network) traffic
    last.cluster = (Cluster.relay network (Cluster.exec network (hops + 1) parcel.receiver)
        parcel.sender parcel.receiver parcel.selected parcel.line traffic.cluster).2 ∧
      last.underWay = rest ∧ last.selections = traffic.selections := by
  intro last
  have mem : parcel ∈ traffic.underWay := by
    rw [placed]
    exact List.mem_cons_self
  obtain ⟨there, issue, found, carries⟩ := sound.booked.parcels parcel mem
  have known := (sound.booked.issued issue (List.mem_of_getElem? found)).1
  rw [← carries.sender] at known
  obtain ⟨pool, held, lends⟩ :=
    sound.lends.pool known (acquainted.mem_peers known there differs)
  have out : traffic.lent parcel.sender parcel.receiver = [] := by
    by_contra out
    obtain ⟨other, listed, onItsWay⟩ := stage_of_lent out
    exact onItsWay (waits other listed)
  obtain ⟨pooled, lent, asked, -, -⟩ :=
    lends.request (lends.free_pos out) (reachable parcel.receiver there)
  let borrowing : Parcel := { parcel with stage := .borrowed pooled }
  let busy : Traffic κ := (traffic.setPool parcel lent).put 0 borrowing
  have borrowed : traffic.advance network 0 = busy := by
    simp only [Traffic.advance, placed, List.getElem?_cons_zero, if_neg differs, waits parcel mem,
      borrow, held, asked, busy, borrowing]
  have soundBusy : busy.Sound ids members databases := by
    rw [← borrowed]
    exact (sound.advances acquainted reachable 0).1
  have placedBusy : busy.underWay = borrowing :: rest := by
    simp only [busy, put, setPool, placed, List.set_cons_zero]
  obtain ⟨done, next, went, sender, receiver, cluster, underWay, selections⟩ :=
    soundBusy.conversed acquainted reachable placedBusy rfl differs hops
  have whole : last = [0, 0].foldl (Traffic.advance network) (traffic.advance network 0) := rfl
  rw [borrowed, went] at whole
  rw [whole]
  refine ⟨?_, (finish_rest _ _ _ _).1.trans ?_, (finish_rest _ _ _ _).2.trans selections⟩
  · rw [finish_cluster, sender, receiver, cluster]
    simp only [Cluster.relay, held, asked]
    rfl
  · rw [underWay, List.eraseIdx_cons_zero]

/-- The first of some parcels that wait goes all its way, as the node would have asked for it. -/
theorem Sound.asked (sound : traffic.Sound ids members databases)
    (placed : traffic.underWay = parcel :: rest)
    (waits : ∀ other ∈ traffic.underWay, other.stage = .waiting) {membership : Membership}
    (self : membership.self = parcel.sender) (hops : Nat) :
    ∃ steps : List Nat,
      let last := steps.foldl (Traffic.advance network) traffic
      last.Sound ids members databases ∧ last.underWay = rest ∧
      last.selections = traffic.selections ∧
      (Cluster.ask network (hops + 1) membership parcel.sender ⟨parcel.receiver, parcel.line⟩
        (traffic.cluster, parcel.selected)).2 = (last.cluster, parcel.selected) := by
  by_cases here : parcel.receiver = parcel.sender
  · have mem : parcel ∈ traffic.underWay := by
      rw [placed]
      exact List.mem_cons_self
    obtain ⟨there, issue, found, carries⟩ := sound.booked.parcels parcel mem
    obtain ⟨-, -, within, -⟩ := sound.booked.issued issue (List.mem_of_getElem? found)
    obtain ⟨node, present, -, count⟩ := sound.lends.node there
    obtain ⟨durable, ran, -⟩ := Cluster.execHere_spec present parcel.selected parcel.line
    have line : parcel.line = issue.line := by
      rw [carries.line, Cluster.told, if_pos (here.trans carries.sender)]
    have stays : (node.durable.engine.exec parcel.selected parcel.line).selected =
        parcel.selected := by
      rw [← count, ← carries.selected] at within
      rw [line]
      exact (carries.broadcast.exec within).2
    refine ⟨[0], sound.advancesAll acquainted reachable [0], ?_⟩
    simp only [List.foldl_cons, List.foldl_nil, Traffic.advance, placed, List.getElem?_cons_zero,
      if_pos here]
    refine ⟨by simp only [execute, drop, placed, List.eraseIdx_cons_zero], rfl, ?_⟩
    rw [here] at ran
    have drops : (traffic.drop 0).cluster = traffic.cluster := rfl
    simp only [Cluster.ask, here, self, if_true, execute, drops, ran, stays]
  · obtain ⟨cluster, left, same⟩ := sound.relayed acquainted reachable placed waits here hops
    have elsewhere : ¬ parcel.receiver = membership.self := by rwa [self]
    refine ⟨[0, 0, 0], sound.advancesAll acquainted reachable _, left, same, ?_⟩
    simp only [Cluster.ask, if_neg elsewhere]
    rw [← cluster]

/-- Parcels that go their ways one after the other do what the node's assignments do. -/
theorem Sound.assigned {sender : NodeId} {selected : Nat} {parcels : List Parcel}
    (sound : traffic.Sound ids members databases) (placed : traffic.underWay = parcels)
    (waits : ∀ parcel ∈ parcels, parcel.stage = .waiting)
    (same : ∀ parcel ∈ parcels, parcel.sender = sender ∧ parcel.selected = selected)
    {membership : Membership} (self : membership.self = sender) (hops : Nat) :
    ∃ steps : List Nat,
      let last := steps.foldl (Traffic.advance network) traffic
      last.Sound ids members databases ∧ last.underWay = [] ∧
      last.selections = traffic.selections ∧
      (assignAll (Cluster.ask network (hops + 1) membership sender)
        (parcels.map fun parcel => ⟨parcel.receiver, parcel.line⟩)
        (traffic.cluster, selected)).2 = (last.cluster, selected) := by
  induction parcels generalizing traffic with
  | nil => exact ⟨[], sound, placed, rfl, rfl⟩
  | cons parcel rest ih =>
      obtain ⟨rfl, rfl⟩ := same parcel List.mem_cons_self
      obtain ⟨steps, next, left, selections, asked⟩ := sound.asked acquainted reachable placed
        (by rwa [placed]) self hops
      obtain ⟨more, last, idle, selectionsLast, answered⟩ := ih next left
        (fun other mem => waits other (List.mem_cons_of_mem parcel mem))
        fun other mem => same other (List.mem_cons_of_mem parcel mem)
      refine ⟨steps ++ more, ?_⟩
      rw [List.foldl_append]
      refine ⟨last, idle, selectionsLast.trans selections, ?_⟩
      simp only [List.map_cons, assignAll, asked, answered]

variable [DecidableEq κ] {home : κ → NodeId}

/-- A line that comes when nothing is under way, and has come to its end, has done what it does in a
cluster that handles it in one go. -/
theorem Sound.called (sound : traffic.Sound ids members databases) (quiet : traffic.underWay = [])
    {call : Call κ} (here : home call.connection ∈ ids) (room : call.line.Addressable)
    (unkeyed : ¬ Cluster.Keyed call.line) :
    let clients : Clients κ Cluster := ⟨traffic.cluster, traffic.selections⟩
    let served := clients.call (fun client => Cluster.service network (home client)) call
    ∃ steps : List Nat,
      let last := steps.foldl (Traffic.advance network) (traffic.issue home call)
      last.Sound ids members databases ∧ last.underWay = [] ∧
        served.2 = ⟨last.cluster, last.selections⟩ := by
  intro clients served
  obtain ⟨node, present, membership, -⟩ := sound.lends.node here
  obtain ⟨next, -⟩ := sound.issue acquainted here room unkeyed
  obtain ⟨hops, count⟩ := Cluster.maxHops_eq present
  by_cases broadcast : Broadcast call.line
  · obtain ⟨merge, planned⟩ := broadcast.plan
    obtain ⟨self, -, distinct⟩ := acquainted.member here membership
    have sent := issue_sent present self distinct (planned node.membership)
    let parcels := parcelsTo traffic.issued.length (traffic.issueOf home call) node.membership.nodes
    have placed : (traffic.issue home call).underWay = parcels := by
      rw [sent]
      exact congrArg (· ++ parcels) quiet
    have waits : ∀ parcel ∈ parcels, parcel.stage = .waiting := by
      intro parcel mem
      obtain ⟨id, -, rfl⟩ := List.mem_map.mp mem
      rfl
    have same : ∀ parcel ∈ parcels, parcel.sender = home call.connection ∧
        parcel.selected = traffic.selections call.connection := by
      intro parcel mem
      obtain ⟨id, -, rfl⟩ := List.mem_map.mp mem
      exact ⟨rfl, rfl⟩
    obtain ⟨steps, last, idle, selections, answered⟩ :=
      next.assigned acquainted reachable placed waits same self hops
    refine ⟨steps, last, idle, ?_⟩
    have assignments : parcels.map (fun parcel => (⟨parcel.receiver, parcel.line⟩ : Assignment)) =
        node.membership.assignments (.all merge call.line) := by
      rw [Cluster.assignments_all self distinct]
      exact List.map_map
    rw [assignments] at answered
    have unchanged : (traffic.issue home call).cluster = traffic.cluster := by rw [sent]
    have kept : (traffic.issue home call).selections = traffic.selections := by rw [sent]
    rw [unchanged] at answered
    rw [kept] at selections
    simp only [served, clients, Clients.call, Cluster.service, count, Cluster.exec_member present,
      Membership.carryOut, planned, answered, selections, Selections.select_self]
  · rcases Cluster.plan_local unkeyed broadcast node.membership with
      ⟨reply, planned⟩ | ⟨own, planned⟩
    · refine ⟨[], next, ?_, ?_⟩
      · rw [List.foldl_nil, issue_answered present planned]
        exact quiet
      · simp only [served, clients, Clients.call, Cluster.service, count,
          Cluster.exec_member_answered present planned, Selections.select_self, List.foldl_nil,
          issue_answered present planned]
    · refine ⟨[], next, ?_, ?_⟩
      · rw [List.foldl_nil, issue_kept present planned]
        exact quiet
      · simp only [served, clients, Clients.call, Cluster.service, count,
          Cluster.exec_member_kept present planned, List.foldl_nil, issue_kept present planned]

end

/-- Traffic in which the lines come one at a time, each when the one before has come to its end,
is what a cluster does with them. -/
theorem one_at_a_time [DecidableEq κ] {ids : List NodeId} {members : NodeId → Membership}
    {databases : Nat} {network : Network} (acquainted : Membership.Acquainted ids members)
    (reachable : ∀ id ∈ ids, network id = .ok ()) {traffic : Traffic κ}
    (sound : traffic.Sound ids members databases) (quiet : traffic.underWay = []) (home : κ → NodeId)
    (issues : List (Call κ))
    (valid : ∀ call ∈ issues, home call.connection ∈ ids ∧ call.line.Addressable ∧
      ¬ Cluster.Keyed call.line) :
    let clients : Clients κ Cluster := ⟨traffic.cluster, traffic.selections⟩
    let served := clients.callAll (fun client => Cluster.service network (home client)) issues
    ∃ events : List (TrafficEvent κ), calls events = issues ∧
      let last := run network home traffic events
      last.underWay = [] ∧ served.2 = ⟨last.cluster, last.selections⟩ := by
  induction issues generalizing traffic with
  | nil => exact ⟨[], rfl, quiet, rfl⟩
  | cons call rest ih =>
      obtain ⟨here, room, unkeyed⟩ := valid call List.mem_cons_self
      obtain ⟨steps, next, idle, first⟩ :=
        sound.called acquainted reachable quiet here room unkeyed
      obtain ⟨events, same, done, later⟩ :=
        ih next idle fun other mem => valid other (List.mem_cons_of_mem call mem)
      refine ⟨.issue call :: steps.map .advance ++ events, ?_, ?_⟩
      · rw [calls_append, same]
        exact congrArg (call :: · ++ rest) (calls_advances steps)
      · rw [run_append, show run network home traffic (.issue call :: steps.map .advance) =
          steps.foldl (advance network) (traffic.issue home call) from run_advances _ _ _ steps]
        refine ⟨done, ?_⟩
        rw [← later]
        simp only [Clients.callAll, first]

end Traffic

end ShardStore
