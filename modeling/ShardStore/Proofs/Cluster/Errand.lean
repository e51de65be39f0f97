import ShardStore.Cluster
import ShardStore.Proofs.Cluster.Relaying
import ShardStore.Proofs.Peering.Answering

/-!
Lines that go to a peer behind a SELECT, whatever happens to the link meanwhile. The database that a
connection has selected is lost with the connection, and a link that dials again does not select it
anew. So the peer executes the line on the client's database if SELECT and line are written on one
connection, and on database 0 if they are not (`Errand.database_of_line`).
-/

namespace ShardStore

/-- A SELECT that is not refused selects its database. -/
theorem Engine.exec_selectLine_accepted {engine : Engine} {selected database : Nat}
    (accepted : (engine.exec selected (selectLine database)).reply.isError = false) :
    (engine.exec selected (selectLine database)).selected = database := by
  have named : lowerName Log.selectWord = "select" := by decide +kernel
  simp only [exec, selectLine, Log.selectLine, if_pos named] at accepted ⊢
  cases allowed : engine.selectIndex [Text.Decimal.ofNat database] with
  | error failure =>
      rw [allowed] at accepted
      cases accepted
  | ok index => exact eq_of_selectIndex_ofNat allowed

namespace Cluster

variable {cluster : Cluster}

theorem execHere_shown {address : NodeId} {site : Site}
    (present : cluster.site? address = some site) (selected : Nat) (line : CommandLine) :
    (execHere address cluster selected line).reply =
        (site.durable.engine.exec selected line).reply ∧
      (execHere address cluster selected line).selected =
        (site.durable.engine.exec selected line).selected := by
  obtain ⟨reply, shown, -, -⟩ := site.durable.exec_spec selected line
  simp only [execHere, present, DurableEngine.service, reply, shown, and_self]

/-- A line that nodes keep for themselves is executed where it comes in. -/
theorem exec_kept {line : CommandLine}
    (kept : ∀ membership : Membership, membership.plan line = .one ⟨membership.self, line⟩)
    (network : Network) (hops : Nat) (address : NodeId) (selected : Nat) :
    exec network (hops + 1) address cluster selected line =
      if (cluster.site? address).isSome then execHere address cluster selected line
      else ⟨nobody, selected, cluster⟩ := by
  cases present : cluster.site? address with
  | none => simp [exec, present]
  | some site =>
      cases site with
      | single durable => simp [exec, present]
      | member node =>
          rw [exec_member_kept present (kept node.membership), Option.isSome_some, if_pos rfl]

theorem plan_heartbeat (membership : Membership) :
    membership.plan Link.heartbeatLine = .one ⟨membership.self, Link.heartbeatLine⟩ := by
  have named : Engine.lowerName [0x50, 0x49, 0x4E, 0x47] = "ping" := by decide +kernel
  have route : Route.named? "ping" = some .here := by decide
  have known : Command.lookup "ping" 1 = .ok .ping := by decide +kernel
  simp only [Membership.plan, Link.heartbeatLine, named, route, List.length_singleton, known]
  rfl

/-- A SELECT selects its database, at whatever node it comes in, if it is not refused. -/
theorem exec_selectLine {network : Network} {hops : Nat} {address : NodeId} {selected database : Nat}
    (accepted :
      (exec network hops address cluster selected (selectLine database)).reply.isError = false) :
    (exec network hops address cluster selected (selectLine database)).selected = database := by
  have named : Engine.lowerName Log.selectWord = "select" := by decide +kernel
  have kept (membership : Membership) : membership.plan (selectLine database) =
      .one ⟨membership.self, selectLine database⟩ := plan_select named membership _
  cases hops with
  | zero => cases accepted
  | succ hops =>
      rw [exec_kept kept] at accepted ⊢
      split at accepted
      · rename_i found
        obtain ⟨site, present⟩ := Option.isSome_iff_exists.mp found
        obtain ⟨reply, shown⟩ := execHere_shown present selected (selectLine database)
        rw [if_pos found, shown]
        rw [reply] at accepted
        exact Engine.exec_selectLine_accepted accepted
      · cases accepted

theorem exec_heartbeat (network : Network) (hops : Nat) (address : NodeId) (selected : Nat) :
    (exec network hops address cluster selected Link.heartbeatLine).selected = selected := by
  cases hops with
  | zero => rfl
  | succ hops =>
      rw [exec_kept plan_heartbeat]
      split
      · rename_i found
        obtain ⟨site, present⟩ := Option.isSome_iff_exists.mp found
        rw [(execHere_shown present selected _).2]
        exact Engine.exec_selected_of_unlike_select (.inl (by decide))
      · rfl

end Cluster

/-- What happens to a link over which a line goes behind a SELECT of its database. The link is lent
out for that long, so that nobody else makes requests between the two. -/
structure Errand where
  database : Nat
  line : CommandLine
  before : List LinkEvent
  between : List LinkEvent
  after : List LinkEvent
  lent : ∀ other, .submit other ∉ between

namespace Errand

open Link

variable {errand : Errand} {peer : NodeId}

/-- The events up to the moment at which the line is sent. -/
def start (errand : Errand) : List LinkEvent :=
  errand.before ++ .submit (selectLine errand.database) :: errand.between

def events (errand : Errand) : List LinkEvent :=
  errand.start ++ .submit errand.line :: errand.after

def trace (errand : Errand) (peer : NodeId) : List LinkEffects :=
  ((opened peer).run errand.events).1

/-- The link to which the SELECT goes. -/
def asking (errand : Errand) (peer : NodeId) : Link :=
  ((opened peer).run errand.before).2

/-- The link to which the line goes. -/
def sending (errand : Errand) (peer : NodeId) : Link :=
  ((opened peer).run errand.start).2

/-- Whether the SELECT and the line are sent, as requests of some numbers. The line is sent when the
reply to the SELECT is there, and is not an error. -/
structure Sent (errand : Errand) (peer : NodeId) (select line : Nat) : Prop where
  asked : ((errand.asking peer).submit (selectLine errand.database)).1 = .ok select
  accepted : ∃ reply : Message, reply.isError = false ∧
    ⟨select, .ok reply⟩ ∈ completionsIn ((opened peer).run errand.start).1
  sent : ((errand.sending peer).submit errand.line).1 = .ok line

theorem submit_ok {link : Link} {line : CommandLine} {number : Nat}
    (taken : (link.submit line).1 = .ok number) :
    number = link.next ∧
      (link.step (.submit line)).2.pending = link.pending ++ [⟨number, line⟩] ∧
      (link.step (.submit line)).2.next = number + 1 := by
  simp only [Link.step, completing]
  unfold Link.submit at taken ⊢
  split at taken
  · cases taken
  · rename_i opened
    cases taken
    rw [if_neg opened]
    exact ⟨rfl, rfl, rfl⟩

theorem writtenIn_submit (link : Link) (line : CommandLine) (past later : List LinkEffects) :
    writtenIn (past ++ (link.step (.submit line)).1 :: later) =
      writtenIn past ++ writtenIn later := by
  simp only [writtenIn, List.flatMap_append, List.flatMap_cons]
  rfl

theorem run_start (errand : Errand) (peer : NodeId) :
    (opened peer).run errand.start =
      (((opened peer).run errand.before).1 ++
          ((errand.asking peer).step (.submit (selectLine errand.database))).1 ::
          (((errand.asking peer).step (.submit (selectLine errand.database))).2.run
            errand.between).1,
        (((errand.asking peer).step (.submit (selectLine errand.database))).2.run
          errand.between).2) := by
  rw [start, run_append]
  rfl

theorem trace_eq (errand : Errand) (peer : NodeId) :
    errand.trace peer = ((opened peer).run errand.start).1 ++
      ((errand.sending peer).step (.submit errand.line)).1 ::
      (((errand.sending peer).step (.submit errand.line)).2.run errand.after).1 := by
  rw [trace, events, run_append]
  rfl

section Requests

variable {select line : Nat} (sent : errand.Sent peer select line)
  (solicited : Solicited (errand.trace peer))

include solicited

theorem ledger_start : Ledger ((opened peer).run errand.start).1 (errand.sending peer) := by
  apply (Ledger.opened peer).run
  intro past begins
  apply solicited past (begins.trans _)
  rw [trace_eq]
  exact List.prefix_append _ _

theorem ledger_before : Ledger ((opened peer).run errand.before).1 (errand.asking peer) := by
  apply (Ledger.opened peer).run
  intro past begins
  apply solicited past (begins.trans _)
  rw [trace_eq, run_start]
  exact (List.prefix_append _ _).trans (List.prefix_append _ _)

include sent

/-- Of the requests made before the line, those behind the SELECT are heartbeats. -/
theorem request_at_start {request : LinkRequest}
    (mem : request ∈ writtenIn ((opened peer).run errand.start).1 ++
      (errand.sending peer).pending) :
    request.number < line ∧ (request.number < select ∨
      request = ⟨select, selectLine errand.database⟩ ∨
      (select < request.number ∧ request.line = heartbeatLine)) := by
  obtain ⟨lineNumber, -⟩ := submit_ok sent.sent
  obtain ⟨selectNumber, pending, next⟩ := submit_ok sent.asked
  refine ⟨?_, ?_⟩
  · rw [lineNumber]
    exact (ledger_start solicited).tally.below request mem
  have old : ∀ request ∈ writtenIn ((opened peer).run errand.before).1 ++
      (errand.asking peer).pending, request.number < select := by
    rw [selectNumber]
    exact (ledger_before solicited).tally.below
  rw [sending, run_start, writtenIn_submit, List.append_assoc] at mem
  rcases List.mem_append.mp mem with before | behind
  · exact .inl (old request (List.mem_append_left _ before))
  rcases made_in_run.2 request behind with held | ⟨number, event, inBetween, made⟩
  · rw [pending] at held
    rcases List.mem_append.mp held with before | new
    · exact .inl (old request (List.mem_append_right _ before))
    · exact .inr (.inl (List.mem_singleton.mp new))
  · rw [next] at number
    refine .inr (.inr ⟨number, ?_⟩)
    rcases made with rfl | ⟨-, heartbeat⟩
    · exact absurd inBetween (errand.lent _)
    · exact heartbeat

omit solicited in
theorem select_lt_line : select < line := by
  obtain ⟨lineNumber, -⟩ := submit_ok sent.sent
  obtain ⟨-, -, next⟩ := submit_ok sent.asked
  rw [lineNumber, sending, run_start]
  have later := (@made_in_run ((errand.asking peer).step
    (.submit (selectLine errand.database))).2 errand.between).1
  rw [next] at later
  exact later

theorem request_of_trace {request : LinkRequest} (mem : request ∈ writtenIn (errand.trace peer)) :
    (request.number < line ∧ (request.number < select ∨
      request = ⟨select, selectLine errand.database⟩ ∨
      (select < request.number ∧ request.line = heartbeatLine))) ∨
    request = ⟨line, errand.line⟩ ∨ line < request.number := by
  obtain ⟨-, pending, next⟩ := submit_ok sent.sent
  rw [trace_eq, writtenIn_submit] at mem
  rcases List.mem_append.mp mem with before | behind
  · exact .inl (request_at_start sent solicited (List.mem_append_left _ before))
  rcases made_in_run.2 request (List.mem_append_left _ behind) with held | ⟨number, -⟩
  · rw [pending] at held
    rcases List.mem_append.mp held with before | new
    · exact .inl (request_at_start sent solicited (List.mem_append_right _ before))
    · exact .inr (.inl (List.mem_singleton.mp new))
  · rw [next] at number
    exact .inr (.inr number)

theorem heartbeat_of_between {request : LinkRequest} (mem : request ∈ writtenIn (errand.trace peer))
    (behind : select < request.number) (before : request.number < line) :
    request.line = heartbeatLine := by
  rcases request_of_trace sent solicited mem with ⟨-, less | rfl | ⟨-, heartbeat⟩⟩ | rfl | beyond
  · exact absurd less (Nat.not_lt_of_lt behind)
  · exact absurd behind (Nat.lt_irrefl _)
  · exact heartbeat
  · exact absurd before (Nat.lt_irrefl _)
  · exact absurd beyond (Nat.not_lt_of_lt before)

end Requests

/-- Heartbeats alone stand between the SELECT and the line, on the connection of the line. -/
theorem heartbeat_at {select line : Nat} (sent : errand.Sent peer select line)
    (solicited : Solicited (errand.trace peer)) {generation place between : Nat}
    {request other : LinkRequest}
    (written : (writtenOn generation (errand.trace peer))[place]? = some request)
    (named : request.number = line) (earlier : between < place)
    (found : (writtenOn generation (errand.trace peer))[between]? = some other)
    (behind : select < other.number) : other.line = heartbeatLine := by
  have mem := (writtenOn_sublist _ _).subset (List.mem_of_getElem? found)
  apply heartbeat_of_between sent solicited mem behind
  rw [← named]
  exact number_lt_of_place solicited earlier found written

section Selection

variable {network : Network} {hops : Nat} {states : Nat → Nat → Cluster}

/-- The SELECT of an errand selects its database at the peer, on the connection that it is written
on. -/
theorem selected_behind_select {select line : Nat} (sent : errand.Sent peer select line)
    (answered : Answered (Cluster.exec network hops peer) states (errand.trace peer)) :
    ∃ generation place,
      (writtenOn generation (errand.trace peer))[place]? =
          some ⟨select, selectLine errand.database⟩ ∧
        databaseAt (Cluster.exec network hops peer) (states generation)
          ((writtenOn generation (errand.trace peer)).map LinkRequest.line) (place + 1) =
            errand.database := by
  obtain ⟨reply, accepted, mem⟩ := sent.accepted
  have completed : ⟨select, .ok reply⟩ ∈ completionsIn (errand.trace peer) := by
    rw [trace_eq, completionsIn, List.flatMap_append]
    exact List.mem_append_left _ mem
  obtain ⟨generation, place, request, written, number, rfl⟩ := answered.reply_eq completed
  change (writtenOn generation (errand.trace peer))[place]? = some request at written
  have isSelect : request = ⟨select, selectLine errand.database⟩ := by
    have order := select_lt_line sent
    have mem := (writtenOn_sublist _ _).subset (List.mem_of_getElem? written)
    rcases request_of_trace sent answered.solicited mem with
      ⟨-, less | same | ⟨more, -⟩⟩ | rfl | behind
    · exact absurd number (Nat.ne_of_lt less)
    · exact same
    · exact absurd number.symm (Nat.ne_of_lt more)
    · exact absurd number.symm (Nat.ne_of_lt order)
    · exact absurd number.symm (Nat.ne_of_lt (Nat.lt_trans order behind))
  subst isSelect
  have inLines : ((writtenOn generation (errand.trace peer)).map LinkRequest.line)[place]? =
      some (selectLine errand.database) := by
    rw [List.getElem?_map, written, Option.map_some]
  refine ⟨generation, place, written, ?_⟩
  rw [databaseAt_succ inLines]
  exact Cluster.exec_selectLine accepted

/-- Heartbeats between two places leave the database that is selected at the first. -/
theorem database_kept {generation first place : Nat} (later : first ≤ place)
    (heartbeats : ∀ between request, first ≤ between → between < place →
      (writtenOn generation (errand.trace peer))[between]? = some request →
      request.line = heartbeatLine) :
    databaseAt (Cluster.exec network hops peer) (states generation)
        ((writtenOn generation (errand.trace peer)).map LinkRequest.line) place =
      databaseAt (Cluster.exec network hops peer) (states generation)
        ((writtenOn generation (errand.trace peer)).map LinkRequest.line) first := by
  apply databaseAt_of_kept later
  intro between line low high found state selected
  rw [List.getElem?_map, Option.map_eq_some_iff] at found
  obtain ⟨request, written, rfl⟩ := found
  rw [heartbeats between request low high written]
  exact Cluster.exec_heartbeat network hops peer selected

end Selection

/-- The peer executes the line of an errand on the database of the errand if the line is written on
the connection on which the SELECT was, and else on database 0. -/
theorem database_of_line {errand : Errand} {peer : NodeId} {select line : Nat}
    (sent : errand.Sent peer select line) {network : Network} {hops : Nat}
    {states : Nat → Nat → Cluster}
    (answered : Answered (Cluster.exec network hops peer) states (errand.trace peer))
    {generation place : Nat} {request : LinkRequest}
    (written : (writtenOn generation (errand.trace peer))[place]? = some request)
    (named : request.number = line) :
    request.line = errand.line ∧ ∃ first position : Nat,
      (writtenOn first (errand.trace peer))[position]? =
        some ⟨select, selectLine errand.database⟩ ∧
      first ≤ generation ∧
      databaseAt (Cluster.exec network hops peer) (states generation)
          ((writtenOn generation (errand.trace peer)).map LinkRequest.line) place =
        if first = generation then errand.database else 0 := by
  have solicited := answered.solicited
  have order := select_lt_line sent
  obtain ⟨first, position, asked, selected⟩ := selected_behind_select sent answered
  have isLine : request.line = errand.line := by
    have mem := (writtenOn_sublist _ _).subset (List.mem_of_getElem? written)
    rcases request_of_trace sent solicited mem with ⟨less, -⟩ | rfl | more
    · exact absurd named (Nat.ne_of_lt less)
    · rfl
    · exact absurd named.symm (Nat.ne_of_lt more)
  have notEarlier : first ≤ generation := by
    by_contra earlier
    have less := number_lt_of_later solicited (Nat.not_le.mp earlier)
      (List.mem_of_getElem? written) (List.mem_of_getElem? asked)
    rw [named] at less
    exact Nat.lt_asymm order less
  refine ⟨isLine, first, position, asked, notEarlier, ?_⟩
  split
  · rename_i same
    subst same
    have behind : position < place := by
      rcases Nat.lt_trichotomy position place with behind | rfl | ahead
      · exact behind
      · rw [asked, Option.some.injEq] at written
        rw [← written] at named
        exact absurd named (Nat.ne_of_lt order)
      · have less := number_lt_of_place solicited ahead written asked
        rw [named] at less
        exact absurd less (Nat.lt_asymm order)
    rw [← selected]
    apply database_kept (Nat.succ_le_of_lt behind)
    intro between other low high found
    exact heartbeat_at sent solicited written named high found
      (number_lt_of_place solicited low asked found)
  · rename_i differs
    have later := Nat.lt_of_le_of_ne notEarlier differs
    -- Nothing but heartbeats came on this connection before the line.
    apply database_kept (Nat.zero_le place)
    intro between other _ high found
    exact heartbeat_at sent solicited written named high found
      (number_lt_of_later solicited later (List.mem_of_getElem? asked)
        (List.mem_of_getElem? found))

/-- A SELECT and a line on one connection, with a heartbeat in between. -/
theorem database_of_line_behind_heartbeat :
    let ids : List NodeId := ["n:1", "n:2"]
    let node (self : NodeId) : Site :=
      .member (.opened { self, peers := ids, durable := { databases := 2 } } none 0)
    let cluster : Cluster := ⟨ids.map fun id => (id, node id)⟩
    let service := Cluster.exec (fun _ => .ok ()) 3 "n:2"
    let errand : Errand := {
      database := 1
      line := [[0x73, 0x65, 0x74], [0x61], [0x76]]
      before := []
      between := [.heartbeat, .transmit, .transmit, .receive [0x2B, 0x4F, 0x4B, 0x0D, 0x0A]]
      after := [.transmit]
      lent := by simp }
    let trace := errand.trace "n:2"
    errand.Sent "n:2" 1 3 ∧ Answered service (fun _ _ => cluster) trace ∧
      (writtenOn 0 trace)[2]? = some ⟨3, errand.line⟩ ∧ ∃ first position : Nat,
        (writtenOn first trace)[position]? = some ⟨1, selectLine 1⟩ ∧ first ≤ 0 ∧
        databaseAt service (fun _ => cluster) ((writtenOn 0 trace).map LinkRequest.line) 2 =
          if first = 0 then 1 else 0 := by
  intro ids node cluster service errand trace
  have sent : errand.Sent "n:2" 1 3 :=
    ⟨by decide +kernel, ⟨.ok, rfl, by decide +kernel⟩, by decide +kernel⟩
  have answered : Answered service (fun _ _ => cluster) trace := by decide +kernel
  have written : (writtenOn 0 trace)[2]? = some ⟨3, errand.line⟩ := by decide +kernel
  exact ⟨sent, answered, written, (database_of_line sent answered written rfl).2⟩

/-- The connection is lost between the reply to the SELECT and the line, and the line goes out on the
next one, on which nothing is selected: the peer executes it on database 0, and not on database 1. -/
theorem database_lost :
    let ids : List NodeId := ["n:1", "n:2"]
    let node (self : NodeId) : Site :=
      .member (.opened { self, peers := ids, durable := { databases := 2 } } none 0)
    let cluster : Cluster := ⟨ids.map fun id => (id, node id)⟩
    let service := Cluster.exec (fun _ => .ok ()) 3 "n:2"
    let errand : Errand := {
      database := 1
      line := [[0x73, 0x65, 0x74], [0x61], [0x76]]
      before := []
      between := [.transmit, .receive [0x2B, 0x4F, 0x4B, 0x0D, 0x0A], .hangUp, .redial true]
      after := [.transmit]
      lent := by simp }
    let trace := errand.trace "n:2"
    let database :=
      databaseAt service (fun _ => cluster) ((writtenOn 1 trace).map LinkRequest.line) 0
    let executed := (service cluster database errand.line).state.site? "n:2"
    errand.Sent "n:2" 1 2 ∧ Answered service (fun _ _ => cluster) trace ∧
      (writtenOn 1 trace)[0]? = some ⟨2, errand.line⟩ ∧ database ≠ errand.database ∧
      executed.map (fun site => (site.durable.engine.value? 0 [0x61],
        site.durable.engine.value? 1 [0x61])) = some (some [0x76], none) := by
  intro ids node cluster service errand trace database executed
  have sent : errand.Sent "n:2" 1 2 :=
    ⟨by decide +kernel, ⟨.ok, rfl, by decide +kernel⟩, by decide +kernel⟩
  exact ⟨sent, by decide +kernel, by decide +kernel, by decide +kernel, by decide +kernel⟩

end Errand

end ShardStore
