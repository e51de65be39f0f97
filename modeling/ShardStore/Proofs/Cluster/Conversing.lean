import ShardStore.Proofs.Cluster.Errand

namespace ShardStore

theorem LinkError.reply_isError (failure : LinkError) : failure.reply.isError = true := by
  cases failure <;> rfl

namespace Channel

variable {channel : Channel}

def Incident.event : Incident → LinkEvent
  | .hangUp => .hangUp
  | .redial succeeded => .redial succeeded

theorem suffer_link (incident : Incident) :
    (channel.suffer incident).link = (channel.link.step incident.event).2 := by
  cases incident with
  | hangUp => rfl
  | redial succeeded =>
      simp only [suffer, Incident.event]
      split <;> rfl

theorem suffer_run (incidents : List Incident) :
    (incidents.foldl suffer channel).link =
      (channel.link.run (incidents.map Incident.event)).2 := by
  induction incidents generalizing channel with
  | nil => rfl
  | cons incident rest ih =>
      rw [List.foldl_cons, ih, suffer_link]
      rfl

theorem restore_run (channel : Channel) (network : Network) : ∃ incidents : List Incident,
    (channel.restore network).link = (channel.link.run (incidents.map Incident.event)).2 := by
  unfold restore
  split
  · exact ⟨[.redial true], suffer_run [.redial true]⟩
  · exact ⟨_, suffer_run _⟩
  · exact ⟨[], rfl⟩

theorem submit_not_mem_incidents (incidents : List Incident) (line : CommandLine) :
    .submit line ∉ incidents.map Incident.event := by
  intro mem
  obtain ⟨incident, -, same⟩ := List.mem_map.mp mem
  cases incident <;> cases same

theorem mem_of_outcome {number : Nat} {completions : List Completion} {reply : Message}
    (found : outcome number completions = .ok reply) : ⟨number, .ok reply⟩ ∈ completions := by
  unfold outcome at found
  split at found
  · rename_i completion here
    have named := List.find?_some here
    rw [beq_iff_eq] at named
    rw [← named, ← found]
    exact List.mem_of_find?_eq_some here
  · cases found

/-- A request is a run of its link in which nothing else is submitted. A reply that is no error comes
from the peer. -/
theorem request_run {σ : Type} (channel : Channel) (network : Network) (service : Service σ)
    (state : σ) (line : CommandLine) :
    ∃ events : List LinkEvent, (∀ other, .submit other ∉ events) ∧
      let requested := channel.request network service state line
      let run := channel.link.run (.submit line :: events)
      requested.2.1.link = run.2 ∧ (requested.1.isError = false →
        ∃ number, (channel.link.submit line).1 = .ok number ∧
          ⟨number, .ok requested.1⟩ ∈ Link.completionsIn run.1) := by
  obtain ⟨link, far⟩ := channel
  rcases submitted : link.submit line with ⟨failure | number, used⟩
  · refine ⟨[], fun _ => List.not_mem_nil, ?_⟩
    simp only [request, submitted, Link.run, Link.step, Link.completing]
    refine ⟨trivial, fun plain => ?_⟩
    rw [LinkError.reply_isError] at plain
    cases plain
  · let transmitted := used.transmit none
    let received := far.receive service state (transmitted.1.elim [] LinkRequest.bytes)
    let answered := transmitted.2.2.receive (Server.written received.1)
    obtain ⟨incidents, restored⟩ := restore_run ⟨answered.2, received.2.1⟩ network
    refine ⟨.transmit :: .receive (Server.written received.1) :: incidents.map Incident.event,
      ?_, ?_⟩
    · simp [submit_not_mem_incidents]
    · simp only [request, submitted, Link.run, Link.step, Link.completing]
      refine ⟨restored, fun plain => ⟨number, rfl, ?_⟩⟩
      split at plain
      · rename_i reply found
        have mem := mem_of_outcome found
        simp only [Link.completionsIn, List.flatMap_cons, List.nil_append, ← List.append_assoc]
        exact List.mem_append_left _ mem
      · rw [LinkError.reply_isError] at plain
        cases plain

end Channel

namespace Cluster

open Link

/-- What a node does to a link to send a line is an errand. The line is sent if the SELECT before it
is answered without an error, and else nothing more happens. -/
theorem converse_errand {channel : Channel} {peer : NodeId} {before : List LinkEvent}
    (lent : channel.link = ((opened peer).run before).2) (network : Network)
    (service : Service Cluster) (selected : Nat) (line : CommandLine) (cluster : Cluster) :
    ∃ errand : Errand,
      errand.database = selected ∧ errand.line = line ∧ errand.before = before ∧
      let link := (converse network service channel selected line cluster).2.1.link
      (link = errand.sending peer ∨ (link = ((opened peer).run errand.events).2 ∧
        ∃ number reply, reply.isError = false ∧
          ((errand.asking peer).submit (selectLine selected)).1 = .ok number ∧
          ⟨number, .ok reply⟩ ∈ completionsIn ((opened peer).run errand.start).1)) := by
  obtain ⟨between, alone, asked, accepted⟩ :=
    channel.request_run network service cluster (selectLine selected)
  rcases first : channel.request network service cluster (selectLine selected) with
    ⟨reply, waiting, state⟩
  obtain ⟨after, -, sent, -⟩ := waiting.request_run network service state line
  let errand : Errand := ⟨selected, line, before, between, after, alone⟩
  refine ⟨errand, rfl, rfl, rfl, ?_⟩
  have started : (opened peer).run errand.start =
      (((opened peer).run before).1 ++
          (channel.link.run (.submit (selectLine selected) :: between)).1,
        (channel.link.run (.submit (selectLine selected) :: between)).2) := by
    rw [Errand.start, run_append, ← lent]
  simp only [first] at asked accepted
  have standing : errand.sending peer = waiting.link := by
    rw [Errand.sending, started, asked]
  simp only [converse, first]
  split
  · exact .inl standing.symm
  · rename_i plain
    rw [Bool.not_eq_true] at plain
    obtain ⟨number, taken, mem⟩ := accepted plain
    refine .inr ⟨?_, number, reply, plain, ?_, ?_⟩
    · rw [Errand.events, run_append, sent]
      exact congrArg (fun link => (Link.run link (.submit line :: after)).2) standing.symm
    · rw [Errand.asking, ← lent]
      exact taken
    · rw [started, completionsIn, List.flatMap_append]
      exact List.mem_append_right _ mem

end Cluster

end ShardStore
