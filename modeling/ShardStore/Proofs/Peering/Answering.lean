import ShardStore.Proofs.Peering.Requests
import ShardStore.Proofs.Server.Selection

namespace ShardStore.Link

variable {σ : Type} {service : Service σ} {states : Nat → Nat → σ} {trace : List LinkEffects}

/-- Whether the replies that come in on each connection are the first of those that a peer gives to
the lines written on it, which it executes by a service in the states that it is in by then. -/
def Answered (service : Service σ) (states : Nat → Nat → σ) (trace : List LinkEffects) : Prop :=
  ∀ past, past <+: trace → ∀ generation, repliesOn generation past <+:
    answersTo service (states generation) ((writtenOn generation past).map LinkRequest.line)

theorem answered_iff :
    Answered service states trace ↔ ∀ past ∈ trace.inits, ∀ effects ∈ past,
      repliesOn effects.generation past <+: answersTo service (states effects.generation)
        ((writtenOn effects.generation past).map LinkRequest.line) := by
  apply forall_prefix_iff
  intro generation past none
  rw [none]
  exact List.nil_prefix

instance (service : Service σ) (states : Nat → Nat → σ) (trace : List LinkEffects) :
    Decidable (Answered service states trace) :=
  decidable_of_iff _ answered_iff.symm

theorem Answered.solicited (answered : Answered service states trace) : Solicited trace := by
  intro past begins generation
  have shorter := (answered past begins generation).length_le
  simpa [answersTo] using shorter

/-- A request that is completed with a reply is completed with the peer's answer to its own line. -/
theorem Answered.reply_eq {address : NodeId} {events : List LinkEvent}
    (answered : Answered service states ((opened address).run events).1) {number : Nat}
    {reply : Message} (mem : ⟨number, .ok reply⟩ ∈ completionsIn ((opened address).run events).1) :
    ∃ generation place request,
      (writtenOn generation ((opened address).run events).1)[place]? = some request ∧
      request.number = number ∧
      reply = (service (states generation place)
        (databaseAt service (states generation)
          ((writtenOn generation ((opened address).run events).1).map LinkRequest.line) place)
        request.line).reply := by
  obtain ⟨now, here, mem⟩ := List.mem_flatMap.mp mem
  obtain ⟨past, later, split⟩ := List.append_of_mem here
  obtain ⟨link, event, ledger, rfl, enough⟩ := ledger_at answered.solicited split
  obtain ⟨place, request, found, written, number⟩ := ledger.only enough mem
  have moment : past ++ [(link.step event).1] <+: ((opened address).run events).1 := by
    rw [split]
    exact ⟨later, (List.append_cons ..).symm⟩
  have replied : (repliesOn link.generation (past ++ [(link.step event).1]))[
      (repliesOn link.generation past).length + place]? = some reply := by
    rw [repliesOn_snoc, step_generation, if_pos rfl,
      List.getElem?_append_right (Nat.le_add_right _ _), Nat.add_sub_cancel_left, found]
  have answer := getElem?_of_begins (answered _ moment link.generation) replied
  have within := Nat.le_of_lt (List.getElem?_eq_some_iff.mp answer).1
  obtain ⟨line, standing, rfl⟩ := mem_answersTo answer
  have inPast : past <+: past ++ [(link.step event).1] := List.prefix_append _ _
  have soFar := getElem?_of_begins (writtenOn_begins inPast link.generation) written
  rw [List.getElem?_map, soFar, Option.map_some, Option.some.injEq] at standing
  subst standing
  rw [answersTo, List.length_mapIdx] at within
  have lines := (writtenOn_begins moment link.generation).map LinkRequest.line
  have inAll := getElem?_of_begins (writtenOn_begins moment link.generation) soFar
  refine ⟨link.generation, _, request, inAll, number, ?_⟩
  rw [databaseAt_begins lines within]

end ShardStore.Link
