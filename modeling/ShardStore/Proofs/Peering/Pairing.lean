import Mathlib.Data.List.Infix
import ShardStore.Proofs.Peering.Ledger

namespace ShardStore.Link

variable {link : Link} {past : List LinkEffects} {now : LinkEffects}

/-- No more replies come in on a connection than requests are written on it before: so it is with a
peer that answers each request it has read once, and in the order in which it has read them. -/
def Solicited (trace : List LinkEffects) : Prop :=
  ∀ past, past <+: trace → ∀ generation,
    (repliesOn generation past).length ≤ (writtenOn generation past).length

/-- What holds where no reply has come in is checked at the connections that were used. -/
theorem forall_prefix_iff {trace : List LinkEffects} {holds : Nat → List LinkEffects → Prop}
    (silent : ∀ generation past, repliesOn generation past = [] → holds generation past) :
    (∀ past, past <+: trace → ∀ generation, holds generation past) ↔
      ∀ past ∈ trace.inits, ∀ effects ∈ past, holds effects.generation past := by
  constructor
  · intro all past begins effects _
    exact all past ((List.mem_inits _ _).mp begins) _
  · intro checked past begins generation
    by_cases used : ∃ effects ∈ past, effects.generation = generation
    · obtain ⟨effects, mem, rfl⟩ := used
      exact checked past ((List.mem_inits _ _).mpr begins) effects mem
    · apply silent
      rw [repliesOn, List.flatMap_eq_nil_iff]
      exact fun effects mem => if_neg fun same => used ⟨effects, mem, same⟩

theorem solicited_iff {trace : List LinkEffects} :
    Solicited trace ↔ ∀ past ∈ trace.inits, ∀ effects ∈ past,
      (repliesOn effects.generation past).length ≤
        (writtenOn effects.generation past).length := by
  apply forall_prefix_iff
  intro generation past none
  rw [none]
  exact Nat.zero_le _

instance (trace : List LinkEffects) : Decidable (Solicited trace) :=
  decidable_of_iff _ solicited_iff.symm

/-- Along a run the ledger is kept. -/
theorem Ledger.run (ledger : Ledger past link) {events : List LinkEvent}
    (solicited : Solicited (past ++ (link.run events).1)) :
    Ledger (past ++ (link.run events).1) (link.run events).2 := by
  induction events generalizing past link with
  | nil =>
      rw [Link.run, List.append_nil]
      exact ledger
  | cons event rest ih =>
      simp only [Link.run] at solicited ⊢
      rw [List.append_cons] at solicited ⊢
      have asked := solicited (past ++ [(link.step event).1]) (List.prefix_append _ _)
      exact ih (ledger.step (ledger.enough event (asked link.generation))) solicited

theorem run_split {events : List LinkEvent} {later : List LinkEffects}
    (split : (link.run events).1 = past ++ now :: later) :
    ∃ before event rest, events = before ++ event :: rest ∧ (link.run before).1 = past ∧
      ((link.run before).2.step event).1 = now := by
  induction events generalizing past link with
  | nil => simp [Link.run] at split
  | cons event rest ih =>
      simp only [Link.run] at split
      cases past with
      | nil => exact ⟨[], event, rest, rfl, rfl, (List.cons.inj split).1⟩
      | cons first past =>
          obtain ⟨rfl, tail⟩ := List.cons.inj split
          obtain ⟨before, next, others, rfl, ran, stepped⟩ := ih tail
          refine ⟨event :: before, next, others, rfl, ?_, stepped⟩
          simp only [Link.run, ran]

/-- The replies pair up with the requests, connection by connection. -/
structure Paired (trace : List LinkEffects) : Prop where
  /-- A reply completes the request that stands on its connection where the reply does, unless the
  caller has given up before. -/
  replied : ∀ past now later place reply, trace = past ++ now :: later →
    now.replies[place]? = some reply →
    ∃ request, (writtenOn now.generation past)[(repliesOn now.generation past).length + place]? =
        some request ∧
      (⟨request.number, .ok reply⟩ ∈ now.completions ∨
        ⟨request.number, .error .timeout⟩ ∈ completionsIn past)
  /-- No other request is completed with a reply. -/
  only : ∀ past now later number reply, trace = past ++ now :: later →
    ⟨number, .ok reply⟩ ∈ now.completions →
    ∃ place request, now.replies[place]? = some reply ∧
      (writtenOn now.generation past)[(repliesOn now.generation past).length + place]? =
        some request ∧
      request.number = number
  /-- The number of a request names it, on whichever connection it is written. -/
  named : ((writtenIn trace).map LinkRequest.number).Nodup
  once : ((completionsIn trace).map Completion.number).Nodup
  /-- Before a request is written on a connection, or anything else happens on it, those written on
  earlier ones have come to an end: with the reply that stands where they do, or else with the loss of
  their connection. -/
  lost : ∀ past now later generation place request, trace = past ++ now :: later →
    generation < now.generation → (writtenOn generation past)[place]? = some request →
    Ended past request (outcomeOn past generation place)

theorem closed_of_mem_lose {completion : Completion} (mem : completion ∈ link.lose.1) :
    completion.result = .error .closed := by
  unfold Link.lose at mem
  split at mem
  · split at mem
    · exact absurd mem List.not_mem_nil
    · exact closed_of_mem_failWaiting mem
  · exact absurd mem List.not_mem_nil

/-- What comes to an end with a piece comes to it by a reply in the piece, or with the connection. -/
theorem receive_completions (piece : Bytes)
    (enough : (link.repliesIn piece).length ≤ link.waiting.length) :
    ∃ failed, (link.receive piece).1 = link.answers (link.repliesIn piece) ++ failed ∧
      ∀ completion ∈ failed, completion.result = .error .closed := by
  rcases receive_spec piece enough with ⟨-, decoder, calm | fault⟩ | ⟨-, idle, none⟩
  · exact ⟨[], by rw [calm, List.append_nil], fun _ mem => absurd mem List.not_mem_nil⟩
  · exact ⟨_, by rw [fault], fun _ mem => closed_of_mem_lose mem⟩
  · refine ⟨[], ?_, fun _ mem => absurd mem List.not_mem_nil⟩
    rw [idle, none]
    simp [answers, settle]

theorem failed_of_mem_transmit {failure? : Option String} {completion : Completion}
    (mem : completion ∈ (link.transmit failure?).2.1) :
    ∃ failure, completion.result = .error failure := by
  have failed {request : LinkRequest} {failure : LinkError} {rest : List LinkRequest}
      (mem : completion ∈ complete { link with pending := rest } request (.error failure)) :
      ∃ failure, completion.result = .error failure := by
    rw [complete_eq] at mem
    obtain ⟨_, result, failing, -, rfl⟩ := mem_settle.mp mem
    exact ⟨failure, (Prod.mk.inj (List.mem_singleton.mp failing)).2⟩
  unfold Link.transmit at mem
  split at mem
  · exact absurd mem List.not_mem_nil
  · dsimp only at mem
    split at mem
    · exact failed mem
    · exact failed mem
    · exact absurd mem List.not_mem_nil

/-- Nothing but a piece that comes in completes a request with a reply. -/
theorem answered_by_piece {event : LinkEvent} {number : Nat} {reply : Message}
    (mem : ⟨number, .ok reply⟩ ∈ (link.step event).1.completions) :
    ∃ piece, event = .receive piece := by
  cases event with
  | submit | heartbeat | close => exact absurd mem List.not_mem_nil
  | transmit | transmitFails =>
      obtain ⟨_, failed⟩ := failed_of_mem_transmit mem
      cases failed
  | receive piece => exact ⟨piece, rfl⟩
  | hangUp => cases closed_of_mem_lose mem
  | redial succeeded =>
      simp only [Link.step, completing, Link.redial] at mem
      split at mem
      · split at mem
        · exact absurd mem List.not_mem_nil
        split at mem
        · exact absurd mem List.not_mem_nil
        split at mem
        · exact absurd mem List.not_mem_nil
        · cases closed_of_mem_failWaiting mem
      · exact absurd mem List.not_mem_nil
  | expire other =>
      simp only [Link.step, completing, Link.expire] at mem
      split at mem
      · cases List.mem_singleton.mp mem
      · exact absurd mem List.not_mem_nil
  | finish =>
      simp only [Link.step, completing, Link.finish] at mem
      split at mem
      · cases closed_of_mem_failWaiting mem
      · exact absurd mem List.not_mem_nil

theorem step_generation (link : Link) (event : LinkEvent) :
    (link.step event).1.generation = link.generation := by
  cases event <;> rfl

namespace Ledger

theorem waiting_place (ledger : Ledger past link) (live : link.connection ≠ .gone) (place : Nat) :
    link.waiting[place]? =
      (writtenOn link.generation past)[(repliesOn link.generation past).length + place]? := by
  rw [ledger.waits live, List.getElem?_drop]

theorem replied (ledger : Ledger past link) {event : LinkEvent}
    (enough : (link.step event).1.replies.length ≤ link.waiting.length) {place : Nat}
    {reply : Message} (found : (link.step event).1.replies[place]? = some reply) :
    ∃ request, (writtenOn link.generation past)[(repliesOn link.generation past).length + place]? =
        some request ∧
      (⟨request.number, .ok reply⟩ ∈ (link.step event).1.completions ∨
        ⟨request.number, .error .timeout⟩ ∈ completionsIn past) := by
  cases event with
  | receive piece =>
      have live : link.connection = .live := by
        by_contra idle
        simp [Link.step, repliesIn_idle idle] at found
      have below := Nat.lt_of_lt_of_le (List.getElem?_eq_some_iff.mp found).1 enough
      have asked := List.getElem?_eq_getElem below
      refine ⟨link.waiting[place], ?_, ?_⟩
      · rw [← ledger.waiting_place (by simp [live]), asked]
      by_cases gaveUp : link.waiting[place].number ∈ link.abandoned
      · exact .inr ((ledger.tally.gaveUp _).mp gaveUp)
      · obtain ⟨failed, completions, -⟩ := receive_completions piece enough
        refine .inl ?_
        simp only [Link.step, completions]
        exact List.mem_append_left _
          (mem_answers.mpr ⟨place, _, reply, asked, found, gaveUp, rfl⟩)
  | submit | heartbeat | transmit | transmitFails | hangUp | redial | expire | close | finish =>
      cases found

theorem only (ledger : Ledger past link) {event : LinkEvent}
    (enough : (link.step event).1.replies.length ≤ link.waiting.length) {number : Nat}
    {reply : Message} (mem : ⟨number, .ok reply⟩ ∈ (link.step event).1.completions) :
    ∃ place request, (link.step event).1.replies[place]? = some reply ∧
      (writtenOn link.generation past)[(repliesOn link.generation past).length + place]? =
        some request ∧
      request.number = number := by
  obtain ⟨piece, rfl⟩ := answered_by_piece mem
  obtain ⟨failed, completions, closed⟩ := receive_completions piece enough
  simp only [Link.step, completions, List.mem_append] at mem
  rcases mem with answered | lost
  · obtain ⟨place, request, other, asked, found, -, same⟩ := mem_answers.mp answered
    cases same
    have live : link.connection = .live := by
      by_contra idle
      simp [repliesIn_idle idle] at found
    refine ⟨place, request, found, ?_, rfl⟩
    rw [← ledger.waiting_place (by simp [live]), asked]
  · cases closed _ lost

end Ledger

/-- At every moment of a run the ledger holds of what was seen before. -/
theorem ledger_at {address : NodeId} {events : List LinkEvent} {later : List LinkEffects}
    (solicited : Solicited ((opened address).run events).1)
    (split : ((opened address).run events).1 = past ++ now :: later) :
    ∃ link event, Ledger past link ∧ (link.step event).1 = now ∧
      now.replies.length ≤ link.waiting.length := by
  obtain ⟨before, event, rest, rfl, rfl, rfl⟩ := run_split split
  rw [split, List.append_cons] at solicited
  have ledger : Ledger ((opened address).run before).1 ((opened address).run before).2 := by
    apply (Ledger.opened address).run
    intro past begins
    exact solicited past (begins.trans ((List.prefix_append _ _).trans (List.prefix_append _ _)))
  have asked := solicited _ (List.prefix_append _ _) ((opened address).run before).2.generation
  exact ⟨_, event, ledger, rfl, ledger.enough event asked⟩

/-- Replies pair up with requests along every run of a link to a peer that sends no reply unasked. A
request whose write fails counts as not written, and its reply does not come. -/
theorem run_paired (address : NodeId) (events : List LinkEvent)
    (solicited : Solicited ((opened address).run events).1) :
    Paired ((opened address).run events).1 := by
  have final := (Ledger.opened address).run solicited
  refine ⟨?_, ?_, ?_, final.tally.once, ?_⟩
  · intro past now later place reply split found
    obtain ⟨link, event, ledger, rfl, enough⟩ := ledger_at solicited split
    rw [step_generation]
    exact ledger.replied enough found
  · intro past now later number reply split mem
    obtain ⟨link, event, ledger, rfl, enough⟩ := ledger_at solicited split
    rw [step_generation]
    exact ledger.only enough mem
  · have order := final.tally.order
    rw [List.map_append, List.pairwise_append] at order
    exact order.1.imp Nat.ne_of_lt
  · intro past now later generation place request split earlier found
    obtain ⟨link, event, ledger, rfl, -⟩ := ledger_at solicited split
    rw [step_generation] at earlier
    exact ledger.ended generation place request found (.inl earlier)

/-- Three requests are written on one connection. The caller of the first gives up before its reply
comes, the third is unanswered when the connection is lost, and a fourth is written on the next one. -/
theorem run_paired_across_a_loss :
    let events : List LinkEvent := [.submit [[0x61]], .submit [[0x62]], .heartbeat, .transmit,
      .transmit, .transmit, .expire 1, .receive [0x2B, 0x31, 0x0D, 0x0A, 0x2B, 0x32, 0x0D],
      .receive [0x0A], .hangUp, .submit [[0x63]], .redial true, .transmit,
      .receive [0x2B, 0x34, 0x0D, 0x0A]]
    let trace := ((opened "peer").run events).1
    Solicited trace ∧
      completionsIn trace = [⟨1, .error .timeout⟩, ⟨2, .ok (.simple "2")⟩, ⟨3, .error .closed⟩,
        ⟨4, .ok (.simple "4")⟩] ∧
      Paired trace := by
  intro events trace
  have solicited : Solicited trace := by decide +kernel
  exact ⟨solicited, by decide +kernel, run_paired "peer" events solicited⟩

end ShardStore.Link
