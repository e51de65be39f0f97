import Mathlib.Data.List.Nodup
import Mathlib.Data.List.Pairwise
import ShardStore.Peering.Link

namespace ShardStore

deriving instance DecidableEq for Completion

namespace Link

def writtenOn (generation : Nat) (trace : List LinkEffects) : List LinkRequest :=
  trace.flatMap fun effects =>
    if effects.generation = generation then effects.written?.toList else []

def repliesOn (generation : Nat) (trace : List LinkEffects) : List Message :=
  trace.flatMap fun effects => if effects.generation = generation then effects.replies else []

def writtenIn (trace : List LinkEffects) : List LinkRequest :=
  trace.flatMap fun effects => effects.written?.toList

def completionsIn (trace : List LinkEffects) : List Completion :=
  trace.flatMap LinkEffects.completions

variable {link after : Link} {past : List LinkEffects} {now : LinkEffects}

theorem writtenOn_snoc (generation : Nat) :
    writtenOn generation (past ++ [now]) = writtenOn generation past ++
      if now.generation = generation then now.written?.toList else [] := by
  simp [writtenOn]

theorem repliesOn_snoc (generation : Nat) :
    repliesOn generation (past ++ [now]) = repliesOn generation past ++
      if now.generation = generation then now.replies else [] := by
  simp [repliesOn]

theorem writtenIn_snoc : writtenIn (past ++ [now]) = writtenIn past ++ now.written?.toList := by
  simp [writtenIn]

theorem completionsIn_snoc :
    completionsIn (past ++ [now]) = completionsIn past ++ now.completions := by
  simp [completionsIn]

/-- On a connection that is still to come nothing has been seen. -/
theorem writtenOn_later {generation : Nat}
    (earlier : ∀ effects ∈ past, effects.generation < generation) :
    writtenOn generation past = [] ∧ repliesOn generation past = [] := by
  have other : ∀ effects ∈ past, effects.generation ≠ generation :=
    fun effects mem => Nat.ne_of_lt (earlier effects mem)
  constructor
  · rw [writtenOn, List.flatMap_eq_nil_iff]
    exact fun effects mem => if_neg (other effects mem)
  · rw [repliesOn, List.flatMap_eq_nil_iff]
    exact fun effects mem => if_neg (other effects mem)

/-- The completions of requests that come to an end, of which the abandoned ones have theirs. -/
def settle (abandoned : List Nat) (outcomes : List (LinkRequest × Except LinkError Message)) :
    List Completion :=
  outcomes.flatMap fun (request, result) =>
    if request.number ∈ abandoned then [] else [⟨request.number, result⟩]

theorem mem_settle {abandoned : List Nat}
    {outcomes : List (LinkRequest × Except LinkError Message)} {completion : Completion} :
    completion ∈ settle abandoned outcomes ↔
      ∃ request result, (request, result) ∈ outcomes ∧ request.number ∉ abandoned ∧
        completion = ⟨request.number, result⟩ := by
  simp only [settle, List.mem_flatMap, Prod.exists]
  refine exists_congr fun request => exists_congr fun result => and_congr_right fun _ => ?_
  by_cases gaveUp : request.number ∈ abandoned <;> simp [gaveUp]

theorem settle_numbers_sublist (abandoned : List Nat)
    (outcomes : List (LinkRequest × Except LinkError Message)) :
    ((settle abandoned outcomes).map Completion.number).Sublist
      ((outcomes.map Prod.fst).map LinkRequest.number) := by
  induction outcomes with
  | nil => exact List.Sublist.refl _
  | cons outcome rest ih =>
      simp only [settle, List.flatMap_cons, List.map_append, List.map_cons] at ih ⊢
      split
      · exact ih.cons _
      · exact ih.cons_cons _

theorem failWaiting_eq (link : Link) :
    link.failWaiting =
      (settle link.abandoned (link.waiting.map fun request => (request, .error .closed)),
        { link with waiting := [] }) := by
  simp [failWaiting, settle, complete, List.flatMap_map]

theorem complete_eq (link : Link) (request : LinkRequest) (result : Except LinkError Message) :
    link.complete request result = settle link.abandoned [(request, result)] := by
  simp [complete, settle]

theorem closed_of_mem_failWaiting {completion : Completion}
    (mem : completion ∈ link.failWaiting.1) : completion.result = .error .closed := by
  rw [failWaiting_eq] at mem
  obtain ⟨request, result, fails, -, rfl⟩ := mem_settle.mp mem
  obtain ⟨_, -, same⟩ := List.mem_map.mp fails
  exact (Prod.mk.inj same).2.symm

/-- The completions of the oldest waiting requests by as many replies. -/
def answers (link : Link) (replies : List Message) : List Completion :=
  settle link.abandoned ((link.waiting.take replies.length).zip (replies.map .ok))

theorem mem_answers {replies : List Message} {completion : Completion} :
    completion ∈ link.answers replies ↔ ∃ (place : Nat) (request : LinkRequest) (reply : Message),
      link.waiting[place]? = some request ∧ replies[place]? = some reply ∧
        request.number ∉ link.abandoned ∧ completion = ⟨request.number, .ok reply⟩ := by
  rw [answers, mem_settle]
  simp only [List.mem_iff_getElem?, List.getElem?_zip_eq_some, List.getElem?_map,
    Option.map_eq_some_iff]
  constructor
  · rintro ⟨request, _, ⟨place, asked, reply, found, rfl⟩, kept, rfl⟩
    have below : place < replies.length := (List.getElem?_eq_some_iff.mp found).1
    rw [List.getElem?_take_of_lt below] at asked
    exact ⟨place, request, reply, asked, found, kept, rfl⟩
  · rintro ⟨place, request, reply, asked, found, kept, rfl⟩
    have below : place < replies.length := (List.getElem?_eq_some_iff.mp found).1
    rw [← List.getElem?_take_of_lt below] at asked
    exact ⟨request, _, ⟨place, asked, reply, found, rfl⟩, kept, rfl⟩

/-- What the numbers of the requests say: those that are not at an end yet have no completion, except
where their callers have given up. -/
structure Tally (written : List LinkRequest) (done : List Completion) (link : Link) : Prop where
  order : ((written ++ link.pending).map LinkRequest.number).Pairwise (· < ·)
  below : ∀ request ∈ written ++ link.pending, request.number < link.next
  waiting : link.waiting.Sublist written
  once : (done.map Completion.number).Nodup
  spent : ∀ completion ∈ done, completion.number < link.next ∧
    (completion.number ∈ (link.waiting ++ link.pending).map LinkRequest.number →
      completion.number ∈ link.abandoned)
  gaveUp : ∀ number, number ∈ link.abandoned ↔ ⟨number, .error .timeout⟩ ∈ done

namespace Tally

variable {written : List LinkRequest} {done : List Completion}

theorem open_nodup (tally : Tally written done link) :
    ((link.waiting ++ link.pending).map LinkRequest.number).Nodup :=
  (tally.order.imp Nat.ne_of_lt).sublist
    ((tally.waiting.append (List.Sublist.refl _)).map _)

theorem open_below (tally : Tally written done link) {request : LinkRequest}
    (mem : request ∈ link.waiting ++ link.pending) : request.number < link.next :=
  tally.below request ((tally.waiting.append (List.Sublist.refl _)).subset mem)

/-- A tally is about the requests of a link, and not about its connection. -/
theorem congr (tally : Tally written done link) (waiting : after.waiting = link.waiting)
    (pending : after.pending = link.pending) (abandoned : after.abandoned = link.abandoned)
    (next : after.next = link.next) : Tally written done after := by
  obtain ⟨order, below, waits, once, spent, gaveUp⟩ := tally
  rw [← pending] at order
  rw [← pending, ← next] at below
  rw [← waiting] at waits
  rw [← waiting, ← pending, ← abandoned, ← next] at spent
  rw [← abandoned] at gaveUp
  exact ⟨order, below, waits, once, spent, gaveUp⟩

/-- Some of the requests come to an end, each with a result of its own. -/
theorem settle (tally : Tally written done link)
    {outcomes : List (LinkRequest × Except LinkError Message)}
    (split : (link.waiting ++ link.pending).Perm
      (outcomes.map Prod.fst ++ (after.waiting ++ after.pending)))
    (waiting : after.waiting.Sublist link.waiting) (pending : after.pending.Sublist link.pending)
    (abandoned : after.abandoned = link.abandoned) (next : after.next = link.next)
    (results : ∀ outcome ∈ outcomes, outcome.2 ≠ .error .timeout) :
    Tally written (done ++ Link.settle link.abandoned outcomes) after := by
  have numbers := split.map LinkRequest.number
  have apart := numbers.nodup_iff.mp tally.open_nodup
  rw [List.map_append, List.nodup_append] at apart
  obtain ⟨front, -, apart⟩ := apart
  have fresh : ∀ completion ∈ Link.settle link.abandoned outcomes,
      completion.number ∉ link.abandoned ∧
        completion.number ∈ (outcomes.map Prod.fst).map LinkRequest.number := by
    intro completion mem
    refine ⟨?_, (settle_numbers_sublist _ _).subset (List.mem_map_of_mem mem)⟩
    obtain ⟨request, result, -, kept, rfl⟩ := mem_settle.mp mem
    exact kept
  have inOpen : ∀ number ∈ (outcomes.map Prod.fst).map LinkRequest.number,
      number ∈ (link.waiting ++ link.pending).map LinkRequest.number := by
    intro number mem
    rw [numbers.mem_iff, List.map_append]
    exact List.mem_append_left _ mem
  refine ⟨?_, ?_, waiting.trans tally.waiting, ?_, ?_, ?_⟩
  · exact tally.order.sublist (((List.Sublist.refl _).append pending).map _)
  · intro request mem
    rw [next]
    exact tally.below request (((List.Sublist.refl _).append pending).subset mem)
  · rw [List.map_append, List.nodup_append]
    refine ⟨tally.once, front.sublist (settle_numbers_sublist _ _), ?_⟩
    rintro number old _ new rfl
    obtain ⟨completion, mem, rfl⟩ := List.mem_map.mp new
    obtain ⟨earlier, memEarlier, same⟩ := List.mem_map.mp old
    obtain ⟨kept, named⟩ := fresh completion mem
    have := (tally.spent earlier memEarlier).2
    rw [same] at this
    exact kept (this (inOpen _ named))
  · intro completion mem
    rw [next, abandoned]
    rcases List.mem_append.mp mem with old | new
    · refine ⟨(tally.spent completion old).1, fun left => (tally.spent completion old).2 ?_⟩
      rw [numbers.mem_iff, List.map_append]
      exact List.mem_append_right _ left
    · obtain ⟨-, named⟩ := fresh completion new
      refine ⟨?_, fun left => absurd rfl (apart _ named _ left)⟩
      obtain ⟨request, mem, same⟩ := List.mem_map.mp (inOpen _ named)
      rw [← same]
      exact tally.open_below mem
  · intro number
    rw [abandoned, tally.gaveUp, List.mem_append]
    refine ⟨.inl, fun mem => mem.elim id fun new => ?_⟩
    obtain ⟨request, result, mem, -, same⟩ := mem_settle.mp new
    cases same
    exact absurd rfl (results _ mem)

theorem submit (tally : Tally written done link) (line : CommandLine) :
    Tally written done (link.submit line).2 := by
  unfold Link.submit
  split
  · exact tally
  · refine ⟨?_, ?_, tally.waiting, tally.once, ?_, tally.gaveUp⟩
    · rw [← List.append_assoc, List.map_append, List.pairwise_append]
      refine ⟨tally.order, List.pairwise_singleton _ _, ?_⟩
      rintro _ old _ new
      obtain ⟨request, mem, rfl⟩ := List.mem_map.mp old
      rw [List.map_singleton, List.mem_singleton] at new
      rw [new]
      exact tally.below request mem
    · intro request mem
      rw [← List.append_assoc, List.mem_append, List.mem_singleton] at mem
      rcases mem with old | rfl
      · exact Nat.lt_succ_of_lt (tally.below request old)
      · exact Nat.lt_succ_self _
    · intro completion mem
      obtain ⟨below, gaveUp⟩ := tally.spent completion mem
      refine ⟨Nat.lt_succ_of_lt below, fun left => ?_⟩
      rw [← List.append_assoc, List.map_append, List.mem_append, List.map_singleton,
        List.mem_singleton] at left
      rcases left with old | new
      · exact gaveUp old
      · exact absurd new (Nat.ne_of_lt below)

/-- The oldest pending request is written, and waits. -/
theorem write (tally : Tally written done link) {request : LinkRequest} {rest : List LinkRequest}
    (pending : link.pending = request :: rest) :
    Tally (written ++ [request]) done
      { link with pending := rest, waiting := link.waiting ++ [request] } := by
  have order := tally.order
  have below := tally.below
  have spent := tally.spent
  rw [pending, List.append_cons] at order below spent
  exact ⟨order, below, tally.waiting.append (List.Sublist.refl _), tally.once, spent, tally.gaveUp⟩

theorem expire (tally : Tally written done link) (number : Nat) :
    Tally written (done ++ (link.expire number).1) (link.expire number).2 := by
  unfold Link.expire
  split
  · rename_i left
    obtain ⟨left, kept⟩ := left
    refine ⟨tally.order, tally.below, tally.waiting, ?_, ?_, ?_⟩
    · rw [List.map_append, List.nodup_append]
      refine ⟨tally.once, List.nodup_singleton _, ?_⟩
      rintro _ old _ new rfl
      obtain ⟨completion, mem, same⟩ := List.mem_map.mp old
      rw [List.map_singleton, List.mem_singleton] at new
      have gaveUp := (tally.spent completion mem).2
      rw [same, new] at gaveUp
      refine kept (gaveUp ?_)
      rw [List.map_append, List.mem_append, or_comm, ← List.mem_append, ← List.map_append]
      exact left
    · intro completion mem
      rcases List.mem_append.mp mem with old | new
      · exact ⟨(tally.spent completion old).1, fun left =>
          List.mem_cons_of_mem _ ((tally.spent completion old).2 left)⟩
      · rw [List.mem_singleton] at new
        subst new
        refine ⟨?_, fun _ => List.mem_cons_self⟩
        obtain ⟨request, isOpen, rfl⟩ := List.mem_map.mp left
        exact tally.open_below (List.mem_append.mpr (List.mem_append.mp isOpen).symm)
    · intro other
      rw [List.mem_cons, List.mem_append, List.mem_singleton, tally.gaveUp, or_comm]
      exact or_congr_right (by simp)
  · rw [List.append_nil]
    exact tally

end Tally

end Link

end ShardStore
