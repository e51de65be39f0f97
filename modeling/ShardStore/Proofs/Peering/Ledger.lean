import ShardStore.Proofs.Peering.Tally

/-!
A ledger (`Link.Ledger`) ties a link to all that was seen of it. The requests that wait are those
written on the latest connection, less as many as replies have come in on it; the requests written on
earlier connections have come to an end. Each event keeps the ledger (`Ledger.step`), if no reply comes
in unasked.
-/

namespace ShardStore.Link

variable {link after : Link} {past : List LinkEffects} {now : LinkEffects}

/-- The result of a request by its place on its connection: the reply at the same place, and if the
connection is lost without it, that the connection is closed. -/
def outcomeOn (trace : List LinkEffects) (generation place : Nat) : Except LinkError Message :=
  ((repliesOn generation trace)[place]?).elim (.error .closed) .ok

/-- Whether a request has come to an end with a result, or without it since its caller has given up. -/
def Ended (trace : List LinkEffects) (request : LinkRequest) (result : Except LinkError Message) :
    Prop :=
  ⟨request.number, result⟩ ∈ completionsIn trace ∨
    ⟨request.number, .error .timeout⟩ ∈ completionsIn trace

structure Ledger (past : List LinkEffects) (link : Link) : Prop where
  tally : Tally (writtenIn past) (completionsIn past) link
  latest : ∀ effects ∈ past, effects.generation ≤ link.generation
  asked : ∀ generation,
    (repliesOn generation past).length ≤ (writtenOn generation past).length
  waits : link.connection ≠ .gone → link.waiting =
    (writtenOn link.generation past).drop (repliesOn link.generation past).length
  rests : link.connection = .gone → link.waiting = []
  ended : ∀ generation place request, (writtenOn generation past)[place]? = some request →
    generation < link.generation ∨ link.connection = .gone ∨
      place < (repliesOn generation past).length →
    Ended past request (outcomeOn past generation place)

theorem latest_snoc {bound : Nat} (latest : ∀ effects ∈ past, effects.generation ≤ bound)
    (within : now.generation ≤ bound) : ∀ effects ∈ past ++ [now], effects.generation ≤ bound := by
  rw [List.forall_mem_append, List.forall_mem_singleton]
  exact ⟨latest, within⟩

theorem Ended.snoc {request : LinkRequest} {result : Except LinkError Message}
    (ended : Ended past request result) : Ended (past ++ [now]) request result := by
  rw [Ended, completionsIn_snoc]
  exact ended.imp (List.mem_append_left _) (List.mem_append_left _)

theorem ended_of_settle {abandoned : List Nat}
    {outcomes : List (LinkRequest × Except LinkError Message)} {request : LinkRequest}
    {result : Except LinkError Message}
    (gaveUp : ∀ number, number ∈ abandoned ↔ ⟨number, .error .timeout⟩ ∈ completionsIn past)
    (completions : ∀ completion ∈ settle abandoned outcomes, completion ∈ now.completions)
    (mem : (request, result) ∈ outcomes) : Ended (past ++ [now]) request result := by
  rw [Ended, completionsIn_snoc]
  by_cases given : request.number ∈ abandoned
  · exact .inr (List.mem_append_left _ ((gaveUp _).mp given))
  · exact .inl (List.mem_append_right _
      (completions _ (mem_settle.mpr ⟨request, result, mem, given, rfl⟩)))

namespace Ledger

theorem opened (address : NodeId) : Ledger [] (opened address) where
  tally := by
    refine ⟨?_, ?_, List.Sublist.refl _, List.nodup_nil, ?_, ?_⟩ <;>
      simp [writtenIn, completionsIn, Link.opened]
  latest := by simp
  asked := by simp [repliesOn, writtenOn]
  waits := by simp [Link.opened, writtenOn]
  rests := by simp [Link.opened]
  ended := by simp [writtenOn]

/-- An event that writes nothing and takes in no reply. What is left to show is where the connection
stands, and that what is given up with it has come to an end. -/
theorem record (ledger : Ledger past link) (generation : now.generation = link.generation)
    (written : now.written? = none) (replies : now.replies = [])
    (tally : Tally (writtenIn past) (completionsIn past ++ now.completions) after)
    (later : link.generation ≤ after.generation)
    (waits : after.connection ≠ .gone → after.waiting =
      (writtenOn after.generation past).drop (repliesOn after.generation past).length)
    (rests : after.connection = .gone → after.waiting = [])
    (ended : ∀ generation place request, (writtenOn generation past)[place]? = some request →
      generation < after.generation ∨ after.connection = .gone →
      Ended (past ++ [now]) request (outcomeOn past generation place)) :
    Ledger (past ++ [now]) after := by
  have writtenSame (g : Nat) : writtenOn g (past ++ [now]) = writtenOn g past := by
    simp [writtenOn_snoc, written]
  have repliesSame (g : Nat) : repliesOn g (past ++ [now]) = repliesOn g past := by
    simp [repliesOn_snoc, replies]
  refine ⟨?_, ?_, ?_, ?_, rests, ?_⟩
  · rw [writtenIn_snoc, completionsIn_snoc, written, Option.toList_none, List.append_nil]
    exact tally
  · refine latest_snoc (fun effects mem => Nat.le_trans (ledger.latest effects mem) later) ?_
    rw [generation]
    exact later
  · intro g
    rw [writtenSame, repliesSame]
    exact ledger.asked g
  · rw [writtenSame, repliesSame]
    exact waits
  · intro g place request
    rw [writtenSame, repliesSame, outcomeOn, repliesSame]
    intro found passed
    rcases or_assoc.mpr passed with lost | answered
    · exact ended g place request found lost
    · exact (ledger.ended g place request found (.inr (.inr answered))).snoc

theorem still (ledger : Ledger past link) :
    Tally (writtenIn past) (completionsIn past ++ []) link := by
  rw [List.append_nil]
  exact ledger.tally

theorem keep (ledger : Ledger past link) (generation : now.generation = link.generation)
    (written : now.written? = none) (replies : now.replies = [])
    (tally : Tally (writtenIn past) (completionsIn past ++ now.completions) after)
    (waiting : after.waiting = link.waiting) (same : after.generation = link.generation)
    (gone : after.connection = .gone ↔ link.connection = .gone) : Ledger (past ++ [now]) after := by
  apply ledger.record generation written replies tally (Nat.le_of_eq same.symm)
  · intro live
    rw [waiting, same]
    exact ledger.waits (mt gone.mpr live)
  · intro lost
    rw [waiting]
    exact ledger.rests (gone.mp lost)
  · intro g place request found passed
    rw [same, gone] at passed
    exact (ledger.ended g place request found (or_assoc.mp (.inl passed))).snoc

/-- The connection is lost for the link, and all that wait on it fail. -/
theorem fail (ledger : Ledger past link) (generation : now.generation = link.generation)
    (written : now.written? = none) (replies : now.replies = [])
    (completions : now.completions = link.failWaiting.1)
    (lost : after.connection = .gone) (waiting : after.waiting = [])
    (same : after.generation = link.generation) (pending : after.pending = link.pending)
    (abandoned : after.abandoned = link.abandoned) (next : after.next = link.next) :
    Ledger (past ++ [now]) after := by
  rw [failWaiting_eq] at completions
  apply ledger.record generation written replies ?_ (Nat.le_of_eq same.symm)
  · exact fun live => absurd lost live
  · exact fun _ => waiting
  · intro g place request found passed
    by_cases before : g < link.generation ∨ link.connection = .gone ∨
        place < (repliesOn g past).length
    · exact (ledger.ended g place request found before).snoc
    · simp only [not_or, Nat.not_lt] at before
      obtain ⟨notEarlier, live, unanswered⟩ := before
      have latest : g = link.generation := by
        refine Nat.le_antisymm ?_ notEarlier
        by_contra beyond
        have earlier : ∀ effects ∈ past, effects.generation < g := fun effects mem =>
          Nat.lt_of_le_of_lt (ledger.latest effects mem) (Nat.not_le.mp beyond)
        simp [(writtenOn_later earlier).1] at found
      subst latest
      have left : request ∈ link.waiting := by
        rw [ledger.waits live, List.mem_iff_getElem?]
        refine ⟨place - (repliesOn link.generation past).length, ?_⟩
        rw [List.getElem?_drop, Nat.add_sub_cancel' unanswered, found]
      have closed : outcomeOn past link.generation place = .error .closed := by
        rw [outcomeOn, List.getElem?_eq_none unanswered, Option.elim_none]
      rw [closed]
      have fails : (request, .error .closed) ∈
          link.waiting.map fun request => (request, (.error .closed : Except LinkError Message)) :=
        List.mem_map_of_mem left
      apply ended_of_settle ledger.tally.gaveUp ?_ fails
      rw [completions]
      exact fun _ mem => mem
  · rw [completions]
    apply ledger.tally.settle
    · simp [waiting, pending, Function.comp_def]
    · rw [waiting]
      exact List.nil_sublist _
    · rw [pending]
    · exact abandoned
    · exact next
    · intro outcome mem
      obtain ⟨request, -, rfl⟩ := List.mem_map.mp mem
      simp

/-- A new connection stands where the old one is gone, and nothing waits on it yet. -/
theorem renew (ledger : Ledger past link) (lost : link.connection = .gone)
    (generation : now.generation = link.generation) (written : now.written? = none)
    (replies : now.replies = []) (completions : now.completions = []) :
    Ledger (past ++ [now])
      { link with connection := .live, generation := link.generation + 1, decoder := {} } := by
  apply ledger.record generation written replies ?_ (Nat.le_succ _)
  · intro _
    have earlier : ∀ effects ∈ past, effects.generation < link.generation + 1 :=
      fun effects mem => Nat.lt_succ_of_le (ledger.latest effects mem)
    dsimp only
    rw [(writtenOn_later earlier).1, List.drop_nil]
    exact ledger.rests lost
  · exact fun gone => nomatch gone
  · intro g place request found _
    exact (ledger.ended g place request found (.inr (.inl lost))).snoc
  · rw [completions]
    exact ledger.still.congr rfl rfl rfl rfl

theorem write (ledger : Ledger past link) (live : link.connection ≠ .gone)
    {request : LinkRequest} {rest : List LinkRequest} (pending : link.pending = request :: rest)
    (generation : now.generation = link.generation) (written : now.written? = some request)
    (replies : now.replies = []) (completions : now.completions = []) :
    Ledger (past ++ [now])
      { link with pending := rest, waiting := link.waiting ++ [request] } := by
  have repliesSame (g : Nat) : repliesOn g (past ++ [now]) = repliesOn g past := by
    simp [repliesOn_snoc, replies]
  have writtenMore (g : Nat) : writtenOn g (past ++ [now]) =
      writtenOn g past ++ if link.generation = g then [request] else [] := by
    rw [writtenOn_snoc, generation, written, Option.toList_some]
  refine ⟨?_, ?_, ?_, ?_, ?_, ?_⟩
  · rw [writtenIn_snoc, completionsIn_snoc, completions, List.append_nil, written,
      Option.toList_some]
    exact ledger.tally.write pending
  · exact latest_snoc ledger.latest (Nat.le_of_eq generation)
  · intro g
    rw [writtenMore, repliesSame, List.length_append]
    exact Nat.le_add_right_of_le (ledger.asked g)
  · intro _
    dsimp only
    rw [writtenMore, repliesSame, if_pos rfl, List.drop_append_of_le_length (ledger.asked _),
      ledger.waits live]
  · exact fun gone => absurd gone live
  · intro g place other
    rw [writtenMore, repliesSame, outcomeOn, repliesSame]
    intro found passed
    have old : (writtenOn g past)[place]? = some other := by
      by_cases latest : link.generation = g
      · subst latest
        have answered := (passed.resolve_left (Nat.lt_irrefl _)).resolve_left live
        rwa [List.getElem?_append_left (Nat.lt_of_lt_of_le answered (ledger.asked _))] at found
      · rwa [if_neg latest, List.append_nil] at found
    exact (ledger.ended g place other old passed).snoc

/-- Replies come in on a connection, no more than requests wait on it. -/
theorem answer (ledger : Ledger past link) (live : link.connection ≠ .gone)
    (generation : now.generation = link.generation) (written : now.written? = none)
    (completions : now.completions = link.answers now.replies)
    (enough : now.replies.length ≤ link.waiting.length) :
    Ledger (past ++ [now]) { link with waiting := link.waiting.drop now.replies.length } := by
  have writtenSame (g : Nat) : writtenOn g (past ++ [now]) = writtenOn g past := by
    simp [writtenOn_snoc, written]
  have repliesMore (g : Nat) : repliesOn g (past ++ [now]) =
      repliesOn g past ++ if link.generation = g then now.replies else [] := by
    rw [repliesOn_snoc, generation]
  have waits := ledger.waits live
  refine ⟨?_, ?_, ?_, ?_, ?_, ?_⟩
  · rw [writtenIn_snoc, completionsIn_snoc, completions, answers, written, Option.toList_none,
      List.append_nil]
    apply ledger.tally.settle
    · have short : (link.waiting.take now.replies.length).length ≤
          (now.replies.map (.ok : Message → Except LinkError Message)).length := by
        rw [List.length_map]
        exact List.length_take_le _ _
      rw [List.map_fst_zip short, ← List.append_assoc, List.take_append_drop]
    · exact List.drop_sublist _ _
    · exact List.Sublist.refl _
    · rfl
    · rfl
    · rintro ⟨request, result⟩ mem
      obtain ⟨reply, -, rfl⟩ := List.mem_map.mp (List.of_mem_zip mem).2
      simp
  · exact latest_snoc ledger.latest (Nat.le_of_eq generation)
  · intro g
    rw [writtenSame, repliesMore]
    by_cases latest : link.generation = g
    · subst latest
      rw [waits, List.length_drop] at enough
      have asked := ledger.asked link.generation
      rw [if_pos rfl, List.length_append]
      omega
    · rw [if_neg latest, List.append_nil]
      exact ledger.asked g
  · intro _
    dsimp only
    rw [writtenSame, repliesMore, if_pos rfl, waits, List.drop_drop, List.length_append]
  · exact fun gone => absurd gone live
  · intro g place request
    rw [writtenSame, repliesMore, outcomeOn, repliesMore]
    intro found passed
    replace passed := passed.imp_right (Or.resolve_left · live)
    by_cases answered : place < (repliesOn g past).length
    · rw [List.getElem?_append_left answered]
      exact (ledger.ended g place request found (.inr (.inr answered))).snoc
    by_cases latest : link.generation = g
    · subst latest
      have unanswered := Nat.not_lt.mp answered
      have new := passed.resolve_left (Nat.lt_irrefl _)
      rw [if_pos rfl, List.length_append] at new
      have taken : place - (repliesOn link.generation past).length < now.replies.length := by
        omega
      rw [if_pos rfl, List.getElem?_append_right unanswered, List.getElem?_eq_getElem taken,
        Option.elim_some]
      refine ended_of_settle ledger.tally.gaveUp (fun _ mem => completions ▸ mem) ?_
      rw [List.mem_iff_getElem?]
      refine ⟨place - (repliesOn link.generation past).length, List.getElem?_zip_eq_some.mpr ⟨?_, ?_⟩⟩
      · rw [List.getElem?_take_of_lt taken, waits, List.getElem?_drop,
          Nat.add_sub_cancel' unanswered, found]
      · rw [List.getElem?_map, List.getElem?_eq_getElem taken, Option.map_some]
    · rw [if_neg latest, List.append_nil] at passed ⊢
      exact (ledger.ended g place request found (passed.imp_right .inr)).snoc

/-- What is seen in two steps on one connection, seen in one. -/
theorem merge {first second : LinkEffects} (ledger : Ledger (past ++ [first] ++ [second]) link)
    (generations : second.generation = first.generation) (written : second.written? = none)
    (generation : now.generation = first.generation) (writtenFirst : now.written? = first.written?)
    (replies : now.replies = first.replies ++ second.replies)
    (completions : now.completions = first.completions ++ second.completions) :
    Ledger (past ++ [now]) link := by
  have writtenSame (g : Nat) :
      writtenOn g (past ++ [first] ++ [second]) = writtenOn g (past ++ [now]) := by
    rw [writtenOn_snoc, writtenOn_snoc, writtenOn_snoc, written, writtenFirst, generation]
    simp
  have repliesSame (g : Nat) :
      repliesOn g (past ++ [first] ++ [second]) = repliesOn g (past ++ [now]) := by
    rw [repliesOn_snoc, repliesOn_snoc, repliesOn_snoc, generations, generation, replies,
      List.append_assoc]
    split <;> rfl
  have writtenIns : writtenIn (past ++ [first] ++ [second]) = writtenIn (past ++ [now]) := by
    rw [writtenIn_snoc, writtenIn_snoc, writtenIn_snoc, written, writtenFirst, Option.toList_none,
      List.append_nil]
  have completionsIns :
      completionsIn (past ++ [first] ++ [second]) = completionsIn (past ++ [now]) := by
    rw [completionsIn_snoc, completionsIn_snoc, completionsIn_snoc, completions, List.append_assoc]
  obtain ⟨tally, latest, asked, waits, rests, ended⟩ := ledger
  rw [writtenIns, completionsIns] at tally
  simp only [writtenSame, repliesSame] at asked waits ended
  refine ⟨tally, ?_, asked, waits, rests, ?_⟩
  · intro effects mem
    rcases List.mem_append.mp mem with old | new
    · exact latest effects (by simp [old])
    · rw [List.mem_singleton.mp new, generation]
      exact latest first (by simp)
  · intro g place request found passed
    have before := ended g place request found passed
    rwa [Ended, outcomeOn, completionsIns, repliesSame] at before

theorem lose (ledger : Ledger past link) (generation : now.generation = link.generation)
    (written : now.written? = none) (replies : now.replies = [])
    (completions : now.completions = link.lose.1) : Ledger (past ++ [now]) link.lose.2 := by
  have still := ledger.still
  unfold Link.lose at completions ⊢
  cases connection : link.connection with
  | live =>
      simp only [connection] at completions ⊢
      split
      · rename_i closed
        rw [if_pos closed] at completions
        refine ledger.keep generation written replies ?_ rfl rfl (by simp [connection])
        rw [completions]
        exact still.congr rfl rfl rfl rfl
      · rename_i opened
        rw [if_neg opened] at completions
        exact ledger.fail generation written replies completions rfl rfl rfl rfl rfl rfl
  | silent | gone =>
      simp only [connection] at completions ⊢
      refine ledger.keep generation written replies ?_ rfl rfl Iff.rfl
      rw [completions]
      exact still

end Ledger

/-- The items up to the first fault answer the oldest waiting requests; at the fault, the connection
is lost. -/
theorem takeItems_eq (items : List Item)
    (enough : (repliesIn.messages items).length ≤ link.waiting.length) :
    let replies := repliesIn.messages items
    let answered := { link with waiting := link.waiting.drop replies.length }
    link.takeItems items = (link.answers replies, answered) ∨
      link.takeItems items = (link.answers replies ++ answered.lose.1, answered.lose.2) := by
  induction items generalizing link with
  | nil => exact .inl rfl
  | cons item rest ih =>
      cases item with
      | error fault => exact .inr rfl
      | ok reply =>
          cases waiting : link.waiting with
          | nil => simp [waiting, repliesIn.messages] at enough
          | cons request others =>
              have fewer : (repliesIn.messages rest).length ≤ others.length := by
                simpa [waiting, repliesIn.messages] using enough
              have first : link.answers (reply :: repliesIn.messages rest) =
                  link.complete request (.ok reply) ++
                    answers { link with waiting := others } (repliesIn.messages rest) := by
                simp [answers, settle, complete, waiting]
              simp only [takeItems, takeReply, waiting, repliesIn.messages, first, List.length_cons,
                List.drop_succ_cons, List.append_assoc]
              have remaining := @ih { link with waiting := others } fewer
              rcases remaining with calm | fault
              · left
                simp only [calm]
              · right
                simp only [fault]

theorem repliesIn_idle (idle : link.connection ≠ .live) (piece : Bytes) :
    link.repliesIn piece = [] := by
  unfold repliesIn
  split
  · contradiction
  · rfl

/-- What a piece does to a link: on a live connection its replies answer the oldest waiting requests,
and the connection is lost behind them if there is a fault. -/
theorem receive_spec (piece : Bytes)
    (enough : (link.repliesIn piece).length ≤ link.waiting.length) :
    (link.connection = .live ∧ ∃ decoder,
      let answered := { link with
        decoder, waiting := link.waiting.drop (link.repliesIn piece).length }
      link.receive piece = (link.answers (link.repliesIn piece), answered) ∨
        link.receive piece =
          (link.answers (link.repliesIn piece) ++ answered.lose.1, answered.lose.2)) ∨
    (link.connection ≠ .live ∧ link.receive piece = ([], link) ∧ link.repliesIn piece = []) := by
  by_cases live : link.connection = .live
  · refine .inl ⟨live, (link.decoder.feed piece).2, ?_⟩
    have replies : link.repliesIn piece = repliesIn.messages (link.decoder.feed piece).1 := by
      simp only [repliesIn, live]
    have received : link.receive piece =
        takeItems { link with decoder := (link.decoder.feed piece).2 }
          (link.decoder.feed piece).1 := by
      unfold Link.receive
      split
      · rfl
      · contradiction
    rw [received, replies]
    rw [replies] at enough
    exact takeItems_eq _ enough
  · refine .inr ⟨live, ?_, repliesIn_idle live piece⟩
    unfold Link.receive
    split
    · contradiction
    · rfl

namespace Ledger

theorem receive (ledger : Ledger past link) (piece : Bytes)
    (enough : (link.repliesIn piece).length ≤ link.waiting.length) :
    Ledger (past ++ [(link.step (.receive piece)).1]) (link.step (.receive piece)).2 := by
  rcases receive_spec piece enough with ⟨live, decoder, taken⟩ | ⟨idle, quiet, none⟩
  · let fresh : Link := { link with decoder }
    have start : Ledger past fresh := by
      obtain ⟨tally, latest, asked, waits, rests, ended⟩ := ledger
      exact ⟨tally.congr rfl rfl rfl rfl, latest, asked, waits, rests, ended⟩
    have up : link.connection ≠ .gone := by simp [live]
    let answered : Link := { fresh with
      waiting := link.waiting.drop (link.repliesIn piece).length }
    let replied : LinkEffects := {
      generation := link.generation
      replies := link.repliesIn piece
      completions := link.answers (link.repliesIn piece) }
    have front : Ledger (past ++ [replied]) answered := start.answer up rfl rfl rfl enough
    rcases taken with calm | fault
    · simp only [Link.step, calm]
      exact front
    · simp only [Link.step, fault]
      let failed : LinkEffects := { generation := link.generation, completions := answered.lose.1 }
      have behind : Ledger (past ++ [replied] ++ [failed]) answered.lose.2 :=
        front.lose rfl rfl rfl rfl
      exact behind.merge rfl rfl rfl rfl (List.append_nil _).symm rfl
  · simp only [Link.step, quiet, none]
    exact ledger.keep rfl rfl rfl ledger.still rfl rfl Iff.rfl

theorem submit (ledger : Ledger past link) (line : CommandLine) :
    Ledger (past ++ [{ generation := link.generation }]) (link.submit line).2 := by
  have tally := ledger.still.submit line
  unfold Link.submit at tally ⊢
  split at tally
  · rename_i closed
    rw [if_pos closed]
    exact ledger.keep rfl rfl rfl tally rfl rfl Iff.rfl
  · rename_i opened
    rw [if_neg opened]
    exact ledger.keep rfl rfl rfl tally rfl rfl Iff.rfl

/-- The oldest pending request comes to an end without being written. -/
theorem refuse (ledger : Ledger past link) {request : LinkRequest} {rest : List LinkRequest}
    (pending : link.pending = request :: rest) {failure : LinkError} (other : failure ≠ .timeout) :
    Ledger (past ++ [{
      generation := link.generation
      completions := link.complete request (.error failure) }]) { link with pending := rest } := by
  refine ledger.keep rfl rfl rfl ?_ rfl rfl Iff.rfl
  rw [complete_eq]
  apply ledger.tally.settle
  · rw [pending]
    exact List.perm_middle
  · exact List.Sublist.refl _
  · rw [pending]
    exact List.sublist_cons_self _ _
  · rfl
  · rfl
  · simpa using other

theorem transmit (ledger : Ledger past link) :
    Ledger (past ++ [(link.step .transmit).1]) (link.step .transmit).2 := by
  cases pending : link.pending with
  | nil =>
      simp only [Link.step, Link.transmit, pending]
      exact ledger.keep rfl rfl rfl ledger.still rfl rfl Iff.rfl
  | cons request rest =>
      simp only [Link.step, Link.transmit, pending]
      split
      · exact ledger.refuse pending (by simp)
      · contradiction
      · rename_i live
        exact ledger.write live pending rfl rfl rfl rfl

theorem transmitFails (ledger : Ledger past link) (cause : String) :
    Ledger (past ++ [(link.step (.transmitFails cause)).1])
      (link.step (.transmitFails cause)).2 := by
  cases pending : link.pending with
  | nil =>
      simp only [Link.step, completing, Link.transmit, pending]
      exact ledger.keep rfl rfl rfl ledger.still rfl rfl Iff.rfl
  | cons request rest =>
      simp only [Link.step, completing, Link.transmit, pending]
      split
      · exact ledger.refuse pending (by simp)
      · exact ledger.refuse pending (by simp)
      · contradiction

theorem redial (ledger : Ledger past link) (succeeded : Bool) :
    Ledger (past ++ [(link.step (.redial succeeded)).1]) (link.step (.redial succeeded)).2 := by
  have same := ledger.still
  simp only [Link.step, completing]
  unfold Link.redial
  split
  · rename_i lost
    split
    · exact ledger.keep rfl rfl rfl same rfl rfl Iff.rfl
    split
    · exact ledger.renew lost rfl rfl rfl rfl
    dsimp only
    split
    · refine ledger.keep rfl rfl rfl ?_ rfl rfl Iff.rfl
      exact same.congr rfl rfl rfl rfl
    · exact ledger.fail rfl rfl rfl rfl lost rfl rfl rfl rfl rfl
  · exact ledger.keep rfl rfl rfl same rfl rfl Iff.rfl

theorem finish (ledger : Ledger past link) :
    Ledger (past ++ [(link.step .finish).1]) (link.step .finish).2 := by
  simp only [Link.step, completing]
  unfold Link.finish
  split
  · exact ledger.fail rfl rfl rfl rfl rfl rfl rfl rfl rfl rfl
  · exact ledger.keep rfl rfl rfl ledger.still rfl rfl Iff.rfl

theorem expire (ledger : Ledger past link) (number : Nat) :
    Ledger (past ++ [(link.step (.expire number)).1]) (link.step (.expire number)).2 := by
  have tally := ledger.tally.expire number
  refine ledger.keep rfl rfl rfl tally ?_ ?_ ?_ <;>
    simp only [Link.step, completing] <;> unfold Link.expire <;> split <;> rfl

theorem step (ledger : Ledger past link) {event : LinkEvent}
    (enough : (link.step event).1.replies.length ≤ link.waiting.length) :
    Ledger (past ++ [(link.step event).1]) (link.step event).2 := by
  cases event with
  | submit line => exact ledger.submit line
  | heartbeat => exact ledger.submit heartbeatLine
  | transmit => exact ledger.transmit
  | transmitFails cause => exact ledger.transmitFails cause
  | receive piece => exact ledger.receive piece enough
  | hangUp => exact ledger.lose rfl rfl rfl rfl
  | redial succeeded => exact ledger.redial succeeded
  | expire number => exact ledger.expire number
  | close =>
      exact ledger.keep rfl rfl rfl (ledger.still.congr rfl rfl rfl rfl) rfl rfl Iff.rfl
  | finish => exact ledger.finish

/-- A reply comes in only where a request on the same connection waits for it. -/
theorem enough (ledger : Ledger past link) (event : LinkEvent)
    (asked : (repliesOn link.generation (past ++ [(link.step event).1])).length ≤
      (writtenOn link.generation (past ++ [(link.step event).1])).length) :
    (link.step event).1.replies.length ≤ link.waiting.length := by
  cases event with
  | receive piece =>
      by_cases live : link.connection = .live
      · have up : link.connection ≠ .gone := by simp [live]
        rw [repliesOn_snoc, writtenOn_snoc] at asked
        simp only [Link.step, if_true, Option.toList_none, List.append_nil,
          List.length_append] at asked ⊢
        rw [ledger.waits up, List.length_drop]
        omega
      · simp only [Link.step, repliesIn_idle live, List.length_nil, Nat.zero_le]
  | submit | heartbeat | transmit | transmitFails | hangUp | redial | expire | close | finish =>
      exact Nat.zero_le _

end Ledger

end ShardStore.Link
