import ShardStore.Proofs.Peering.Pairing

namespace ShardStore.Link

variable {link : Link} {past : List LinkEffects}

theorem writtenOn_sublist (generation : Nat) (trace : List LinkEffects) :
    (writtenOn generation trace).Sublist (writtenIn trace) := by
  induction trace with
  | nil => exact List.Sublist.refl _
  | cons effects rest ih =>
      simp only [writtenOn, writtenIn, List.flatMap_cons] at ih ⊢
      refine List.Sublist.append ?_ ih
      split
      · exact List.Sublist.refl _
      · exact List.nil_sublist _

theorem writtenOn_begins {trace : List LinkEffects} (begins : past <+: trace) (generation : Nat) :
    writtenOn generation past <+: writtenOn generation trace := by
  obtain ⟨rest, rfl⟩ := begins
  rw [writtenOn, writtenOn, List.flatMap_append]
  exact List.prefix_append _ _

theorem writtenOn_append_sublist {trace : List LinkEffects} {first second : Nat}
    (earlier : first < second)
    (ordered : trace.Pairwise fun before after => before.generation ≤ after.generation) :
    (writtenOn first trace ++ writtenOn second trace).Sublist (writtenIn trace) := by
  induction trace with
  | nil => exact List.Sublist.refl _
  | cons effects rest ih =>
      obtain ⟨least, ordered⟩ := List.pairwise_cons.mp ordered
      have below := ih ordered
      simp only [writtenOn, writtenIn, List.flatMap_cons] at below ⊢
      by_cases here : effects.generation = first
      · have notSecond : effects.generation ≠ second := by omega
        rw [if_pos here, if_neg notSecond, List.nil_append, List.append_assoc]
        exact (List.Sublist.refl _).append below
      · rw [if_neg here, List.nil_append]
        by_cases there : effects.generation = second
        · have none : (rest.flatMap fun effects =>
              if effects.generation = first then effects.written?.toList else []) = [] := by
            rw [List.flatMap_eq_nil_iff]
            intro other mem
            refine if_neg fun same => ?_
            have := least other mem
            omega
          rw [none, List.nil_append] at below ⊢
          rw [if_pos there]
          exact (List.Sublist.refl _).append below
        · rw [if_neg there, List.nil_append]
          exact below.trans (List.sublist_append_right _ _)

theorem run_ordered (ledger : Ledger past link) {events : List LinkEvent}
    (solicited : Solicited (past ++ (link.run events).1))
    (ordered : past.Pairwise fun before after => before.generation ≤ after.generation) :
    (past ++ (link.run events).1).Pairwise fun before after =>
      before.generation ≤ after.generation := by
  induction events generalizing past link with
  | nil =>
      rw [Link.run, List.append_nil]
      exact ordered
  | cons event rest ih =>
      simp only [Link.run] at solicited ⊢
      rw [List.append_cons] at solicited ⊢
      have asked := solicited (past ++ [(link.step event).1]) (List.prefix_append _ _)
      apply ih (ledger.step (ledger.enough event (asked link.generation))) solicited
      rw [List.pairwise_append]
      refine ⟨ordered, List.pairwise_singleton _ _, fun before mem after here => ?_⟩
      rw [List.mem_singleton.mp here, step_generation]
      exact ledger.latest before mem

/-- On each connection the requests stand in the order in which they were made. -/
theorem number_lt_of_place {address : NodeId} {events : List LinkEvent}
    (solicited : Solicited ((opened address).run events).1) {generation first second : Nat}
    (earlier : first < second) {before after : LinkRequest}
    (atFirst : (writtenOn generation ((opened address).run events).1)[first]? = some before)
    (atSecond : (writtenOn generation ((opened address).run events).1)[second]? = some after) :
    before.number < after.number := by
  have order := ((Ledger.opened address).run solicited).tally.order
  rw [List.map_append, List.pairwise_append] at order
  have sorted := order.1.sublist ((writtenOn_sublist generation _).map LinkRequest.number)
  obtain ⟨inFirst, rfl⟩ := List.getElem?_eq_some_iff.mp atFirst
  obtain ⟨inSecond, rfl⟩ := List.getElem?_eq_some_iff.mp atSecond
  exact List.pairwise_iff_getElem.mp (List.pairwise_map.mp sorted) _ _ inFirst inSecond earlier

/-- Whatever is written on a later connection was made later. -/
theorem number_lt_of_later {address : NodeId} {events : List LinkEvent}
    (solicited : Solicited ((opened address).run events).1) {first second : Nat}
    (earlier : first < second) {before after : LinkRequest}
    (memBefore : before ∈ writtenOn first ((opened address).run events).1)
    (memAfter : after ∈ writtenOn second ((opened address).run events).1) :
    before.number < after.number := by
  have ordered := run_ordered (Ledger.opened address) solicited List.Pairwise.nil
  have order := ((Ledger.opened address).run solicited).tally.order
  rw [List.map_append, List.pairwise_append] at order
  have sublist := (writtenOn_append_sublist earlier ordered).map LinkRequest.number
  have apart := order.1.sublist sublist
  rw [List.map_append, List.pairwise_append] at apart
  exact apart.2.2 _ (List.mem_map_of_mem memBefore) _ (List.mem_map_of_mem memAfter)

theorem lose_frame (link : Link) :
    link.lose.2.pending = link.pending ∧ link.lose.2.next = link.next := by
  unfold Link.lose
  split
  · split <;> exact ⟨rfl, rfl⟩
  · exact ⟨rfl, rfl⟩

theorem takeItems_frame (items : List Item) :
    (link.takeItems items).2.pending = link.pending ∧
      (link.takeItems items).2.next = link.next := by
  induction items generalizing link with
  | nil => exact ⟨rfl, rfl⟩
  | cons item rest ih =>
      cases item with
      | error fault => exact lose_frame link
      | ok reply =>
          simp only [takeItems, takeReply]
          split
          · exact ih
          · exact ih

theorem receive_frame (piece : Bytes) :
    (link.receive piece).2.pending = link.pending ∧ (link.receive piece).2.next = link.next := by
  unfold Link.receive
  split
  · exact takeItems_frame _
  · exact ⟨rfl, rfl⟩

theorem redial_frame (succeeded : Bool) :
    (link.redial succeeded).2.pending = link.pending ∧
      (link.redial succeeded).2.next = link.next := by
  unfold Link.redial
  split
  · split
    · exact ⟨rfl, rfl⟩
    split
    · exact ⟨rfl, rfl⟩
    dsimp only
    split <;> exact ⟨rfl, rfl⟩
  · exact ⟨rfl, rfl⟩

theorem expire_frame (number : Nat) :
    (link.expire number).2.pending = link.pending ∧ (link.expire number).2.next = link.next := by
  unfold Link.expire
  split <;> exact ⟨rfl, rfl⟩

theorem finish_frame (link : Link) :
    link.finish.2.pending = link.pending ∧ link.finish.2.next = link.next := by
  unfold Link.finish
  split <;> exact ⟨rfl, rfl⟩

/-- Whether a request may have been made by an event. -/
def MadeBy (event : LinkEvent) (request : LinkRequest) : Prop :=
  event = .submit request.line ∨ (event = .heartbeat ∧ request.line = heartbeatLine)

theorem submit_made (line : CommandLine) :
    link.next ≤ (link.submit line).2.next ∧
      ∀ request ∈ (link.submit line).2.pending, request ∈ link.pending ∨
        request = ⟨link.next, line⟩ := by
  unfold Link.submit
  split
  · exact ⟨Nat.le_refl _, fun _ mem => .inl mem⟩
  · refine ⟨Nat.le_succ _, fun request mem => ?_⟩
    exact (List.mem_append.mp mem).imp_right List.mem_singleton.mp

theorem transmit_frame (failure? : Option String) :
    (link.transmit failure?).2.2.next = link.next ∧
      ∀ request ∈ (link.transmit failure?).1.toList ++ (link.transmit failure?).2.2.pending,
        request ∈ link.pending := by
  unfold Link.transmit
  cases pending : link.pending with
  | nil => exact ⟨rfl, by simp [pending]⟩
  | cons request rest =>
      dsimp only
      split
      · exact ⟨rfl, fun _ mem => List.mem_cons_of_mem _ mem⟩
      · exact ⟨rfl, fun _ mem => List.mem_cons_of_mem _ mem⟩
      · exact ⟨rfl, fun _ mem => mem⟩

/-- What an event writes or leaves pending was pending before, or the event made it. -/
theorem step_made (event : LinkEvent) :
    link.next ≤ (link.step event).2.next ∧
      ∀ request ∈ (link.step event).1.written?.toList ++ (link.step event).2.pending,
        request ∈ link.pending ∨ (request.number = link.next ∧ MadeBy event request) := by
  have framed {after : Link} (frame : after.pending = link.pending ∧ after.next = link.next) :
      link.next ≤ after.next ∧ ∀ request ∈ after.pending,
        request ∈ link.pending ∨ (request.number = link.next ∧ MadeBy event request) := by
    rw [frame.1, frame.2]
    exact ⟨Nat.le_refl _, fun _ mem => .inl mem⟩
  cases event with
  | submit line =>
      obtain ⟨next, made⟩ := link.submit_made line
      refine ⟨next, fun request mem => (made request mem).imp_right ?_⟩
      rintro rfl
      exact ⟨rfl, .inl rfl⟩
  | heartbeat =>
      obtain ⟨next, made⟩ := link.submit_made heartbeatLine
      refine ⟨next, fun request mem => (made request mem).imp_right ?_⟩
      rintro rfl
      exact ⟨rfl, .inr ⟨rfl, rfl⟩⟩
  | transmit =>
      obtain ⟨next, held⟩ := link.transmit_frame none
      exact ⟨Nat.le_of_eq next.symm, fun request mem => .inl (held request mem)⟩
  | transmitFails cause =>
      obtain ⟨next, held⟩ := link.transmit_frame (some cause)
      exact ⟨Nat.le_of_eq next.symm, fun request mem =>
        .inl (held request (List.mem_append_right _ mem))⟩
  | receive piece => exact framed (receive_frame piece)
  | hangUp => exact framed (lose_frame link)
  | redial succeeded => exact framed (redial_frame succeeded)
  | expire number => exact framed (expire_frame number)
  | close => exact framed ⟨rfl, rfl⟩
  | finish => exact framed (finish_frame link)

/-- What a run writes or leaves pending was pending before, or an event of the run made it. -/
theorem made_in_run {events : List LinkEvent} :
    link.next ≤ (link.run events).2.next ∧
      ∀ request ∈ writtenIn (link.run events).1 ++ (link.run events).2.pending,
        request ∈ link.pending ∨
          (link.next ≤ request.number ∧ ∃ event ∈ events, MadeBy event request) := by
  induction events generalizing link with
  | nil => exact ⟨Nat.le_refl _, fun _ mem => .inl mem⟩
  | cons event rest ih =>
      obtain ⟨next, made⟩ := link.step_made event
      obtain ⟨further, later⟩ := @ih (link.step event).2
      refine ⟨Nat.le_trans next further, fun request mem => ?_⟩
      have first (mem : request ∈ (link.step event).1.written?.toList ++
          (link.step event).2.pending) : request ∈ link.pending ∨
          (link.next ≤ request.number ∧ ∃ maker ∈ event :: rest, MadeBy maker request) := by
        refine (made request mem).imp_right fun ⟨number, maker⟩ => ?_
        exact ⟨Nat.le_of_eq number.symm, event, List.mem_cons_self, maker⟩
      simp only [Link.run, writtenIn, List.flatMap_cons, List.append_assoc] at mem
      rcases List.mem_append.mp mem with here | behind
      · exact first (List.mem_append_left _ here)
      rcases later request behind with held | ⟨number, maker, inRest, made⟩
      · exact first (List.mem_append_right _ held)
      · exact .inr ⟨Nat.le_trans next number, maker, List.mem_cons_of_mem _ inRest, made⟩

theorem run_append (link : Link) (first second : List LinkEvent) :
    link.run (first ++ second) =
      ((link.run first).1 ++ ((link.run first).2.run second).1,
        ((link.run first).2.run second).2) := by
  induction first generalizing link with
  | nil => rfl
  | cons event rest ih => simp only [List.cons_append, Link.run, ih]

end ShardStore.Link
