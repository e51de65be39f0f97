import ShardStore.Proofs.Cluster.Lending
import ShardStore.Proofs.Cluster.SingleHop
import ShardStore.Traffic

namespace ShardStore

/-- Whether a line is a DEL or FLUSHDB line with as many words as it may have. -/
def Broadcast : CommandLine → Prop
  | [] => False
  | word :: args =>
    ∃ command, (command = Command.del ∨ command = Command.flushDb) ∧
      Engine.lowerName word = command.name ∧ command.arity.admits (args.length + 1) = true

/-- The command whose lines have their replies merged so. -/
def Merge.command : Merge → Command
  | .count => .del
  | .acknowledge => .flushDb

theorem Route.mem_table {name : String} {route : Route} (listed : named? name = some route) :
    (name, route) ∈ table := by
  obtain ⟨before, after, whole, -⟩ := List.lookup_eq_some_iff.mp listed
  simp [whole]

namespace Broadcast

variable {line : CommandLine} {word : Bytes} {args : List Bytes}

theorem listed {command : Command} (either : command = .del ∨ command = .flushDb) :
    Command.named? (Text.lowercase command.name) = some command := by
  rcases either with rfl | rfl <;> decide +kernel

theorem lookup {command : Command} (either : command = .del ∨ command = .flushDb)
    (named : Engine.lowerName word = command.name)
    (admitted : command.arity.admits (args.length + 1) = true) :
    Command.lookup (Engine.lowerName word) (args.length + 1) = .ok command := by
  simp only [Command.lookup, named, listed either, admitted, if_true]

theorem known (broadcast : Broadcast (word :: args)) :
    ∃ command : Command, (command = .del ∨ command = .flushDb) ∧
      Engine.lowerName word = command.name ∧
      Command.lookup (Engine.lowerName word) (args.length + 1) = .ok command := by
  obtain ⟨command, either, named, admitted⟩ := broadcast
  exact ⟨command, either, named, lookup either named admitted⟩

theorem plan_of_command (merge : Merge) (named : Engine.lowerName word = merge.command.name)
    (admitted : merge.command.arity.admits (args.length + 1) = true) (membership : Membership) :
    membership.plan (word :: args) = .all merge (word :: args) := by
  cases merge with
  | count =>
      have routed : Route.named? Merge.count.command.name = some .count := by decide
      rw [← named] at routed
      exact Cluster.plan_of_known routed (lookup (.inl rfl) named admitted) membership
  | acknowledge =>
      have routed : Route.named? Merge.acknowledge.command.name = some .acknowledge := by decide
      rw [← named] at routed
      exact Cluster.plan_of_known routed (lookup (.inr rfl) named admitted) membership

theorem plan (broadcast : Broadcast line) :
    ∃ merge, ∀ membership : Membership, membership.plan line = .all merge line := by
  cases line with
  | nil => exact broadcast.elim
  | cons word args =>
      obtain ⟨command, rfl | rfl, named, admitted⟩ := broadcast
      · exact ⟨.count, plan_of_command .count named admitted⟩
      · exact ⟨.acknowledge, plan_of_command .acknowledge named admitted⟩

theorem exec (broadcast : Broadcast line) {engine : Engine} {selected : Nat}
    (within : selected < engine.count) :
    (engine.exec selected line).reply.Plain ∧
      (engine.exec selected line).selected = selected := by
  cases line with
  | nil => exact broadcast.elim
  | cons word args =>
      obtain ⟨command, either, named, known⟩ := broadcast.known
      have other : Engine.lowerName word ≠ "select" := by
        rw [named]
        rcases either with rfl | rfl <;> decide
      obtain ⟨reply, stays, -⟩ :=
        Engine.exec_known other known (List.getElem?_eq_getElem within)
      rw [reply]
      refine ⟨?_, stays⟩
      rcases either with rfl | rfl
      · exact Message.plain_ofNat _
      · exact Message.plain_ok

theorem of_planRoute {membership : Membership} {route : Route} {merge : Merge} {own : CommandLine}
    {name : String} (planned : membership.planRoute route line = .all merge own)
    (mem : (name, route) ∈ Route.table) :
    ∃ command : Command, (command = .del ∨ command = .flushDb) ∧ name = command.name ∧
      Membership.checksArity name route = true := by
  cases route with
  | count =>
      obtain rfl : name = "del" := by simpa [Route.table] using mem
      exact ⟨.del, .inl rfl, rfl, by decide⟩
  | acknowledge =>
      obtain rfl : name = "flushdb" := by simpa [Route.table] using mem
      exact ⟨.flushDb, .inr rfl, rfl, by decide⟩
  | here => cases planned
  | owner | commonOwner | forwarded =>
      simp only [Membership.planRoute, Membership.missingArgument] at planned
      split at planned <;> grind

theorem of_plan {membership : Membership} {merge : Merge} {own : CommandLine}
    (planned : membership.plan line = .all merge own) : Broadcast line := by
  cases line with
  | nil => cases planned
  | cons word args =>
      simp only [Membership.plan] at planned
      split at planned
      · cases planned
      · next route routed =>
        split at planned
        · cases planned
        · next admitted =>
          have shared := of_planRoute planned (Route.mem_table routed)
          obtain ⟨command, either, named, checked⟩ := shared
          cases known : Command.lookup (Engine.lowerName word) (args.length + 1) with
          | error failure => exact (admitted failure checked known).elim
          | ok other =>
              rw [named] at known
              obtain ⟨-, enough⟩ := Command.lookup_eq (listed either) known
              exact ⟨command, either, named, enough⟩

end Broadcast

namespace Cluster

/-- A line that is neither about keys nor for every node is answered, or kept, by the node that
gets it. -/
theorem plan_local {line : CommandLine} (unkeyed : ¬ Keyed line) (single : ¬ Broadcast line)
    (membership : Membership) :
    (∃ reply, membership.plan line = .answer reply) ∨
      ∃ own, membership.plan line = .one ⟨membership.self, own⟩ := by
  rcases plan_unkeyed unkeyed membership with answered | kept | ⟨merge, word, args, -, planned⟩
  · exact .inl answered
  · exact .inr kept
  · exact absurd (Broadcast.of_plan planned) single

/-- A node keeps what stands behind the word that marks a line for every node, whatever it is. -/
theorem plan_forwarded {word : Bytes} (marked : Engine.lowerName word = Route.forwardedName)
    (membership : Membership) (rest : List Bytes) :
    membership.plan (word :: rest) =
      if rest = [] then .answer (Failure.wrongArity Route.forwardedName).reply
      else .one ⟨membership.self, rest⟩ := by
  have route : Route.named? Route.forwardedName = some .forwarded := by decide
  have unchecked : Membership.checksArity Route.forwardedName .forwarded = false := by decide
  cases rest <;> simp only [Membership.plan, marked, route, unchecked] <;> rfl

end Cluster

namespace Stage

/-- The number of the channel that a parcel has. -/
def lent? : Stage → Option Nat
  | .waiting => none
  | .borrowed pooled => some pooled.number
  | .switched pooled => some pooled.number

def Switched : Stage → Prop
  | .switched _ => True
  | _ => False

/-- Whether nothing is under way on the channel that a parcel has, and the database of the parcel is
selected on it if the stage says so. -/
def Ready (selected : Nat) : Stage → Prop
  | .waiting => True
  | .borrowed pooled => pooled.object.Idle
  | .switched pooled => pooled.object.Idle ∧ pooled.object.far.selected = selected

end Stage

namespace Parcel

/-- Whether a parcel takes a client's line to a node. -/
structure Carries (issue : Issue) (parcel : Parcel) : Prop where
  broadcast : Broadcast issue.line
  sender : parcel.sender = issue.node
  selected : parcel.selected = issue.selected
  line : parcel.line = (Cluster.told issue.node issue.line parcel.receiver).line
  ready : parcel.stage.Ready issue.selected
  own : parcel.receiver = parcel.sender → parcel.stage = .waiting

/-- How many steps a parcel has still to go. -/
def distance (parcel : Parcel) : Nat :=
  if parcel.receiver = parcel.sender then 1
  else
    match parcel.stage with
    | .waiting => 3
    | .borrowed _ => 2
    | .switched _ => 1

end Parcel

namespace Traffic

variable {κ : Type}

def parcelsFor (traffic : Traffic κ) (number : Nat) (id : NodeId) : List Parcel :=
  traffic.underWay.filter fun parcel => parcel.number = number ∧ parcel.receiver = id

/-- The lines that a node has received on behalf of a client's line. -/
def receivedFor (traffic : Traffic κ) (number : Nat) (id : NodeId) : List CommandLine :=
  (traffic.received.filter fun receipt => receipt.number = number ∧ receipt.node = id).map
    Receipt.line

/-- The lines that a node has executed on behalf of a client's line, and the databases on which. -/
def executedFor (traffic : Traffic κ) (number : Nat) (id : NodeId) : List (Nat × CommandLine) :=
  (traffic.executed.filter fun deed => deed.number = number ∧ deed.node = id).map
    fun deed => (deed.selected, deed.line)

/-- The numbers of the channels to a node that parcels of another have. -/
def lent (traffic : Traffic κ) (sender receiver : NodeId) : List Nat :=
  (traffic.underWay.filter fun parcel =>
    parcel.sender = sender ∧ parcel.receiver = receiver).filterMap fun parcel => parcel.stage.lent?

def distance (traffic : Traffic κ) : Nat :=
  (traffic.underWay.map Parcel.distance).sum

/-- What has become of a client's line at a node, from the parcels that are under way to it, and
from what it has received and executed. -/
inductive Fate (issue : Issue) (id : NodeId) :
    List Parcel → List CommandLine → List (Nat × CommandLine) → Prop where
  | sent {parcel : Parcel} (unswitched : ¬ parcel.stage.Switched) : Fate issue id [parcel] [] []
  /-- The node has the SELECT line and executed it, whatever was selected before. -/
  | switched {parcel : Parcel} (elsewhere : id ≠ issue.node) (stage : parcel.stage.Switched)
    (before : Nat) : Fate issue id [parcel] [selectLine issue.selected]
      [(before, selectLine issue.selected)]
  | kept (own : id = issue.node) : Fate issue id [] [] [(issue.selected, issue.line)]
  | relayed (elsewhere : id ≠ issue.node) (before : Nat) : Fate issue id []
      [selectLine issue.selected, Route.forward issue.line]
      [(before, selectLine issue.selected), (issue.selected, issue.line)]

/-- Whether the records are those of the clients' lines, and each of these that is for every node
has its fate at every node. -/
structure Booked (ids : List NodeId) (databases : Nat) (traffic : Traffic κ) : Prop where
  issued : ∀ issue ∈ traffic.issued, issue.node ∈ ids ∧ issue.line.Addressable ∧
    issue.selected < databases ∧ issue.selected ≤ maxLength
  parcels : ∀ parcel ∈ traffic.underWay, parcel.receiver ∈ ids ∧
    ∃ issue, traffic.issued[parcel.number]? = some issue ∧ parcel.Carries issue
  received : ∀ receipt ∈ traffic.received, receipt.number < traffic.issued.length
  executed : ∀ deed ∈ traffic.executed, deed.number < traffic.issued.length
  fates : ∀ number issue, traffic.issued[number]? = some issue → Broadcast issue.line →
    ∀ id ∈ ids, Fate issue id (traffic.parcelsFor number id) (traffic.receivedFor number id)
      (traffic.executedFor number id)

/-- Whether a parcel has gone a step further, or has ended, while its receiver got some lines and
executed some. -/
structure Moved (traffic : Traffic κ) (parcel : Parcel) (next? : Option Parcel)
    (lines : List CommandLine) (deeds : List (Nat × CommandLine)) (after : Traffic κ) : Prop where
  place : ∃ front back, traffic.underWay = front ++ parcel :: back ∧
    after.underWay = front ++ next?.toList ++ back
  same : ∀ next ∈ next?, next.number = parcel.number ∧ next.sender = parcel.sender ∧
    next.receiver = parcel.receiver
  issued : after.issued = traffic.issued
  selections : after.selections = traffic.selections
  received : after.received =
    traffic.received ++ lines.map fun line => ⟨parcel.number, parcel.receiver, line⟩
  executed : after.executed = traffic.executed ++
    deeds.map fun deed => ⟨parcel.number, parcel.receiver, deed.1, deed.2⟩

namespace Moved

variable {traffic after : Traffic κ} {parcel : Parcel} {next? : Option Parcel}
  {lines : List CommandLine} {deeds : List (Nat × CommandLine)}

theorem receivedFor (moved : Moved traffic parcel next? lines deeds after) (number : Nat)
    (id : NodeId) : after.receivedFor number id = traffic.receivedFor number id ++
      if parcel.number = number ∧ parcel.receiver = id then lines else [] := by
  simp only [Traffic.receivedFor, moved.received, List.filter_append, List.map_append]
  split
  · next here => simp [here, List.filter_map, Function.comp_def]
  · next elsewhere => simp [elsewhere, List.filter_map, Function.comp_def]

theorem executedFor (moved : Moved traffic parcel next? lines deeds after) (number : Nat)
    (id : NodeId) : after.executedFor number id = traffic.executedFor number id ++
      if parcel.number = number ∧ parcel.receiver = id then deeds else [] := by
  simp only [Traffic.executedFor, moved.executed, List.filter_append, List.map_append]
  split
  · next here => simp [here, List.filter_map, Function.comp_def]
  · next elsewhere => simp [elsewhere, List.filter_map, Function.comp_def]

theorem parcelsFor_of_elsewhere (moved : Moved traffic parcel next? lines deeds after) {number : Nat}
    {id : NodeId} (elsewhere : ¬ (parcel.number = number ∧ parcel.receiver = id)) :
    after.parcelsFor number id = traffic.parcelsFor number id := by
  obtain ⟨front, back, before, behind⟩ := moved.place
  have apart : ∀ next ∈ next?, ¬ (next.number = number ∧ next.receiver = id) := by
    intro next mem
    obtain ⟨sameNumber, -, sameReceiver⟩ := moved.same next mem
    rwa [sameNumber, sameReceiver]
  simp only [Traffic.parcelsFor, before, behind, List.filter_append]
  cases next? with
  | none => simp [elsewhere]
  | some next => simp [elsewhere, apart next rfl]

theorem parcelsFor_here (moved : Moved traffic parcel next? lines deeds after)
    (single : (traffic.parcelsFor parcel.number parcel.receiver).length ≤ 1) :
    traffic.parcelsFor parcel.number parcel.receiver = [parcel] ∧
      after.parcelsFor parcel.number parcel.receiver = next?.toList := by
  obtain ⟨front, back, before, behind⟩ := moved.place
  let here (other : Parcel) : Bool := other.number = parcel.number ∧ other.receiver = parcel.receiver
  have whole : traffic.parcelsFor parcel.number parcel.receiver =
      front.filter here ++ parcel :: back.filter here := by
    simp [Traffic.parcelsFor, before, here]
  have empty : front.filter here = [] ∧ back.filter here = [] := by
    rw [whole, List.length_append, List.length_cons] at single
    exact ⟨List.eq_nil_of_length_eq_zero (by omega), List.eq_nil_of_length_eq_zero (by omega)⟩
  have kept : next?.toList.filter here = next?.toList := by
    cases next? with
    | none => rfl
    | some next =>
        obtain ⟨sameNumber, -, sameReceiver⟩ := moved.same next rfl
        simp [here, sameNumber, sameReceiver]
  refine ⟨by rw [whole, empty.1, empty.2, List.nil_append], ?_⟩
  have left : after.parcelsFor parcel.number parcel.receiver =
      front.filter here ++ next?.toList.filter here ++ back.filter here := by
    simp only [Traffic.parcelsFor, behind, List.filter_append, here]
  rw [left, empty.1, empty.2, kept, List.nil_append, List.append_nil]

theorem lent_of_elsewhere (moved : Moved traffic parcel next? lines deeds after)
    {sender receiver : NodeId}
    (elsewhere : ¬ (sender = parcel.sender ∧ receiver = parcel.receiver)) :
    after.lent sender receiver = traffic.lent sender receiver := by
  obtain ⟨front, back, before, behind⟩ := moved.place
  have skipped : ¬ (parcel.sender = sender ∧ parcel.receiver = receiver) := fun both =>
    elsewhere ⟨both.1.symm, both.2.symm⟩
  have apart : ∀ next ∈ next?, ¬ (next.sender = sender ∧ next.receiver = receiver) := by
    intro next mem
    obtain ⟨-, sameSender, sameReceiver⟩ := moved.same next mem
    rwa [sameSender, sameReceiver]
  simp only [Traffic.lent, before, behind, List.filter_append]
  cases next? with
  | none => simp [skipped]
  | some next => simp [skipped, apart next rfl]

theorem lent_here (moved : Moved traffic parcel next? lines deeds after) :
    ∃ others : List Nat,
      (traffic.lent parcel.sender parcel.receiver).Perm (parcel.stage.lent?.toList ++ others) ∧
      (after.lent parcel.sender parcel.receiver).Perm
        ((next?.bind fun next => next.stage.lent?).toList ++ others) := by
  obtain ⟨front, back, before, behind⟩ := moved.place
  let here (other : Parcel) : Bool :=
    other.sender = parcel.sender ∧ other.receiver = parcel.receiver
  let numbers (parcels : List Parcel) : List Nat :=
    (parcels.filter here).filterMap fun other => other.stage.lent?
  have parts (middle : List Parcel) :
      (numbers (front ++ middle ++ back)).Perm (numbers middle ++ numbers (front ++ back)) := by
    simp only [numbers, List.filter_append, List.filterMap_append, ← List.append_assoc]
    exact List.Perm.append_right _ List.perm_append_comm
  have own : numbers [parcel] = parcel.stage.lent?.toList := by
    cases held : parcel.stage.lent? <;> simp [numbers, here, held]
  have moves : numbers next?.toList = (next?.bind fun next => next.stage.lent?).toList := by
    cases next? with
    | none => rfl
    | some next =>
        obtain ⟨-, sameSender, sameReceiver⟩ := moved.same next rfl
        cases held : next.stage.lent? <;> simp [numbers, here, held, sameSender, sameReceiver]
  refine ⟨numbers (front ++ back), ?_, ?_⟩
  · have all := parts [parcel]
    rw [own, List.append_assoc, List.singleton_append, ← before] at all
    exact all
  · have all := parts next?.toList
    rw [moves, ← behind] at all
    exact all

theorem lent_perm (moved : Moved traffic parcel next? lines deeds after)
    (same : (next?.bind fun next => next.stage.lent?) = parcel.stage.lent?)
    (sender receiver : NodeId) :
    (traffic.lent sender receiver).Perm (after.lent sender receiver) := by
  by_cases here : sender = parcel.sender ∧ receiver = parcel.receiver
  · obtain ⟨rfl, rfl⟩ := here
    obtain ⟨others, before, behind⟩ := moved.lent_here
    rw [same] at behind
    exact before.trans behind.symm
  · rw [moved.lent_of_elsewhere here]

theorem distance (moved : Moved traffic parcel next? lines deeds after) :
    after.distance + parcel.distance = traffic.distance + next?.elim 0 Parcel.distance := by
  obtain ⟨front, back, before, behind⟩ := moved.place
  have middle : (next?.toList.map Parcel.distance).sum = next?.elim 0 Parcel.distance := by
    cases next? <;> simp
  simp only [Traffic.distance, before, behind, List.map_append, List.map_cons, List.sum_append,
    List.sum_cons, middle]
  omega

end Moved

theorem Fate.length_le {issue : Issue} {id : NodeId} {parcels : List Parcel}
    {received : List CommandLine} {executed : List (Nat × CommandLine)}
    (fate : Fate issue id parcels received executed) : parcels.length ≤ 1 := by
  cases fate <;> simp

/-- A step of a parcel moves one fate on. -/
theorem Booked.moved {ids : List NodeId} {databases : Nat} {traffic after : Traffic κ}
    (booked : traffic.Booked ids databases) {parcel : Parcel} {next? : Option Parcel}
    {lines : List CommandLine} {deeds : List (Nat × CommandLine)}
    (moved : Moved traffic parcel next? lines deeds after) {issue : Issue}
    (found : traffic.issued[parcel.number]? = some issue)
    (carries : ∀ next ∈ next?, next.Carries issue)
    (fate : ∀ received executed, Fate issue parcel.receiver [parcel] received executed →
      Fate issue parcel.receiver next?.toList (received ++ lines) (executed ++ deeds)) :
    after.Booked ids databases := by
  obtain ⟨front, back, before, behind⟩ := moved.place
  have within : parcel.number < traffic.issued.length := (List.getElem?_eq_some_iff.mp found).1
  refine ⟨?_, ?_, ?_, ?_, ?_⟩
  · rw [moved.issued]
    exact booked.issued
  · rw [moved.issued, behind]
    intro other mem
    have listed : other ∈ traffic.underWay ∨ other ∈ next? := by
      simp only [before, List.mem_append, List.mem_cons, Option.mem_toList] at mem ⊢
      tauto
    rcases listed with listed | next
    · exact booked.parcels other listed
    · obtain ⟨sameNumber, -, sameReceiver⟩ := moved.same other next
      rw [sameNumber, sameReceiver]
      have mine : parcel ∈ traffic.underWay := by simp [before]
      exact ⟨(booked.parcels parcel mine).1, issue, found, carries other next⟩
  · rw [moved.issued, moved.received]
    intro receipt mem
    rcases List.mem_append.mp mem with mem | mem
    · exact booked.received receipt mem
    · obtain ⟨line, -, rfl⟩ := List.mem_map.mp mem
      exact within
  · rw [moved.issued, moved.executed]
    intro deed mem
    rcases List.mem_append.mp mem with mem | mem
    · exact booked.executed deed mem
    · obtain ⟨done, -, rfl⟩ := List.mem_map.mp mem
      exact within
  · intro number other listed broadcast id known
    rw [moved.issued] at listed
    have fateBefore := booked.fates number other listed broadcast id known
    rw [moved.receivedFor, moved.executedFor]
    by_cases here : parcel.number = number ∧ parcel.receiver = id
    · obtain ⟨rfl, rfl⟩ := here
      obtain rfl : issue = other := Option.some.inj (found.symm.trans listed)
      obtain ⟨alone, left⟩ := moved.parcelsFor_here fateBefore.length_le
      rw [alone] at fateBefore
      simp only [left, and_self, if_true]
      exact fate _ _ fateBefore
    · rw [moved.parcelsFor_of_elsewhere here, if_neg here, if_neg here, List.append_nil,
        List.append_nil]
      exact fateBefore

theorem Booked.number_lt {ids : List NodeId} {databases : Nat} {traffic : Traffic κ}
    (booked : traffic.Booked ids databases) {parcel : Parcel} (mem : parcel ∈ traffic.underWay) :
    parcel.number < traffic.issued.length := by
  obtain ⟨-, issue, found, -⟩ := booked.parcels parcel mem
  exact (List.getElem?_eq_some_iff.mp found).1

/-- Of a client's line that is not yet issued there is no record. -/
theorem Booked.fresh {ids : List NodeId} {databases : Nat} {traffic : Traffic κ}
    (booked : traffic.Booked ids databases) (id : NodeId) :
    traffic.parcelsFor traffic.issued.length id = [] ∧
      traffic.receivedFor traffic.issued.length id = [] ∧
      traffic.executedFor traffic.issued.length id = [] := by
  simp only [parcelsFor, receivedFor, executedFor, List.map_eq_nil_iff, List.filter_eq_nil_iff,
    decide_eq_true_eq, not_and]
  refine ⟨fun parcel mem same => ?_, fun receipt mem same => ?_, fun deed mem same => ?_⟩
  · exact absurd same (Nat.ne_of_lt (booked.number_lt mem))
  · exact absurd same (Nat.ne_of_lt (booked.received receipt mem))
  · exact absurd same (Nat.ne_of_lt (booked.executed deed mem))

/-- Whether a client's line has been issued, and has made some parcels and been executed some
times. -/
structure Issued (traffic : Traffic κ) (issue : Issue) (parcels : List Parcel) (deeds : List Deed)
    (after : Traffic κ) : Prop where
  issued : after.issued = traffic.issued ++ [issue]
  underWay : after.underWay = traffic.underWay ++ parcels
  received : after.received = traffic.received
  executed : after.executed = traffic.executed ++ deeds
  parcels : ∀ parcel ∈ parcels, parcel.number = traffic.issued.length
  deeds : ∀ deed ∈ deeds, deed.number = traffic.issued.length

namespace Issued

variable {traffic after : Traffic κ} {issue : Issue} {parcels : List Parcel} {deeds : List Deed}

theorem listed_iff (step : Issued traffic issue parcels deeds after) {number : Nat} {other : Issue} :
    after.issued[number]? = some other ↔ traffic.issued[number]? = some other ∨
      number = traffic.issued.length ∧ other = issue := by
  rw [step.issued]
  rcases Nat.lt_trichotomy number traffic.issued.length with earlier | same | later
  · simp [List.getElem?_append_left earlier, Nat.ne_of_lt earlier]
  · simp [same, eq_comm]
  · have past : (traffic.issued ++ [issue]).length ≤ number := by
      rw [List.length_append]
      exact later
    simp [List.getElem?_eq_none past, List.getElem?_eq_none (Nat.le_of_lt later),
      Nat.ne_of_gt later]

/-- The records of other numbers stay as they are. -/
theorem others (step : Issued traffic issue parcels deeds after) {number : Nat}
    (differs : number ≠ traffic.issued.length) (id : NodeId) :
    after.parcelsFor number id = traffic.parcelsFor number id ∧
      after.receivedFor number id = traffic.receivedFor number id ∧
      after.executedFor number id = traffic.executedFor number id := by
  have noParcels : parcels.filter (fun parcel => parcel.number = number ∧ parcel.receiver = id) =
      [] := by
    refine List.filter_eq_nil_iff.mpr fun parcel mem => ?_
    simp [step.parcels parcel mem, Ne.symm differs]
  have noDeeds : deeds.filter (fun deed => deed.number = number ∧ deed.node = id) = [] := by
    refine List.filter_eq_nil_iff.mpr fun deed mem => ?_
    simp [step.deeds deed mem, Ne.symm differs]
  simp only [parcelsFor, receivedFor, executedFor, step.underWay, step.received, step.executed,
    List.filter_append, noParcels, noDeeds, List.append_nil, and_self]

theorem lent (step : Issued traffic issue parcels deeds after)
    (waits : ∀ parcel ∈ parcels, parcel.stage = .waiting) (sender receiver : NodeId) :
    after.lent sender receiver = traffic.lent sender receiver := by
  have none : (parcels.filter fun parcel =>
      parcel.sender = sender ∧ parcel.receiver = receiver).filterMap
        (fun parcel => parcel.stage.lent?) = [] := by
    refine List.filterMap_eq_nil_iff.mpr fun parcel mem => ?_
    rw [waits parcel (List.mem_filter.mp mem).1]
    rfl
  simp only [Traffic.lent, step.underWay, List.filter_append, List.filterMap_append, none,
    List.append_nil]

end Issued

/-- A client's line for every node is on its way to each of them when it has been issued. -/
theorem Booked.issue {ids : List NodeId} {databases : Nat} {traffic after : Traffic κ}
    (booked : traffic.Booked ids databases) {issue : Issue} {parcels : List Parcel}
    {deeds : List Deed} (step : Issued traffic issue parcels deeds after)
    (valid : issue.node ∈ ids ∧ issue.line.Addressable ∧ issue.selected < databases ∧
      issue.selected ≤ maxLength)
    (carry : ∀ parcel ∈ parcels, parcel.receiver ∈ ids ∧ parcel.Carries issue)
    (fate : Broadcast issue.line → deeds = [] ∧ ∀ id ∈ ids, ∃ parcel : Parcel,
      parcels.filter (fun parcel => parcel.receiver = id) = [parcel] ∧ ¬ parcel.stage.Switched) :
    after.Booked ids databases := by
  have longer : after.issued.length = traffic.issued.length + 1 := by simp [step.issued]
  refine ⟨?_, ?_, ?_, ?_, ?_⟩
  · rw [step.issued]
    intro other mem
    rcases List.mem_append.mp mem with mem | mem
    · exact booked.issued other mem
    · rw [List.mem_singleton.mp mem]
      exact valid
  · rw [step.underWay]
    intro parcel mem
    rcases List.mem_append.mp mem with mem | mem
    · obtain ⟨known, other, found, carries⟩ := booked.parcels parcel mem
      exact ⟨known, other, step.listed_iff.mpr (.inl found), carries⟩
    · obtain ⟨known, carries⟩ := carry parcel mem
      exact ⟨known, issue, step.listed_iff.mpr (.inr ⟨step.parcels parcel mem, rfl⟩), carries⟩
  · rw [step.received, longer]
    exact fun receipt mem => Nat.lt_succ_of_lt (booked.received receipt mem)
  · rw [step.executed, longer]
    intro deed mem
    rcases List.mem_append.mp mem with mem | mem
    · exact Nat.lt_succ_of_lt (booked.executed deed mem)
    · rw [step.deeds deed mem]
      exact Nat.lt_succ_self _
  · intro number other found broadcast id known
    rcases step.listed_iff.mp found with listed | ⟨rfl, rfl⟩
    · have earlier := Nat.ne_of_lt (List.getElem?_eq_some_iff.mp listed).1
      obtain ⟨parcels, received, executed⟩ := step.others earlier id
      rw [parcels, received, executed]
      exact booked.fates number other listed broadcast id known
    · obtain ⟨rfl, single⟩ := fate broadcast
      obtain ⟨parcel, only, unswitched⟩ := single id known
      obtain ⟨noParcels, noReceipts, noDeeds⟩ := booked.fresh id
      have mine : parcels.filter (fun parcel =>
          parcel.number = traffic.issued.length ∧ parcel.receiver = id) = [parcel] := by
        rw [← only]
        exact List.filter_congr fun other mem => by simp [step.parcels other mem]
      have sent : after.parcelsFor traffic.issued.length id = [parcel] := by
        rw [parcelsFor, step.underWay, List.filter_append, mine, ← parcelsFor, noParcels,
          List.nil_append]
      have received : after.receivedFor traffic.issued.length id = [] := by
        rw [receivedFor, step.received, ← receivedFor, noReceipts]
      have executed : after.executedFor traffic.issued.length id = [] := by
        rw [executedFor, step.executed, List.append_nil, ← executedFor, noDeeds]
      rw [sent, received, executed]
      exact .sent unswitched

end Traffic

end ShardStore
