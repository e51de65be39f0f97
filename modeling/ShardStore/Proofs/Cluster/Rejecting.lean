import ShardStore.Proofs.Cluster.Broadcasting
import ShardStore.Proofs.Command.Breaches

namespace ShardStore

/-- The fewest words that a line may have. -/
def Arity.least : Arity → Nat
  | .exactly count => count
  | .atLeast count => count

theorem Arity.least_le {arity : Arity} {words : Nat} (admitted : arity.admits words = true) :
    arity.least ≤ words := by
  cases arity with
  | exactly count => exact (beq_iff_eq.mp admitted).ge
  | atLeast count => exact of_decide_eq_true admitted

theorem Command.lookup_found {name : String} {words : Nat} {command : Command}
    (known : lookup name words = .ok command) :
    find? name = some command ∧ command.arity.admits words = true := by
  cases found : find? name with
  | none =>
      rw [find?] at found
      simp [lookup, found] at known
  | some other =>
      obtain ⟨rfl, admitted⟩ := lookup_eq found known
      exact ⟨rfl, admitted⟩

theorem Command.lookup_refused {name : String} {words : Nat} {command : Command}
    (found : find? name = some command) (refused : command.arity.admits words = false) :
    lookup name words = .error (.wrongArity (Text.lowercase name)) := by
  rw [find?] at found
  simp only [lookup, found, refused, Bool.false_eq_true, if_false]

namespace Route

/-- How many words of a line have to be there for a route to be decided, the name included. -/
def reads : Route → Nat
  | .owner => 2
  | .commonOwner => 3
  | .here | .count | .acknowledge | .forwarded => 1

theorem reads_le_least : ∀ entry ∈ table, ∀ command ∈ Command.find? entry.1,
    entry.2.reads ≤ command.arity.least := by
  decide +kernel

/-- Under a name that both tables list, the length of a line is checked before it goes anywhere. -/
theorem checked_of_registered : ∀ entry ∈ table, (Command.find? entry.1).isSome = true →
    Membership.checksArity entry.1 entry.2 = true := by
  decide +kernel

/-- Whether a line comes to its route: its name has one, and where the length of a line is checked, a
command takes a line of that length. -/
inductive Taken (route : Route) : CommandLine → Prop
  | intro {word : Bytes} {args : List Bytes}
      (listed : named? (Engine.lowerName word) = some route)
      (checked : Membership.checksArity (Engine.lowerName word) route = true →
        ∃ command, Command.lookup (Engine.lowerName word) (args.length + 1) = .ok command) :
      Taken route (word :: args)

variable {route : Route} {line : CommandLine}

theorem Taken.plan (taken : route.Taken line) (membership : Membership) :
    membership.plan line = membership.planRoute route line := by
  obtain ⟨listed, checked⟩ := taken
  simp only [Membership.plan, listed, List.length_cons]
  split
  · next failure checks refused =>
    obtain ⟨command, known⟩ := checked checks
    rw [refused] at known
    cases known
  · rfl

theorem Taken.reads_le (taken : route.Taken line) : route.reads ≤ line.length := by
  obtain @⟨word, args, listed, checked⟩ := taken
  cases checks : Membership.checksArity (Engine.lowerName word) route with
  | true =>
      obtain ⟨command, known⟩ := checked checks
      obtain ⟨found, admitted⟩ := Command.lookup_found known
      exact (reads_le_least _ (mem_table listed) command found).trans (Arity.least_le admitted)
  | false =>
      -- What is not checked is a SELECT or a marked line, and these are decided by the name alone.
      have nameOnly : route.reads = 1 := by
        rcases Bool.and_eq_false_iff.mp checks with select | forwarded
        · have named : Engine.lowerName word = "select" := by simpa using select
          rw [named] at listed
          obtain rfl : route = .here := (Option.some.inj listed).symm
          rfl
        · obtain rfl : route = .forwarded := by simpa using forwarded
          rfl
      rw [nameOnly, List.length_cons]
      exact Nat.le_add_left 1 _

end Route

namespace Membership

variable (membership : Membership) {line : CommandLine}

/-- The lines that a node is to reject: those without a name, with a name that has no route, or with
a number of words that their command does not take, the word of the nodes alone, and moves between keys
with different owners. -/
inductive Rejects : CommandLine → Prop
  | empty : Rejects []
  | unlisted {word : Bytes} {args : List Bytes}
      (unlisted : Route.named? (Engine.lowerName word) = none) : Rejects (word :: args)
  | miscounted {word : Bytes} {args : List Bytes} {command : Command}
      (named : Command.find? (Engine.lowerName word) = some command)
      (refused : command.arity.admits (args.length + 1) = false) : Rejects (word :: args)
  | bare {word : Bytes} (marked : Engine.lowerName word = Route.forwardedName) : Rejects [word]
  | parted {word source target : Bytes} {rest : List Bytes}
      (moves : Engine.lowerName word = Command.rename.name ∨
        Engine.lowerName word = Command.renameNx.name)
      (apart : membership.owner source ≠ membership.owner target) :
      Rejects (word :: source :: target :: rest)

variable {membership}

theorem plan_refused {word : Bytes} {args : List Bytes} {route : Route} {failure : Failure}
    (listed : Route.named? (Engine.lowerName word) = some route)
    (checked : checksArity (Engine.lowerName word) route = true)
    (unknown : Command.lookup (Engine.lowerName word) (args.length + 1) = .error failure)
    (membership : Membership) : membership.plan (word :: args) = .answer failure.reply := by
  obtain ⟨named, direct⟩ : Engine.lowerName word ≠ "select" ∧ route ≠ .forwarded := by
    simpa [checksArity] using checked
  exact Cluster.plan_of_unknown listed direct named unknown membership

/-- A line is answered with the failure that its name or its length is, or comes to its route. -/
theorem plan_cases (membership : Membership) (line : CommandLine) :
    (∃ name, membership.plan line = .answer (unsupported name)) ∨
      (∃ failure : Failure, membership.plan line = .answer failure.reply ∧
        ∀ breach, failure ≠ .internal breach) ∨
      ∃ route : Route, route.Taken line := by
  cases line with
  | nil => exact .inr (.inl ⟨.emptyCommand, rfl, fun breach same => by cases same⟩)
  | cons word args =>
      cases listed : Route.named? (Engine.lowerName word) with
      | none => exact .inl ⟨Engine.lowerName word, by simp only [plan, listed]⟩
      | some route =>
          cases known : Command.lookup (Engine.lowerName word) (args.length + 1) with
          | ok command => exact .inr (.inr ⟨route, listed, fun _ => ⟨command, known⟩⟩)
          | error failure =>
              cases checks : checksArity (Engine.lowerName word) route with
              | false => exact .inr (.inr ⟨route, listed, fun checked => by simp [checks] at checked⟩)
              | true =>
                  refine .inr (.inl ⟨failure, ?_, fun breach same => ?_⟩)
                  · exact plan_refused listed checks known membership
                  · exact Command.lookup_unbroken _ _ (known.trans (congrArg Except.error same))

theorem answer_ne_missing {failure : Failure} (sound : ∀ breach, failure ≠ .internal breach)
    (index : Nat) : Plan.answer failure.reply ≠ missingArgument index := by
  intro same
  obtain ⟨breach, broken⟩ := Failure.eq_internal_of_message
    (Message.error.inj (Plan.answer.inj same))
  exact sound breach broken

theorem unsupported_ne_missing (name : String) (index : Nat) :
    Plan.answer (unsupported name) ≠ missingArgument index := by
  intro same
  have short : (toString "ERR unknown command '" ++ toString name ++
      toString "', or not supported in cluster mode").length = "ERR unknown".length :=
    congrArg String.length (Message.error.inj (Plan.answer.inj same))
  have front : (toString "ERR unknown command '").length = 21 := rfl
  have whole : "ERR unknown".length = 11 := by decide +kernel
  rw [String.length_append, String.length_append, front, whole] at short
  omega

theorem planRoute_ne_missing {route : Route} (reads : route.reads ≤ line.length) (index : Nat) :
    membership.planRoute route line ≠ missingArgument index := by
  intro missing
  cases route with
  | here | count | acknowledge => cases missing
  | owner =>
      have words : 2 ≤ line.length := reads
      obtain _ | ⟨word, _ | ⟨key, rest⟩⟩ := line
      · simp at words
      · simp at words
      · cases missing
  | commonOwner =>
      have words : 3 ≤ line.length := reads
      obtain _ | ⟨word, _ | ⟨source, _ | ⟨target, rest⟩⟩⟩ := line
      · simp at words
      · simp at words
      · simp at words
      · simp only [planRoute] at missing
        split at missing
        · cases missing
        · have same : "ERR rename must be within one peer" = "ERR unknown" :=
            Message.error.inj (Plan.answer.inj missing)
          exact absurd same (by decide)
  | forwarded =>
      have words : 1 ≤ line.length := reads
      have sound : ∀ breach, Failure.wrongArity Route.forwardedName ≠ .internal breach :=
        fun _ same => by cases same
      obtain _ | ⟨mark, _ | ⟨word, rest⟩⟩ := line
      · simp at words
      · exact answer_ne_missing sound index missing
      · cases missing

/-- No argument that a route needs is ever missing. -/
theorem plan_ne_missing (membership : Membership) (line : CommandLine) (index : Nat) :
    membership.plan line ≠ missingArgument index := by
  rcases membership.plan_cases line with ⟨name, planned⟩ | ⟨failure, planned, sound⟩ | ⟨route, taken⟩
  · rw [planned]
    exact unsupported_ne_missing name index
  · rw [planned]
    exact answer_ne_missing sound index
  · rw [taken.plan]
    exact planRoute_ne_missing taken.reads_le index

/-- Every line that a node is to reject is answered with an error. -/
theorem Rejects.plan (rejects : membership.Rejects line) :
    ∃ reply, membership.plan line = .answer reply ∧ reply.isError = true := by
  cases rejects with
  | empty => exact ⟨_, rfl, rfl⟩
  | @unlisted word args unlisted =>
      exact ⟨unsupported (Engine.lowerName word), by simp only [Membership.plan, unlisted], rfl⟩
  | @miscounted word args command named refused =>
      have unknown := Command.lookup_refused named refused
      cases listed : Route.named? (Engine.lowerName word) with
      | none => exact ⟨unsupported (Engine.lowerName word), by simp only [Membership.plan, listed], rfl⟩
      | some route =>
          have checked : checksArity (Engine.lowerName word) route = true :=
            Route.checked_of_registered _ (Route.mem_table listed) (by rw [named]; rfl)
          exact ⟨_, plan_refused listed checked unknown membership, rfl⟩
  | bare marked =>
      exact ⟨_, (Cluster.plan_forwarded marked membership []).trans (if_pos rfl), rfl⟩
  | @parted word source target rest moves apart =>
      have listed : Route.named? (Engine.lowerName word) = some .commonOwner := by
        rcases moves with named | named <;> rw [named] <;> decide
      have checked : checksArity (Engine.lowerName word) .commonOwner = true := by
        rcases moves with named | named <;> rw [named] <;> decide
      let args := source :: target :: rest
      cases known : Command.lookup (Engine.lowerName word) (args.length + 1) with
      | ok command =>
          have planned := Cluster.plan_of_known listed known membership
          exact ⟨differentOwners, planned.trans (if_neg apart), rfl⟩
      | error failure => exact ⟨_, plan_refused listed checked known membership, rfl⟩

end Membership

namespace Cluster

/-- The keys that a node reads in a line to find out where it belongs are always there. A line that the
node is to reject is answered with an error by the node alone: no node is given anything to execute, and
nothing changes in the cluster, neither for the client nor among the lines that are under way. -/
theorem rejected_locally {κ : Type} (traffic : Traffic κ) {address : NodeId} {node : Node}
    (present : traffic.cluster.site? address = some (.member node)) :
    (∀ (line : CommandLine) (route : Route), route.Taken line →
      node.membership.plan line = node.membership.planRoute route line ∧
        route.reads ≤ line.length) ∧
    (∀ (line : CommandLine) (index : Nat),
      node.membership.plan line ≠ Membership.missingArgument index) ∧
    ∀ line : CommandLine, node.membership.Rejects line →
      ∃ reply, reply.isError = true ∧
        node.membership.assignments (node.membership.plan line) = [] ∧
        ∀ (network : Network) (number selected : Nat),
          service network address traffic.cluster selected line =
            ⟨reply, selected, traffic.cluster⟩ ∧
          Traffic.handle number address traffic selected line = ⟨reply, selected, traffic⟩ := by
  refine ⟨fun line route taken => ⟨taken.plan _, taken.reads_le⟩,
    fun line index => node.membership.plan_ne_missing line index, fun line rejects => ?_⟩
  obtain ⟨reply, planned, error⟩ := rejects.plan
  refine ⟨reply, error, by rw [planned]; rfl, fun network number selected => ⟨?_, ?_⟩⟩
  · obtain ⟨hops, count⟩ := maxHops_eq present
    rw [service, count]
    exact exec_member_answered present planned network (hops + 1) selected
  · exact Traffic.handle_answered present planned number selected

/-- A key is to be moved to a key of the other node while a FLUSHDB is on its way there. -/
theorem rejected_locally_of_a_move :
    let members : List NodeId := ["10.0.0.1:7000", "10.0.0.2:7000"]
    let site (self : NodeId) : Site := .member (.opened { self, peers := members } none 0)
    let parcel : Parcel :=
      { number := 0, sender := "10.0.0.1:7000", receiver := "10.0.0.2:7000", selected := 3
        line := Route.forward [[0x66, 0x6C, 0x75, 0x73, 0x68, 0x64, 0x62]] }
    let traffic : Traffic Bool :=
      { cluster := ⟨members.map fun id => (id, site id)⟩, underWay := [parcel] }
    let membership : Membership := .of "10.0.0.1:7000" members
    let line : CommandLine :=
      [[0x52, 0x65, 0x6E, 0x61, 0x6D, 0x65, 0x4E, 0x58], [0x61], [0x62]]
    (∃ node, traffic.cluster.site? "10.0.0.1:7000" = some (.member node) ∧
      node.membership = membership) ∧
      Route.Taken .commonOwner line ∧ Route.commonOwner.reads ≤ line.length ∧
      membership.Rejects line ∧ ∃ reply, reply.isError = true ∧
        Traffic.handle 1 "10.0.0.1:7000" traffic 3 line = ⟨reply, 3, traffic⟩ := by
  intro members site parcel traffic membership line
  have present : traffic.cluster.site? "10.0.0.1:7000" =
      some (.member (.opened { self := "10.0.0.1:7000", peers := members } none 0)) := rfl
  have taken : Route.Taken .commonOwner line :=
    ⟨by decide +kernel, fun _ => ⟨.renameNx, by decide +kernel⟩⟩
  have apart : membership.owner [0x61] ≠ membership.owner [0x62] := by decide +kernel
  have rejects : membership.Rejects line := .parted (.inr (by decide +kernel)) apart
  obtain ⟨routed, -, rejected⟩ := rejected_locally traffic present
  obtain ⟨reply, error, -, answered⟩ := rejected line rejects
  exact ⟨⟨_, present, rfl⟩, taken, (routed line _ taken).2, rejects, reply, error,
    (answered (fun _ => .ok ()) 1 3).2⟩

end Cluster

end ShardStore
