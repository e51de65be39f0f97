import ShardStore.Proofs.Cluster.Parcels

namespace ShardStore

namespace Merge

variable {merge : Merge} {replies front back : List (NodeId × Message)} {node : NodeId}
  {reply answer : Message}

/-- Whether a reply is of the kind that a node owes. -/
def Due : Merge → Message → Prop
  | .count, reply => ∃ n, reply = .integer n
  | .acknowledge, reply => reply = .ok

instance (merge : Merge) (reply : Message) : Decidable (merge.Due reply) :=
  match merge, reply with
  | .count, .integer n => .isTrue ⟨n, rfl⟩
  | .count, .simple _ | .count, .error _ | .count, .bulk _ | .count, .null | .count, .array _
  | .count, .nullArray | .count, .ok | .count, .pong => .isFalse fun ⟨_, same⟩ => nomatch same
  | .acknowledge, reply => inferInstanceAs (Decidable (reply = .ok))

/-- The sum of the counts among replies. It may be of any size. -/
def total : List (NodeId × Message) → Int
  | [] => 0
  | (_, .integer n) :: rest => n.toInt + total rest
  | _ :: rest => total rest

/-- Whether one reply tells if all replies are as they should be, and names the first node whose
reply is not, with what that node replied. -/
structure Faithful (merge : Merge) (replies : List (NodeId × Message)) (answer : Message) :
    Prop where
  due : merge.Due answer ↔ ∀ entry ∈ replies, merge.Due entry.2
  named : ¬ merge.Due answer → ∃ front node reply back, replies = front ++ (node, reply) :: back ∧
    (∀ entry ∈ front, merge.Due entry.2) ∧ ¬ merge.Due reply ∧
    ∃ detail, (∀ text, reply.errorText? = some text → detail = text) ∧
      answer = .error s!"ERR error occurs on {node}: {detail}"

/-- Whether, besides, an integer in reply is the sum of the counts. -/
structure Exact (merge : Merge) (replies : List (NodeId × Message)) (answer : Message) : Prop
    extends Faithful merge replies answer where
  sum : ∀ n, answer = .integer n → n.toInt = total replies

theorem complaint_eq (node : NodeId) (reply : Message) :
    ∃ detail, (∀ text, reply.errorText? = some text → detail = text) ∧
      complaint node reply = .error s!"ERR error occurs on {node}: {detail}" := by
  refine ⟨reply.errorText?.getD s!"unexpected reply {reply.summary}", fun text found => ?_, rfl⟩
  rw [found, Option.getD_some]

theorem not_due_complaint (merge : Merge) (node : NodeId) (reply : Message) :
    ¬ merge.Due (complaint node reply) := by
  cases merge with
  | count => exact fun ⟨_, same⟩ => nomatch same
  | acknowledge => exact fun same => nomatch same

theorem countFrom_of_due (due : ∀ entry ∈ replies, Due .count entry.2) (start : Int64) :
    countFrom start replies = .integer (start + Int64.ofInt (total replies)) := by
  induction replies generalizing start with
  | nil => simp [countFrom, total]
  | cons entry rest ih =>
      obtain ⟨node, reply⟩ := entry
      obtain ⟨n, rfl : reply = .integer n⟩ := due _ List.mem_cons_self
      rw [countFrom, ih (fun entry mem => due entry (List.mem_cons_of_mem _ mem)), total,
        Int64.ofInt_add, Int64.ofInt_toInt, Int64.add_assoc]

theorem acknowledgeAll_of_due (due : ∀ entry ∈ replies, Due .acknowledge entry.2) :
    acknowledgeAll replies = .ok := by
  induction replies with
  | nil => rfl
  | cons entry rest ih =>
      have first : entry.2 = .ok := due entry List.mem_cons_self
      rw [acknowledgeAll, if_pos first]
      exact ih fun entry mem => due entry (List.mem_cons_of_mem _ mem)

theorem conclude_of_due (due : ∀ entry ∈ replies, merge.Due entry.2) :
    merge.conclude replies = match merge with
      | .count => .integer (Int64.ofInt (total replies))
      | .acknowledge => .ok := by
  cases merge with
  | count => exact (countFrom_of_due due 0).trans (by rw [Int64.zero_add])
  | acknowledge => exact acknowledgeAll_of_due due

theorem due_conclude (due : ∀ entry ∈ replies, merge.Due entry.2) :
    merge.Due (merge.conclude replies) := by
  rw [conclude_of_due due]
  cases merge with
  | count => exact ⟨_, rfl⟩
  | acknowledge => rfl

theorem countFrom_of_first (due : ∀ entry ∈ front, Due .count entry.2)
    (other : ¬ Due .count reply) (start : Int64) :
    countFrom start (front ++ (node, reply) :: back) = complaint node reply := by
  induction front generalizing start with
  | nil =>
      cases reply with
      | integer n => exact absurd ⟨n, rfl⟩ other
      | _ => rfl
  | cons entry rest ih =>
      obtain ⟨first, told⟩ := entry
      obtain ⟨n, rfl : told = .integer n⟩ := due _ List.mem_cons_self
      rw [List.cons_append, countFrom]
      exact ih (fun entry mem => due entry (List.mem_cons_of_mem _ mem)) _

theorem acknowledgeAll_of_first (due : ∀ entry ∈ front, Due .acknowledge entry.2)
    (other : ¬ Due .acknowledge reply) :
    acknowledgeAll (front ++ (node, reply) :: back) = complaint node reply := by
  induction front with
  | nil => exact if_neg other
  | cons entry rest ih =>
      have first : entry.2 = .ok := due entry List.mem_cons_self
      rw [List.cons_append, acknowledgeAll, if_pos first]
      exact ih fun entry mem => due entry (List.mem_cons_of_mem _ mem)

theorem conclude_of_first (due : ∀ entry ∈ front, merge.Due entry.2) (other : ¬ merge.Due reply) :
    merge.conclude (front ++ (node, reply) :: back) = complaint node reply := by
  cases merge with
  | count => exact countFrom_of_first due other 0
  | acknowledge => exact acknowledgeAll_of_first due other

theorem exists_first (other : ¬ ∀ entry ∈ replies, merge.Due entry.2) :
    ∃ front node reply back, replies = front ++ (node, reply) :: back ∧
      (∀ entry ∈ front, merge.Due entry.2) ∧ ¬ merge.Due reply := by
  cases found : replies.find? fun entry => ¬ merge.Due entry.2 with
  | none =>
      rw [List.find?_eq_none] at found
      exact absurd (fun entry mem => by simpa using found entry mem) other
  | some entry =>
      obtain ⟨undue, front, back, whole, before⟩ := List.find?_eq_some_iff_append.mp found
      exact ⟨front, entry.1, entry.2, back, whole, fun entry mem => by simpa using before entry mem,
        by simpa using undue⟩

theorem faithful_conclude (merge : Merge) (replies : List (NodeId × Message)) :
    Faithful merge replies (merge.conclude replies) := by
  by_cases due : ∀ entry ∈ replies, merge.Due entry.2
  · have answered := due_conclude due
    exact ⟨⟨fun _ => due, fun _ => answered⟩, fun undue => absurd answered undue⟩
  · obtain ⟨front, node, reply, back, rfl, before, undue⟩ := exists_first due
    rw [conclude_of_first before undue]
    have answered := not_due_complaint merge node reply
    exact ⟨⟨fun same => absurd same answered, fun all => absurd all due⟩,
      fun _ => ⟨front, node, reply, back, rfl, before, undue, complaint_eq node reply⟩⟩

/-- An integer in reply is the sum of the counts but for whole turns of 64 bits. -/
theorem conclude_integer {n : Int64} (answered : merge.conclude replies = .integer n) :
    merge = .count ∧ (∀ entry ∈ replies, merge.Due entry.2) ∧ n = Int64.ofInt (total replies) := by
  by_cases due : ∀ entry ∈ replies, merge.Due entry.2
  · rw [conclude_of_due due] at answered
    cases merge with
    | count => exact ⟨rfl, due, (Message.integer.inj answered).symm⟩
    | acknowledge => nomatch answered
  · obtain ⟨front, node, reply, back, rfl, before, undue⟩ := exists_first due
    rw [conclude_of_first before undue] at answered
    nomatch answered

/-- Whether there is room for a number in 64 bits. -/
def Fits (n : Int) : Prop :=
  Int64.minValue.toInt ≤ n ∧ n ≤ Int64.maxValue.toInt

theorem toInt_ofInt_eq_iff (n : Int) : (Int64.ofInt n).toInt = n ↔ Fits n := by
  constructor
  · intro same
    rw [← same]
    exact ⟨Int64.minValue_le_toInt _, Int64.toInt_le _⟩
  · rintro ⟨low, high⟩
    rw [Int64.toInt_minValue] at low
    rw [Int64.toInt_maxValue] at high
    exact Int64.toInt_ofInt_of_le low (Int.lt_of_le_sub_one high)

theorem exact_conclude_iff (merge : Merge) (replies : List (NodeId × Message)) :
    Exact merge replies (merge.conclude replies) ↔
      (merge = .count → (∀ entry ∈ replies, merge.Due entry.2) → Fits (total replies)) := by
  constructor
  · rintro ⟨-, sum⟩ rfl due
    exact (toInt_ofInt_eq_iff _).mp (sum _ (conclude_of_due due))
  · intro room
    refine ⟨faithful_conclude merge replies, fun n answered => ?_⟩
    obtain ⟨counted, due, rfl⟩ := conclude_integer answered
    exact (toInt_ofInt_eq_iff _).mpr (room counted due)

end Merge

section Asking

variable {σ : Type}

/-- Asks a node, and takes down what it was given and what it replied. -/
def recorded (ask : Assignment → σ → Message × σ) (assignment : Assignment)
    (state : σ × List (Assignment × Message)) : Message × σ × List (Assignment × Message) :=
  let asked := ask assignment state.1
  (asked.1, asked.2, state.2 ++ [(assignment, asked.1)])

theorem assignAll_recorded (ask : Assignment → σ → Message × σ) (assignments : List Assignment)
    (state : σ) (before : List (Assignment × Message)) :
    ∃ record, record.map Prod.fst = assignments ∧
      (record.map fun asked => (asked.1.node, asked.2)) = (assignAll ask assignments state).1 ∧
      assignAll (recorded ask) assignments (state, before) =
        ((assignAll ask assignments state).1, (assignAll ask assignments state).2,
          before ++ record) := by
  induction assignments generalizing state before with
  | nil => exact ⟨[], rfl, rfl, by simp [assignAll]⟩
  | cons first rest ih =>
      let asked := ask first state
      obtain ⟨record, told, replies, same⟩ := ih asked.2 (before ++ [(first, asked.1)])
      refine ⟨(first, asked.1) :: record, by rw [List.map_cons, told], ?_, ?_⟩
      · rw [List.map_cons, replies]
        rfl
      · simp only [assignAll, recorded, asked] at same ⊢
        rw [same, List.append_assoc, List.singleton_append]

end Asking

namespace Membership

variable {merge : Merge} {word : Bytes} {args : List Bytes}

theorem carryOut_merge (named : Engine.lowerName word = merge.command.name)
    (admitted : merge.command.arity.admits (args.length + 1) = true) (self : NodeId)
    (listed : List NodeId) {σ : Type} (ask : Assignment → σ → Message × σ) (state : σ) :
    let membership := of self listed
    let answered := membership.carryOut ask (word :: args) state
    ∃ record, membership.carryOut (recorded ask) (word :: args) (state, []) =
        (answered.1, answered.2, record) ∧
      record.map Prod.fst = membership.nodes.map (Cluster.told self (word :: args)) ∧
      answered.1 = merge.conclude (record.map fun asked => (asked.1.node, asked.2)) := by
  intro membership answered
  have planned := Broadcast.plan_of_command merge named admitted membership
  obtain ⟨record, told, replies, asked⟩ := assignAll_recorded ask
    (membership.assignments (.all merge (word :: args))) state []
  refine ⟨record, ?_, ?_, ?_⟩
  · simp only [answered, carryOut, planned, asked, List.nil_append, Plan.conclude]
  · rw [told, Cluster.assignments_all (of_self self listed) (of_nodup self listed)]
  · rw [replies]
    simp only [answered, carryOut, planned, Plan.conclude]

/-- A DEL or FLUSHDB line goes to every node, whatever each of them replies, and the one answer is
faithful to their replies. It is exact if and only if the sum of the counts fits in 64 bits. -/
theorem merged_exactly_iff (merge : Merge) (named : Engine.lowerName word = merge.command.name)
    (admitted : merge.command.arity.admits (args.length + 1) = true) (self : NodeId)
    (listed : List NodeId) {σ : Type} (ask : Assignment → σ → Message × σ) (state : σ) :
    let membership := of self listed
    let answered := membership.carryOut ask (word :: args) state
    ∃ record, membership.carryOut (recorded ask) (word :: args) (state, []) =
        (answered.1, answered.2, record) ∧
      -- Each node is given the line, this one first.
      membership.nodes = self :: membership.peers ∧ membership.nodes.Nodup ∧
      record.map Prod.fst = membership.nodes.map (Cluster.told self (word :: args)) ∧
      let replies := record.map fun asked => (asked.1.node, asked.2)
      merge.Faithful replies answered.1 ∧
      (∀ n, answered.1 = .integer n → n = Int64.ofInt (Merge.total replies)) ∧
      (merge.Exact replies answered.1 ↔
        (merge = .count → (∀ entry ∈ replies, merge.Due entry.2) →
          Merge.Fits (Merge.total replies))) := by
  intro membership answered
  obtain ⟨record, asked, told, merged⟩ := carryOut_merge named admitted self listed ask state
  have first : membership.nodes = self :: membership.peers := by
    rw [nodes, of_self]
  refine ⟨record, asked, first, of_nodup self listed, told, ?_, fun n integer => ?_, ?_⟩
  · rw [merged]
    exact merge.faithful_conclude _
  · rw [merged] at integer
    exact (Merge.conclude_integer integer).2.2
  · rw [merged]
    exact merge.exact_conclude_iff _

/-- The replies of three nodes are merged into their sum. -/
theorem merged_exactly_of_three :
    let args : List Bytes := [[0x6B]]
    let counts : List (NodeId × Message) :=
      [("n:1", .integer 2), ("n:2", .integer 3), ("n:3", .integer 4)]
    let ask (assignment : Assignment) (_ : Unit) : Message × Unit :=
      ((counts.lookup assignment.node).getD .null, ())
    let answered := (of "n:1" ["n:2", "n:3"]).carryOut ask ([0x64, 0x65, 0x6C] :: args) ()
    answered.1 = .integer 9 ∧ Merge.Exact .count counts answered.1 := by
  intro args counts ask answered
  have named : Engine.lowerName [0x64, 0x65, 0x6C] = Merge.count.command.name := by decide +kernel
  have admitted : Merge.count.command.arity.admits (args.length + 1) = true := by decide
  obtain ⟨record, asked, -, -, -, -, -, exactly⟩ :=
    merged_exactly_iff .count named admitted "n:1" ["n:2", "n:3"] ask ()
  have replied : (record.map fun asked => (asked.1.node, asked.2)) = counts := by
    have kept : record = _ := (congrArg (fun asked => asked.2.2) asked).symm
    rw [kept]
    decide +kernel
  rw [replied] at exactly
  have fits : Merge.Fits (Merge.total counts) := ⟨by decide +kernel, by decide +kernel⟩
  exact ⟨by decide +kernel, exactly.mpr fun _ _ => fits⟩

end Membership

namespace Cluster

/-- How a node asks the others and itself: it runs a line on its own engine, and relays a line for a
peer over a channel, at whose other end any service may answer. -/
def consult (network : Network) (services : NodeId → Service Cluster) (address : NodeId)
    (assignment : Assignment) (state : Cluster × Nat) : Message × Cluster × Nat :=
  if assignment.node = address then
    let served := execHere address state.1 state.2 assignment.line
    (served.reply, served.state, served.selected)
  else
    let relayed := relay network (services assignment.node) address assignment.node state.2
      assignment.line state.1
    (relayed.1, relayed.2, state.2)

section Nodes

variable {cluster : Cluster} {address : NodeId} {node : Node}
  (present : cluster.site? address = some (.member node)) (network : Network) (hops selected : Nat)

include present

theorem exec_consults (self : node.membership.self = address) (line : CommandLine) :
    let answered := node.membership.carryOut (consult network (exec network hops) address) line
      (cluster, selected)
    exec network (hops + 1) address cluster selected line =
      ⟨answered.1, answered.2.2, answered.2.1⟩ := by
  have asks : ask network hops node.membership address =
      consult network (exec network hops) address := by
    funext assignment state
    simp only [ask, consult, self]
  rw [exec_member present, asks]

/-- The answer of a node of a cluster is faithful to what all nodes reply, itself first. -/
theorem exec_faithful {listed : List NodeId} (membership : node.membership = .of address listed)
    {merge : Merge} {word : Bytes} {args : List Bytes}
    (named : Engine.lowerName word = merge.command.name)
    (admitted : merge.command.arity.admits (args.length + 1) = true) :
    ∃ replies, replies.map Prod.fst = node.membership.nodes ∧
      merge.Faithful replies
        (exec network (hops + 1) address cluster selected (word :: args)).reply := by
  have self : node.membership.self = address := by rw [membership, Membership.of_self]
  obtain ⟨record, -, told, merged⟩ := Membership.carryOut_merge named admitted address listed
    (consult network (exec network hops) address) (cluster, selected)
  refine ⟨record.map fun asked => (asked.1.node, asked.2), ?_, ?_⟩
  · have nodes := congrArg (List.map Assignment.node) told
    simp only [List.map_map] at nodes ⊢
    rw [membership]
    exact nodes.trans (List.map_id _)
  · rw [exec_consults present network hops selected self, membership, merged]
    exact merge.faithful_conclude _

end Nodes

/-- The answer to a DEL line is negative where the counts of two peers come to more than 64 bits
hold. -/
theorem sum_not_exact :
    let ids : List NodeId := ["n:1", "n:2", "n:3"]
    let node : Site :=
      .member (.opened { self := "n:1", peers := ids, durable := { databases := 1 } } none 0)
    let services (id : NodeId) : Service Cluster := fun cluster selected line =>
      let reply : Message :=
        if line = selectLine 0 then .ok
        else if id = "n:2" then .integer Int64.maxValue
        else .integer 1
      ⟨reply, selected, cluster⟩
    let ask := consult (fun _ => .ok ()) services "n:1"
    let asked := (Membership.of "n:1" ids).carryOut (recorded ask) [[0x64, 0x65, 0x6C], [0x6B]]
      ((⟨[("n:1", node)]⟩, 0), [])
    let replies := asked.2.2.map fun asked => (asked.1.node, asked.2)
    replies = [("n:1", .integer 0), ("n:2", .integer Int64.maxValue), ("n:3", .integer 1)] ∧
      asked.1 = .integer Int64.minValue ∧ ¬ Merge.Exact .count replies asked.1 := by
  intro ids node services ask asked replies
  have given : replies =
      [("n:1", .integer 0), ("n:2", .integer Int64.maxValue), ("n:3", .integer 1)] := by
    decide +kernel
  have answered : asked.1 = .integer Int64.minValue := by decide +kernel
  refine ⟨given, answered, fun merged => ?_⟩
  have same := merged.sum _ answered
  rw [given] at same
  exact absurd same (by decide +kernel)

end Cluster

end ShardStore
