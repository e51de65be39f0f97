import ShardStore.Placement.Membership
import ShardStore.Routing.Route

namespace ShardStore

inductive Merge where
  /-- All must be integers, which are added up. -/
  | count
  /-- All must be OK. -/
  | acknowledge
deriving Repr, DecidableEq

structure Assignment where
  node : NodeId
  line : CommandLine
deriving Repr, DecidableEq

inductive Plan where
  | answer (reply : Message)
  | one (assignment : Assignment)
  | all (merge : Merge) (line : CommandLine)
deriving Repr, DecidableEq

namespace Merge

def complaint (node : NodeId) (reply : Message) : Message :=
  let detail := (reply.errorText?).getD s!"unexpected reply {reply.summary}"
  .error s!"ERR error occurs on {node}: {detail}"

def countFrom (total : Int64) : List (NodeId × Message) → Message
  | [] => .integer total
  | (_, .integer n) :: rest => countFrom (total + n) rest
  | (node, reply) :: _ => complaint node reply

def acknowledgeAll : List (NodeId × Message) → Message
  | [] => .ok
  | (node, reply) :: rest => if reply = .ok then acknowledgeAll rest else complaint node reply

/-- One reply from the replies of all nodes. The first node in the list whose reply is not of the
kind that is due makes it an error. -/
def conclude : Merge → List (NodeId × Message) → Message
  | .count => countFrom 0
  | .acknowledge => acknowledgeAll

end Merge

namespace Membership

def unsupported (name : String) : Message :=
  .error s!"ERR unknown command '{name}', or not supported in cluster mode"

def differentOwners : Message :=
  .error "ERR rename must be within one peer"

/-- The answer to a line that lacks an argument although its length was checked. -/
def missingArgument (index : Nat) : Plan :=
  .answer (Failure.internal (.missingArgument index)).reply

def planRoute (membership : Membership) (route : Route) (line : CommandLine) : Plan :=
  match route with
  | .here => .one ⟨membership.self, line⟩
  | .owner =>
    match line with
    | _ :: key :: _ => .one ⟨membership.owner key, line⟩
    | _ => missingArgument 0
  | .commonOwner =>
    match line with
    | _ :: source :: target :: _ =>
      if membership.owner source = membership.owner target then
        .one ⟨membership.owner source, line⟩
      else .answer differentOwners
    | [_, _] => missingArgument 1
    | _ => missingArgument 0
  | .count => .all .count line
  | .acknowledge => .all .acknowledge line
  | .forwarded =>
    match line with
    | _ :: word :: rest => .one ⟨membership.self, word :: rest⟩
    | _ => .answer (Failure.wrongArity Route.forwardedName).reply

/-- Whether the length of a line is checked before it goes to any node. SELECT is checked by the
engine that runs it, and a forwarded line by its receiver. -/
def checksArity (name : String) (route : Route) : Bool :=
  name != "select" && route != .forwarded

def plan (membership : Membership) (line : CommandLine) : Plan :=
  match line with
  | [] => .answer Failure.emptyCommand.reply
  | word :: _ =>
    let name := Engine.lowerName word
    match Route.named? name with
    | none => .answer (unsupported name)
    | some route =>
      match checksArity name route, Command.lookup name line.length with
      | true, .error failure => .answer failure.reply
      | _, _ => membership.planRoute route line

/-- The lines that a plan gives to nodes. Peers get a line for every node marked, so that they do
not pass it on. -/
def assignments (membership : Membership) : Plan → List Assignment
  | .answer _ => []
  | .one assignment => [assignment]
  | .all _ line =>
    ⟨membership.self, line⟩ :: membership.peers.map fun peer => ⟨peer, Route.forward line⟩

end Membership

namespace Plan

def conclude : Plan → List (NodeId × Message) → Message
  | .answer reply, _ => reply
  | .one _, replies => (replies.head?.map Prod.snd).getD .null
  | .all merge _, replies => merge.conclude replies

end Plan

def assignAll {σ : Type} (ask : Assignment → σ → Message × σ) :
    List Assignment → σ → List (NodeId × Message) × σ
  | [], state => ([], state)
  | assignment :: rest, state =>
    let (reply, state) := ask assignment state
    let (replies, state) := assignAll ask rest state
    ((assignment.node, reply) :: replies, state)

def Membership.carryOut {σ : Type} (membership : Membership)
    (ask : Assignment → σ → Message × σ) (line : CommandLine) (state : σ) : Message × σ :=
  let plan := membership.plan line
  let (replies, state) := assignAll ask (membership.assignments plan) state
  (plan.conclude replies, state)

end ShardStore
