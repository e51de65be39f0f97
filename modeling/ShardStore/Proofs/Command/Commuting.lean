import ShardStore.Proofs.Command.Independence
import ShardStore.Proofs.Command.Isolation

namespace ShardStore

/-- Lines that name different keys are apart. -/
theorem CommandLine.apart_of_disjoint {first second : CommandLine} {keys others : List Bytes}
    (named : first.keys? = some keys) (namedToo : second.keys? = some others)
    (disjoint : keys.Disjoint others) : first.Apart second :=
  fun _ concerned concernedToo => disjoint (concerned keys named) (concernedToo others namedToo)

/-- A command is answered by what is under its keys, or under any if it concerns all of them. -/
theorem Command.result_reply_agree {command : Command} {args : List Bytes}
    (admitted : command.arity.admits (args.length + 1) = true) {left right : Store}
    (agree : ∀ key, (∀ keys, command.footprint? args = some keys → key ∈ keys) →
      left.get? key = right.get? key) :
    (command.result args left).1 = (command.result args right).1 := by
  cases footprint : command.footprint? args with
  | some keys =>
      refine (result_agree admitted footprint fun key mem => agree key fun others same => ?_).1
      rw [footprint] at same
      exact Option.some.inj same ▸ mem
  | none =>
      have same : left = right := Store.ext_get? fun key => agree key fun keys named => by
        rw [footprint] at named
        cases named
      rw [same]

namespace Engine

variable {left right : Engine} {selected : Nat} {line : CommandLine}

/-- A line is answered by what is under the keys that it concerns in the selected database. -/
theorem exec_reply_agree (count : left.count = right.count)
    (agree : ∀ key, line.Concerns key → left.value? selected key = right.value? selected key) :
    (left.exec selected line).reply = (right.exec selected line).reply ∧
      (left.exec selected line).selected = (right.exec selected line).selected := by
  by_cases within : selected < left.count
  · have present := List.getElem?_eq_getElem within
    have presentToo := List.getElem?_eq_getElem (count ▸ within : selected < right.count)
    cases line with
    | nil => exact ⟨rfl, rfl⟩
    | cons name args =>
        by_cases named : lowerName name = "select"
        · obtain ⟨reply, switched, -⟩ := exec_select named count selected args
          exact ⟨reply, switched⟩
        · cases known : Command.lookup (lowerName name) (args.length + 1) with
          | error failure =>
              obtain ⟨reply, stays, -⟩ := exec_of_unknown named known left selected
              obtain ⟨replyToo, staysToo, -⟩ := exec_of_unknown named known right selected
              exact ⟨reply.trans replyToo.symm, stays.trans staysToo.symm⟩
          | ok command =>
              obtain ⟨reply, stays, -⟩ := exec_known named known present
              obtain ⟨replyToo, staysToo, -⟩ := exec_known named known presentToo
              refine ⟨?_, stays.trans staysToo.symm⟩
              simp only [value?, present, presentToo, Option.bind_some] at agree
              rw [reply, replyToo]
              refine Command.result_reply_agree (Command.lookup_spec known).2 fun key mine => ?_
              refine agree key fun keys listed => mine keys ?_
              rwa [CommandLine.keys?, known] at listed
  · have absent := List.getElem?_eq_none (Nat.not_lt.mp within)
    have absentToo := List.getElem?_eq_none (Nat.not_lt.mp (count ▸ within))
    exact exec_reply_congr ⟨count, absent.trans absentToo.symm⟩ line

variable {first second : LogEntry}

/-- What is under the keys that a line concerns is left alone by a line that it is independent of. -/
theorem value?_exec_of_independent (independent : Independent first second) (engine : Engine)
    {key : Bytes} (concerned : second.line.Concerns key) :
    (engine.exec first.database first.line).engine.value? second.database key =
      engine.value? second.database key := by
  by_cases same : first.database = second.database
  · have apart := independent.resolve_left (not_not_intro same)
    rw [exec_engine, same, value?, value?, List.getElem?_modify_eq]
    cases engine.databases[second.database]? with
    | none => rfl
    | some store =>
        exact CommandLine.transform_frame (fun mine => apart key mine concerned) store
  · rw [value?, value?, exec_databases_of_ne (Ne.symm same)]

/-- A line is answered alike in front of a line that it is independent of and behind it. -/
theorem exec_reply_of_independent (independent : Independent first second) (engine : Engine) :
    let behind := (engine.exec first.database first.line).engine
    (behind.exec second.database second.line).reply =
        (engine.exec second.database second.line).reply ∧
      (behind.exec second.database second.line).selected =
        (engine.exec second.database second.line).selected :=
  exec_reply_agree (exec_count _ _ _) fun _ => value?_exec_of_independent independent engine

end Engine

theorem Selections.select_comm {κ : Type} [DecidableEq κ] {first second : κ}
    (differ : first ≠ second) (selections : Selections κ) (database other : Nat) :
    (selections.select first database).select second other =
      (selections.select second other).select first database := by
  funext connection
  simp only [select]
  by_cases here : connection = first
  · rw [if_neg (here ▸ differ), if_pos here, if_pos here]
  · rw [if_neg here, if_neg here]

namespace Clients

variable {κ : Type} [DecidableEq κ]

/-- What a connection's call runs, if it comes next. -/
def entryOf (clients : Clients κ DurableEngine) (call : Call κ) : LogEntry :=
  ⟨clients.selections call.connection, call.line⟩

/-- A call behind another connection's, whose line is independent of its own, gets the reply and makes
the selection that it would have come to without the other one. -/
theorem call_behind (clients : Clients κ DurableEngine) {first second : Call κ}
    (differ : first.connection ≠ second.connection)
    (independent : Engine.Independent (clients.entryOf first) (clients.entryOf second)) :
    let before := clients.state.engine
    let one := before.exec (clients.selections first.connection) first.line
    let other := before.exec (clients.selections second.connection) second.line
    let called := clients.callAll (fun _ => DurableEngine.service) [first, second]
    called.1 = [one.reply, other.reply] ∧
      called.2.state.engine =
        (one.engine.exec (clients.selections second.connection) second.line).engine ∧
      called.2.selections = (clients.selections.select first.connection one.selected).select
        second.connection other.selected := by
  intro before one other called
  obtain ⟨reply, engine, selections⟩ := clients.call_spec first
  obtain ⟨replyNext, engineNext, selectionsNext⟩ :=
    (clients.call (fun _ => DurableEngine.service) first).2.call_spec second
  have kept : (clients.call (fun _ => DurableEngine.service) first).2.selections
      second.connection = clients.selections second.connection := by
    rw [selections]
    exact if_neg (Ne.symm differ)
  rw [kept, engine] at replyNext engineNext selectionsNext
  rw [selections] at selectionsNext
  obtain ⟨told, switched⟩ := Engine.exec_reply_of_independent independent before
  refine ⟨?_, engineNext, selectionsNext.trans ?_⟩
  · exact congrArg₂ (fun front back => [front, back]) reply (replyNext.trans told)
  · exact congrArg (Selections.select _ second.connection) switched

/-- Calls of two connections whose lines run on different databases, or name different keys of the
same one, are answered alike in either order, and leave the same databases and the same selections. -/
theorem calls_commute (clients : Clients κ DurableEngine) {first second : Call κ}
    (differ : first.connection ≠ second.connection)
    (independent : clients.selections first.connection ≠ clients.selections second.connection ∨
      ∃ keys others, first.line.keys? = some keys ∧ second.line.keys? = some others ∧
        keys.Disjoint others) :
    let forth := clients.callAll (fun _ => DurableEngine.service) [first, second]
    let back := clients.callAll (fun _ => DurableEngine.service) [second, first]
    forth.1 = back.1.reverse ∧ forth.2.state.engine = back.2.state.engine ∧
      forth.2.selections = back.2.selections := by
  intro forth back
  have front : Engine.Independent (clients.entryOf first) (clients.entryOf second) :=
    independent.imp id fun ⟨_, _, named, namedToo, disjoint⟩ =>
      CommandLine.apart_of_disjoint named namedToo disjoint
  have rear : Engine.Independent (clients.entryOf second) (clients.entryOf first) :=
    front.imp Ne.symm CommandLine.Apart.symm
  obtain ⟨replies, engine, selections⟩ := clients.call_behind differ front
  obtain ⟨repliesBack, engineBack, selectionsBack⟩ := clients.call_behind (Ne.symm differ) rear
  refine ⟨replies.trans (congrArg List.reverse repliesBack).symm, ?_, ?_⟩
  · exact engine.trans ((Engine.exec_commute front clients.state.engine).trans engineBack.symm)
  · exact selections.trans ((Selections.select_comm differ _ _ _).trans selectionsBack.symm)

/-- A key is moved while another is removed twice over. -/
theorem calls_commute_of_a_move :
    let store := ((∅ : Store).insert [0x61] [0x31]).insert [0x63] [0x32]
    let clients : Clients Bool DurableEngine := { state := ⟨⟨[store]⟩, .unlogged none⟩ }
    let first : Call Bool := ⟨true, [[0x52, 0x65, 0x6E, 0x61, 0x6D, 0x65], [0x61], [0x62]]⟩
    let second : Call Bool := ⟨false, [[0x64, 0x65, 0x6C], [0x63], [0x64], [0x63]]⟩
    let forth := clients.callAll (fun _ => DurableEngine.service) [first, second]
    let back := clients.callAll (fun _ => DurableEngine.service) [second, first]
    first.connection ≠ second.connection ∧
      (clients.selections first.connection ≠ clients.selections second.connection ∨
        ∃ keys others, first.line.keys? = some keys ∧ second.line.keys? = some others ∧
          keys.Disjoint others) ∧
      forth.1 = back.1.reverse ∧ forth.2.state.engine = back.2.state.engine ∧
      forth.2.selections = back.2.selections := by
  intro store clients first second forth back
  have differ : first.connection ≠ second.connection := by decide
  have named : first.line.keys? = some [[0x61], [0x62]] := by decide +kernel
  have namedToo : second.line.keys? = some [[0x63], [0x64], [0x63]] := by decide +kernel
  have disjoint : List.Disjoint [[0x61], [0x62]] ([[0x63], [0x64], [0x63]] : List Bytes) :=
    List.disjoint_left.mpr (by decide)
  have independent : clients.selections first.connection ≠ clients.selections second.connection ∨
      ∃ keys others, first.line.keys? = some keys ∧ second.line.keys? = some others ∧
        keys.Disjoint others := .inr ⟨_, _, named, namedToo, disjoint⟩
  exact ⟨differ, independent, clients.calls_commute differ independent⟩

end Clients

end ShardStore
