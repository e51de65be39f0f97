import Mathlib.Data.List.Basic
import ShardStore.Proofs.Command.Locality
import ShardStore.Proofs.Log.Resizing

namespace ShardStore

/-- Whether a line is one that may switch its connection to another database. -/
def CommandLine.isSelect : CommandLine → Bool
  | [] => false
  | name :: _ => Engine.lowerName name == "select"

namespace Engine

/-- Whether two engines have equally many databases and the same one at an index. -/
structure AlikeAt (database : Nat) (left right : Engine) : Prop where
  count : left.count = right.count
  same : left.databases[database]? = right.databases[database]?

theorem AlikeAt.refl (database : Nat) (engine : Engine) : AlikeAt database engine engine :=
  ⟨rfl, rfl⟩

variable {left right : Engine} {database selected : Nat} {line : CommandLine}

/-- A line is answered by what is in the selected database. -/
theorem exec_reply_congr (alike : AlikeAt selected left right) (line : CommandLine) :
    (left.exec selected line).reply = (right.exec selected line).reply ∧
      (left.exec selected line).selected = (right.exec selected line).selected := by
  cases line with
  | nil => exact ⟨rfl, rfl⟩
  | cons name args =>
      by_cases named : lowerName name = "select"
      · obtain ⟨reply, switched, -⟩ := exec_select named alike.count selected args
        exact ⟨reply, switched⟩
      · have ran : left.runCommand selected (lowerName name) args =
            right.runCommand selected (lowerName name) args := by
          simp only [runCommand, alike.same]
        simp only [exec, if_neg named, ran]
        cases right.runCommand selected (lowerName name) args with
        | error failure => exact ⟨rfl, rfl⟩
        | ok effect => exact ⟨rfl, rfl⟩

/-- A line that may switch, or that runs on a database, comes to the same in engines that are alike
at that database, which are alike there behind it. -/
theorem exec_congr (alike : AlikeAt database left right)
    (seen : selected = database ∨ line.isSelect = true) :
    (left.exec selected line).reply = (right.exec selected line).reply ∧
      (left.exec selected line).selected = (right.exec selected line).selected ∧
      AlikeAt database (left.exec selected line).engine (right.exec selected line).engine := by
  rcases seen with rfl | switches
  · obtain ⟨reply, stays⟩ := exec_reply_congr alike line
    refine ⟨reply, stays, ?_, exec_databases_congr alike.same line⟩
    rw [exec_count, exec_count, alike.count]
  · cases line with
    | nil => cases switches
    | cons name args =>
        have named : lowerName name = "select" := by simpa [CommandLine.isSelect] using switches
        obtain ⟨reply, switched, kept⟩ := exec_select named alike.count selected args
        obtain ⟨-, -, keptRight⟩ := exec_select named (rfl : right.count = right.count) selected args
        rw [kept, keptRight]
        exact ⟨reply, switched, alike⟩

/-- Any other line leaves the database and its connection as they are. -/
theorem exec_apart (alike : AlikeAt database left right) (unseen : selected ≠ database)
    (stays : line.isSelect = false) :
    (left.exec selected line).selected = selected ∧
      AlikeAt database (left.exec selected line).engine right := by
  refine ⟨?_, (exec_count left selected line).trans alike.count,
    (exec_databases_of_ne (Ne.symm unseen)).trans alike.same⟩
  cases line with
  | nil => rfl
  | cons name args =>
      have named : lowerName name ≠ "select" := by simpa [CommandLine.isSelect] using stays
      exact exec_selected_of_named named left selected args

end Engine

/-- A call in a session: the databases that the connections have selected when it comes, and its
reply. -/
structure Moment (κ : Type) where
  selections : Selections κ
  call : Call κ
  reply : Message

/-- Whether a call runs on a database, or may switch its connection. -/
def Moment.concerns {κ : Type} (database : Nat) (moment : Moment κ) : Bool :=
  moment.selections moment.call.connection == database || moment.call.line.isSelect

namespace Clients

variable {κ : Type} [DecidableEq κ]

/-- The course of a session. -/
def moments {σ : Type} (clients : Clients κ σ) (service : κ → Service σ) :
    List (Call κ) → List (Moment κ)
  | [] => []
  | call :: rest =>
    let (reply, after) := clients.call service call
    ⟨clients.selections, call, reply⟩ :: after.moments service rest

theorem moments_append {σ : Type} (clients : Clients κ σ) (service : κ → Service σ)
    (before after : List (Call κ)) :
    clients.moments service (before ++ after) = clients.moments service before ++
      (clients.callAll service before).2.moments service after := by
  induction before generalizing clients with
  | nil => rfl
  | cons call rest ih => exact congrArg (_ :: ·) (ih (clients.call service call).2)

/-- What of a session concerns a database. -/
def concerning (clients : Clients κ DurableEngine) (database : Nat) (calls : List (Call κ)) :
    List (Moment κ) :=
  (clients.moments (fun _ => DurableEngine.service) calls).filter (Moment.concerns database)

/-- Whether the same databases are selected in two states, and they are alike at one database. -/
structure AlikeAt (database : Nat) (left right : Clients κ DurableEngine) : Prop where
  selections : left.selections = right.selections
  engines : Engine.AlikeAt database left.state.engine right.state.engine

variable {left right : Clients κ DurableEngine} {database : Nat} {call : Call κ}

theorem AlikeAt.follow (alike : AlikeAt database left right)
    (seen : left.selections call.connection = database ∨ call.line.isSelect = true) :
    (left.call (fun _ => DurableEngine.service) call).1 =
        (right.call (fun _ => DurableEngine.service) call).1 ∧
      AlikeAt database (left.call (fun _ => DurableEngine.service) call).2
        (right.call (fun _ => DurableEngine.service) call).2 := by
  obtain ⟨reply, engine, selections⟩ := left.call_spec call
  obtain ⟨replyRight, engineRight, selectionsRight⟩ := right.call_spec call
  rw [← alike.selections] at replyRight engineRight selectionsRight
  obtain ⟨told, switched, engines⟩ := Engine.exec_congr alike.engines seen
  refine ⟨?_, ?_, ?_⟩
  · rw [reply, replyRight, told]
  · rw [selections, selectionsRight, switched]
  · rw [engine, engineRight]
    exact engines

theorem AlikeAt.skip (alike : AlikeAt database left right)
    (unseen : left.selections call.connection ≠ database) (stays : call.line.isSelect = false) :
    AlikeAt database (left.call (fun _ => DurableEngine.service) call).2 right := by
  obtain ⟨-, engine, selections⟩ := left.call_spec call
  obtain ⟨kept, engines⟩ := Engine.exec_apart alike.engines unseen stays
  refine ⟨?_, ?_⟩
  · rw [selections, kept, Selections.select_self, alike.selections]
  · rw [engine]
    exact engines

/-- Of two states that are alike, the one goes through a session, and the other through what of it
concerns the database. -/
theorem AlikeAt.callAll (alike : AlikeAt database left right) (calls : List (Call κ)) :
    let kept := left.concerning database calls
    right.moments (fun _ => DurableEngine.service) (kept.map Moment.call) = kept ∧
      AlikeAt database (left.callAll (fun _ => DurableEngine.service) calls).2
        (right.callAll (fun _ => DurableEngine.service) (kept.map Moment.call)).2 := by
  induction calls generalizing left right with
  | nil => exact ⟨rfl, alike⟩
  | cons call rest ih =>
      simp only [concerning, moments, List.filter_cons]
      split
      · next concerned =>
        have seen : left.selections call.connection = database ∨ call.line.isSelect = true := by
          simpa [Moment.concerns] using concerned
        obtain ⟨reply, after⟩ := alike.follow seen
        obtain ⟨same, last⟩ := ih after
        refine ⟨?_, last⟩
        rw [List.map_cons, moments]
        dsimp only
        rw [← reply, ← alike.selections]
        exact congrArg (_ :: ·) same
      · next unconcerned =>
        have unseen : left.selections call.connection ≠ database ∧ call.line.isSelect = false := by
          simpa [Moment.concerns] using unconcerned
        exact ih (alike.skip unseen.1 unseen.2)

/-- If the lines that run on other databases are left out of a session, those that are left find
the same databases selected by all connections and get the same replies. And at any point of the
session, its end included, the same databases are selected and the one database holds the same. -/
theorem isolated (clients : Clients κ DurableEngine) (database : Nat) (calls : List (Call κ)) :
    let kept := clients.concerning database calls
    clients.moments (fun _ => DurableEngine.service) (kept.map Moment.call) = kept ∧
      ∀ count,
        let keptBefore := clients.concerning database (calls.take count)
        let whole := (clients.callAll (fun _ => DurableEngine.service) (calls.take count)).2
        let part :=
          (clients.callAll (fun _ => DurableEngine.service) (keptBefore.map Moment.call)).2
        keptBefore <+: kept ∧ part.selections = whole.selections ∧
          part.state.engine.databases[database]? = whole.state.engine.databases[database]? := by
  intro kept
  have alike : AlikeAt database clients clients := ⟨rfl, .refl database clients.state.engine⟩
  refine ⟨(alike.callAll calls).1, fun count => ?_⟩
  have reached := (alike.callAll (calls.take count)).2
  refine ⟨?_, reached.selections.symm, reached.engines.same.symm⟩
  have split : kept = clients.concerning database (calls.take count ++ calls.drop count) := by
    rw [List.take_append_drop]
  rw [split]
  simp only [concerning, moments_append, List.filter_append]
  exact List.prefix_append _ _

end Clients

end ShardStore
