import ShardStore.Proofs.Cluster.Relaying
import ShardStore.Traffic

namespace ShardStore

/-- Whether a property of the state is kept by whatever a service does. -/
def Service.Keeps {σ : Type} (good : σ → Prop) (service : Service σ) : Prop :=
  ∀ state selected line, good state → good (service state selected line).state

section Keeping

variable {σ : Type} {good : σ → Prop} {service : Service σ} (keeps : service.Keeps good)
  {state : σ} (held : good state)

include keeps held

theorem Server.answerAll_keeps (selected : Nat) (items : List Item) :
    good (answerAll service state selected items).2.2 := by
  induction items generalizing state selected with
  | nil => exact held
  | cons item rest ih =>
      rw [answerAll]
      split
      · exact held
      · next served answered =>
        refine ih ?_ served.selected
        cases item with
        | error fault =>
            simp only [answer?] at answered
            split at answered <;> cases answered
            exact held
        | ok message =>
            simp only [answer?] at answered
            split at answered <;> cases answered
            · exact keeps _ _ _ held
            · exact held

theorem Channel.request_keeps (channel : Channel) (network : Network) (line : CommandLine) :
    good (channel.request network service state line).2.2 := by
  rw [Channel.request]
  split
  · exact held
  · exact Server.answerAll_keeps keeps held _ _

end Keeping

namespace Cluster

def engine? (cluster : Cluster) (address : NodeId) : Option Engine :=
  (cluster.site? address).map fun site => site.durable.engine

theorem engine?_execHere (cluster : Cluster) (address : NodeId) (selected : Nat)
    (line : CommandLine) (id : NodeId) :
    (execHere address cluster selected line).state.engine? id =
      if id = address then
        (cluster.engine? id).map fun engine => (engine.exec selected line).engine
      else cluster.engine? id := by
  cases present : cluster.site? address with
  | none =>
      have absent : cluster.engine? address = none := by rw [engine?, present, Option.map_none]
      simp only [execHere, present]
      split
      · next same => rw [same, absent, Option.map_none]
      · rfl
  | some site =>
      obtain ⟨-, -, engine, -⟩ := site.durable.exec_spec selected line
      simp only [execHere, present, engine?]
      by_cases same : id = address
      · subst same
        rw [if_pos rfl, site?_setSite_self present, present]
        cases site <;> exact congrArg some engine
      · rw [if_neg same, site?_setSite_ne same]

theorem engine?_setPool (cluster : Cluster) (address peer : NodeId) (pool : Pool Channel)
    (id : NodeId) : (cluster.setPool address peer pool).engine? id = cluster.engine? id := by
  rw [setPool]
  split
  · next node held =>
    have present : cluster.site? address = some (.member node) := by
      simp only [node?] at held
      split at held <;> simp_all
    by_cases same : id = address
    · subst same
      rw [engine?, engine?, site?_setSite_self present, present]
      rfl
    · rw [engine?, engine?, site?_setSite_ne same]
  · rfl

end Cluster

namespace Traffic

variable {κ : Type}

def deedsAt (traffic : Traffic κ) (id : NodeId) : List Deed :=
  traffic.executed.filter fun deed => deed.node = id

/-- Executes the lines of some deeds. -/
def enact (engine : Engine) (deeds : List Deed) : Engine :=
  deeds.foldl (fun engine deed => (engine.exec deed.selected deed.line).engine) engine

/-- Whether the engines are what the lines that were executed have made of those of a cluster. -/
def Enacts (start : Cluster) (traffic : Traffic κ) : Prop :=
  ∀ id, traffic.cluster.engine? id =
    (start.engine? id).map fun engine => enact engine (traffic.deedsAt id)

namespace Enacts

variable {start : Cluster} {traffic : Traffic κ}

theorem begin (start : Cluster) : Enacts start ({ cluster := start } : Traffic κ) := by
  intro id
  exact Option.map_id'.symm

theorem congr (enacts : traffic.Enacts start) {after : Traffic κ}
    (engines : ∀ id, after.cluster.engine? id = traffic.cluster.engine? id)
    (executed : after.executed = traffic.executed) : after.Enacts start := by
  intro id
  rw [engines, enacts id, deedsAt, deedsAt, executed]

theorem execute (enacts : traffic.Enacts start) (number : Nat) (address : NodeId) (selected : Nat)
    (line : CommandLine) :
    (Traffic.execute number address traffic selected line).state.Enacts start := by
  intro id
  have deeds : (Traffic.execute number address traffic selected line).state.deedsAt id =
      traffic.deedsAt id ++ if id = address then [⟨number, address, selected, line⟩] else [] := by
    simp only [deedsAt, Traffic.execute, List.filter_append]
    split
    · next same => simp [same]
    · next differs => simp [Ne.symm differs]
  rw [deeds]
  simp only [Traffic.execute, Cluster.engine?_execHere, enacts id]
  split
  · simp [enact, Function.comp_def]
  · simp

theorem handle (number : Nat) (address : NodeId) :
    (Traffic.handle (κ := κ) number address).Keeps (Enacts start) := by
  intro traffic selected line enacts
  rw [Traffic.handle]
  split
  · exact enacts
  · exact enacts.execute number address selected line
  · split
    · exact enacts
    · split
      · exact enacts.execute number address selected _
      · exact enacts.congr (fun _ => rfl) rfl
    · exact enacts.congr (fun _ => rfl) rfl

theorem receive (number : Nat) (address : NodeId) :
    (Traffic.receive (κ := κ) number address).Keeps (Enacts start) := by
  intro traffic selected line enacts
  exact handle number address _ selected line (enacts.congr (fun _ => rfl) rfl)

theorem setPool (enacts : traffic.Enacts start) (parcel : Parcel) (pool : Pool Channel) :
    (traffic.setPool parcel pool).Enacts start :=
  enacts.congr (fun id => Cluster.engine?_setPool _ _ _ pool id) rfl

theorem put (enacts : traffic.Enacts start) (index : Nat) (parcel : Parcel) :
    (traffic.put index parcel).Enacts start :=
  enacts.congr (fun _ => rfl) rfl

theorem drop (enacts : traffic.Enacts start) (index : Nat) : (traffic.drop index).Enacts start :=
  enacts.congr (fun _ => rfl) rfl

theorem borrow (enacts : traffic.Enacts start) (network : Network) (index : Nat) (parcel : Parcel) :
    (traffic.borrow network index parcel).Enacts start := by
  rw [Traffic.borrow]
  split
  · exact enacts.drop index
  · split
    · exact enacts
    · exact (enacts.setPool parcel _).drop index
    · exact (enacts.setPool parcel _).put index _

theorem finish (enacts : traffic.Enacts start) (index : Nat) (parcel : Parcel)
    (pooled : Pooled Channel) : (traffic.finish index parcel pooled).Enacts start := by
  simp only [Traffic.finish]
  split
  · exact (enacts.drop index).setPool parcel _
  · exact enacts.drop index

theorem switch (enacts : traffic.Enacts start) (network : Network) (index : Nat) (parcel : Parcel)
    (pooled : Pooled Channel) : (traffic.switch network index parcel pooled).Enacts start := by
  have asked := Channel.request_keeps (receive parcel.number parcel.receiver) enacts pooled.object
    network (selectLine parcel.selected)
  simp only [Traffic.switch]
  split
  · exact asked.finish index parcel _
  · exact asked.put index _

theorem deliver (enacts : traffic.Enacts start) (network : Network) (index : Nat) (parcel : Parcel)
    (pooled : Pooled Channel) : (traffic.deliver network index parcel pooled).Enacts start :=
  (Channel.request_keeps (receive parcel.number parcel.receiver) enacts pooled.object network
    parcel.line).finish index parcel _

theorem advance (enacts : traffic.Enacts start) (network : Network) (index : Nat) :
    (traffic.advance network index).Enacts start := by
  rw [Traffic.advance]
  split
  · exact enacts
  · next parcel _ =>
    split
    · exact (enacts.drop index).execute _ _ _ _
    · split
      · exact enacts.borrow network index parcel
      · exact enacts.switch network index parcel _
      · exact enacts.deliver network index parcel _

variable [DecidableEq κ]

theorem step (enacts : traffic.Enacts start) (network : Network) (home : κ → NodeId)
    (event : TrafficEvent κ) : (traffic.step network home event).Enacts start := by
  cases event with
  | issue call =>
      have begun : Enacts start { traffic with
          issued := traffic.issued ++ [traffic.issueOf home call] } :=
        enacts.congr (fun _ => rfl) rfl
      exact (handle _ _ _ _ _ begun).congr (fun _ => rfl) rfl
  | advance index => exact enacts.advance network index

/-- The engines are what the executed lines have made of them, whatever happens. -/
theorem run (enacts : traffic.Enacts start) (network : Network) (home : κ → NodeId)
    (events : List (TrafficEvent κ)) : (traffic.run network home events).Enacts start := by
  induction events generalizing traffic with
  | nil => exact enacts
  | cons event rest ih => exact ih (enacts.step network home event)

end Enacts

end Traffic

end ShardStore
