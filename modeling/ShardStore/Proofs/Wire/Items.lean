import ShardStore.Proofs.Wire.Unfinished

namespace ShardStore

open Bytes Text

namespace Wire

/-- Whether an item can be found in bytes. The loss of the transport is not found in them. -/
def Readable : Item → Prop
  | .ok message => message.OneLine
  | .error (.invalidHeader line) => '\n' ∉ line.toList
  | .error (.unknownPrefix line) => '\n' ∉ line.toList
  | .error (.missingTerminator _) => True
  | .error (.transport _) => False

/-- What reading one line or body may come to. -/
def Reads : Except Fault (Option Message × Pending) → Prop
  | .error fault => Readable (.error fault)
  | .ok (message, _) => ∀ m, message = some m → m.OneLine

theorem lf_not_mem_lossy {bytes : Bytes} (unbroken : lf ∉ bytes) : '\n' ∉ (lossy bytes).toList :=
  fun mem => unbroken (mem_of_mem_lossy (by decide) (by decide) mem)

theorem takeLine?_unbroken {buffer line rest : Bytes}
    (taken : takeLine? buffer = some (.ok line, rest)) : lf ∉ line := by
  obtain ⟨⟨chunk, tail⟩, split, same⟩ := Option.map_eq_some_iff.mp taken
  obtain ⟨stripped, rfl⟩ := Prod.mk.inj same
  obtain ⟨front, whole, unbroken⟩ := splitLine?_front split
  have spelled : front ++ [lf] = line ++ [cr] ++ [lf] := by
    rw [← whole, stripTerminator_eq_ok stripped, List.append_assoc]
    rfl
  have same := List.append_cancel_right spelled
  rw [same, List.mem_append, not_or] at unbroken
  exact unbroken.1

theorem stripTerminator_reads {chunk : Bytes} {fault : Fault}
    (broken : stripTerminator chunk = .error fault) : Readable (.error fault) := by
  rw [stripTerminator_eq_error broken]
  trivial

theorem number_reads {line : Bytes} (unbroken : lf ∉ line) {fault : Fault}
    (refused : number line = .error fault) : Readable (.error fault) := by
  unfold number at refused
  split at refused
  · cases refused
  · cases refused
    exact lf_not_mem_lossy unbroken

theorem addElement_reads (missing : Nat) (collected : List Bytes) (element : Bytes) :
    Reads (.ok (addElement missing collected element)) := by
  unfold addElement
  split
  · intro m same
    cases same
    trivial
  · intro m same
    cases same

theorem start_reads {line : Bytes} (unbroken : lf ∉ line) : Reads (start line) := by
  have counted : ∀ next : Int64 → Except Fault (Option Message × Pending),
      (∀ n, Reads (next n)) → Reads (number line >>= next) := by
    intro next reads
    cases read : number line with
    | error fault => exact number_reads unbroken read
    | ok n => exact reads n
  have scalar : ∀ {message : Message}, message.OneLine →
      Reads (.ok (some message, .idle)) := fun oneLine m same => by cases same; exact oneLine
  have underway : ∀ pending, Reads (.ok (none, pending)) := fun _ m same => by cases same
  unfold start
  split
  · refine counted _ fun count => ?_
    split
    · exact scalar trivial
    split
    · exact scalar trivial
    split
    · exact lf_not_mem_lossy unbroken
    · exact underway _
  · refine counted _ fun length => ?_
    split
    · exact scalar trivial
    split
    · exact lf_not_mem_lossy unbroken
    · exact underway _
  · next status =>
    have inside : lf ∉ status := fun mem => unbroken (List.mem_cons_of_mem _ mem)
    split
    · exact scalar trivial
    split
    · exact scalar trivial
    · exact scalar (lf_not_mem_lossy inside)
  · next text =>
    exact scalar (lf_not_mem_lossy fun mem => unbroken (List.mem_cons_of_mem _ mem))
  · exact counted _ fun n => scalar trivial
  · exact lf_not_mem_lossy unbroken

theorem continueArray_reads {missing : Nat} {collected : List Bytes} {line : Bytes}
    (unbroken : lf ∉ line) : Reads (continueArray missing collected line) := by
  unfold continueArray
  split
  · next content =>
    cases read : number (0x24 :: content) with
    | error fault => exact number_reads unbroken read
    | ok length =>
        show Reads (if length < 0 then _ else _)
        split
        · exact addElement_reads missing collected []
        · intro m same
          cases same
  · exact addElement_reads missing collected line

theorem readUnit?_reads {pending : Pending} {buffer rest : Bytes}
    {result : Except Fault (Option Message × Pending)}
    (read : readUnit? pending buffer = some (result, rest)) : Reads result := by
  -- A line or body that is wrong in itself is a fault whatever is under way.
  have broken : ∀ {chunk : Bytes} {fault : Fault}, .error fault = stripTerminator chunk →
      Readable (.error fault) := fun stripped => stripTerminator_reads stripped.symm
  unfold readUnit? at read
  split at read <;> obtain ⟨⟨part, tail⟩, taken, same⟩ := Option.map_eq_some_iff.mp read <;>
    cases same
  · cases part with
    | error fault => obtain ⟨chunk, -, stripped⟩ := takeLine?_eq taken; exact broken stripped
    | ok line => exact start_reads (takeLine?_unbroken taken)
  · cases part with
    | error fault => obtain ⟨chunk, -, -, stripped⟩ := takeBody?_eq taken; exact broken stripped
    | ok body => intro m same; cases same; trivial
  · cases part with
    | error fault => obtain ⟨chunk, -, stripped⟩ := takeLine?_eq taken; exact broken stripped
    | ok line => exact continueArray_reads (takeLine?_unbroken taken)
  · cases part with
    | error fault => obtain ⟨chunk, -, -, stripped⟩ := takeBody?_eq taken; exact broken stripped
    | ok body => exact addElement_reads _ _ body

end Wire

namespace Decoder

open Wire

theorem advance?_readable {decoder next : Decoder} {item? : Option Item}
    (advanced : decoder.advance? = some (item?, next)) :
    ∀ item, item? = some item → Readable item := by
  obtain ⟨⟨result, rest⟩, read, same⟩ := Option.map_eq_some_iff.mp advanced
  have reads := readUnit?_reads read
  intro item found
  cases result with
  | error fault => cases same; cases found; exact reads
  | ok pair =>
      cases same
      obtain ⟨message, held, rfl⟩ := Option.map_eq_some_iff.mp found
      exact reads message held

theorem readable_of_mem_drain {decoder : Decoder} {item : Item} (mem : item ∈ decoder.drain.1) :
    Readable item :=
  (@drain_keeps (fun _ => True) Readable
    (fun _ advanced => ⟨trivial, advance?_readable advanced⟩) decoder trivial).2 item mem

theorem readable_of_mem_feedAll {decoder : Decoder} {pieces : List Bytes} {item : Item}
    (mem : item ∈ (decoder.feedAll pieces).1) : Readable item := by
  induction pieces generalizing decoder with
  | nil => cases mem
  | cons piece pieces ih =>
      rcases List.mem_append.mp mem with here | later
      · exact readable_of_mem_drain here
      · exact ih later

end Decoder

end ShardStore
