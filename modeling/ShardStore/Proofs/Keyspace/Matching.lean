import ShardStore.Proofs.Command.Locality
import ShardStore.Proofs.Keyspace.Backtracking

namespace ShardStore

namespace Glob

/-- The cursors never leave pattern and text, and find what is found from stretch to stretch. -/
theorem scan_eq (pattern text : Bytes) : scan pattern text = .ok (matchesPattern pattern text) := by
  obtain ⟨answer, done, right⟩ := scan_spec pattern text
  have same : answer = matchesPattern pattern text :=
    Bool.eq_iff_iff.mpr (right.trans (matchesTokens_iff_takes _ _).symm)
  rw [done, same]

end Glob

namespace Store

theorem keys_nodup (store : Store) : store.keys.Nodup := by
  refine List.pairwise_map.mpr (store.sorted.imp fun {a b} lower same => ?_)
  rw [same] at lower
  exact List.lt_irrefl b.1 lower

theorem mem_keys_iff {store : Store} {key : Bytes} : key ∈ store.keys ↔ (store.get? key).isSome := by
  rw [keys, List.mem_map, Option.isSome_iff_exists]
  constructor
  · rintro ⟨⟨_, value⟩, listed, rfl⟩
    exact ⟨value, (mem_entries_iff store _ value).mp listed⟩
  · rintro ⟨value, found⟩
    exact ⟨(key, value), (mem_entries_iff store key value).mpr found, rfl⟩

end Store

namespace Engine

variable {engine : Engine} {selected : Nat} {name : Bytes}

theorem lookup_keys (named : lowerName name = "keys") :
    lowerName name ≠ "select" ∧ Command.lookup (lowerName name) 2 = .ok .keys := by
  rw [named]
  decide +kernel

theorem exec_keys {store : Store} (named : lowerName name = "keys")
    (present : engine.databases[selected]? = some store) (pattern : Bytes) :
    (engine.exec selected [name, pattern]).reply =
      .ofList (store.keys.filter (Glob.matchesPattern pattern)) := by
  obtain ⟨other, known⟩ := lookup_keys named
  have listed := @exec_known engine selected name [pattern] .keys store other known present
  exact listed.1

/-- Matching always comes to an end, without a reading outside of pattern and text, and a text matches
exactly if it can be cut into pieces, one for each token of the pattern, that the tokens take. KEYS
lists the keys of the selected database that match, each once, and no others. -/
theorem keys_listed (pattern text : Bytes) :
    Glob.scan pattern text = .ok (Glob.matchesPattern pattern text) ∧
      (Glob.matchesPattern pattern text = true ↔ Glob.Takes (Glob.tokens pattern) text) ∧
      ∀ (engine : Engine) (selected : Nat) (name : Bytes), lowerName name = "keys" →
        selected < engine.count →
        ∃ keys, (engine.exec selected [name, pattern]).reply = .ofList keys ∧ keys.Nodup ∧
          ∀ key, key ∈ keys ↔
            (engine.value? selected key).isSome ∧ Glob.Takes (Glob.tokens pattern) key := by
  refine ⟨Glob.scan_eq pattern text, Glob.matchesTokens_iff_takes _ _,
    fun engine selected name named within => ?_⟩
  have present : engine.databases[selected]? = some engine.databases[selected] :=
    List.getElem?_eq_getElem within
  refine ⟨_, exec_keys named present pattern, (Store.keys_nodup _).filter _, fun key => ?_⟩
  rw [List.mem_filter, Store.mem_keys_iff, value?, present, Option.bind_some]
  exact and_congr_right fun _ => Glob.matchesTokens_iff_takes _ _

/-- A range whose ends are turned round, and an unclosed bracket behind a star. -/
theorem keys_listed_of_two :
    let engine : Engine := ⟨[((∅ : Store).insert [0x61, 0x5B] []).insert [0x62] []]⟩
    let name : Bytes := [0x4B, 0x45, 0x59, 0x53]
    let pattern : Bytes := [0x5B, 0x63, 0x2D, 0x61, 0x5D, 0x2A, 0x5B]
    lowerName name = "keys" ∧ 0 < engine.count ∧
      ∃ keys, (engine.exec 0 [name, pattern]).reply = .ofList keys ∧ keys.Nodup ∧
        ∀ key, key ∈ keys ↔
          (engine.value? 0 key).isSome ∧ Glob.Takes (Glob.tokens pattern) key := by
  intro engine name pattern
  have named : lowerName name = "keys" := by decide +kernel
  have within : 0 < engine.count := by decide
  exact ⟨named, within, (keys_listed pattern []).2.2 engine 0 name named within⟩

end Engine

end ShardStore
