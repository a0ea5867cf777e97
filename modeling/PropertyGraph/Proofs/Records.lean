import PropertyGraph.Proofs.Evolution
import PropertyGraph.Proofs.Lookup

/-!
# Records by number

The record of a number after each operation of a table, told by the records before it.
-/

namespace PropertyGraph

namespace Table

variable {α : Type} {t : Table α} {key k : Nat}

theorem nodup_keys (t : Table α) : t.keys.Nodup := by
  have hascending : t.keys.Pairwise (· < ·) := List.pairwise_map.mpr t.ascending
  exact hascending.imp fun h => Nat.ne_of_lt h

theorem get?_eq_some_iff {record : α} : t.get? key = some record ↔ (key, record) ∈ t.rows :=
  ⟨mem_rows_of_get?, lookup_of_mem t.nodup_keys⟩

theorem mem_keys_iff : key ∈ t.keys ↔ ∃ record, t.get? key = some record := mem_keys_iff_lookup

theorem get?_push {record : α} {past : ∀ k ∈ t.keys, k < key} :
    (t.push key record past).get? k = if k = key then some record else t.get? k := by
  have hnone : t.get? key = none := by
    refine Option.eq_none_iff_forall_ne_some.mpr fun old hold => ?_
    exact Nat.lt_irrefl key (past key (mem_keys_iff.mpr ⟨old, hold⟩))
  have hlookup : (t.push key record past).get? k = (t.get? k).or ([(key, record)].lookup k) :=
    List.lookup_append
  rw [hlookup]
  split
  · subst k
    rw [hnone]
    simp
  · have hne : (k == key) = false := beq_false_of_ne ‹_›
    simp [List.lookup_cons, hne]

theorem get?_modify {change : α → α} :
    (t.modify key change).get? k = if k = key then (t.get? k).map change else t.get? k := by
  have hlookup := lookup_map_values (fun n record => if n = key then change record else record)
    t.rows k
  have hrows : (t.modify key change).rows
      = t.rows.map fun (n, record) => (n, if n = key then change record else record) := by
    refine List.map_congr_left fun (n, record) _ => ?_
    dsimp only
    split <;> rfl
  rw [get?, hrows, hlookup]
  split <;> simp [get?]

theorem get?_filter {keep : Nat → α → Bool} :
    (t.filter keep).get? k = (t.get? k).filter (keep k) := by
  ext record
  rw [get?_eq_some_iff, Option.filter_eq_some_iff, get?_eq_some_iff]
  exact List.mem_filter

end Table

end PropertyGraph
