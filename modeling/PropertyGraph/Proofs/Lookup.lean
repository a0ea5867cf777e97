import Mathlib.Data.List.Basic

/-!
# Lists of pairs

Tables are lists of pairs of a key and a value, where the first pair of a key counts.
-/

namespace PropertyGraph

variable {κ ν : Type} [DecidableEq κ] {table : List (κ × ν)} {key : κ}

theorem lookup_filter_ne (table : List (κ × ν)) (removed key : κ) :
    (table.filter (·.1 != removed)).lookup key
      = if key = removed then none else table.lookup key := by
  induction table with
  | nil => simp
  | cons p table ih =>
      obtain ⟨k, v⟩ := p
      by_cases hk : k = removed
      · subst hk
        rw [List.filter_cons_of_neg (by simp), ih]
        by_cases hkey : key = k
        · simp [hkey]
        · simp [hkey, List.lookup_cons, beq_false_of_ne hkey]
      · rw [List.filter_cons_of_pos (by simpa using hk), List.lookup_cons, List.lookup_cons, ih]
        by_cases hkey : key = k
        · subst hkey
          simp [hk]
        · simp [beq_false_of_ne hkey]

theorem lookup_map_values {μ : Type} (f : κ → ν → μ) (table : List (κ × ν)) (key : κ) :
    (table.map fun (k, v) => (k, f k v)).lookup key = (table.lookup key).map (f key) := by
  induction table with
  | nil => rfl
  | cons p table ih =>
      obtain ⟨k, v⟩ := p
      rw [List.map_cons, List.lookup_cons, List.lookup_cons, ih]
      by_cases hkey : key = k
      · subst hkey
        simp
      · simp [beq_false_of_ne hkey]

theorem lookup_of_mem {v : ν} (hnodup : (table.map Prod.fst).Nodup) (h : (key, v) ∈ table) :
    table.lookup key = some v := by
  induction table with
  | nil => cases h
  | cons p table ih =>
      obtain ⟨k, w⟩ := p
      obtain ⟨hk, hnodup⟩ := List.nodup_cons.mp hnodup
      rw [List.lookup_cons]
      rcases List.mem_cons.mp h with heq | h
      · cases heq
        simp
      · have hne : key ≠ k := by
          intro heq
          apply hk
          exact List.mem_map.mpr ⟨(key, v), h, heq⟩
        simp [beq_false_of_ne hne, ih hnodup h]

theorem mem_keys_iff_lookup : key ∈ table.map Prod.fst ↔ ∃ v, table.lookup key = some v := by
  rw [← Option.isSome_iff_exists, Option.isSome_iff_ne_none, ne_eq, List.lookup_eq_none_iff]
  simp

end PropertyGraph
