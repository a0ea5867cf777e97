import Mathlib.Data.List.Nodup
import PropertyGraph.Proofs.Arrangement
import PropertyGraph.Proofs.Lookup

/-!
# Members by key

What stands under a key after members have been inserted, selected or put into another order. Members in
order are determined by what stands under each key.
-/

namespace PropertyGraph

section Tables

variable {κ ν : Type} [DecidableEq κ] {table other : List (κ × ν)} {key : κ} {v : ν}

theorem lookup_cons_eq (p : κ × ν) (table : List (κ × ν)) (key : κ) :
    (p :: table).lookup key = if key = p.1 then some p.2 else table.lookup key := by
  rw [List.lookup_cons]
  by_cases hkey : key = p.1
  · rw [if_pos hkey, beq_iff_eq.mpr hkey]
  · rw [if_neg hkey, beq_false_of_ne hkey]

theorem mem_of_lookup (h : table.lookup key = some v) : (key, v) ∈ table := by
  obtain ⟨before, after, rfl, -⟩ := List.lookup_eq_some_iff.mp h
  exact List.mem_append_right before List.mem_cons_self

theorem lookup_eq_some_iff_mem (h : (table.map Prod.fst).Nodup) :
    table.lookup key = some v ↔ (key, v) ∈ table :=
  ⟨mem_of_lookup, lookup_of_mem h⟩

theorem lookup_eq_of_perm (h : table.Perm other) (hnodup : (table.map Prod.fst).Nodup) (key : κ) :
    table.lookup key = other.lookup key := by
  have hother : (other.map Prod.fst).Nodup := (h.map _).nodup_iff.mp hnodup
  ext v
  rw [lookup_eq_some_iff_mem hnodup, lookup_eq_some_iff_mem hother, h.mem_iff]

theorem lookup_filter (h : (table.map Prod.fst).Nodup) (keep : κ × ν → Bool) (key : κ) :
    (table.filter keep).lookup key = (table.lookup key).filter fun v => keep (key, v) := by
  have hfilter : ((table.filter keep).map Prod.fst).Nodup :=
    h.sublist ((List.filter_sublist).map Prod.fst)
  ext v
  rw [lookup_eq_some_iff_mem hfilter, Option.filter_eq_some_iff, lookup_eq_some_iff_mem h, List.mem_filter]

theorem perm_cons_filter_ne (h : (table.map Prod.fst).Nodup) (hkey : table.lookup key = some v) :
    table.Perm ((key, v) :: table.filter (·.1 != key)) := by
  induction table with
  | nil => cases hkey
  | cons p rest ih =>
      obtain ⟨hfirst, hrest⟩ := List.nodup_cons.mp h
      rw [lookup_cons_eq] at hkey
      rw [List.filter_cons]
      by_cases hp : key = p.1
      · subst hp
        cases (if_pos rfl).symm.trans hkey
        have hkept : ∀ q ∈ rest, (q.1 != p.1) = true := fun q hq =>
          bne_iff_ne.mpr fun heq => hfirst (heq ▸ List.mem_map_of_mem hq)
        rw [if_neg (by simp), List.filter_eq_self.mpr hkept]
      · rw [if_neg hp] at hkey
        rw [if_pos (bne_iff_ne.mpr (Ne.symm hp))]
        exact ((ih hrest hkey).cons p).trans (List.Perm.swap ..)

end Tables

namespace Members

variable {members other : Members} {key k : String} {value : Json}

theorem find?_cons (p : String × Json) (members : Members) (key : String) :
    find? key (p :: members) = if key = p.1 then some p.2 else members.find? key :=
  lookup_cons_eq p members key

/-! Where a member goes, by the key it meets. -/

theorem insert_nil (key : String) (value : Json) : insert key value [] = [(key, value)] := rfl

theorem insert_before {v : Json} (h : key < k) (value : Json) (rest : Members) :
    insert key value ((k, v) :: rest) = (key, value) :: (k, v) :: rest := by
  rw [insert, if_pos h]

theorem insert_at (key : String) (value v : Json) (rest : Members) :
    insert key value ((key, v) :: rest) = (key, value) :: rest := by
  rw [insert, if_neg (String.lt_irrefl key), if_pos rfl]

theorem insert_after {v : Json} (h : k < key) (value : Json) (rest : Members) :
    insert key value ((k, v) :: rest) = (k, v) :: insert key value rest := by
  have hne : key ≠ k := fun heq => String.lt_irrefl k (heq ▸ h)
  rw [insert, if_neg (String.lt_asymm h), if_neg hne]

theorem find?_insert : (insert key value members).find? k
    = if k = key then some value else members.find? k := by
  induction members with
  | nil => rw [insert_nil, find?_cons]
  | cons p rest ih =>
      obtain ⟨first, v⟩ := p
      by_cases hlt : key < first
      · rw [insert_before hlt, find?_cons]
      by_cases heq : key = first
      · subst heq
        rw [insert_at, find?_cons, find?_cons]
        by_cases hk : k = key
        · rw [if_pos hk, if_pos hk]
        · rw [if_neg hk, if_neg hk, if_neg hk]
      · have hgt : first < key :=
          Decidable.byContradiction fun hle =>
            heq (String.le_antisymm (String.not_lt.mp hle) (String.not_lt.mp hlt))
        rw [insert_after hgt, find?_cons, find?_cons, ih]
        by_cases hfirst : k = first
        · have hk : k ≠ key := fun hk => heq (hk.symm.trans hfirst)
          rw [if_pos hfirst, if_neg hk, if_pos hfirst]
        · rw [if_neg hfirst, if_neg hfirst]

theorem find?_insertAll {added : List (String × Json)} (h : (added.map (·.1)).Nodup)
    (members : Members) (k : String) :
    (insertAll members added).find? k = (added.lookup k).or (members.find? k) := by
  induction added generalizing members with
  | nil => rfl
  | cons p rest ih =>
      obtain ⟨hfirst, hrest⟩ := List.nodup_cons.mp h
      have hstep : insertAll members (p :: rest) = insertAll (insert p.1 p.2 members) rest := rfl
      rw [hstep, ih hrest, find?_insert, lookup_cons_eq]
      by_cases hk : k = p.1
      · have hnone : rest.lookup k = none := by
          refine Option.eq_none_iff_forall_ne_some.mpr fun v hv => hfirst ?_
          exact List.mem_map.mpr ⟨(k, v), (lookup_eq_some_iff_mem hrest).mp hv, hk⟩
        rw [hnone, if_pos hk, if_pos hk]
        rfl
      · rw [if_neg hk, if_neg hk]

theorem Ascending.ext (h : Ascending members) (h' : Ascending other)
    (hfind : ∀ key, members.find? key = other.find? key) : members = other := by
  have hmem : ∀ p, p ∈ members ↔ p ∈ other := by
    intro p
    rw [← lookup_eq_some_iff_mem h.nodup, ← lookup_eq_some_iff_mem h'.nodup]
    exact Iff.of_eq (congrArg (· = some p.2) (hfind p.1))
  refine h.eq_of_perm h' ((List.perm_ext_iff_of_nodup ?_ ?_).mpr hmem)
  · exact List.Nodup.of_map _ h.nodup
  · exact List.Nodup.of_map _ h'.nodup

end Members

end PropertyGraph
