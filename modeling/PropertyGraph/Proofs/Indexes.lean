import Mathlib.Data.List.Nodup
import PropertyGraph.Proofs.Fields

/-!
# Indexes

An index tells at which place of a list the entry with a given key stands. As long as it leads to each entry,
and to nothing else, looking a key up gives what looking through the list would give, and no two entries
have the same key.
-/

namespace PropertyGraph

/-- An index leads from each key to the place of the one entry that has it. -/
def Indexes {α : Type} (index : List (String × Nat)) (key : α → String) (entries : List α) : Prop :=
  ∀ k place, index.lookup k = some place ↔ ∃ entry, entries[place]? = some entry ∧ key entry = k

section Indexing

variable {α : Type} {index : List (String × Nat)} {key : α → String} {entries : List α} {entry : α}

theorem getElem?_concat_eq_some_iff {place : Nat} {e : α} :
    (entries ++ [entry])[place]? = some e
      ↔ entries[place]? = some e ∨ place = entries.length ∧ entry = e := by
  rw [List.getElem?_append]
  by_cases hplace : place < entries.length
  · have hne : place ≠ entries.length := Nat.ne_of_lt hplace
    simp [hplace, hne]
  · have hlast : place - entries.length = 0 ↔ place = entries.length := by omega
    simp [hplace, List.getElem?_singleton, hlast]

namespace Indexes

theorem nil (key : α → String) : Indexes [] key [] := by simp [Indexes]

/-- Under a key there is at most one entry. -/
theorem eq_of_key_eq (h : Indexes index key entries) {place place' : Nat} {e e' : α}
    (hentry : entries[place]? = some e) (hentry' : entries[place']? = some e') (hkey : key e = key e') :
    place = place' := by
  have hlookup := (h (key e') place).mpr ⟨e, hentry, hkey⟩
  rw [(h (key e') place').mpr ⟨e', hentry', rfl⟩] at hlookup
  exact (Option.some.inj hlookup).symm

theorem nodup (h : Indexes index key entries) : (entries.map key).Nodup := by
  rw [List.nodup_iff_getElem?_ne_getElem?]
  intro i j hij hj heq
  rw [List.length_map] at hj
  have hi : i < entries.length := Nat.lt_trans hij hj
  rw [List.getElem?_map, List.getElem?_map, List.getElem?_eq_getElem hi, List.getElem?_eq_getElem hj] at heq
  have hplace := h.eq_of_key_eq (List.getElem?_eq_getElem hi) (List.getElem?_eq_getElem hj)
    (Option.some.inj heq)
  exact Nat.ne_of_lt hij hplace

/-- Looking a key up is as good as looking through all entries. -/
theorem find?_eq (h : Indexes index key entries) (k : String) :
    (index.lookup k).bind (entries[·]?) = entries.find? (key · == k) := by
  symm
  cases hlookup : index.lookup k with
  | none =>
      refine List.find?_eq_none.mpr fun e he hkey => ?_
      obtain ⟨place, hplace⟩ := List.mem_iff_getElem?.mp he
      rw [(h k place).mpr ⟨e, hplace, beq_iff_eq.mp hkey⟩] at hlookup
      cases hlookup
  | some place =>
      obtain ⟨e, hplace, hkey⟩ := (h k place).mp hlookup
      have hfound : (entries.find? (key · == k)).isSome :=
        List.find?_isSome.mpr ⟨e, List.mem_of_getElem? hplace, beq_iff_eq.mpr hkey⟩
      obtain ⟨e', he'⟩ := Option.isSome_iff_exists.mp hfound
      obtain ⟨place', hplace'⟩ := List.mem_iff_getElem?.mp (List.mem_of_find?_eq_some he')
      have hkey' : key e' = k := by simpa using List.find?_some he'
      have hsame := h.eq_of_key_eq hplace hplace' (hkey.trans hkey'.symm)
      rw [he', Option.bind_some, hsame, hplace']

theorem bind_eq_none_iff (h : Indexes index key entries) {k : String} :
    (index.lookup k).bind (entries[·]?) = none ↔ k ∉ entries.map key := by
  rw [h.find?_eq, List.find?_eq_none, List.mem_map, not_exists]
  simp only [beq_iff_eq, not_and]

theorem bind_eq_some_iff (h : Indexes index key entries) {k : String} {e : α} :
    (index.lookup k).bind (entries[·]?) = some e ↔ e ∈ entries ∧ key e = k := by
  rw [Option.bind_eq_some_iff]
  constructor
  · rintro ⟨place, hlookup, he⟩
    obtain ⟨e', he', hkey⟩ := (h k place).mp hlookup
    rw [he] at he'
    cases he'
    exact ⟨List.mem_of_getElem? he, hkey⟩
  · rintro ⟨he, hkey⟩
    obtain ⟨place, hplace⟩ := List.mem_iff_getElem?.mp he
    exact ⟨place, (h k place).mpr ⟨e, hplace, hkey⟩, hplace⟩

/-- A new entry goes to the end, and so does its place. -/
theorem push (h : Indexes index key entries) (hfresh : key entry ∉ entries.map key) :
    Indexes ((key entry, entries.length) :: index) key (entries ++ [entry]) := by
  intro k place
  simp only [lookup_cons_eq, getElem?_concat_eq_some_iff]
  by_cases hk : k = key entry
  · subst hk
    rw [if_pos rfl]
    constructor
    · rintro ⟨⟩
      exact ⟨entry, .inr ⟨rfl, rfl⟩, rfl⟩
    · rintro ⟨e, he | ⟨rfl, rfl⟩, hkey⟩
      · exact absurd (List.mem_map.mpr ⟨e, List.mem_of_getElem? he, hkey⟩) hfresh
      · rfl
  · rw [if_neg hk, h k place]
    constructor
    · rintro ⟨e, he, hkey⟩
      exact ⟨e, .inl he, hkey⟩
    · rintro ⟨e, he | ⟨rfl, rfl⟩, hkey⟩
      · exact ⟨e, he, hkey⟩
      · exact absurd hkey.symm hk

/-- Changes that leave keys alone leave the index alone. -/
theorem map (h : Indexes index key entries) {f : α → α} (hf : ∀ e, key (f e) = key e) :
    Indexes index key (entries.map f) := by
  intro k place
  rw [h k place]
  simp only [List.getElem?_map, Option.map_eq_some_iff, exists_exists_and_eq_and, hf]

/-- The entry in one place is the one that has its key. -/
theorem set_eq_map (h : Indexes index key entries) {place : Nat} (hentry : entries[place]? = some entry)
    (f : α → α) :
    entries.set place (f entry) = entries.map fun e => if key e == key entry then f e else e := by
  refine List.ext_getElem? fun i => ?_
  rw [List.getElem?_set, List.getElem?_map]
  by_cases hi : place = i
  · subst hi
    obtain ⟨hlt, rfl⟩ := List.getElem?_eq_some_iff.mp hentry
    simp [hlt]
  · rw [if_neg hi]
    cases he : entries[i]? with
    | none => rfl
    | some e =>
        have hkey : key e ≠ key entry := fun hkey => hi (h.eq_of_key_eq hentry he hkey.symm)
        rw [Option.map_some, if_neg (by simpa using hkey)]

end Indexes

end Indexing

end PropertyGraph
