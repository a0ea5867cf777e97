/-!
# Tables of records

A table holds records by number, in ascending order. New records are numbered past all others, so the
order is also the order of creation, and it is part of the type.
-/

namespace PropertyGraph

structure Table (α : Type) where
  rows : List (Nat × α)
  ascending : rows.Pairwise fun a b => a.1 < b.1

namespace Table

instance [Repr α] : Repr (Table α) := ⟨fun t n => reprPrec t.rows n⟩

instance : Inhabited (Table α) := ⟨⟨[], .nil⟩⟩

def empty : Table α := ⟨[], .nil⟩

def keys (t : Table α) : List Nat := t.rows.map (·.1)

def size (t : Table α) : Nat := t.rows.length

def get? (t : Table α) (key : Nat) : Option α := t.rows.lookup key

def contains (t : Table α) (key : Nat) : Bool := (t.get? key).isSome

/-- Adds a record numbered past all others. -/
def push (t : Table α) (key : Nat) (record : α) (past : ∀ k ∈ t.keys, k < key) : Table α :=
  ⟨t.rows ++ [(key, record)], by
    rw [List.pairwise_append]
    refine ⟨t.ascending, List.pairwise_singleton .., fun a ha b hb => ?_⟩
    rw [List.mem_singleton] at hb
    subst hb
    exact past a.1 (List.mem_map_of_mem ha)⟩

def modify (t : Table α) (key : Nat) (change : α → α) : Table α :=
  ⟨t.rows.map fun row => if row.1 = key then (row.1, change row.2) else row, by
    rw [List.pairwise_map]
    refine t.ascending.imp fun {a b} h => ?_
    split <;> split <;> exact h⟩

def filter (t : Table α) (keep : Nat → α → Bool) : Table α :=
  ⟨t.rows.filter fun row => keep row.1 row.2, t.ascending.filter _⟩

def erase (t : Table α) (key : Nat) : Table α := t.filter fun k _ => k != key

theorem keys_empty : (empty : Table α).keys = [] := rfl

theorem keys_push (t : Table α) (key : Nat) (record : α) (past : ∀ k ∈ t.keys, k < key) :
    (t.push key record past).keys = t.keys ++ [key] := by
  simp [keys, push]

theorem keys_modify (t : Table α) (key : Nat) (change : α → α) :
    (t.modify key change).keys = t.keys := by
  simp only [keys, modify, List.map_map]
  refine List.map_congr_left fun row _ => ?_
  simp only [Function.comp]
  split <;> rfl

theorem keys_filter_subset (t : Table α) (keep : Nat → α → Bool) :
    ∀ k ∈ (t.filter keep).keys, k ∈ t.keys := by
  intro k hk
  obtain ⟨row, hrow, rfl⟩ := List.mem_map.1 hk
  exact List.mem_map_of_mem (List.mem_filter.1 hrow).1

end Table

end PropertyGraph
