import PropertyGraph.Proofs.Records

/-!
# What elements keep

An element keeps its kind, its label and, as an edge, its endpoints for as long as it is there. So what a
later graph holds under a number that had been given by then is what the earlier graph held under it:
nothing comes back, and nothing turns into something else.
-/

namespace PropertyGraph

/-- The label of a present element, and its endpoints if it is an edge. -/
def Graph.nature? (g : Graph) : ElementKind → Nat → Option (String × List Nat)
  | .vertex, id => (g.vertices.get? id).map fun v => (v.label, [])
  | .edge, id => (g.edges.get? id).map fun e => (e.label, e.ends .both)

section Nature

variable {g : Graph} {kind : ElementKind} {id : Nat}

theorem label?_eq : g.label? kind id = (g.nature? kind id).map (·.1) := by
  cases kind <;> simp [Graph.label?, Graph.nature?, Function.comp_def]

theorem mem_ids_iff : id ∈ g.ids kind ↔ ∃ nature, g.nature? kind id = some nature := by
  cases kind with
  | vertex => simp [Graph.ids, Graph.nature?, Table.mem_keys_iff]
  | edge => simp [Graph.ids, Graph.nature?, Table.mem_keys_iff]

theorem mem_ids_of_label? {label : String} (h : g.label? kind id = some label) :
    id ∈ g.ids kind := by
  rw [label?_eq] at h
  obtain ⟨nature, hnature, -⟩ := Option.map_eq_some_iff.mp h
  exact mem_ids_iff.mpr ⟨nature, hnature⟩

theorem le_counter_of_mem_ids (h : id ∈ g.ids kind) : id ≤ g.counter := by
  cases kind with
  | vertex => exact g.vertices_le id h
  | edge => exact g.edges_le id h

theorem nature?_addVertex (label : String) (properties : List Property) (h : id ≤ g.counter) :
    (g.addVertex label properties).2.nature? kind id = g.nature? kind id := by
  cases kind with
  | vertex =>
      have hold : id ≠ g.counter + 1 := by omega
      simp [Graph.nature?, Graph.addVertex, Table.get?_push, hold]
  | edge => rfl

theorem nature?_addEdge (label : String) (properties : List Property) (source target : Nat)
    (h : id ≤ g.counter) :
    (g.addEdge label properties source target).2.nature? kind id = g.nature? kind id := by
  cases kind with
  | vertex => rfl
  | edge =>
      have hold : id ≠ g.counter + 1 := by omega
      simp [Graph.nature?, Graph.addEdge, Table.get?_push, hold]

theorem label?_addVertex (label : String) (properties : List Property) (g : Graph) :
    (g.addVertex label properties).2.label? .vertex (g.counter + 1) = some label := by
  simp [Graph.label?, Graph.addVertex, Table.get?_push]

theorem label?_addEdge (label : String) (properties : List Property) (source target : Nat)
    (g : Graph) :
    (g.addEdge label properties source target).2.label? .edge (g.counter + 1) = some label := by
  simp [Graph.label?, Graph.addEdge, Table.get?_push]

theorem nature?_update (updated : ElementKind) (changed : Nat) (properties : List Property) :
    (g.update updated changed properties).nature? kind id = g.nature? kind id := by
  cases updated <;> cases kind <;>
    simp only [Graph.nature?, Graph.update, Table.get?_modify]
  all_goals
    split
    · rw [Option.map_map]
      rfl
    · rfl

theorem nature?_of_filter {α : Type} {t : Table α} {keep : Nat → α → Bool}
    {f : α → String × List Nat} {nature : String × List Nat}
    (h : ((t.filter keep).get? id).map f = some nature) : (t.get? id).map f = some nature := by
  rw [Table.get?_filter] at h
  obtain ⟨record, hrecord, rfl⟩ := Option.map_eq_some_iff.mp h
  rw [(Option.filter_eq_some_iff.mp hrecord).1]
  rfl

theorem nature?_of_remove {removed : ElementKind} {gone : Nat} {nature : String × List Nat}
    (h : (g.remove removed gone).nature? kind id = some nature) :
    g.nature? kind id = some nature := by
  cases removed with
  | vertex =>
      unfold Graph.remove at h
      dsimp only at h
      split at h
      · cases kind with
        | vertex => exact nature?_of_filter (t := g.vertices) h
        | edge => exact nature?_of_filter h
      · exact h
  | edge =>
      cases kind with
      | vertex => exact h
      | edge => exact nature?_of_filter h

end Nature

/-- What has been numbered by an earlier graph is in a later one as it was there, if it is in it. -/
structure Descends (g g' : Graph) : Prop where
  counter : g.counter ≤ g'.counter
  nature : ∀ {kind id nature}, g'.nature? kind id = some nature → id ≤ g.counter →
    g.nature? kind id = some nature

namespace Descends

variable {g g' g'' : Graph}

theorem refl (g : Graph) : Descends g g := ⟨Nat.le_refl _, fun h _ => h⟩

theorem trans (h : Descends g g') (h' : Descends g' g'') : Descends g g'' where
  counter := Nat.le_trans h.counter h'.counter
  nature hnature hle := h.nature (h'.nature hnature (Nat.le_trans hle h.counter)) hle

theorem counter_remove (kind : ElementKind) (id : Nat) (g : Graph) :
    (g.remove kind id).counter = g.counter := by
  cases kind with
  | vertex =>
      unfold Graph.remove
      dsimp only
      split <;> rfl
  | edge => rfl

theorem counter_update (kind : ElementKind) (id : Nat) (properties : List Property) (g : Graph) :
    (g.update kind id properties).counter = g.counter := by cases kind <;> rfl

theorem persists : Persists Descends where
  refl := refl
  trans := trans
  addVertex label properties _ :=
    ⟨Nat.le_succ _, fun h hle => nature?_addVertex label properties hle ▸ h⟩
  addEdge label properties source target _ :=
    ⟨Nat.le_succ _, fun h hle => nature?_addEdge label properties source target hle ▸ h⟩
  update kind id properties g :=
    ⟨Nat.le_of_eq (counter_update kind id properties g).symm, fun h _ => nature?_update .. ▸ h⟩
  remove kind id g :=
    ⟨Nat.le_of_eq (counter_remove kind id g).symm, fun h _ => nature?_of_remove h⟩

theorem clear (g : Graph) : Descends g g.clear where
  counter := Nat.le_refl _
  nature {kind _ _} h _ := by cases kind <;> cases h

theorem mem_ids (h : Descends g g') {kind : ElementKind} {id : Nat} (hid : id ∈ g'.ids kind)
    (hle : id ≤ g.counter) : id ∈ g.ids kind := by
  obtain ⟨nature, hnature⟩ := mem_ids_iff.mp hid
  exact mem_ids_iff.mpr ⟨nature, h.nature hnature hle⟩

end Descends

end PropertyGraph
