import PropertyGraph.Proofs.Descent
import PropertyGraph.Proofs.Records
import PropertyGraph.Proofs.Rendering
import PropertyGraph.Proofs.Selecting

/-!
# What a drop leaves

Elements are dropped one after the other, and a vertex takes its edges along, so an edge that is to be
dropped may be gone already, and a vertex may have been in the list before. What is left can be told from the
graph before the first of them, though: `Dropped` does so, and two drops, one after the other, are one drop
of all their items. Only membership in the list is asked for, so its order does not matter.
-/

namespace PropertyGraph

namespace Table

variable {α : Type} {t t' : Table α}

/-- Tables with the same records are equal, since their order is that of the numbers. -/
theorem ext_get? (h : ∀ key record, t.get? key = some record ↔ t'.get? key = some record) : t = t' := by
  have hnodup (t : Table α) : t.rows.Nodup := t.nodup_keys.of_map _
  have hperm : t.rows.Perm t'.rows := by
    refine (List.perm_ext_iff_of_nodup (hnodup t) (hnodup t')).mpr fun (key, record) => ?_
    rw [← get?_eq_some_iff, ← get?_eq_some_iff]
    exact h key record
  have hrows : t.rows = t'.rows :=
    hperm.eq_of_pairwise (fun _ _ _ _ hlt hgt => absurd hgt (Nat.lt_asymm hlt)) t.ascending t'.ascending
  cases t
  cases t'
  cases hrows
  rfl

end Table

/-- What is left of a graph without the elements among some items: the vertices that are not among them, and
the edges that are not among them and at no present vertex among them. -/
structure Graph.Dropped (g : Graph) (items : List Item) (g' : Graph) : Prop where
  counter : g'.counter = g.counter
  vertices : ∀ id record, g'.vertices.get? id = some record ↔
    g.vertices.get? id = some record ∧ .element .vertex id ∉ items
  edges : ∀ id record, g'.edges.get? id = some record ↔
    g.edges.get? id = some record ∧ .element .edge id ∉ items ∧
      ∀ v ∈ record.ends .both, .element .vertex v ∈ items → v ∉ g.vertices.keys

namespace Graph.Dropped

variable {g g' g'' : Graph} {items items' : List Item} {item : Item}

theorem mem_keys_iff (h : g.Dropped items g') {v : Nat} :
    v ∈ g'.vertices.keys ↔ v ∈ g.vertices.keys ∧ .element .vertex v ∉ items := by
  simp only [Table.mem_keys_iff, h.vertices, exists_and_right]

theorem trans (h : g.Dropped items g') (h' : g'.Dropped items' g'') :
    g.Dropped (items ++ items') g'' where
  counter := h'.counter.trans h.counter
  vertices id record := by
    rw [h'.vertices, h.vertices, List.mem_append, not_or, and_assoc]
  edges id record := by
    rw [h'.edges, h.edges]
    constructor
    · rintro ⟨⟨hrecord, hid, hends⟩, hid', hends'⟩
      refine ⟨hrecord, fun hmem => ?_, fun v hv hmem => ?_⟩
      · exact (List.mem_append.mp hmem).elim hid hid'
      · intro hkey
        rcases List.mem_append.mp hmem with hmem | hmem
        · exact hends v hv hmem hkey
        · -- the vertex is there for the second drop, unless the first one has removed it
          exact hends' v hv hmem (h.mem_keys_iff.mpr ⟨hkey, fun hgone => hends v hv hgone hkey⟩)
    · rintro ⟨hrecord, hid, hends⟩
      refine ⟨⟨hrecord, fun hmem => hid (List.mem_append_left _ hmem), fun v hv hmem => ?_⟩,
        fun hmem => hid (List.mem_append_right _ hmem), fun v hv hmem hkey => ?_⟩
      · exact hends v hv (List.mem_append_left _ hmem)
      · exact hends v hv (List.mem_append_right _ hmem) (h.mem_keys_iff.mp hkey).1

theorem of_kind?_eq_none (h : item.kind? = none) : g.Dropped [item] g := by
  have hne (kind : ElementKind) (id : Nat) : .element kind id ∉ [item] := by
    rw [List.mem_singleton]
    rintro rfl
    cases h
  constructor <;> simp [hne]

theorem removeEdge (g : Graph) (id : Nat) : g.Dropped [.element .edge id] (g.remove .edge id) where
  counter := rfl
  vertices k record := by simp [Graph.remove, Graph.filterEdges]
  edges k record := by
    have hedges : (g.remove .edge id).edges = g.edges.filter fun k _ => k != id := rfl
    rw [hedges, Table.get?_filter, Option.filter_eq_some_iff]
    simp

theorem of_absent {id : Nat} (habsent : id ∉ g.vertices.keys) : g.Dropped [.element .vertex id] g where
  counter := rfl
  vertices k record := by
    refine ⟨fun hrecord => ⟨hrecord, fun hmem => ?_⟩, And.left⟩
    cases List.mem_singleton.mp hmem
    exact habsent (Table.mem_keys_iff.mpr ⟨record, hrecord⟩)
  edges k record := by
    refine ⟨fun hrecord => ⟨hrecord, fun hmem => ?_, fun v _ hmem => ?_⟩, And.left⟩
    · cases List.mem_singleton.mp hmem
    · cases List.mem_singleton.mp hmem
      exact habsent

/-- Of the edges, a present vertex takes those along that it is an end of. -/
theorem spared_iff {id : Nat} (hpresent : id ∈ g.vertices.keys) (record : EdgeRecord) :
    (∀ v ∈ record.ends .both, .element .vertex v ∈ [Item.element .vertex id] → v ∉ g.vertices.keys) ↔
      id ∉ record.ends .both := by
  constructor
  · intro hends hid
    exact hends id hid (List.mem_singleton_self _) hpresent
  · intro hid v hv hmem
    cases List.mem_singleton.mp hmem
    exact absurd hv hid

theorem removeVertex (g : Graph) (id : Nat) :
    g.Dropped [.element .vertex id] (g.remove .vertex id) := by
  have hcontains : g.vertices.contains id = true ↔ id ∈ g.vertices.keys :=
    (contains_iff : g.contains .vertex id = true ↔ _)
  by_cases hpresent : id ∈ g.vertices.keys
  · have hvertices : (g.remove .vertex id).vertices = g.vertices.erase id := by
      rw [Graph.remove, if_pos (hcontains.mpr hpresent)]
    have hedges : (g.remove .vertex id).edges
        = g.edges.filter fun _ e => e.source != id && e.target != id := by
      rw [Graph.remove, if_pos (hcontains.mpr hpresent)]
      rfl
    refine ⟨Descends.counter_remove .., fun k record => ?_, fun k record => ?_⟩
    · rw [hvertices, Table.erase, Table.get?_filter, Option.filter_eq_some_iff]
      simp
    · rw [hedges, Table.get?_filter, Option.filter_eq_some_iff, spared_iff hpresent]
      simp [EdgeRecord.ends, @eq_comm Nat id]
  · have hremove : g.remove .vertex id = g := by
      rw [Graph.remove, if_neg (mt hcontains.mp hpresent)]
    rw [hremove]
    exact of_absent hpresent

/-- What one traverser has dropped. -/
theorem run_dropItem (g : Graph) (item : Item) :
    ∃ g', (dropItem .write item).run g = (.ok (), g') ∧ g.Dropped [item] g' := by
  cases item with
  | element kind id =>
      refine ⟨g.remove kind id, rfl, ?_⟩
      cases kind with
      | vertex => exact removeVertex g id
      | edge => exact removeEdge g id
  | root | value _ | list _ => exact ⟨g, rfl, of_kind?_eq_none rfl⟩

theorem nil (g : Graph) : g.Dropped [] g := by
  constructor <;> simp

theorem run_forM (g : Graph) (input : List Traverser) :
    ∃ g', (input.forM fun t => dropItem .write t.item).run g = (.ok (), g') ∧
      g.Dropped (input.map (·.item)) g' := by
  induction input generalizing g with
  | nil => exact ⟨g, rfl, nil g⟩
  | cons t rest ih =>
      obtain ⟨between, hfirst, hdropped⟩ := run_dropItem g t.item
      obtain ⟨g', hrest, hdropped'⟩ := ih between
      exact ⟨g', (run_bind_of_ok hfirst).trans hrest, hdropped.trans hdropped'⟩

/-- What is left is determined by the elements among the items. -/
theorem unique (h : g.Dropped items g') (h' : g.Dropped items' g'')
    (hsame : ∀ kind id, .element kind id ∈ items ↔ .element kind id ∈ items') : g' = g'' := by
  have hvertices : g'.vertices = g''.vertices := by
    refine Table.ext_get? fun id record => ?_
    rw [h.vertices, h'.vertices, hsame]
  have hedges : g'.edges = g''.edges := by
    refine Table.ext_get? fun id record => ?_
    simp only [h.edges, h'.edges, hsame]
  have hcounter : g'.counter = g''.counter := h.counter.trans h'.counter.symm
  cases g'
  cases g''
  cases hvertices
  cases hedges
  cases hcounter
  rfl

/-- Without its vertices a graph has no edge left that has an endpoint. -/
theorem clear (hwhole : g.Whole) (hall : ∀ v ∈ g.vertices.keys, .element .vertex v ∈ items) :
    g.Dropped items g.clear where
  counter := rfl
  vertices id record := by
    have hnone : g.clear.vertices.get? id = none := rfl
    rw [hnone]
    refine ⟨(nomatch ·), fun ⟨hrecord, hid⟩ => absurd (hall id ?_) hid⟩
    exact Table.mem_keys_iff.mpr ⟨record, hrecord⟩
  edges id record := by
    have hnone : g.clear.edges.get? id = none := rfl
    rw [hnone]
    refine ⟨(nomatch ·), fun ⟨hrecord, _, hends⟩ => ?_⟩
    have hsource : record.source ∈ record.ends .both := List.mem_cons_self
    have hkey : record.source ∈ g.vertices.keys :=
      hwhole id record (Table.get?_eq_some_iff.mp hrecord) _ hsource
    exact absurd hkey (hends _ hsource (hall _ hkey))

end Graph.Dropped

theorem run_drop (g : Graph) (input : List Traverser) :
    ∃ g', g.Dropped (input.map (·.item)) g' ∧
      ∀ scope, (evaluateStep .write .drop input scope).run g = (.ok [], g') := by
  obtain ⟨g', hrun, hdropped⟩ := Graph.Dropped.run_forM g input
  refine ⟨g', hdropped, fun scope => ?_⟩
  rw [evaluateStep_drop]
  exact run_bind_of_ok hrun

theorem evaluate_dropAll {g : Graph} (hwhole : g.Whole) :
    g.evaluate ⟨[.selectAll .vertex, .drop]⟩ = (.ok [], g.clear) := by
  let vertices : List Traverser := Traverser.spread ⟨.root, []⟩ .vertex (g.ids .vertex)
  obtain ⟨g', hdropped, hrun⟩ := run_drop g vertices
  have hall : ∀ v ∈ g.vertices.keys, .element .vertex v ∈ vertices.map (·.item) := by
    intro v hv
    have hvertex : ⟨.element .vertex v, []⟩ ∈ vertices := List.mem_map_of_mem hv
    exact List.mem_map_of_mem hvertex
  have hsteps : (evaluateSteps .write [.selectAll .vertex, .drop] [⟨.root, []⟩] []).run g = (.ok [], g') :=
    calc (evaluateSteps .write [.selectAll .vertex, .drop] [⟨.root, []⟩] []).run g
        = (evaluateSteps .write [.drop] vertices []).run g :=
          run_evaluateSteps_of_look rfl (look_selectAll g [] ⟨.root, []⟩ .vertex)
      _ = (.ok [], g') := run_bind_of_ok (hrun [])
  rw [evaluate_eq_run, ← hdropped.unique (.clear hwhole hall) fun _ _ => .rfl]
  exact run_bind_of_ok hsteps

/-- A drop has no results and leaves exactly the elements that are neither among the items nor edges at present
vertices among them, as they were and with the counter as it was. Lists with the same elements, in any order
and any number, leave the same graph, and dropping all vertices leaves nothing of a graph whose edges have
their endpoints. -/
theorem drop_leaves_exactly (g : Graph) :
    (∀ input : List Traverser, ∃ g', g.Dropped (input.map (·.item)) g' ∧
      ∀ scope, (evaluateStep .write .drop input scope).run g = (.ok [], g')) ∧
    (∀ (input input' : List Traverser) (scope scope' : Bindings),
      (∀ kind id, .element kind id ∈ input.map (·.item) ↔ .element kind id ∈ input'.map (·.item)) →
        (evaluateStep .write .drop input scope).run g
          = (evaluateStep .write .drop input' scope').run g) ∧
    (g.Whole → g.evaluate ⟨[.selectAll .vertex, .drop]⟩ = (.ok [], g.clear)) := by
  refine ⟨run_drop g, fun input input' scope scope' hsame => ?_, evaluate_dropAll⟩
  obtain ⟨g', hdropped, hrun⟩ := run_drop g input
  obtain ⟨g'', hdropped', hrun'⟩ := run_drop g input'
  rw [hrun, hrun', hdropped.unique hdropped' hsame]

/-- An edge that goes with its vertex before its own turn, a vertex twice, one that is not there and a value. -/
theorem stale_items_dropped_in_any_order :
    let people : Graph :=
      (((Graph.empty.addVertex "person" []).2.addVertex "person" []).2.addVertex "person" []).2
    let g : Graph := ((people.addEdge "knows" [] 1 2).2.addEdge "knows" [] 3 3).2
    let input : List Traverser := [⟨.element .vertex 2, []⟩, ⟨.element .edge 4, []⟩,
      ⟨.value .null, []⟩, ⟨.element .vertex 9, []⟩, ⟨.element .vertex 2, []⟩]
    (evaluateStep .write .drop input []).run g = (evaluateStep .write .drop input.reverse []).run g ∧
      (∃ g', g.Dropped (input.map (·.item)) g' ∧
        (evaluateStep .write .drop input []).run g = (.ok [], g') ∧
        g'.vertices.keys = [1, 3] ∧ g'.edges.keys = [5]) ∧
      g.Whole ∧ g.evaluate ⟨[.selectAll .vertex, .drop]⟩ = (.ok [], g.clear) := by
  intro people g input
  obtain ⟨hdrop, horder, hclear⟩ := drop_leaves_exactly g
  have hreverse : ∀ kind id, .element kind id ∈ input.map (·.item) ↔
      .element kind id ∈ input.reverse.map (·.item) := by
    intro kind id
    rw [List.map_reverse, List.mem_reverse]
  have hwhole : g.Whole := by
    have hrows : ∀ row ∈ g.edges.rows, ∀ v ∈ row.2.ends .both, v ∈ g.vertices.keys := by decide
    exact fun id e he => hrows (id, e) he
  obtain ⟨g', hdropped, hrun⟩ := hdrop input
  have hkeys : ((evaluateStep .write .drop input []).run g).2.vertices.keys = [1, 3] ∧
      ((evaluateStep .write .drop input []).run g).2.edges.keys = [5] := ⟨rfl, rfl⟩
  rw [hrun] at hkeys
  exact ⟨horder input input.reverse [] [] hreverse, ⟨g', hdropped, hrun [], hkeys⟩, hwhole, hclear hwhole⟩

end PropertyGraph
