import PropertyGraph.Proofs.Looking

/-!
# How a graph changes during an evaluation

The engine changes a graph in four ways, and a relation between graphs that holds across each of them
holds across whole evaluations, also across those that fail. `Evolves` is such a relation. It says what
survives: numbers are not given twice, so what has been removed does not come back, and an edge that is
still there has the endpoints it was created with and has lost neither of them, because a vertex takes
its edges along.
-/

namespace PropertyGraph

namespace Table

variable {α : Type} {t : Table α} {key : Nat}

theorem mem_keys_of_mem_rows {record : α} (h : (key, record) ∈ t.rows) : key ∈ t.keys :=
  List.mem_map_of_mem h

theorem mem_rows_of_mem_filter {keep : Nat → α → Bool} {record : α}
    (h : (key, record) ∈ (t.filter keep).rows) : (key, record) ∈ t.rows ∧ keep key record = true :=
  List.mem_filter.mp h

theorem exists_of_mem_modify {changed : Nat} {change : α → α} {record : α}
    (h : (key, record) ∈ (t.modify changed change).rows) :
    ∃ earlier, (key, earlier) ∈ t.rows ∧ (record = earlier ∨ record = change earlier) := by
  obtain ⟨⟨key', earlier⟩, hearlier, heq⟩ := List.mem_map.mp h
  split at heq
  · cases heq
    exact ⟨earlier, hearlier, .inr rfl⟩
  · cases heq
    exact ⟨record, hearlier, .inl rfl⟩

theorem mem_keys_erase {erased : Nat} (h : key ∈ t.keys) (hne : key ≠ erased) :
    key ∈ (t.erase erased).keys := by
  obtain ⟨⟨key', record⟩, hrow, rfl⟩ := List.mem_map.mp h
  exact mem_keys_of_mem_rows (List.mem_filter.mpr ⟨hrow, bne_iff_ne.mpr hne⟩)

end Table

/-- A relation between an earlier and a later graph that holds across each change. -/
structure Persists (R : Graph → Graph → Prop) : Prop where
  refl : ∀ g, R g g
  trans : ∀ {g₁ g₂ g₃}, R g₁ g₂ → R g₂ g₃ → R g₁ g₃
  addVertex : ∀ label properties g, R g (g.addVertex label properties).2
  addEdge : ∀ label properties source target g, R g (g.addEdge label properties source target).2
  update : ∀ kind id properties g, R g (g.update kind id properties)
  remove : ∀ kind id g, R g (g.remove kind id)

/-- Wherever an evaluation ends, the graph is related to the one it started from. -/
def LeadsAlong (R : Graph → Graph → Prop) (step : Step) : Prop :=
  ∀ {access : Access} {input : List Traverser} {scope : Bindings} {g : Graph},
    Ensures (evaluateStep access step input scope) g (fun _ g' => R g g') fun _ g' => R g g'

def LeadsAllAlong (R : Graph → Graph → Prop) (steps : List Step) : Prop :=
  ∀ {access : Access} {input : List Traverser} {scope : Bindings} {g : Graph},
    Ensures (evaluateSteps access steps input scope) g (fun _ g' => R g g') fun _ g' => R g g'

namespace Persists

variable {R : Graph → Graph → Prop}

theorem mapM {α β : Type} (h : Persists R) {xs : List α} {f : α → Evaluation β} {g : Graph}
    (hround : ∀ x g, Ensures (f x) g (fun _ g' => R g g') fun _ g' => R g g') :
    Ensures (xs.mapM f) g (fun _ g' => R g g') fun _ g' => R g g' :=
  (Ensures.mapM_along (P := fun _ _ => True) h.refl h.trans (fun _ _ => trivial) fun x _ g' _ =>
    (hround x g').mono (fun _ _ hR => ⟨trivial, hR⟩) fun _ _ hR => hR).mono
      (fun _ _ hends => hends.2) fun _ _ hR => hR

theorem along (h : Persists R) : Step.Induction (LeadsAlong R) (LeadsAllAlong R) where
  look step hlooks := by
    intro access input scope g
    rw [evaluateStep_of_looks hlooks]
    exact .read (fun _ _ => h.refl g) fun _ _ => h.refl g
  addVertex label properties := by
    intro access input scope g
    rw [evaluateStep_addVertex]
    exact h.mapM fun t g' => .addVertexFrom (h.addVertex label properties g') fun _ _ => h.refl g'
  addEdge label properties source target hsource htarget := by
    intro access input scope g
    rw [evaluateStep_addEdge]
    refine h.mapM fun t g' => ?_
    refine .connect (fun _ _ => h.refl g') (fun _ _ => h.refl g')
      fun current edgeEnd selector _ honly => ?_
    have hselector : LeadsAllAlong R selector := Step.all_of_onlySelector? hsource htarget honly
    refine hselector.mono (fun found g'' hR => ?_) fun _ _ hR => hR
    exact .read (fun chosen _ => ⟨h.trans hR (h.addEdge label properties _ _ g''), fun _ _ => hR⟩)
      fun _ _ => hR
  update properties := by
    intro access input scope g
    rw [evaluateStep_update]
    refine .bind ((Ensures.forM_along h.refl h.trans fun t _ g' => ?_).mono
      (fun _ _ hR => .pure hR) fun _ _ hR => hR)
    exact .updateItem (fun kind id _ => h.update kind id properties g') (fun _ _ => h.refl g')
      fun _ => h.refl g'
  bind name continuation ih := by
    intro access input scope g
    rw [evaluateStep_bind]
    refine .bind ((h.mapM fun t g' => ?_).mono (fun _ _ hR => .pure hR) fun _ _ hR => hR)
    exact .continueFrom ih
  drop := by
    intro access input scope g
    rw [evaluateStep_drop]
    refine .bind ((Ensures.forM_along h.refl h.trans fun t _ g' => ?_).mono
      (fun _ _ hR => .pure hR) fun _ _ hR => hR)
    exact .dropItem (fun kind id _ => h.remove kind id g') (fun _ => h.refl g') fun _ _ => h.refl g'
  nil := by
    intro access input scope g
    exact .pure (h.refl g)
  cons step rest hstep hrest := by
    intro access input scope g
    rw [evaluateSteps_cons]
    refine .bind (hstep.mono (fun out g' hR => ?_) fun _ _ hR => hR)
    exact hrest.mono (fun _ _ hR' => h.trans hR hR') fun _ _ hR' => h.trans hR hR'

theorem evaluate (h : Persists R) (g : Graph) (traversal : CompiledTraversal) :
    R g (g.evaluate traversal).2 :=
  (Ensures.runSteps (h.along.holdsOfAll traversal.steps)).state

end Persists

/-! ### What survives -/

/-- A graph can have become another one by changes of the engine: as far as vertices and the endpoints
of edges tell, what was numbered by then is there no more than before, and edges are whole. -/
structure Evolves (g g' : Graph) : Prop where
  counter : g.counter ≤ g'.counter
  vertices : ∀ v ∈ g'.vertices.keys, v ≤ g.counter → v ∈ g.vertices.keys
  edges : ∀ id e', (id, e') ∈ g'.edges.rows → id ≤ g.counter →
    ∃ e, (id, e) ∈ g.edges.rows ∧ e.ends .both = e'.ends .both ∧
      ∀ v ∈ e'.ends .both, v ∈ g.vertices.keys → v ∈ g'.vertices.keys

namespace Evolves

variable {g g' g'' : Graph}

theorem refl (g : Graph) : Evolves g g where
  counter := Nat.le_refl _
  vertices _ hv _ := hv
  edges _ e he _ := ⟨e, he, rfl, fun _ _ hv => hv⟩

theorem trans (h : Evolves g g') (h' : Evolves g' g'') : Evolves g g'' where
  counter := Nat.le_trans h.counter h'.counter
  vertices v hv hle := h.vertices v (h'.vertices v hv (Nat.le_trans hle h.counter)) hle
  edges id e'' he'' hle := by
    obtain ⟨e', he', hends', hkept'⟩ := h'.edges id e'' he'' (Nat.le_trans hle h.counter)
    obtain ⟨e, he, hends, hkept⟩ := h.edges id e' he' hle
    refine ⟨e, he, hends.trans hends', fun v hv hpresent => hkept' v hv (hkept v ?_ hpresent)⟩
    rwa [hends']

theorem keys_addVertex (label : String) (properties : List Property) (g : Graph) :
    (g.addVertex label properties).2.vertices.keys = g.vertices.keys ++ [g.counter + 1] :=
  g.vertices.keys_push (g.counter + 1) _ (Graph.lt_counter_succ g.vertices_le)

theorem addVertex (label : String) (properties : List Property) (g : Graph) :
    Evolves g (g.addVertex label properties).2 where
  counter := Nat.le_succ g.counter
  vertices v hv hle := by
    rw [keys_addVertex, List.mem_append] at hv
    rcases hv with hold | hnew
    · exact hold
    · have heq : v = g.counter + 1 := List.mem_singleton.mp hnew
      omega
  edges id e he _ := by
    refine ⟨e, he, rfl, fun v _ hv => ?_⟩
    rw [keys_addVertex]
    exact List.mem_append_left _ hv

theorem mem_rows_addEdge {label : String} {properties : List Property} {source target id : Nat}
    {e : EdgeRecord} (h : (id, e) ∈ (g.addEdge label properties source target).2.edges.rows) :
    (id, e) ∈ g.edges.rows ∨ id = g.counter + 1 ∧ e.ends .both = [source, target] := by
  rcases List.mem_append.mp h with hold | hnew
  · exact .inl hold
  · cases List.mem_singleton.mp hnew
    exact .inr ⟨rfl, rfl⟩

theorem addEdge (label : String) (properties : List Property) (source target : Nat) (g : Graph) :
    Evolves g (g.addEdge label properties source target).2 where
  counter := Nat.le_succ g.counter
  vertices _ hv _ := hv
  edges id e he hle := by
    rcases mem_rows_addEdge he with hold | ⟨hid, -⟩
    · exact ⟨e, hold, rfl, fun _ _ hv => hv⟩
    · omega

theorem update (kind : ElementKind) (id : Nat) (properties : List Property) (g : Graph) :
    Evolves g (g.update kind id properties) := by
  cases kind with
  | vertex =>
      have hkeys : (g.update .vertex id properties).vertices.keys = g.vertices.keys :=
        Table.keys_modify ..
      refine ⟨Nat.le_refl _, fun v hv _ => hkeys ▸ hv, fun _ e he _ => ⟨e, he, rfl, ?_⟩⟩
      exact fun _ _ hv => hkeys ▸ hv
  | edge =>
      refine ⟨Nat.le_refl _, fun _ hv _ => hv, fun id' e' he' _ => ?_⟩
      obtain ⟨e, he, heq⟩ := Table.exists_of_mem_modify he'
      refine ⟨e, he, ?_, fun _ _ hv => hv⟩
      rcases heq with rfl | rfl <;> rfl

/-- The edges of a removed vertex are removed, so those that are left have lost no endpoint. -/
theorem remove (kind : ElementKind) (id : Nat) (g : Graph) : Evolves g (g.remove kind id) := by
  cases kind with
  | vertex =>
      unfold Graph.remove
      dsimp only
      split
      · refine ⟨Nat.le_refl _, fun v hv _ => g.vertices.keys_filter_subset _ v hv, ?_⟩
        intro id' e he _
        obtain ⟨hold, hkeep⟩ := Table.mem_rows_of_mem_filter he
        simp only [Bool.and_eq_true, bne_iff_ne] at hkeep
        refine ⟨e, hold, rfl, fun v hv hpresent => Table.mem_keys_erase hpresent ?_⟩
        have hends : v = e.source ∨ v = e.target := by simpa [EdgeRecord.ends] using hv
        rcases hends with rfl | rfl
        · exact hkeep.1
        · exact hkeep.2
      · exact refl g
  | edge =>
      refine ⟨Nat.le_refl _, fun _ hv _ => hv, fun id' e he _ => ?_⟩
      exact ⟨e, (Table.mem_rows_of_mem_filter he).1, rfl, fun _ _ hv => hv⟩

theorem clear (g : Graph) : Evolves g g.clear where
  counter := Nat.le_refl _
  vertices _ hv _ := nomatch hv
  edges _ _ he _ := nomatch he

theorem persists : Persists Evolves where
  refl := refl
  trans := trans
  addVertex := addVertex
  addEdge := addEdge
  update := update
  remove := remove

end Evolves

end PropertyGraph
