import PropertyGraph.Proofs.Selecting

/-!
# Walks along edges

A walk to vertices picks the far end of each edge at a vertex, while a walk to edges leaves that to the step
after it. The two agree for every graph, also where an edge has lost an endpoint. The edges at a vertex are
rows of one table, so how often a walk reaches something is how many rows satisfy a condition, and the
condition that leads from `x` to `y` is the one that leads back.
-/

namespace PropertyGraph

section Expand

variable {derive next : Item → Except EngineError (List Item)} {reach : Item → List Item}

theorem expand_append (derive : Item → Except EngineError (List Item)) (xs ys : List Traverser) :
    expand derive (xs ++ ys)
      = (do return (← expand derive xs) ++ (← expand derive ys)) := by
  rw [expand, expand, expand, List.mapM_append]
  cases xs.mapM fun t => (derive t.item).map (·.map t.withItem) with
  | error e => rfl
  | ok parts =>
      cases ys.mapM fun t => (derive t.item).map (·.map t.withItem) with
      | error e => rfl
      | ok others => exact congrArg Except.ok List.flatten_append

theorem expand_cons (derive : Item → Except EngineError (List Item)) (t : Traverser)
    (rest : List Traverser) :
    expand derive (t :: rest)
      = (do return (← derive t.item).map t.withItem ++ (← expand derive rest)) := by
  rw [expand, expand, List.mapM_cons]
  cases derive t.item with
  | error e => rfl
  | ok items =>
      cases rest.mapM fun t => (derive t.item).map (·.map t.withItem) <;> rfl

theorem expand_map_withItem (t : Traverser) {items : List Item}
    (h : ∀ item ∈ items, next item = .ok (reach item)) :
    expand next (items.map t.withItem) = .ok ((items.flatMap reach).map t.withItem) := by
  have hparts : (items.map t.withItem).mapM (fun t' => (next t'.item).map (·.map t'.withItem))
      = .ok (items.map fun item => (reach item).map t.withItem) := by
    rw [List.mapM_map]
    refine mapM_eq_ok fun item hitem => ?_
    have hnext : next (t.withItem item).item = .ok (reach item) := h item hitem
    rw [Function.comp, hnext]
    rfl
  rw [expand, hparts, List.map_flatMap, List.flatMap_def]
  rfl

/-- Two replacements are one, if the second cannot fail where the first leads. The first one may fail. -/
theorem expand_bind_expand
    (h : ∀ item items, derive item = .ok items → ∀ i ∈ items, next i = .ok (reach i))
    (input : List Traverser) :
    (expand derive input >>= expand next)
      = expand (fun item => (derive item).map (·.flatMap reach)) input := by
  induction input with
  | nil => rfl
  | cons t rest ih =>
      rw [expand_cons, expand_cons, ← ih]
      cases hitems : derive t.item with
      | error e => rfl
      | ok items =>
          cases expand derive rest with
          | error e => rfl
          | ok others =>
              have hfirst := expand_map_withItem t (h t.item items hitems)
              change expand next (items.map t.withItem ++ others) = _
              rw [expand_append, hfirst]
              rfl

end Expand

/-- Where an edge leads that is walked along in a direction, as seen from the edge. -/
def Direction.ahead : Direction → Direction
  | .outgoing => .incoming
  | .incoming => .outgoing
  | .both => .both

/-- What a walk reaches from a vertex, by number. -/
def Graph.walkIds (g : Graph) (direction : Direction) (labels : List String) (vertex : Nat) :
    WalkTarget → List Nat
  | .edges => g.incident vertex direction labels
  | .vertices => g.adjacent direction labels vertex

def WalkTarget.kind : WalkTarget → ElementKind
  | .vertices => .vertex
  | .edges => .edge

section Walks

variable {g : Graph} {direction : Direction} {labels : List String} {x y id : Nat}

theorem walk_eq_ok (g : Graph) (direction : Direction) (labels : List String) (target : WalkTarget)
    (vertex : Nat) :
    g.walk direction labels target (.element .vertex vertex)
      = .ok ((g.walkIds direction labels vertex target).map (.element target.kind)) := by
  cases target with
  | edges => rfl
  | vertices => exact walk_vertices_eq_ok g direction labels vertex

/-- What `edgeVertex` takes an item of a walk to edges to. -/
def Graph.endsAt (g : Graph) (direction : Direction) : Item → List Item
  | .element .edge id =>
    (g.edges.get? id).elim [] fun e => (e.ends direction).map (.element .vertex)
  | _ => []

/-- A walk in one direction leads through its edges to the end ahead. -/
theorem walk_through_edges (hone : direction ≠ .both) (item : Item) :
    (g.walk direction labels .edges item).map (·.flatMap (g.endsAt direction.ahead))
      = g.walk direction labels .vertices item := by
  simp only [Graph.walk]
  cases item.vertexFor "traverse" with
  | error e => rfl
  | ok vertex =>
      refine congrArg Except.ok ?_
      change ((g.incident vertex direction labels).map (Item.element .edge)).flatMap _ = _
      rw [List.flatMap_map, List.filterMap_eq_flatMap_toList]
      refine congrArg (List.flatMap · _) (funext fun id => ?_)
      cases hedge : g.edges.get? id with
      | none => simp [Graph.endsAt, hedge]
      | some e =>
          cases direction with
          | outgoing | incoming => simp [Graph.endsAt, hedge, Direction.ahead, EdgeRecord.ends,
              EdgeRecord.farEnd]
          | both => exact absurd rfl hone

theorem endpoints_of_walk_edges {item : Item} {items : List Item}
    (h : g.walk direction labels .edges item = .ok items) (ending : Direction) :
    ∀ i ∈ items, g.endpoints ending i = .ok (g.endsAt ending i) := by
  obtain ⟨vertex, -, hitems⟩ := exists_of_bind_eq_ok h
  cases hitems
  intro i hi
  obtain ⟨id, -, rfl⟩ := List.mem_map.mp hi
  rfl

theorem look_through_edges (hone : direction ≠ .both) (scope : Bindings) (input : List Traverser) :
    (g.look scope input (.traverse direction labels .edges) >>= fun edges =>
        g.look scope edges (.edgeVertex direction.ahead))
      = g.look scope input (.traverse direction labels .vertices) := by
  have hends : ∀ item items, g.walk direction labels .edges item = .ok items →
      ∀ i ∈ items, g.endpoints direction.ahead i = .ok (g.endsAt direction.ahead i) :=
    fun item items h => endpoints_of_walk_edges h direction.ahead
  refine (expand_bind_expand hends input).trans ?_
  exact congrArg (expand · input) (funext (walk_through_edges hone))

theorem run_look {step : Step} (hlooks : step.looks = true) (access : Access)
    (input : List Traverser) (scope : Bindings) :
    (evaluateSteps access [step] input scope).run g = (g.look scope input step, g) := by
  have hstep : (evaluateStep access step input scope).run g = (g.look scope input step, g) := by
    rw [evaluateStep_of_looks hlooks, run_read]
  cases hlook : g.look scope input step with
  | error e => exact run_bind_of_error (hstep.trans (by rw [hlook]))
  | ok out => exact run_evaluateSteps_of_look hlooks hlook

theorem run_walk_through_edges (hone : direction ≠ .both) (access : Access)
    (input : List Traverser) (scope : Bindings) :
    (evaluateSteps access [.traverse direction labels .edges, .edgeVertex direction.ahead] input
        scope).run g
      = (evaluateSteps access [.traverse direction labels .vertices] input scope).run g := by
  rw [run_look rfl, ← look_through_edges hone]
  have hstep : (evaluateStep access (.traverse direction labels .edges) input scope).run g
      = (g.look scope input (.traverse direction labels .edges), g) := by
    rw [evaluateStep_of_looks rfl, run_read]
  cases hlook : g.look scope input (.traverse direction labels .edges) with
  | error e => exact run_bind_of_error (hstep.trans (by rw [hlook]))
  | ok edges =>
      rw [run_evaluateSteps_of_look rfl hlook]
      exact run_look rfl access edges scope

/-- A traverser at a vertex that walks on reaches the elements of given numbers, in their order. -/
def Graph.Walks (g : Graph) (direction : Direction) (labels : List String) (target : WalkTarget)
    (vertex : Nat) (ids : List Nat) : Prop :=
  ∀ (access : Access) (scope : Bindings) (t : Traverser), t.item = .element .vertex vertex →
    (evaluateSteps access [.traverse direction labels target] [t] scope).run g
      = (.ok (t.spread target.kind ids), g)

theorem walks_iff {target : WalkTarget} {ids : List Nat} :
    g.Walks direction labels target x ids ↔ ids = g.walkIds direction labels x target := by
  have hrun (access : Access) (scope : Bindings) (t : Traverser)
      (ht : t.item = .element .vertex x) :
      (evaluateSteps access [.traverse direction labels target] [t] scope).run g
        = (.ok (t.spread target.kind (g.walkIds direction labels x target)), g) := by
    have hwalk := walk_eq_ok g direction labels target x
    rw [run_look rfl, Graph.look, expand_cons, ht, hwalk, Traverser.spread]
    simp [expand, Function.comp_def]
  constructor
  · intro h
    let t : Traverser := ⟨.element .vertex x, []⟩
    have hspread : t.spread target.kind ids
        = t.spread target.kind (g.walkIds direction labels x target) := by
      have hboth := (h .read [] t rfl).symm.trans (hrun .read [] t rfl)
      exact Except.ok.inj (congrArg Prod.fst hboth)
    refine List.map_injective_iff.mpr (fun a b hab => ?_) hspread
    cases hab
    rfl
  · rintro rfl
    exact hrun

/-! ### Multiplicities -/

/-- The edges that satisfy a condition, each with something that its record tells. -/
theorem filterMap_edgesWhere {β : Type} (condition : EdgeRecord → Bool) (f : EdgeRecord → β) :
    (g.edgesWhere labels condition).filterMap (fun id => (g.edges.get? id).map f)
      = (g.edges.rows.filter fun row =>
          condition row.2 && (labels.isEmpty || labels.contains row.2.label)).map fun row => f row.2 := by
  rw [Graph.edgesWhere, List.filterMap_map]
  have hrecord : ∀ row ∈ g.edges.rows.filter fun row =>
      condition row.2 && (labels.isEmpty || labels.contains row.2.label),
      (g.edges.get? row.1).map f = some (f row.2) := by
    intro row hrow
    rw [Table.get?_eq_some_iff.mpr (List.mem_of_mem_filter hrow)]
    rfl
  rw [← List.filterMap_eq_map]
  exact List.filterMap_congr hrecord

/-- The number of edges with one of the labels from one vertex to another. -/
def Graph.edgesBetween (g : Graph) (labels : List String) (x y : Nat) : Nat :=
  g.edges.rows.countP fun row =>
    row.2.source == x && row.2.target == y && (labels.isEmpty || labels.contains row.2.label)

theorem count_adjacent_outgoing (x y : Nat) :
    (g.adjacent .outgoing labels x).count y = g.edgesBetween labels x y := by
  have hedges : g.adjacent .outgoing labels x = _ := filterMap_edgesWhere (·.source == x) (·.target)
  rw [hedges, List.count, List.countP_map, List.countP_filter, Graph.edgesBetween]
  refine List.countP_congr fun row _ => ?_
  simp only [Function.comp_apply, Bool.and_eq_true, beq_iff_eq]
  tauto

theorem count_adjacent_incoming (x y : Nat) :
    (g.adjacent .incoming labels y).count x = g.edgesBetween labels x y := by
  have hedges : g.adjacent .incoming labels y = _ := filterMap_edgesWhere (·.target == y) (·.source)
  rw [hedges, List.count, List.countP_map, List.countP_filter, Graph.edgesBetween]
  refine List.countP_congr fun row _ => ?_
  simp only [Function.comp_apply, Bool.and_eq_true, beq_iff_eq]
  tauto

/-- An edge that is walked along both ways leads to its other end, so a loop leads back to its vertex from
either end. -/
theorem adjacent_both (x : Nat) :
    g.adjacent .both labels x
      = g.adjacent .outgoing labels x ++ g.adjacent .incoming labels x := by
  have houtgoing : g.incident x .outgoing labels = g.edgesWhere labels (·.source == x) := rfl
  have hincoming : g.incident x .incoming labels = g.edgesWhere labels (·.target == x) := rfl
  have hincident : g.incident x .both labels
      = g.incident x .outgoing labels ++ g.incident x .incoming labels := rfl
  have hout : (g.incident x .outgoing labels).filterMap (fun id =>
      (g.edges.get? id).map (·.farEnd x .both)) = g.adjacent .outgoing labels x := by
    refine List.filterMap_congr fun id hid => ?_
    obtain ⟨e, he, hsource, -⟩ := mem_edgesWhere_iff.mp (houtgoing ▸ hid)
    rw [Table.get?_eq_some_iff.mpr he]
    exact congrArg some (if_pos (beq_iff_eq.mp hsource))
  have hin : (g.incident x .incoming labels).filterMap (fun id =>
      (g.edges.get? id).map (·.farEnd x .both)) = g.adjacent .incoming labels x := by
    refine List.filterMap_congr fun id hid => ?_
    obtain ⟨e, he, htarget, -⟩ := mem_edgesWhere_iff.mp (hincoming ▸ hid)
    rw [Table.get?_eq_some_iff.mpr he]
    refine congrArg some ?_
    change (if e.source = x then e.target else e.source) = e.source
    split
    · rename_i hsource
      exact (beq_iff_eq.mp htarget).trans hsource.symm
    · rfl
  rw [Graph.adjacent, hincident, List.filterMap_append, hout, hin]

theorem walkIds_both (target : WalkTarget) (x : Nat) :
    g.walkIds .both labels x target
      = g.walkIds .outgoing labels x target ++ g.walkIds .incoming labels x target := by
  cases target with
  | edges => rfl
  | vertices => exact adjacent_both x

theorem count_edgesWhere {e : EdgeRecord} (condition : EdgeRecord → Bool)
    (he : (id, e) ∈ g.edges.rows) (hlabel : (labels.isEmpty || labels.contains e.label) = true) :
    (g.edgesWhere labels condition).count id = if condition e then 1 else 0 := by
  have hnodup : (g.edgesWhere labels condition).Nodup :=
    g.edges.nodup_keys.sublist (List.filter_sublist.map _)
  rw [hnodup.count]
  refine if_congr ?_ rfl rfl
  rw [mem_edgesWhere_iff]
  constructor
  · rintro ⟨e', he', hcondition, -⟩
    cases (Table.get?_eq_some_iff.mpr he).symm.trans (Table.get?_eq_some_iff.mpr he')
    exact hcondition
  · intro hcondition
    exact ⟨e, he, hcondition, hlabel⟩

end Walks

/-- The walks of a graph over edges with given labels agree with each other. -/
structure Graph.WalksCohere (g : Graph) (labels : List String) : Prop where
  /-- Vertices refuse no walk. -/
  succeeds : ∀ (access : Access) (direction : Direction) (target : WalkTarget)
    (input : List Traverser) (scope : Bindings), (∀ t ∈ input, t.item.kind? = some .vertex) →
      ∃ out, (evaluateSteps access [.traverse direction labels target] input scope).run g
        = (.ok out, g)
  outgoing : ∀ (access : Access) (input : List Traverser) (scope : Bindings),
    (evaluateSteps access [.traverse .outgoing labels .vertices] input scope).run g
      = (evaluateSteps access [.traverse .outgoing labels .edges, .edgeVertex .incoming] input
          scope).run g
  incoming : ∀ (access : Access) (input : List Traverser) (scope : Bindings),
    (evaluateSteps access [.traverse .incoming labels .vertices] input scope).run g
      = (evaluateSteps access [.traverse .incoming labels .edges, .edgeVertex .outgoing] input
          scope).run g
  both : ∀ (target : WalkTarget) (x : Nat), ∃ outs ins,
    g.Walks .outgoing labels target x outs ∧ g.Walks .incoming labels target x ins ∧
      g.Walks .both labels target x (outs ++ ins)
  /-- An edge is reached both ways once for each of its ends at the vertex. -/
  ends : ∀ x ids, g.Walks .both labels .edges x ids → ∀ id e, (id, e) ∈ g.edges.rows →
    (labels.isEmpty || labels.contains e.label) = true →
      ids.count id = (if e.source = x then 1 else 0) + if e.target = x then 1 else 0
  /-- The far end of a loop is reached both ways twice. -/
  loops : ∀ x ids, g.Walks .both labels .vertices x ids →
    ids.count x = 2 * g.edgesBetween labels x x
  converse : ∀ x y outs ins, g.Walks .outgoing labels .vertices x outs →
    g.Walks .incoming labels .vertices y ins → outs.count y = ins.count x

theorem walks_cohere (g : Graph) (labels : List String) : g.WalksCohere labels where
  succeeds access direction target input scope hinput := by
    rw [run_look rfl]
    cases hlook : g.look scope input (.traverse direction labels target) with
    | ok out => exact ⟨out, rfl⟩
    | error e =>
        obtain ⟨t, ht, hwalk⟩ := exists_of_expand_eq_error hlook
        obtain ⟨x, hx⟩ := exists_of_kind?_eq_some (hinput t ht)
        rw [hx, walk_eq_ok] at hwalk
        cases hwalk
  outgoing access input scope :=
    (run_walk_through_edges (by decide : Direction.outgoing ≠ .both) access input scope).symm
  incoming access input scope :=
    (run_walk_through_edges (by decide : Direction.incoming ≠ .both) access input scope).symm
  both target x :=
    ⟨_, _, walks_iff.mpr rfl, walks_iff.mpr rfl, walks_iff.mpr (walkIds_both target x).symm⟩
  ends x ids hids id e he hlabel := by
    have hboth : g.walkIds .both labels x .edges
        = g.edgesWhere labels (·.source == x) ++ g.edgesWhere labels (·.target == x) := rfl
    rw [walks_iff.mp hids, hboth, List.count_append, count_edgesWhere _ he hlabel,
      count_edgesWhere _ he hlabel]
    simp only [beq_iff_eq]
  loops x ids hids := by
    have hboth : g.adjacent .both labels x = _ := adjacent_both x
    rw [walks_iff.mp hids, Graph.walkIds, hboth, List.count_append, count_adjacent_outgoing,
      count_adjacent_incoming, Nat.two_mul]
  converse x y outs ins houts hins := by
    rw [walks_iff.mp houts, walks_iff.mp hins, Graph.walkIds, Graph.walkIds,
      count_adjacent_outgoing, count_adjacent_incoming]

end PropertyGraph
