import PropertyGraph.Proofs.Records
import PropertyGraph.Proofs.Turns

/-!
# What looking finds

Steps that look are functions of the graph and of the traversers before them, and what they find is told
here: what is named by an identifier, what is adjacent to a vertex, and which traversers a predicate
keeps. Together with the two rules for the evaluation of such steps this is enough to say what a query
results in.
-/

namespace PropertyGraph

section Evaluation

variable {access : Access} {g : Graph} {scope : Bindings}

theorem run_evaluateSteps_of_look {step : Step} {rest : List Step} {input out : List Traverser}
    (hlooks : step.looks = true) (h : g.look scope input step = .ok out) :
    (evaluateSteps access (step :: rest) input scope).run g
      = (evaluateSteps access rest out scope).run g := by
  have hstep : (evaluateStep access step input scope).run g = (.ok out, g) := by
    rw [evaluateStep_of_looks hlooks, run_read, h]
  exact run_bind_of_ok hstep

theorem run_evaluateSteps_of_bind {name : String} {continuation : List Step} (t : Traverser)
    (scope : Bindings) {out : List Traverser} {g' : Graph}
    (h : (evaluateSteps access continuation [⟨t.item, (name, t.item) :: t.bindings⟩]
      ((name, t.item) :: t.bindings)).run g = (.ok out, g')) :
    (evaluateSteps access [.bind name continuation] [t] scope).run g
      = (.ok (out.map fun r => t.withItem r.item), g') := by
  have hcontinue : (continueFrom access name continuation t).run g
      = (.ok (out.map fun r => t.withItem r.item), g') := run_bind_of_ok h
  have hparts : ([t].mapM (continueFrom access name continuation)).run g
      = (.ok [out.map fun r => t.withItem r.item], g') := by
    rw [List.mapM_cons, run_bind_of_ok hcontinue]
    rfl
  have hstep := run_bind_of_mapM_eq_ok scope hparts
  rw [List.flatten_singleton] at hstep
  exact run_bind_of_ok hstep

end Evaluation

namespace Predicate

variable {g : Graph} {t : Traverser} {operand : Item} {test : Test BoundName}

theorem testHolds_eq_ok (h : test.operand.item t.bindings = .ok operand) (item : Item) :
    test.holds t.bindings item = .ok (test.comparison.holds item operand) := by
  rw [Test.holds, h]
  rfl

theorem holds_is (h : test.operand.item t.bindings = .ok operand) :
    (is test).holds g t = .ok (test.comparison.holds t.item operand) := testHolds_eq_ok h t.item

theorem holds_has {key : String} (h : test.operand.item t.bindings = .ok operand) :
    (has key test).holds g t
      = .ok ((g.property? key t.item).any fun v => test.comparison.holds (.value v) operand) := by
  rw [holds]
  cases g.property? key t.item with
  | none => rfl
  | some v => exact testHolds_eq_ok h (.value v)

theorem holds_neg {p : Predicate BoundName} {b : Bool} (h : p.holds g t = .ok b) :
    (neg p).holds g t = .ok !b := by
  rw [holds, h]
  rfl

theorem allHold_cons {p : Predicate BoundName} {rest : List (Predicate BoundName)} {b all : Bool}
    (h : p.holds g t = .ok b) (hrest : allHold g t rest = .ok all) :
    allHold g t (p :: rest) = .ok (b && all) := by
  rw [allHold, h]
  cases b with
  | true => exact hrest
  | false => rfl

end Predicate

theorem Json.beq_str_iff {v : Json} {s : String} : (v == Json.str s) = true ↔ v = .str s := by
  cases v with
  | str s' =>
      have hbeq : (Json.str s' == Json.str s) = (s' == s) := rfl
      rw [hbeq, beq_iff_eq, Json.str.injEq]
  | null | bool _ | int _ | float _ | arr _ | obj _ =>
      constructor
      · intro h
        cases h
      · intro h
        cases h

/-- A text is the same as nothing but itself. -/
theorem Item.same_str_iff {v : Json} {s : String} :
    (Item.value v).same (.value (.str s)) = true ↔ v = .str s := by
  have hsame : (Item.value v).same (.value (.str s)) = (v == Json.str s) := by
    cases v <;> rfl
  rw [hsame, Json.beq_str_iff]

theorem Item.isWithin_strs_iff {v : Json} {texts : List String} :
    (Item.value v).isWithin (.list (texts.map fun s => .value (.str s))) = true
      ↔ ∃ s ∈ texts, v = .str s := by
  simp only [isWithin, members, List.any_map, List.any_eq_true, Function.comp_apply, same_str_iff]

/-- An element is among elements of lists just as an item is. -/
theorem Item.isWithin_elements_iff {kind : ElementKind} {id : Nat} {items : List Item}
    (h : ∀ item ∈ items, item.kind?.isSome) :
    (Item.element kind id).isWithin (.list items) = true ↔ .element kind id ∈ items := by
  rw [isWithin, members, List.any_eq_true]
  constructor
  · rintro ⟨item, hitem, hsame⟩
    obtain ⟨kind', hkind⟩ := Option.isSome_iff_exists.mp (h item hitem)
    obtain ⟨id', rfl⟩ := exists_of_kind?_eq_some hkind
    have hbeq : (kind == kind' && id == id') = true := hsame
    simp only [Bool.and_eq_true, beq_iff_eq] at hbeq
    rwa [hbeq.1, hbeq.2]
  · intro hitem
    have hbeq : (kind == kind && id == id) = true := by simp
    exact ⟨.element kind id, hitem, hbeq⟩

section Elements

variable {g : Graph} {kind : ElementKind} {id : Nat}

theorem contains_iff : g.contains kind id = true ↔ id ∈ g.ids kind := by
  cases kind with
  | vertex => exact Option.isSome_iff_exists.trans Table.mem_keys_iff.symm
  | edge => exact Option.isSome_iff_exists.trans Table.mem_keys_iff.symm

theorem find?_eq_some_iff {named : ElementId} :
    g.find? kind named = some id ↔ (∃ i : Int64, named = .int i ∧ i.toInt = id) ∧ id ∈ g.ids kind := by
  cases named with
  | str s => simp [Graph.find?]
  | int i =>
      simp only [Graph.find?, Option.ite_some_none_eq_some, contains_iff, ElementId.int.injEq,
        exists_eq_left']
      constructor
      · rintro ⟨⟨hnonneg, hid⟩, rfl⟩
        exact ⟨(Int.toNat_of_nonneg hnonneg).symm, hid⟩
      · rintro ⟨hi, hid⟩
        rw [hi]
        exact ⟨⟨Int.natCast_nonneg id, hid⟩, rfl⟩

theorem mem_edgesWhere_iff {labels : List String} {condition : EdgeRecord → Bool} :
    id ∈ g.edgesWhere labels condition ↔ ∃ e, (id, e) ∈ g.edges.rows ∧ condition e = true ∧
      (labels.isEmpty || labels.contains e.label) = true := by
  simp only [Graph.edgesWhere, List.mem_map, List.mem_filter, Bool.and_eq_true, Prod.exists]
  constructor
  · rintro ⟨_, e, he, rfl⟩
    exact ⟨e, he⟩
  · rintro ⟨e, he⟩
    exact ⟨id, e, he, rfl⟩

theorem mem_incident_both_iff {vertex : Nat} {labels : List String} :
    id ∈ g.incident vertex .both labels ↔ ∃ e, g.edges.get? id = some e ∧
      (e.source = vertex ∨ e.target = vertex) ∧
      (labels.isEmpty || labels.contains e.label) = true := by
  simp only [Graph.incident, List.mem_append, mem_edgesWhere_iff, beq_iff_eq,
    Table.get?_eq_some_iff]
  constructor
  · rintro (⟨e, he, hsource, hlabel⟩ | ⟨e, he, htarget, hlabel⟩)
    · exact ⟨e, he, .inl hsource, hlabel⟩
    · exact ⟨e, he, .inr htarget, hlabel⟩
  · rintro ⟨e, he, hsource | htarget, hlabel⟩
    · exact .inl ⟨e, he, hsource, hlabel⟩
    · exact .inr ⟨e, he, htarget, hlabel⟩

/-- An edge at a vertex leads to its other endpoint, which for a loop is the vertex itself. -/
theorem farEnd_both_iff {e : EdgeRecord} {vertex v : Nat} :
    (e.source = vertex ∨ e.target = vertex) ∧ e.farEnd vertex .both = v ↔
      e.source = vertex ∧ e.target = v ∨ e.source = v ∧ e.target = vertex := by
  have hfar : e.farEnd vertex .both = if e.source = vertex then e.target else e.source := rfl
  rw [hfar]
  split <;> omega

/-- The vertices that a walk leads to from a vertex, once for each edge. -/
def Graph.adjacent (g : Graph) (direction : Direction) (labels : List String) (vertex : Nat) :
    List Nat :=
  (g.incident vertex direction labels).filterMap fun id =>
    (g.edges.get? id).map (·.farEnd vertex direction)

theorem walk_vertices_eq_ok (g : Graph) (direction : Direction) (labels : List String)
    (vertex : Nat) :
    g.walk direction labels .vertices (.element .vertex vertex)
      = .ok ((g.adjacent direction labels vertex).map (.element .vertex)) := by
  simp only [Graph.adjacent, List.map_filterMap, Option.map_map]
  rfl

theorem mem_adjacent_both_iff {vertex v : Nat} {labels : List String} :
    v ∈ g.adjacent .both labels vertex ↔ ∃ id e, (id, e) ∈ g.edges.rows ∧
      (labels.isEmpty || labels.contains e.label) = true ∧
      (e.source = vertex ∧ e.target = v ∨ e.source = v ∧ e.target = vertex) := by
  simp only [Graph.adjacent, List.mem_filterMap, Option.map_eq_some_iff, mem_incident_both_iff,
    ← farEnd_both_iff, ← Table.get?_eq_some_iff]
  constructor
  · rintro ⟨id, ⟨e, he, hends, hlabel⟩, e', he', hfar⟩
    cases he.symm.trans he'
    exact ⟨id, e, he, hlabel, hends, hfar⟩
  · rintro ⟨id, e, he, hlabel, hends, hfar⟩
    exact ⟨id, ⟨e, he, hends, hlabel⟩, e, he, hfar⟩

theorem hasLabel_singleton_iff {label : String} :
    g.hasLabel [label] (.element kind id) = true ↔ g.label? kind id = some label := by
  simp [Graph.hasLabel, Option.any_eq_true]

end Elements

/-- The traverser moves on to elements of a kind. -/
def Traverser.spread (t : Traverser) (kind : ElementKind) (ids : List Nat) : List Traverser :=
  ids.map fun id => t.withItem (.element kind id)

section Spread

variable {g : Graph} {scope : Bindings} {t : Traverser} {kind : ElementKind} {ids : List Nat}

theorem map_withItem_spread (t' : Traverser) :
    (t.spread kind ids).map (fun r => t'.withItem r.item) = t'.spread kind ids := by
  rw [Traverser.spread, List.map_map]
  rfl

theorem expand_singleton (t : Traverser) (items : List Item) :
    expand (fun _ => .ok items) [t] = .ok (items.map t.withItem) := by
  have hparts : [t].mapM (fun t => (Except.ok items : Except EngineError (List Item)).map
      (·.map t.withItem)) = .ok [items.map t.withItem] := rfl
  rw [expand, hparts]
  exact congrArg Except.ok (List.flatten_singleton ..)

theorem mapM_eq_ok {ε α β : Type} {f : α → Except ε β} {result : α → β} {xs : List α}
    (h : ∀ x ∈ xs, f x = .ok (result x)) : xs.mapM f = .ok (xs.map result) := by
  induction xs with
  | nil => rfl
  | cons x rest ih =>
      have hrest := ih fun y hy => h y (List.mem_cons_of_mem x hy)
      rw [List.mapM_cons, h x List.mem_cons_self, hrest]
      rfl

theorem expand_spread {derive : Item → Except EngineError (List Item)} {reached : ElementKind}
    {next : Nat → List Nat}
    (h : ∀ id ∈ ids, derive (.element kind id) = .ok ((next id).map (.element reached))) :
    expand derive (t.spread kind ids) = .ok (t.spread reached (ids.flatMap next)) := by
  have hparts : (t.spread kind ids).mapM (fun t' => (derive t'.item).map (·.map t'.withItem))
      = .ok (ids.map fun id => t.spread reached (next id)) := by
    rw [Traverser.spread, List.mapM_map]
    refine mapM_eq_ok fun id hid => ?_
    have hderive : derive (t.withItem (.element kind id)).item
        = .ok ((next id).map (.element reached)) := h id hid
    rw [Function.comp, hderive, Traverser.spread, Except.map, List.map_map]
    rfl
  rw [expand, hparts, Traverser.spread, List.map_flatMap, List.flatMap_def]
  rfl

theorem look_selectAll (g : Graph) (scope : Bindings) (t : Traverser) (kind : ElementKind) :
    g.look scope [t] (.selectAll kind) = .ok (t.spread kind (g.ids kind)) := by
  rw [Graph.look, expand_singleton, List.map_map]
  rfl

theorem look_selectById (g : Graph) (scope : Bindings) (t : Traverser) (kind : ElementKind)
    (named : List ElementId) :
    g.look scope [t] (.selectById kind named)
      = .ok (t.spread kind (named.filterMap (g.find? kind))) := by
  rw [Graph.look, expand_singleton, List.map_map]
  rfl

theorem look_typeFilter (g : Graph) (scope : Bindings) (t : Traverser) (kind : ElementKind)
    (ids : List Nat) (labels : List String) :
    g.look scope (t.spread kind ids) (.typeFilter labels)
      = .ok (t.spread kind (ids.filter fun id => g.hasLabel labels (.element kind id))) := by
  rw [Graph.look, Traverser.spread, List.filter_map]
  rfl

theorem look_walk (g : Graph) (scope : Bindings) (t : Traverser) (ids : List Nat)
    (direction : Direction) (labels : List String) :
    g.look scope (t.spread .vertex ids) (.traverse direction labels .vertices)
      = .ok (t.spread .vertex (ids.flatMap (g.adjacent direction labels))) :=
  expand_spread fun vertex _ => walk_vertices_eq_ok g direction labels vertex

theorem look_filter {predicate : Predicate BoundName} {decided : Nat → Bool}
    (h : ∀ id ∈ ids, predicate.holds g (t.withItem (.element kind id)) = .ok (decided id)) :
    g.look scope (t.spread kind ids) (.filter predicate)
      = .ok (t.spread kind (ids.filter decided)) := by
  rw [Graph.look]
  induction ids with
  | nil => rfl
  | cons id rest ih =>
      have hrest := ih fun other hother => h other (List.mem_cons_of_mem id hother)
      have hspread : t.spread kind (id :: rest)
          = t.withItem (.element kind id) :: t.spread kind rest := rfl
      rw [hspread, Graph.satisfying, h id List.mem_cons_self, hrest, List.filter_cons]
      cases decided id <;> rfl

theorem look_fold (g : Graph) (scope : Bindings) (t : Traverser) (kind : ElementKind)
    (ids : List Nat) :
    g.look scope (t.spread kind ids) .fold = .ok [⟨.list (ids.map (.element kind)), scope⟩] := by
  have hreached : reached (t.spread kind ids) = ids.map (.element kind) := by
    simp [reached, Traverser.spread, Traverser.withItem, Item.isRoot, Function.comp_def]
  rw [Graph.look, hreached]

theorem injected_source (values : List Json) (scope bindings : Bindings) :
    injected values scope [⟨.root, bindings⟩] = values.map fun v => ⟨.value v, bindings⟩ := by
  simp [injected, Item.isRoot]

theorem reached_values (values : List Json) (bindings : Bindings) :
    reached (values.map fun v => ⟨.value v, bindings⟩) = values.map .value := by
  simp [reached, Item.isRoot, Function.comp_def]

end Spread

end PropertyGraph
