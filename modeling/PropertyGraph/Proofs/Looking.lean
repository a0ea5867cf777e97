import PropertyGraph.Proofs.Evaluation

/-!
# What looking leads to and where it fails

Most steps look at the graph without changing it. `of_mem_look` says for all of them at once where a
traverser behind such a step comes from: it was there before, or its item has been reached from the graph
or made up as a constant, and then its bindings are those of a traverser before the step or of the scope.
`of_look_eq_error` says what such a step fails for, which is an item that it cannot handle or a reference
that nothing binds. The analyses of the engine use these two instead of the steps themselves.
-/

namespace PropertyGraph

section Except

variable {ε α β : Type}

theorem exists_of_bind_eq_ok {m : Except ε α} {f : α → Except ε β} {b : β}
    (h : (m >>= f) = .ok b) : ∃ a, m = .ok a ∧ f a = .ok b := by
  cases m with
  | error e => cases h
  | ok a => exact ⟨a, rfl, h⟩

theorem of_bind_eq_error {m : Except ε α} {f : α → Except ε β} {e : ε}
    (h : (m >>= f) = .error e) : m = .error e ∨ ∃ a, m = .ok a ∧ f a = .error e := by
  cases m with
  | error e' =>
      cases h
      exact .inl rfl
  | ok a => exact .inr ⟨a, rfl, h⟩

theorem exists_of_map_eq_ok {m : Except ε α} {f : α → β} {b : β} (h : m.map f = .ok b) :
    ∃ a, m = .ok a ∧ b = f a := by
  cases m with
  | error e => cases h
  | ok a =>
      cases h
      exact ⟨a, rfl, rfl⟩

theorem eq_error_of_map_eq_error {m : Except ε α} {f : α → β} {e : ε} (h : m.map f = .error e) :
    m = .error e := by
  cases m with
  | error e' =>
      cases h
      rfl
  | ok a => cases h

/-- A result, unless something is at fault. -/
def unlessFault (fault : Option ε) (a : α) : Except ε α :=
  match fault with
  | some e => .error e
  | none => .ok a

theorem unlessFault_eq_ok_iff {fault : Option ε} {a b : α} :
    unlessFault fault a = .ok b ↔ fault = none ∧ b = a := by
  cases fault <;> simp [unlessFault, eq_comm]

theorem unlessFault_eq_error_iff {fault : Option ε} {a : α} {e : ε} :
    unlessFault fault a = .error e ↔ fault = some e := by
  cases fault <;> simp [unlessFault]

theorem of_mapM_eq_ok {f : α → Except ε β} {xs : List α} {ys : List β} (h : xs.mapM f = .ok ys) :
    ys.length = xs.length ∧ ∀ y ∈ ys, ∃ x ∈ xs, f x = .ok y := by
  induction xs generalizing ys with
  | nil =>
      cases h
      exact ⟨rfl, by simp⟩
  | cons x xs ih =>
      rw [List.mapM_cons] at h
      obtain ⟨y, hx, h⟩ := exists_of_bind_eq_ok h
      obtain ⟨ys', hxs, h⟩ := exists_of_bind_eq_ok h
      cases h
      obtain ⟨hlength, hall⟩ := ih hxs
      refine ⟨by simp [hlength], fun z hz => ?_⟩
      rcases List.mem_cons.mp hz with rfl | hz
      · exact ⟨x, by simp, hx⟩
      · obtain ⟨x', hx', hz⟩ := hall z hz
        exact ⟨x', by simp [hx'], hz⟩

theorem exists_of_mapM_eq_ok {f : α → Except ε β} {xs : List α} {ys : List β} {x : α}
    (h : xs.mapM f = .ok ys) (hx : x ∈ xs) : ∃ y, f x = .ok y := by
  induction xs generalizing ys with
  | nil => cases hx
  | cons first xs ih =>
      rw [List.mapM_cons] at h
      obtain ⟨y, hfirst, h⟩ := exists_of_bind_eq_ok h
      obtain ⟨others, hothers, -⟩ := exists_of_bind_eq_ok h
      rcases List.mem_cons.mp hx with rfl | hx
      · exact ⟨y, hfirst⟩
      · exact ih hothers hx

theorem exists_of_mapM_eq_error {f : α → Except ε β} {xs : List α} {e : ε}
    (h : xs.mapM f = .error e) : ∃ x ∈ xs, f x = .error e := by
  induction xs with
  | nil => cases h
  | cons x xs ih =>
      rw [List.mapM_cons] at h
      rcases of_bind_eq_error h with hx | ⟨y, -, h⟩
      · exact ⟨x, by simp, hx⟩
      · rcases of_bind_eq_error h with hxs | ⟨ys, -, h⟩
        · obtain ⟨z, hz, hfz⟩ := ih hxs
          exact ⟨z, by simp [hz], hfz⟩
        · cases h

end Except

section Traversers

variable {derive : Item → Except EngineError (List Item)} {input out : List Traverser}

theorem parts_of_expand_eq_ok (h : expand derive input = .ok out) :
    ∃ parts : List (List Traverser), out = parts.flatten ∧ parts.length = input.length ∧
      ∀ part ∈ parts, ∃ t ∈ input, ∃ items,
        derive t.item = .ok items ∧ part = items.map t.withItem := by
  obtain ⟨parts, hparts, h⟩ := exists_of_bind_eq_ok h
  cases h
  obtain ⟨hlength, hall⟩ := of_mapM_eq_ok hparts
  refine ⟨parts, rfl, hlength, fun part hpart => ?_⟩
  obtain ⟨t, ht, hmap⟩ := hall part hpart
  exact ⟨t, ht, exists_of_map_eq_ok hmap⟩

theorem exists_of_expand_eq_error {e : EngineError} (h : expand derive input = .error e) :
    ∃ t ∈ input, derive t.item = .error e := by
  rcases of_bind_eq_error h with hparts | ⟨parts, -, h⟩
  · obtain ⟨t, ht, hmap⟩ := exists_of_mapM_eq_error hparts
    exact ⟨t, ht, eq_error_of_map_eq_error hmap⟩
  · cases h

theorem exists_of_mem_expand {t' : Traverser} (h : expand derive input = .ok out) (ht' : t' ∈ out) :
    ∃ t ∈ input, ∃ items, derive t.item = .ok items ∧
      t'.item ∈ items ∧ t'.bindings = t.bindings := by
  obtain ⟨parts, rfl, -, hparts⟩ := parts_of_expand_eq_ok h
  obtain ⟨part, hpart, ht'⟩ := List.mem_flatten.mp ht'
  obtain ⟨t, ht, items, hitems, rfl⟩ := hparts part hpart
  obtain ⟨item, hitem, rfl⟩ := List.mem_map.mp ht'
  exact ⟨t, ht, items, hitems, hitem, rfl⟩

theorem sublist_of_satisfying_eq_ok {g : Graph} {predicate : Predicate BoundName}
    (h : g.satisfying predicate input = .ok out) : out.Sublist input := by
  induction input generalizing out with
  | nil =>
      cases h
      exact .slnil
  | cons t rest ih =>
      obtain ⟨b, -, h⟩ := exists_of_bind_eq_ok h
      obtain ⟨out', hrest, h⟩ := exists_of_bind_eq_ok h
      cases b with
      | true =>
          cases h
          exact (ih hrest).cons_cons t
      | false =>
          cases h
          exact (ih hrest).cons t

theorem exists_of_satisfying_eq_error {g : Graph} {predicate : Predicate BoundName}
    {e : EngineError} (h : g.satisfying predicate input = .error e) :
    ∃ t ∈ input, predicate.holds g t = .error e := by
  induction input with
  | nil => cases h
  | cons t rest ih =>
      rcases of_bind_eq_error h with hholds | ⟨b, -, h⟩
      · exact ⟨t, by simp, hholds⟩
      · rcases of_bind_eq_error h with hrest | ⟨out', -, h⟩
        · obtain ⟨t', ht', hfails⟩ := ih hrest
          exact ⟨t', by simp [ht'], hfails⟩
        · cases h

theorem of_mem_injected {values : List Json} {scope : Bindings} {t' : Traverser}
    (h : t' ∈ injected values scope input) :
    t' ∈ input ∨ (∃ v, t'.item = .value v) ∧
      (t'.bindings = scope ∨ ∃ t ∈ input, t'.bindings = t.bindings) := by
  unfold injected at h
  split at h
  · obtain ⟨t, ht, ht'⟩ := List.mem_flatMap.mp h
    split at ht'
    · obtain ⟨v, -, rfl⟩ := List.mem_map.mp ht'
      exact .inr ⟨⟨v, rfl⟩, .inr ⟨t, ht, rfl⟩⟩
    · rw [List.mem_singleton] at ht'
      exact .inl (ht' ▸ ht)
  · rcases List.mem_append.mp h with hold | hnew
    · exact .inl hold
    · obtain ⟨v, -, rfl⟩ := List.mem_map.mp hnew
      refine .inr ⟨⟨v, rfl⟩, ?_⟩
      cases input with
      | nil => exact .inl rfl
      | cons t rest => exact .inr ⟨t, by simp, rfl⟩

theorem forall_mem_flatten {P : Traverser → Prop} {parts : List (List Traverser)}
    (h : ∀ part ∈ parts, ∀ t ∈ part, P t) : ∀ t ∈ parts.flatten, P t := by
  intro t ht
  obtain ⟨part, hpart, ht⟩ := List.mem_flatten.mp ht
  exact h part hpart t ht

end Traversers

/-! ### Where traversers come from

What a step that looks leads to is in the graph already, or it is an endpoint of an edge that is. The endpoint
need not be there itself, so the two are told apart. -/

namespace Step

mutual
/-- The kind of the items after a step, given the kind of those before it. Without a kind, nothing is
known of the items. -/
def kindAfter (kind : Option ElementKind) : Step → Option ElementKind
  | selectAll selected | selectById selected _ => some selected
  | typeFilter _ | update _ | filter _ | limit _ => kind
  | addVertex _ _ | edgeVertex _ | traverse _ _ .vertices => some .vertex
  | addEdge _ _ _ _ | traverse _ _ .edges => some .edge
  | bind _ continuation => kindAfterAll kind continuation
  | inject _ | fold | project _ | drop => none
termination_by structural s => s
def kindAfterAll (kind : Option ElementKind) : List Step → Option ElementKind
  | [] => kind
  | step :: rest => kindAfterAll (kindAfter kind step) rest
termination_by structural s => s
end

end Step

theorem Table.mem_rows_of_get? {α : Type} {t : Table α} {key : Nat} {record : α}
    (h : t.get? key = some record) : (key, record) ∈ t.rows := by
  obtain ⟨before, after, hrows, -⟩ := List.lookup_eq_some_iff.mp h
  rw [hrows]
  simp

theorem Table.mem_keys_of_contains {α : Type} {t : Table α} {key : Nat}
    (h : t.contains key = true) : key ∈ t.keys := by
  obtain ⟨record, hrecord⟩ := Option.isSome_iff_exists.mp h
  exact List.mem_map_of_mem (mem_rows_of_get? hrecord)

/-- An item of a kind that looking at a graph can lead to. -/
inductive Reached (g : Graph) : Option ElementKind → Item → Prop
  | present {kind : ElementKind} {id : Nat} : id ∈ g.ids kind → Reached g (some kind) (.element kind id)
  /-- An endpoint of an edge is reached even if it is not in the graph. -/
  | endpoint {id v : Nat} {e : EdgeRecord} : (id, e) ∈ g.edges.rows → v ∈ e.ends .both →
      Reached g (some .vertex) (.element .vertex v)
  | other {item : Item} : item.kind? = none → Reached g none item

section Reached

variable {g : Graph} {item : Item} {items : List Item}

theorem mem_ids_of_find? {kind : ElementKind} {elementId : ElementId} {id : Nat}
    (h : g.find? kind elementId = some id) : id ∈ g.ids kind := by
  unfold Graph.find? at h
  cases elementId with
  | str _ => cases h
  | int i =>
      obtain ⟨⟨-, hcontains⟩, rfl⟩ := Option.ite_some_none_eq_some.mp h
      cases kind with
      | vertex => exact Table.mem_keys_of_contains hcontains
      | edge => exact Table.mem_keys_of_contains hcontains

theorem mem_keys_of_incident {vertex id : Nat} {direction : Direction} {labels : List String}
    (h : id ∈ g.incident vertex direction labels) : id ∈ g.edges.keys := by
  have hwhere : ∀ condition, id ∈ g.edgesWhere labels condition → id ∈ g.edges.keys := by
    intro condition hid
    obtain ⟨row, hrow, rfl⟩ := List.mem_map.mp hid
    exact List.mem_map_of_mem (List.mem_filter.mp hrow).1
  cases direction with
  | outgoing => exact hwhere (·.source == vertex) h
  | incoming => exact hwhere (·.target == vertex) h
  | both =>
      rcases List.mem_append.mp h with hout | hin
      · exact hwhere _ hout
      · exact hwhere _ hin

theorem farEnd_mem_ends (e : EdgeRecord) (vertex : Nat) (direction : Direction) :
    e.farEnd vertex direction ∈ e.ends .both := by
  cases direction with
  | outgoing => simp [EdgeRecord.farEnd, EdgeRecord.ends]
  | incoming => simp [EdgeRecord.farEnd, EdgeRecord.ends]
  | both =>
      unfold EdgeRecord.farEnd
      dsimp only
      split <;> simp [EdgeRecord.ends]

theorem ends_subset (e : EdgeRecord) (direction : Direction) :
    e.ends direction ⊆ e.ends .both := by
  cases direction <;> simp [EdgeRecord.ends]

theorem reached_of_walk {direction : Direction} {labels : List String} {target : WalkTarget}
    (h : g.walk direction labels target item = .ok items) (kind : Option ElementKind) :
    ∀ item' ∈ items, Reached g ((Step.traverse direction labels target).kindAfter kind) item' := by
  obtain ⟨vertex, -, h⟩ := exists_of_bind_eq_ok h
  intro item' hitem'
  cases target with
  | edges =>
      cases h
      obtain ⟨id, hid, rfl⟩ := List.mem_map.mp hitem'
      exact .present (mem_keys_of_incident hid)
  | vertices =>
      cases h
      obtain ⟨id, -, hfar⟩ := List.mem_filterMap.mp hitem'
      obtain ⟨e, he, rfl⟩ := Option.map_eq_some_iff.mp hfar
      exact .endpoint (Table.mem_rows_of_get? he) (farEnd_mem_ends e vertex direction)

theorem reached_of_endpoints {direction : Direction} (h : g.endpoints direction item = .ok items) :
    ∀ item' ∈ items, Reached g (some .vertex) item' := by
  unfold Graph.endpoints at h
  split at h
  · cases h
    intro item' hitem'
    cases hedge : g.edges.get? _ with
    | none =>
        rw [hedge] at hitem'
        cases hitem'
    | some e =>
        rw [hedge] at hitem'
        obtain ⟨id, hid, rfl⟩ := List.mem_map.mp hitem'
        exact .endpoint (Table.mem_rows_of_get? hedge) (ends_subset e direction hid)
  · cases h

theorem reached_of_projected {projection : Projection} (hcount : projection ≠ .count)
    (h : g.projected projection item = .ok items) : ∀ item' ∈ items, Reached g none item' := by
  intro item' hitem'
  unfold Graph.projected at h
  split at h <;> cases h
  · rw [List.mem_singleton.mp hitem']
    exact .other rfl
  · obtain ⟨label, -, rfl⟩ := Option.map_eq_some_iff.mp (Option.mem_toList.mp hitem')
    exact .other rfl
  · obtain ⟨value, -, rfl⟩ := Option.map_eq_some_iff.mp (Option.mem_toList.mp hitem')
    exact .other rfl
  · exact absurd rfl hcount

end Reached

def Succeeds (g : Graph) (scope : Bindings) (input : List Traverser) (step : Step) (t' : Traverser) :
    Prop :=
  (∀ kind, Reached g (step.kindAfter kind) t'.item) ∧
    (t'.bindings = scope ∨ ∃ t ∈ input, t'.bindings = t.bindings)

theorem succeeds_of_mem_expand {g : Graph} {scope : Bindings} {step : Step}
    {derive : Item → Except EngineError (List Item)} {input out : List Traverser} {t' : Traverser}
    (hout : expand derive input = .ok out) (ht' : t' ∈ out)
    (hderive : ∀ item items, derive item = .ok items →
      ∀ item' ∈ items, ∀ kind, Reached g (step.kindAfter kind) item') :
    Succeeds g scope input step t' := by
  obtain ⟨t, ht, items, hitems, hmem, hbindings⟩ := exists_of_mem_expand hout ht'
  exact ⟨hderive t.item items hitems t'.item hmem, .inr ⟨t, ht, hbindings⟩⟩

/-- A traverser behind a step that looks was there before and is of the kind it was, or it succeeds the
ones before. -/
theorem of_mem_look {g : Graph} {scope : Bindings} {input out : List Traverser} {step : Step}
    {t' : Traverser} (hlooks : step.looks = true) (hout : g.look scope input step = .ok out)
    (ht' : t' ∈ out) :
    (t' ∈ input ∧ ∀ kind known, step.kindAfter kind = some known → kind = some known) ∨
      Succeeds g scope input step t' := by
  unfold Graph.look at hout
  cases step with
  | selectAll selected =>
      refine .inr (succeeds_of_mem_expand hout ht' fun _ items hitems item' hitem' _ => ?_)
      cases hitems
      obtain ⟨id, hid, rfl⟩ := List.mem_map.mp hitem'
      exact .present hid
  | selectById selected ids =>
      refine .inr (succeeds_of_mem_expand hout ht' fun _ items hitems item' hitem' _ => ?_)
      cases hitems
      obtain ⟨id, hid, rfl⟩ := List.mem_map.mp hitem'
      obtain ⟨elementId, -, hfind⟩ := List.mem_filterMap.mp hid
      exact .present (mem_ids_of_find? hfind)
  | typeFilter labels =>
      cases hout
      exact .inl ⟨List.mem_of_mem_filter ht', fun _ _ h => h⟩
  | traverse direction labels target =>
      exact .inr (succeeds_of_mem_expand hout ht' fun _ _ hitems item' hitem' kind =>
        reached_of_walk hitems kind item' hitem')
  | edgeVertex direction =>
      exact .inr (succeeds_of_mem_expand hout ht' fun _ _ hitems item' hitem' _ =>
        reached_of_endpoints hitems item' hitem')
  | filter predicate =>
      exact .inl ⟨(sublist_of_satisfying_eq_ok hout).subset ht', fun _ _ h => h⟩
  | inject values =>
      cases hout
      rcases of_mem_injected ht' with hold | ⟨⟨v, hv⟩, hbindings⟩
      · exact .inl ⟨hold, fun _ _ h => nomatch h⟩
      · exact .inr ⟨fun _ => .other (by rw [hv]; rfl), hbindings⟩
  | fold =>
      cases hout
      rw [List.mem_singleton.mp ht']
      exact .inr ⟨fun _ => .other rfl, .inl rfl⟩
  | project projection =>
      cases projection with
      | count =>
          cases hout
          rw [List.mem_singleton.mp ht']
          exact .inr ⟨fun _ => .other rfl, .inl rfl⟩
      | id | label | values _ =>
          exact .inr (succeeds_of_mem_expand hout ht' fun _ _ hitems item' hitem' _ =>
            reached_of_projected Projection.noConfusion hitems item' hitem')
  | limit count =>
      cases hout
      exact .inl ⟨List.mem_of_mem_take ht', fun _ _ h => h⟩
  | addVertex _ _ | addEdge _ _ _ _ | update _ | bind _ _ | drop => cases hlooks

/-! ### Failures -/

namespace Predicate

theorem of_testHolds_eq_error {bindings : Bindings} {test : Test BoundName} {item : Item}
    {e : EngineError} (h : test.holds bindings item = .error e) :
    ∃ name ∈ test.references, e = .unknownBinding name ∧ bindings.lookup name = none := by
  obtain ⟨comparison, operand⟩ := test
  cases operand with
  | constant v => cases h
  | bound name =>
      refine ⟨name, by simp [Test.references], ?_⟩
      cases hlookup : bindings.lookup name with
      | some bound => simp [Test.holds, Operand.item, hlookup, Except.map] at h
      | none =>
          simp only [Test.holds, Operand.item, hlookup, Except.map] at h
          cases h
          exact ⟨rfl, rfl⟩

mutual
/-- A predicate fails only for one of its references that nothing binds. -/
theorem of_holds_eq_error {g : Graph} {t : Traverser} {e : EngineError} :
    ∀ p : Predicate BoundName, p.holds g t = .error e →
      ∃ name ∈ p.references, e = .unknownBinding name ∧ t.bindings.lookup name = none
  | .has key test, h => by
      simp only [holds] at h
      split at h
      · exact of_testHolds_eq_error h
      · cases h
  | .is test, h => of_testHolds_eq_error h
  | .conj operands, h => of_allHold_eq_error operands h
  | .disj operands, h => of_anyHolds_eq_error operands h
  | .neg operand, h => by
      simp only [holds] at h
      exact of_holds_eq_error operand (eq_error_of_map_eq_error h)
termination_by structural p => p
theorem of_allHold_eq_error {g : Graph} {t : Traverser} {e : EngineError} :
    ∀ ps : List (Predicate BoundName), allHold g t ps = .error e →
      ∃ name ∈ referencesOfAll ps, e = .unknownBinding name ∧ t.bindings.lookup name = none
  | [], h => by cases h
  | p :: rest, h => by
      rw [allHold] at h
      rcases of_bind_eq_error h with hp | ⟨b, -, h⟩
      · obtain ⟨name, hname, hfails⟩ := of_holds_eq_error p hp
        exact ⟨name, by simp [referencesOfAll, hname], hfails⟩
      · cases b with
        | false => cases h
        | true =>
            obtain ⟨name, hname, hfails⟩ := of_allHold_eq_error rest h
            exact ⟨name, by simp [referencesOfAll, hname], hfails⟩
termination_by structural ps => ps
theorem of_anyHolds_eq_error {g : Graph} {t : Traverser} {e : EngineError} :
    ∀ ps : List (Predicate BoundName), anyHolds g t ps = .error e →
      ∃ name ∈ referencesOfAll ps, e = .unknownBinding name ∧ t.bindings.lookup name = none
  | [], h => by cases h
  | p :: rest, h => by
      rw [anyHolds] at h
      rcases of_bind_eq_error h with hp | ⟨b, -, h⟩
      · obtain ⟨name, hname, hfails⟩ := of_holds_eq_error p hp
        exact ⟨name, by simp [referencesOfAll, hname], hfails⟩
      · cases b with
        | true => cases h
        | false =>
            obtain ⟨name, hname, hfails⟩ := of_anyHolds_eq_error rest h
            exact ⟨name, by simp [referencesOfAll, hname], hfails⟩
termination_by structural ps => ps
end

end Predicate

/-- Whether a step can handle items of a kind. Items of no known kind are not elements. -/
def Step.accepts : Step → Option ElementKind → Bool
  | addEdge _ _ _ _, kind | traverse _ _ _, kind => kind == some .vertex
  | edgeVertex _, kind => kind == some .edge
  | project .count, _ => true
  | update _, kind | project _, kind => kind.isSome
  | _, _ => true

theorem eq_of_vertexFor_eq_ok {step : String} {item : Item} {id : Nat}
    (h : item.vertexFor step = .ok id) : item = .element .vertex id := by
  unfold Item.vertexFor at h
  split at h <;> cases h
  rfl

theorem of_vertexFor_eq_error {step : String} {item : Item} {e : EngineError}
    (h : item.vertexFor step = .error e) :
    item.kind? ≠ some .vertex ∧ e = .unsupportedInput step item.describe := by
  unfold Item.vertexFor at h
  split at h <;> cases h
  rename_i hitem
  refine ⟨fun hkind => ?_, rfl⟩
  cases item with
  | element kind id =>
      cases hkind
      exact hitem id rfl
  | root | value _ | list _ => cases hkind

theorem of_walk_eq_error {g : Graph} {direction : Direction} {labels : List String}
    {target : WalkTarget} {item : Item} {e : EngineError}
    (h : g.walk direction labels target item = .error e) :
    item.kind? ≠ some .vertex ∧ e = .unsupportedInput "traverse" item.describe := by
  rcases of_bind_eq_error h with hvertex | ⟨vertex, -, h⟩
  · exact of_vertexFor_eq_error hvertex
  · cases target <;> cases h

theorem of_endpoints_eq_error {g : Graph} {direction : Direction} {item : Item} {e : EngineError}
    (h : g.endpoints direction item = .error e) :
    item.kind? ≠ some .edge ∧ e = .unsupportedInput "edgeVertex" item.describe := by
  unfold Graph.endpoints at h
  split at h <;> cases h
  rename_i hitem
  refine ⟨fun hkind => ?_, rfl⟩
  cases item with
  | element kind id =>
      cases hkind
      exact hitem id rfl
  | root | value _ | list _ => cases hkind

theorem of_projected_eq_error {g : Graph} {projection : Projection} {item : Item}
    {e : EngineError} (h : g.projected projection item = .error e) :
    (Step.project projection).accepts item.kind? = false ∧
      ∃ step, e = .unsupportedInput step item.describe := by
  cases projection <;> cases item <;> cases h <;> exact ⟨rfl, _, rfl⟩

/-- Looking fails for an item that a step cannot handle, or for a reference of a filter. -/
theorem of_look_eq_error {g : Graph} {scope : Bindings} {input : List Traverser} {step : Step}
    {e : EngineError} (h : g.look scope input step = .error e) :
    (∃ t ∈ input, step.accepts t.item.kind? = false ∧
      ∃ name, e = .unsupportedInput name t.item.describe) ∨
    ∃ predicate, step = .filter predicate ∧ ∃ t ∈ input, ∃ name ∈ predicate.references,
      e = .unknownBinding name ∧ t.bindings.lookup name = none := by
  unfold Graph.look at h
  cases step with
  | selectAll kind =>
      obtain ⟨t, -, ht⟩ := exists_of_expand_eq_error h
      cases ht
  | selectById kind ids =>
      obtain ⟨t, -, ht⟩ := exists_of_expand_eq_error h
      cases ht
  | traverse direction labels target =>
      obtain ⟨t, ht, hwalk⟩ := exists_of_expand_eq_error h
      obtain ⟨hkind, he⟩ := of_walk_eq_error hwalk
      exact .inl ⟨t, ht, beq_false_of_ne hkind, _, he⟩
  | edgeVertex direction =>
      obtain ⟨t, ht, hends⟩ := exists_of_expand_eq_error h
      obtain ⟨hkind, he⟩ := of_endpoints_eq_error hends
      exact .inl ⟨t, ht, beq_false_of_ne hkind, _, he⟩
  | filter predicate =>
      obtain ⟨t, ht, hfails⟩ := exists_of_satisfying_eq_error h
      exact .inr ⟨predicate, rfl, t, ht, Predicate.of_holds_eq_error predicate hfails⟩
  | project projection =>
      have hprojected : ∃ t ∈ input, g.projected projection t.item = .error e := by
        cases projection with
        | count => cases h
        | id | label | values _ => exact exists_of_expand_eq_error h
      obtain ⟨t, ht, hfails⟩ := hprojected
      obtain ⟨hkind, he⟩ := of_projected_eq_error hfails
      exact .inl ⟨t, ht, hkind, he⟩
  | typeFilter _ | inject _ | fold | limit _ | addVertex _ _ | addEdge _ _ _ _ | update _
  | bind _ _ | drop => cases h

end PropertyGraph
