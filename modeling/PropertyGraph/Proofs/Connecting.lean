import PropertyGraph.Proofs.Fields
import PropertyGraph.Proofs.ReadOnly

/-!
# What adding edges does

A step that adds edges works for its traversers in turn. The selector of the other endpoint is evaluated in
the graph with the edges of the earlier traversers, and a selector that only reads has one outcome there:
it resolves to a vertex, or it fails to. `Joins` follows the traversers as long as their selectors resolve.
Either it gets to the end, or there is a first traverser whose selector does not resolve, and these are the
two ways in which the step ends.
-/

namespace PropertyGraph

theorem find?_setAll (properties : List Property) (members : Members) (key : String) :
    (Graph.setAll properties members).find? key
      = ((properties.reverse.find? (·.key == key)).map (·.value)).or (members.find? key) := by
  induction properties generalizing members with
  | nil => rfl
  | cons p rest ih =>
      have hstep : Graph.setAll (p :: rest) members
          = Graph.setAll rest (members.insert p.key p.value) := rfl
      rw [hstep, ih, Members.find?_insert, List.reverse_cons, List.find?_append]
      cases rest.reverse.find? (·.key == key) with
      | some later => rfl
      | none =>
          by_cases hkey : key = p.key
          · simp [hkey]
          · simp [hkey, Ne.symm hkey]

/-- A graph with one more edge, from the first to the second of its ends. -/
def Graph.joined (g : Graph) (label : String) (properties : List Property) (ends : Nat × Nat) : Graph :=
  (g.addEdge label properties ends.1 ends.2).2

/-- A graph has got edges with a label and properties between given ends, numbered in their order, and
nothing else. -/
structure Graph.Gains (g : Graph) (label : String) (properties : List Property)
    (ends : List (Nat × Nat)) (g' : Graph) : Prop where
  counter : g'.counter = g.counter + ends.length
  vertices : g'.vertices = g.vertices
  edges : g'.edges.rows = g.edges.rows ++ ends.mapIdx fun i (source, target) =>
    (g.counter + 1 + i, ⟨label, setAll properties [], source, target⟩)

/-- The only traverser that a selector ends in is at the chosen vertex. -/
def Graph.Resolves (g : Graph) (selector : List Step) (t : Traverser) (chosen : Nat) : Prop :=
  ∃ bindings, (evaluateSteps .write selector [t] t.bindings).run g
    = (.ok [⟨.element .vertex chosen, bindings⟩], g)

/-- A selector fails, or does not end in exactly one traverser, or that one is not at a vertex. -/
inductive Graph.FailsToResolve (g : Graph) (label : String) (selector : List Step) (t : Traverser) :
    EngineError → Prop
  | selector {e : EngineError} : (evaluateSteps .write selector [t] t.bindings).run g = (.error e, g) →
      FailsToResolve g label selector t e
  | number {found : List Traverser} :
      (evaluateSteps .write selector [t] t.bindings).run g = (.ok found, g) → found.length ≠ 1 →
      FailsToResolve g label selector t (.endpoint label found.length)
  | item {only : Traverser} : (evaluateSteps .write selector [t] t.bindings).run g = (.ok [only], g) →
      only.item.kind? ≠ some .vertex →
      FailsToResolve g label selector t (.unsupportedInput "addEdge" only.item.describe)

section Joining

variable {edgeEnd : EdgeEnd} {selector : List Step} {label : String} {properties : List Property}

variable (edgeEnd selector label properties) in
/-- Each traverser is at a vertex and its selector resolves to one, in the graph that has got the edges of the
traversers before. The ends of the edges are source and target, in this order. -/
inductive Joins : Graph → List Traverser → List (Nat × Nat) → Graph → Prop
  | nil {g : Graph} : Joins g [] [] g
  | cons {g g' : Graph} {t : Traverser} {rest : List Traverser} {ends : List (Nat × Nat)}
      {current chosen : Nat} : t.item = .element .vertex current → g.Resolves selector t chosen →
      Joins (g.joined label properties (edgeEnd.join current chosen)) rest ends g' →
      Joins g (t :: rest) (edgeEnd.join current chosen :: ends) g'

/-- What is numbered past a counter, of which the first takes one number. -/
theorem mapIdx_past_cons {α β : Type} (f : Nat → α → β) (counter : Nat) (x : α) (rest : List α) :
    (x :: rest).mapIdx (fun i => f (counter + 1 + i))
      = f (counter + 1) x :: rest.mapIdx fun i => f (counter + 1 + 1 + i) := by
  rw [List.mapIdx_cons]
  congr 2
  funext i
  rw [Nat.add_right_comm (counter + 1) 1 i, Nat.add_assoc (counter + 1) i 1]

theorem Joins.gains {g g' : Graph} {input : List Traverser} {ends : List (Nat × Nat)}
    (h : Joins edgeEnd selector label properties g input ends g') :
    g.Gains label properties ends g' := by
  induction h with
  | nil => exact ⟨rfl, rfl, (List.append_nil _).symm⟩
  | @cons g g' t rest ends current chosen _ _ _ ih =>
      refine ⟨?_, ih.vertices, ?_⟩
      · calc g'.counter = g.counter + 1 + ends.length := ih.counter
          _ = g.counter + (ends.length + 1) := Nat.add_right_comm ..
      · have hrows (first : Nat × Nat) : (g.joined label properties first).edges.rows
            = g.edges.rows ++ [(g.counter + 1, ⟨label, Graph.setAll properties [], first.1, first.2⟩)] := rfl
        rw [ih.edges, hrows, List.append_assoc]
        exact congrArg (g.edges.rows ++ ·) (mapIdx_past_cons (fun n (ends : Nat × Nat) =>
          (n, (⟨label, Graph.setAll properties [], ends.1, ends.2⟩ : EdgeRecord))) g.counter _ ends).symm

variable {source target : Option (List Step)} {g g' : Graph} {t : Traverser} {current : Nat}

theorem run_connect_of_resolves (honly : Step.onlySelector? source target = some (edgeEnd, selector))
    (hitem : t.item = .element .vertex current) {chosen : Nat} (h : g.Resolves selector t chosen) :
    (connect .write label properties source target t).run g
      = (.ok (t.withItem (.element .edge (g.counter + 1))),
        g.joined label properties (edgeEnd.join current chosen)) := by
  obtain ⟨bindings, hrun⟩ := h
  rw [run_connect_of_vertex hitem, honly]
  exact run_bind_of_ok hrun

theorem run_connect_of_failsToResolve
    (honly : Step.onlySelector? source target = some (edgeEnd, selector))
    (hitem : t.item = .element .vertex current) {e : EngineError}
    (h : g.FailsToResolve label selector t e) :
    (connect .write label properties source target t).run g = (.error e, g) := by
  rw [run_connect_of_vertex hitem, honly]
  cases h with
  | selector hrun => exact run_bind_of_error hrun
  | @number found hrun hlength =>
      have hchosen : chosenVertex label found = .error (.endpoint label found.length) := by
        match found with
        | [] | _ :: _ :: _ => rfl
        | [_] => exact absurd rfl hlength
      refine (run_bind_of_ok hrun).trans (run_bind_of_error ?_)
      rw [run_read, hchosen]
  | @item only hrun hkind =>
      have hchosen : chosenVertex label [only]
          = .error (.unsupportedInput "addEdge" only.item.describe) := by
        cases hvertex : only.item.vertexFor "addEdge" with
        | ok chosen =>
            rw [eq_of_vertexFor_eq_ok hvertex] at hkind
            exact absurd rfl hkind
        | error e => rw [chosenVertex, hvertex, (of_vertexFor_eq_error hvertex).2]
      refine (run_bind_of_ok hrun).trans (run_bind_of_error ?_)
      rw [run_read, hchosen]

/-- A selector that only reads resolves to a vertex or fails to. -/
theorem resolves_or_fails (hreads : Step.anyMutates selector = false) (g : Graph) (label : String)
    (t : Traverser) :
    (∃ chosen, g.Resolves selector t chosen) ∨ ∃ e, g.FailsToResolve label selector t e := by
  obtain ⟨result, hrun, -⟩ := stepsOnlyRead.holdsOfAll selector hreads [t] t.bindings g
  match result with
  | .error e => exact .inr ⟨e, .selector (hrun .write)⟩
  | .ok [only] =>
      by_cases hkind : only.item.kind? = some .vertex
      · obtain ⟨chosen, hitem⟩ := exists_of_kind?_eq_some hkind
        obtain ⟨item, bindings⟩ := only
        cases hitem
        exact .inl ⟨chosen, bindings, hrun .write⟩
      · exact .inr ⟨_, .item (hrun .write) hkind⟩
  | .ok [] => exact .inr ⟨_, .number (hrun .write) (by simp)⟩
  | .ok (_ :: _ :: _) => exact .inr ⟨_, .number (hrun .write) (by simp)⟩

theorem run_mapM_connect (honly : Step.onlySelector? source target = some (edgeEnd, selector))
    {input : List Traverser} {ends : List (Nat × Nat)}
    (h : Joins edgeEnd selector label properties g input ends g') :
    (input.mapM (connect .write label properties source target)).run g
      = (.ok (input.mapIdx fun i t => ⟨.element .edge (g.counter + 1 + i), t.bindings⟩), g') := by
  induction h with
  | nil => rfl
  | @cons g g' t rest ends current chosen hitem hresolves _ ih =>
      rw [List.mapM_cons, run_bind_of_ok (run_connect_of_resolves honly hitem hresolves),
        run_bind_of_ok ih, mapIdx_past_cons fun n (t : Traverser) => (⟨.element .edge n, t.bindings⟩ : Traverser)]
      rfl

/-- Either all selectors resolve, or there is a first one that fails to. -/
theorem joins_or_fails (edgeEnd : EdgeEnd) (label : String) (properties : List Property)
    (hreads : Step.anyMutates selector = false) {input : List Traverser}
    (hinput : ∀ t ∈ input, ∃ current, t.item = .element .vertex current) (g : Graph) :
    (∃ ends g', Joins edgeEnd selector label properties g input ends g') ∨
      ∃ earlier t later ends g' e, input = earlier ++ t :: later ∧
        Joins edgeEnd selector label properties g earlier ends g' ∧
        g'.FailsToResolve label selector t e := by
  induction input generalizing g with
  | nil => exact .inl ⟨[], g, .nil⟩
  | cons t rest ih =>
      obtain ⟨⟨current, hitem⟩, hrest⟩ := List.forall_mem_cons.mp hinput
      rcases resolves_or_fails hreads g label t with ⟨chosen, hresolves⟩ | ⟨e, hfails⟩
      · rcases ih hrest (g.joined label properties (edgeEnd.join current chosen)) with
          ⟨ends, g', hjoins⟩ | ⟨earlier, failing, later, ends, g', e, heq, hjoins, hfails⟩
        · exact .inl ⟨_, g', .cons hitem hresolves hjoins⟩
        · refine .inr ⟨t :: earlier, failing, later, _, g', e, ?_, .cons hitem hresolves hjoins, hfails⟩
          rw [heq, List.cons_append]
      · exact .inr ⟨[], t, rest, [], g, e, rfl, .nil, hfails⟩

theorem run_mapM_connect_of_fails
    (honly : Step.onlySelector? source target = some (edgeEnd, selector))
    {earlier later : List Traverser} {ends : List (Nat × Nat)} {e : EngineError}
    (hjoins : Joins edgeEnd selector label properties g earlier ends g')
    (hitem : t.item = .element .vertex current) (hfails : g'.FailsToResolve label selector t e) :
    ((earlier ++ t :: later).mapM (connect .write label properties source target)).run g = (.error e, g') :=
  run_mapM_of_error (run_mapM_connect honly hjoins) (run_connect_of_failsToResolve honly hitem hfails)

section Ends

variable {input : List Traverser} {scope : Bindings}
  (honly : Step.onlySelector? source target = some (edgeEnd, selector))
  (hreads : Step.anyMutates selector = false)
  (hinput : ∀ t ∈ input, ∃ current, t.item = .element .vertex current)
include honly hreads hinput

theorem run_addEdge_eq_ok_iff {out : List Traverser} :
    (evaluateStep .write (.addEdge label properties source target) input scope).run g = (.ok out, g') ↔
      ∃ ends, Joins edgeEnd selector label properties g input ends g' ∧
        g.Gains label properties ends g' ∧
        out = input.mapIdx fun i t => ⟨.element .edge (g.counter + 1 + i), t.bindings⟩ := by
  rw [evaluateStep_addEdge]
  constructor
  · intro hrun
    rcases joins_or_fails edgeEnd label properties hreads hinput g with
      ⟨ends, end', hjoins⟩ | ⟨earlier, t, later, ends, end', e, rfl, hjoins, hfails⟩
    · rw [run_mapM_connect honly hjoins] at hrun
      cases hrun
      exact ⟨ends, hjoins, hjoins.gains, rfl⟩
    · obtain ⟨current, hitem⟩ := hinput t (List.mem_append_right _ List.mem_cons_self)
      rw [run_mapM_connect_of_fails honly hjoins hitem hfails] at hrun
      cases hrun
  · rintro ⟨ends, hjoins, -, rfl⟩
    exact run_mapM_connect honly hjoins

theorem run_addEdge_eq_error_iff {e : EngineError} :
    (evaluateStep .write (.addEdge label properties source target) input scope).run g = (.error e, g') ↔
      ∃ earlier t later ends, input = earlier ++ t :: later ∧
        Joins edgeEnd selector label properties g earlier ends g' ∧
        g.Gains label properties ends g' ∧ g'.FailsToResolve label selector t e := by
  rw [evaluateStep_addEdge]
  constructor
  · intro hrun
    rcases joins_or_fails edgeEnd label properties hreads hinput g with
      ⟨ends, end', hjoins⟩ | ⟨earlier, t, later, ends, end', e', rfl, hjoins, hfails⟩
    · rw [run_mapM_connect honly hjoins] at hrun
      cases hrun
    · obtain ⟨current, hitem⟩ := hinput t (List.mem_append_right _ List.mem_cons_self)
      rw [run_mapM_connect_of_fails honly hjoins hitem hfails] at hrun
      cases hrun
      exact ⟨earlier, t, later, ends, rfl, hjoins, hjoins.gains, hfails⟩
  · rintro ⟨earlier, t, later, ends, rfl, hjoins, -, hfails⟩
    obtain ⟨current, hitem⟩ := hinput t (List.mem_append_right _ List.mem_cons_self)
    exact run_mapM_connect_of_fails honly hjoins hitem hfails

end Ends

end Joining

/-- A step that adds edges, from vertices and with one selector, which only reads, succeeds exactly if the
selector resolves from each of them, in the graph with the edges of those before. Then there is one more edge
for each, numbered in their order and between the current vertex and the chosen one, and the traversers go on
to the edges. It fails exactly with the first selector that fails to resolve, and leaves the edges of those
before. A property of the edges has the value that was given last. -/
theorem addEdge_joins_in_turn {source target : Option (List Step)} {edgeEnd : EdgeEnd}
    {selector : List Step} (honly : Step.onlySelector? source target = some (edgeEnd, selector))
    (hreads : Step.anyMutates selector = false) (label : String) (properties : List Property)
    {input : List Traverser} (hinput : ∀ t ∈ input, ∃ current, t.item = .element .vertex current)
    (scope : Bindings) (g : Graph) :
    (∀ out g', (evaluateStep .write (.addEdge label properties source target) input scope).run g
        = (.ok out, g') ↔
      ∃ ends, Joins edgeEnd selector label properties g input ends g' ∧
        g.Gains label properties ends g' ∧
        out = input.mapIdx fun i t => ⟨.element .edge (g.counter + 1 + i), t.bindings⟩) ∧
    (∀ e g', (evaluateStep .write (.addEdge label properties source target) input scope).run g
        = (.error e, g') ↔
      ∃ earlier t later ends, input = earlier ++ t :: later ∧
        Joins edgeEnd selector label properties g earlier ends g' ∧
        g.Gains label properties ends g' ∧ g'.FailsToResolve label selector t e) ∧
    ∀ key, (Graph.setAll properties []).find? key
      = (properties.reverse.find? (·.key == key)).map (·.value) := by
  refine ⟨fun out g' => run_addEdge_eq_ok_iff honly hreads hinput,
    fun e g' => run_addEdge_eq_error_iff honly hreads hinput, fun key => ?_⟩
  rw [find?_setAll]
  exact Option.or_none

/-- The only neighbour is found once, and then there are two edges to it. -/
theorem second_edge_finds_neighbour_twice :
    let people : Graph := ((Graph.empty.addVertex "person" []).2.addVertex "person" []).2
    let g : Graph := (people.addEdge "knows" [] 1 2).2
    let selector : List Step := [.traverse .outgoing [] .vertices]
    let properties : List Property := [⟨"since", .int 1⟩, ⟨"until", .int 2⟩, ⟨"since", .int 3⟩]
    let t : Traverser := ⟨.element .vertex 1, [("me", .element .vertex 1)]⟩
    let run (input : List Traverser) : Except EngineError (List Traverser) × Graph :=
      (evaluateStep .write (.addEdge "knows" properties none (some selector)) input []).run g
    (∃ ends g', Joins .target selector "knows" properties g [t] ends g' ∧
      g.Gains "knows" properties ends g' ∧ run [t] = (.ok [t.withItem (.element .edge 4)], g')) ∧
    (∃ earlier failing later ends g', [t, t] = earlier ++ failing :: later ∧
      Joins .target selector "knows" properties g earlier ends g' ∧
      g.Gains "knows" properties ends g' ∧ g'.edges.keys = [3, 4] ∧
      run [t, t] = (.error (.endpoint "knows" 2), g')) ∧
    (Graph.setAll properties []).find? "since" = some (.int 3) := by
  intro people g selector properties t run
  have hreads : Step.anyMutates selector = false := rfl
  have honly : Step.onlySelector? none (some selector) = some (.target, selector) := rfl
  have hvertex : ∃ current, t.item = .element .vertex current := ⟨1, rfl⟩
  have hone : ∀ t' ∈ [t], ∃ current, t'.item = .element .vertex current :=
    List.forall_mem_singleton.mpr hvertex
  have htwo : ∀ t' ∈ [t, t], ∃ current, t'.item = .element .vertex current :=
    List.forall_mem_cons.mpr ⟨hvertex, hone⟩
  have hsucceeds : run [t] = (.ok [t.withItem (.element .edge 4)], (run [t]).2) := rfl
  have hfails : run [t, t] = (.error (.endpoint "knows" 2), (run [t, t]).2) := rfl
  obtain ⟨hok, -, hproperty⟩ := addEdge_joins_in_turn honly hreads "knows" properties hone [] g
  obtain ⟨-, herror, -⟩ := addEdge_joins_in_turn honly hreads "knows" properties htwo [] g
  obtain ⟨ends, hjoins, hgains, -⟩ := (hok _ _).mp hsucceeds
  obtain ⟨earlier, failing, later, ends', heq, hjoins', hgains', -⟩ := (herror _ _).mp hfails
  exact ⟨⟨ends, _, hjoins, hgains, hsucceeds⟩,
    ⟨earlier, failing, later, ends', _, heq, hjoins', hgains', rfl, hfails⟩, hproperty "since"⟩

end PropertyGraph
