import Mathlib.Data.List.Induction
import PropertyGraph.Proofs.Numbering

/-!
# Which edges have their endpoints

The endpoints of a new edge are the current vertex of a traverser and the one that its selector chooses.
Neither is looked up when the edge is added, so an edge can be created after an endpoint has been
removed: by the selector, or by what was evaluated for an earlier traverser. This is the only way in
which an edge comes to lack an endpoint. `Creates` says how an evaluation adds an edge and to which
graph, and each edge of a reachable graph is traced back to its creation. An endpoint is there now if and
only if it was there then.
-/

namespace PropertyGraph

/-- An evaluation adds an edge to a graph, for the traverser that follows the earlier ones and with the
vertex that its selector has chosen. -/
inductive Creates (access : Access) (steps : List Step) (g : Graph) :
    String → List Property → Nat → Nat → Graph → Prop
  | edge {env scope : Bindings} {label : String} {properties : List Property}
      {source target : Option (List Step)} {rest selector : List Step} {edgeEnd : EdgeEnd}
      {earlier later created found : List Traverser} {t : Traverser} {before between now : Graph}
      {current chosen : Nat} :
      Visits access steps g env
        ⟨.addEdge label properties source target :: rest, earlier ++ t :: later, scope, before⟩ →
      (earlier.mapM (connect access label properties source target)).run before
        = (.ok created, between) →
      t.item = .element .vertex current →
      Step.onlySelector? source target = some (edgeEnd, selector) →
      (evaluateSteps access selector [t] t.bindings).run between = (.ok found, now) →
      chosenVertex label found = .ok chosen →
      Creates access steps g label properties (edgeEnd.join current chosen).1
        (edgeEnd.join current chosen).2 now

theorem le_counter_of_creates {access : Access} {steps : List Step} {g now : Graph} {label : String}
    {properties : List Property} {source target : Nat} (hg : g.Numbered)
    (h : Creates access steps g label properties source target now) :
    source ≤ now.counter ∧ target ≤ now.counter := by
  obtain ⟨hvisits, hearlier, hitem, honly, hselector, hchosen⟩ := h
  obtain ⟨hbetween, hstart⟩ := numbered_of_visits hg
    (.selector hvisits hearlier (by rw [hitem]; rfl) honly)
  obtain ⟨hfound, hR⟩ := (keepsNumbers.holdsOfAll _ hbetween hstart).of_ok hselector
  have hcurrent := hstart _ (List.mem_singleton_self _) .vertex _ hitem
  exact join_le _ (Nat.le_trans hcurrent hR.1) (le_of_chosenVertex hfound hchosen)

/-- The edges that a later graph has more than an earlier one have been created in the evaluation. -/
structure Accounts (access : Access) (steps : List Step) (start g g' : Graph) : Prop where
  evolves : Evolves g g'
  created : ∀ id e, (id, e) ∈ g'.edges.rows → g.counter < id →
    ∃ label properties source target now,
      Creates access steps start label properties source target now ∧
      id = now.counter + 1 ∧ Evolves (now.addEdge label properties source target).2 g'

namespace Accounts

variable {access : Access} {steps : List Step} {start g g' g'' : Graph}

theorem of_addsNoEdge (h : Evolves g g') (hno : AddsNoEdge g g') :
    Accounts access steps start g g' where
  evolves := h
  created id e he hnew := by
    have hold : id ≤ g.counter := hno id (Table.mem_keys_of_mem_rows he)
    omega

theorem refl (g : Graph) : Accounts access steps start g g :=
  of_addsNoEdge (.refl g) g.edges_le

theorem trans (h : Accounts access steps start g g') (h' : Accounts access steps start g' g'') :
    Accounts access steps start g g'' where
  evolves := h.evolves.trans h'.evolves
  created id e he hnew := by
    by_cases hlater : g'.counter < id
    · exact h'.created id e he hlater
    · -- the edge was there in between, so it was created before
      obtain ⟨e', he', -, -⟩ := h'.evolves.edges id e he (Nat.le_of_not_lt hlater)
      obtain ⟨label, properties, source, target, now, hcreates, hid, hevolves⟩ :=
        h.created id e' he' hnew
      exact ⟨label, properties, source, target, now, hcreates, hid, hevolves.trans h'.evolves⟩

theorem addEdge {label : String} {properties : List Property} {source target : Nat}
    (h : Creates access steps start label properties source target g) :
    Accounts access steps start g (g.addEdge label properties source target).2 where
  evolves := .addEdge label properties source target g
  created id e he hnew := by
    rcases Evolves.mem_rows_addEdge he with hold | ⟨hid, -⟩
    · have hle := g.edges_le id (Table.mem_keys_of_mem_rows hold)
      omega
    · exact ⟨label, properties, source, target, g, h, hid, .refl _⟩

end Accounts

/-- Steps that are evaluated at a moment of an evaluation account for the edges that they add. -/
def AccountsFor (step : Step) : Prop :=
  ∀ {access : Access} {steps rest : List Step} {start g : Graph} {env scope : Bindings}
    {input : List Traverser}, Visits access steps start env ⟨step :: rest, input, scope, g⟩ →
      Ensures (evaluateStep access step input scope) g
        (fun _ g' => Accounts access steps start g g') fun _ g' => Accounts access steps start g g'

def AccountsForAll (left : List Step) : Prop :=
  ∀ {access : Access} {steps : List Step} {start g : Graph} {env scope : Bindings}
    {input : List Traverser}, Visits access steps start env ⟨left, input, scope, g⟩ →
      Ensures (evaluateSteps access left input scope) g
        (fun _ g' => Accounts access steps start g g') fun _ g' => Accounts access steps start g g'

namespace Accounts

variable {access : Access} {steps : List Step} {start g : Graph} {α β : Type}

theorem mapM {xs : List α} {f : α → Evaluation β}
    (hround : ∀ earlier x later bs g', xs = earlier ++ x :: later →
      (earlier.mapM f).run g = (.ok bs, g') →
      Ensures (f x) g' (fun _ g'' => Accounts access steps start g' g'')
        fun _ g'' => Accounts access steps start g' g'') :
    Ensures (xs.mapM f) g (fun _ g' => Accounts access steps start g g')
      fun _ g' => Accounts access steps start g g' := by
  refine (Ensures.mapM_after (P := fun _ _ => True) (F := fun _ _ => True)
    (R := Accounts access steps start) refl trans (fun _ _ => trivial) ?_).mono
    (fun _ _ hends => hends.2.2) fun _ _ hends => hends.2
  intro earlier x later bs g' hxs hearlier _
  exact (hround earlier x later bs g' hxs hearlier).mono (fun _ _ h => ⟨trivial, h⟩)
    fun _ _ h => ⟨trivial, h⟩

end Accounts

theorem accountsFor : Step.Induction AccountsFor AccountsForAll where
  look step hlooks := by
    intro access steps rest start g env scope input _
    rw [evaluateStep_of_looks hlooks]
    exact .read (fun _ _ => .refl g) fun _ _ => .refl g
  addVertex label properties := by
    intro access steps rest start g env scope input _
    rw [evaluateStep_addVertex]
    refine Accounts.mapM fun _ t _ _ g' _ _ => ?_
    refine .addVertexFrom ?_ fun _ _ => .refl g'
    exact .of_addsNoEdge (.addVertex label properties g') (addsNoEdge_addVertex label properties g')
  addEdge label properties source target hsource htarget := by
    intro access steps rest start g env scope input hvisits
    rw [evaluateStep_addEdge]
    refine Accounts.mapM fun earlier t later created between hinput hearlier => ?_
    subst hinput
    refine .connect (fun _ _ => .refl between) (fun _ _ => .refl between)
      fun current edgeEnd selector hok honly => ?_
    have hitem := eq_of_vertexFor_eq_ok hok
    have hmoment : Visits access steps start env ⟨selector, [t], t.bindings, between⟩ :=
      .selector hvisits hearlier (by rw [hitem]; rfl) honly
    have hselector : AccountsForAll selector := Step.all_of_onlySelector? hsource htarget honly
    refine ((hselector hmoment).and .run).mono (fun found now ⟨haccounts, hrun⟩ => ?_)
      fun _ _ h => h.1
    refine .read (fun chosen hchosen => ⟨haccounts.trans (.addEdge ?_), fun _ _ => haccounts⟩)
      fun _ _ => haccounts
    exact .edge hvisits hearlier hitem honly hrun hchosen
  update properties := by
    intro access steps rest start g env scope input _
    rw [evaluateStep_update]
    refine .bind ((Ensures.forM_along (R := Accounts access steps start) .refl .trans
      fun t _ g' => ?_).mono (fun _ _ h => .pure h) fun _ _ h => h)
    refine .updateItem (fun kind id _ => ?_) (fun _ _ => .refl g') fun _ => .refl g'
    exact .of_addsNoEdge (.update kind id properties g') (addsNoEdge_update kind id properties g')
  bind name continuation ih := by
    intro access steps rest start g env scope input hvisits
    rw [evaluateStep_bind]
    refine .bind ((Accounts.mapM fun earlier t later parts between hinput hearlier => ?_).mono
      (fun _ _ h => .pure h) fun _ _ h => h)
    subst hinput
    exact .continueFrom (ih (.continuation hvisits hearlier))
  drop := by
    intro access steps rest start g env scope input _
    rw [evaluateStep_drop]
    refine .bind ((Ensures.forM_along (R := Accounts access steps start) .refl .trans
      fun t _ g' => ?_).mono (fun _ _ h => .pure h) fun _ _ h => h)
    refine .dropItem (fun kind id _ => ?_) (fun _ => .refl g') fun _ _ => .refl g'
    exact .of_addsNoEdge (.remove kind id g') (addsNoEdge_remove kind id g')
  nil := by
    intro access steps start g env scope input _
    exact .pure (.refl g)
  cons step rest hstep hrest := by
    intro access steps start g env scope input hvisits
    rw [evaluateSteps_cons]
    refine .bind (((hstep hvisits).and .run).mono (fun out between ⟨haccounts, hrun⟩ => ?_)
      fun _ _ h => h.1)
    exact (hrest (.next hvisits hrun)).mono (fun _ _ h => haccounts.trans h)
      fun _ _ h => haccounts.trans h

/-- What is asked of a store from outside. -/
inductive Command where
  | evaluate (traversal : CompiledTraversal)
  | clear

namespace Graph

def perform (g : Graph) : Command → Graph
  | .evaluate traversal => (g.evaluate traversal).2
  | .clear => g.clear

/-- The graph that a store has after commands, whether they succeed or fail. -/
def after (history : List Command) : Graph := history.foldl perform empty

theorem after_concat (history : List Command) (command : Command) :
    after (history ++ [command]) = (after history).perform command := by
  rw [after, after, List.foldl_append]
  rfl

end Graph

theorem accounts_evaluate (g : Graph) (traversal : CompiledTraversal) :
    Accounts (accessFor traversal.steps) traversal.steps g g (g.evaluate traversal).2 :=
  (Ensures.runSteps (accountsFor.holdsOfAll traversal.steps .start)).state

theorem numbered_evaluate {g : Graph} (hg : g.Numbered) (traversal : CompiledTraversal) :
    (g.evaluate traversal).2.Numbered := by
  have hstart : AllNumbered g [⟨.root, []⟩] :=
    List.forall_mem_singleton.mpr (numberedBy_of_kind?_eq_none rfl)
  have hrun : Ensures (runSteps (accessFor traversal.steps) traversal.steps) g
      (fun _ g' => g'.Numbered) fun _ g' => g'.Numbered :=
    .runSteps ((keepsNumbers.holdsOfAll traversal.steps hg hstart).mono (fun _ _ h => h.2.2 hg)
      fun _ _ h => h.2 hg)
  exact hrun.state

theorem evolves_perform (g : Graph) (command : Command) : Evolves g (g.perform command) := by
  cases command with
  | evaluate traversal => exact Evolves.persists.evaluate g traversal
  | clear => exact .clear g

theorem numbered_after (history : List Command) : (Graph.after history).Numbered := by
  induction history using List.reverseRecOn with
  | nil => exact fun _ _ h => nomatch h
  | append_singleton history command ih =>
      rw [Graph.after_concat]
      cases command with
      | evaluate traversal => exact numbered_evaluate ih traversal
      | clear => exact fun _ _ h => nomatch h

/-! ### Endpoints -/

theorem ends_eq_iff {e : EdgeRecord} {source target : Nat} :
    e.ends .both = [source, target] ↔ e.source = source ∧ e.target = target := by
  simp [EdgeRecord.ends]

/-- The endpoints of an edge that is still there are present as they were in an earlier graph that had
the edge. -/
theorem endpoint_mem_iff_of_evolves {g g' : Graph} {id v : Nat} {e' : EdgeRecord}
    (h : Evolves g g') (he' : (id, e') ∈ g'.edges.rows) (hid : id ≤ g.counter)
    (hv : v ∈ e'.ends .both) (hle : v ≤ g.counter) :
    v ∈ g'.vertices.keys ↔ v ∈ g.vertices.keys := by
  obtain ⟨-, -, -, hkept⟩ := h.edges id e' he' hid
  exact ⟨fun hpresent => h.vertices v hpresent hle, hkept v hv⟩

/-- A command leaves of an edge that was there before the endpoints, as far as they were present. -/
theorem exists_of_old_edge {g : Graph} (hg : g.Numbered) {command : Command} {id : Nat}
    {e : EdgeRecord} (he : (id, e) ∈ (g.perform command).edges.rows) (hid : id ≤ g.counter) :
    ∃ e', (id, e') ∈ g.edges.rows ∧ e.source = e'.source ∧ e.target = e'.target ∧
      ∀ v ∈ e.ends .both, (v ∈ (g.perform command).vertices.keys ↔ v ∈ g.vertices.keys) := by
  have hevolves := evolves_perform g command
  obtain ⟨e', he', hends, -⟩ := hevolves.edges id e he hid
  obtain ⟨hsource, htarget⟩ := ends_eq_iff.mp hends.symm
  refine ⟨e', he', hsource, htarget, fun v hv => ?_⟩
  have hle : v ≤ g.counter := hg id e' he' v (hends ▸ hv)
  exact endpoint_mem_iff_of_evolves hevolves he hid hv hle

/-- An edge that an evaluation has added has the endpoints it was created with, and each of them is
present if and only if it was present when the edge was created. -/
theorem exists_of_new_edge {g : Graph} (hg : g.Numbered) {traversal : CompiledTraversal} {id : Nat}
    {e : EdgeRecord} (he : (id, e) ∈ (g.evaluate traversal).2.edges.rows) (hid : g.counter < id) :
    ∃ label properties now,
      Creates (accessFor traversal.steps) traversal.steps g label properties e.source e.target now ∧
      id = now.counter + 1 ∧
      ∀ v ∈ e.ends .both, (v ∈ (g.evaluate traversal).2.vertices.keys ↔ v ∈ now.vertices.keys) := by
  obtain ⟨label, properties, source, target, now, hcreates, rfl, hevolves⟩ :=
    (accounts_evaluate g traversal).created id e he hid
  have hcounter : now.counter + 1 ≤ (now.addEdge label properties source target).2.counter :=
    Nat.le_refl _
  obtain ⟨added, hadded, hsame, -⟩ := hevolves.edges _ e he hcounter
  have hends : e.ends .both = [source, target] := by
    rw [← hsame]
    rcases Evolves.mem_rows_addEdge hadded with hold | ⟨-, hends⟩
    · have hle := now.edges_le _ (Table.mem_keys_of_mem_rows hold)
      omega
    · exact hends
  obtain ⟨rfl, rfl⟩ := ends_eq_iff.mp hends
  refine ⟨label, properties, now, hcreates, rfl, fun v hv => ?_⟩
  have hle : v ≤ now.counter := by
    obtain ⟨hsource, htarget⟩ := le_counter_of_creates hg hcreates
    have heq : v = e.source ∨ v = e.target := by simpa [hends] using hv
    rcases heq with rfl | rfl
    · exact hsource
    · exact htarget
  have hsince := endpoint_mem_iff_of_evolves hevolves he hcounter hv (Nat.le_succ_of_le hle)
  -- adding the edge has left the vertices as they were
  exact hsince

/-- Each edge of a reachable graph has been created by one of the evaluations, with the endpoints that it
has. An endpoint is a vertex of the graph if and only if it was one of the graph that the edge was added
to: what was there has not been removed since, and what was not there has not come back. -/
theorem endpoint_present_iff_present_at_creation (history : List Command) (id : Nat)
    (e : EdgeRecord) (he : (id, e) ∈ (Graph.after history).edges.rows) :
    ∃ earlier traversal later label properties now,
      history = earlier ++ .evaluate traversal :: later ∧
      Creates (accessFor traversal.steps) traversal.steps (Graph.after earlier) label properties
        e.source e.target now ∧
      id = now.counter + 1 ∧
      (e.source ∈ (Graph.after history).vertices.keys ↔ e.source ∈ now.vertices.keys) ∧
      (e.target ∈ (Graph.after history).vertices.keys ↔ e.target ∈ now.vertices.keys) := by
  have hsource : e.source ∈ e.ends .both := by simp [EdgeRecord.ends]
  have htarget : e.target ∈ e.ends .both := by simp [EdgeRecord.ends]
  induction history using List.reverseRecOn generalizing id e with
  | nil => cases he
  | append_singleton history command ih =>
      rw [Graph.after_concat] at he ⊢
      have hnumbered := numbered_after history
      by_cases hold : id ≤ (Graph.after history).counter
      · -- the last command has only taken edges away
        obtain ⟨e', he', hs, ht, hkept⟩ := exists_of_old_edge hnumbered he hold
        obtain ⟨earlier, traversal, later, label, properties, now, hhistory, hcreates, hid, hsource',
          htarget'⟩ := ih id e' he' (by simp [EdgeRecord.ends]) (by simp [EdgeRecord.ends])
        rw [← hs] at hcreates hsource'
        rw [← ht] at hcreates htarget'
        exact ⟨earlier, traversal, later ++ [command], label, properties, now, by simp [hhistory],
          hcreates, hid, (hkept _ hsource).trans hsource', (hkept _ htarget).trans htarget'⟩
      · -- the last command is the evaluation that has created the edge
        cases command with
        | clear => cases he
        | evaluate traversal =>
            obtain ⟨label, properties, now, hcreates, hid, hpresent⟩ :=
              exists_of_new_edge hnumbered he (Nat.lt_of_not_le hold)
            exact ⟨history, traversal, [], label, properties, now, rfl, hcreates, hid,
              hpresent _ hsource, hpresent _ htarget⟩

/-- A selector that drops its vertex and resolves to a new one: the edge is added without its source. -/
theorem source_dropped_by_selector :
    let history : List Command := [.evaluate ⟨[.addVertex "person" [],
      .addEdge "knows" [] none (some [.drop, .fold, .addVertex "person" []])]⟩]
    (3, ⟨"knows", [], 1, 2⟩) ∈ (Graph.after history).edges.rows ∧
      1 ∉ (Graph.after history).vertices.keys ∧ 2 ∈ (Graph.after history).vertices.keys := by
  intro history
  have hedges : (Graph.after history).edges.rows = [(3, ⟨"knows", [], 1, 2⟩)] := rfl
  have hvertices : (Graph.after history).vertices.keys = [2] := rfl
  rw [hedges, hvertices]
  simp

theorem dropped_source_missing_at_creation :
    let history : List Command := [.evaluate ⟨[.addVertex "person" [],
      .addEdge "knows" [] none (some [.drop, .fold, .addVertex "person" []])]⟩]
    (3, ⟨"knows", [], 1, 2⟩) ∈ (Graph.after history).edges.rows ∧
    ∃ earlier traversal later label properties now,
      history = earlier ++ .evaluate traversal :: later ∧
      Creates (accessFor traversal.steps) traversal.steps (Graph.after earlier) label properties
        1 2 now ∧
      3 = now.counter + 1 ∧ (1 ∈ (Graph.after history).vertices.keys ↔ 1 ∈ now.vertices.keys) ∧
      (2 ∈ (Graph.after history).vertices.keys ↔ 2 ∈ now.vertices.keys) := by
  intro history
  have hedge : (3, ⟨"knows", [], 1, 2⟩) ∈ (Graph.after history).edges.rows := by
    have hedges : (Graph.after history).edges.rows = [(3, ⟨"knows", [], 1, 2⟩)] := rfl
    rw [hedges]
    exact List.mem_singleton_self _
  exact ⟨hedge, endpoint_present_iff_present_at_creation history 3 _ hedge⟩

end PropertyGraph
