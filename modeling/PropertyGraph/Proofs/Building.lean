import PropertyGraph.Program
import PropertyGraph.Proofs.Cardinality
import PropertyGraph.Proofs.Kinds
import PropertyGraph.Proofs.Scoping

/-!
# Builder programs do not go wrong

Whatever a builder call returns has steps that were checked in three ways: they fit the kind of element
that the declared type of results stands for, their references are to names in scope, and their
selectors have at most one result. `Appends` is what a run of calls adds to a traversal, together with
the three checks of what was added. It composes, so a program needs one argument for each call and
nothing for their order. The engine does the rest: of all its errors, steps that pass the three checks
leave only the selector that finds no vertex.
-/

namespace PropertyGraph

/-- One traversal continues another one with steps that have been checked. -/
structure Appends (t t' : Traversal) (added : List Step) : Prop where
  steps : t'.steps = t.steps ++ added
  scope : t'.scope = t.scope
  fits : Step.fitsAll t.result.elementKind? added = true
  kind : Step.kindAfterAll t.result.elementKind? added = t'.result.elementKind?
  bound : Step.unboundIn? (t.scope.map Binding.name) added = none
  accepted : Step.allSelectorsAccepted added = true

theorem unboundIn?_append (names : List String) (steps rest : List Step) :
    Step.unboundIn? names (steps ++ rest)
      = (Step.unboundIn? names steps).or (Step.unboundIn? names rest) := by
  induction steps with
  | nil => rfl
  | cons step steps ih => simp only [List.cons_append, Step.unboundIn?, ih, Option.or_assoc]

theorem allSelectorsAccepted_append (steps rest : List Step) :
    Step.allSelectorsAccepted (steps ++ rest)
      = (Step.allSelectorsAccepted steps && Step.allSelectorsAccepted rest) := by
  induction steps with
  | nil => rfl
  | cons step steps ih =>
      simp only [List.cons_append, Step.allSelectorsAccepted, ih, Bool.and_assoc]

namespace Appends

variable {t t' t'' : Traversal} {added more : List Step}

theorem refl (t : Traversal) : Appends t t [] where
  steps := (List.append_nil t.steps).symm
  scope := rfl
  fits := rfl
  kind := rfl
  bound := rfl
  accepted := rfl

theorem trans (h : Appends t t' added) (h' : Appends t' t'' more) :
    Appends t t'' (added ++ more) where
  steps := by rw [h'.steps, h.steps, List.append_assoc]
  scope := h'.scope.trans h.scope
  fits := by rw [Step.fitsAll_append, h.fits, h.kind, h'.fits, Bool.and_self]
  kind := by rw [Step.kindAfterAll_append, h.kind, h'.kind]
  bound := by
    have hmore := h'.bound
    rw [h.scope] at hmore
    rw [unboundIn?_append, h.bound, hmore, Option.or_self]
  accepted := by rw [allSelectorsAccepted_append, h.accepted, h'.accepted, Bool.and_self]

theorem push {step : Step} {result : ResultType} {shape : Shape}
    (hfits : step.fits t.result.elementKind? = true)
    (hkind : step.kindAfter t.result.elementKind? = result.elementKind?)
    (hbound : step.unbound? (t.scope.map Binding.name) = none)
    (haccepted : step.selectorsAccepted = true) :
    Appends t (t.push step result shape) [step] where
  steps := rfl
  scope := rfl
  fits := by rw [Step.fitsAll, hfits]; rfl
  kind := hkind
  bound := by rw [Step.unboundIn?, hbound]; rfl
  accepted := by rw [Step.allSelectorsAccepted, haccepted]; rfl

/-- What has been appended at the source compiles. -/
theorem compile (h : Appends .source t added) : t.compile = .ok ⟨t.steps⟩ := by
  have hsteps : t.steps = added := h.steps
  have hbound : Step.unboundIn? [] t.steps = none := hsteps ▸ h.bound
  have hnames : t.scope.names = [] := by rw [h.scope]; rfl
  rw [Traversal.compile, CompiledTraversal.inScope, hnames, hbound]

end Appends

section Calls

variable {model : GraphModel} {t t' : Traversal}

theorem exists_of_available_update {result : ResultType} {value : Json}
    (h : (Call.update value).available result = true) : ∃ type, result = .element type := by
  cases result with
  | element type => exact ⟨type, rfl⟩
  | start | anyVertex | anyEdge | value _ | folded _ => cases h

theorem appends_ofType {type : ElementType} (hkind : t.result.elementKind? = some type.kind)
    (h : t.ofType model type = .ok t') : ∃ added, Appends t t' added := by
  obtain ⟨label, -, h⟩ := exists_of_bind_eq_ok h
  obtain ⟨shape, -, h⟩ := exists_of_bind_eq_ok h
  cases h
  exact ⟨_, .push rfl hkind rfl rfl⟩

theorem appends_selection_ofType {kind : ElementKind} {type : ElementType} {selected : Traversal}
    {added : List Step} (hselected : Appends t selected added)
    (hresult : selected.result.elementKind? = some kind) (hkind : type.kind = kind)
    (h : selected.ofType model type = .ok t') : ∃ added, Appends t t' added := by
  subst hkind
  obtain ⟨more, hmore⟩ := appends_ofType hresult h
  exact ⟨_, hselected.trans hmore⟩

mutual
theorem references_map {ρ σ : Type} (f : ρ → σ) :
    ∀ p : Predicate ρ, (p.map f).references = p.references.map f
  | .has _ ⟨_, operand⟩ => by cases operand <;> rfl
  | .is ⟨_, operand⟩ => by cases operand <;> rfl
  | .conj operands => referencesOfAll_map f operands
  | .disj operands => referencesOfAll_map f operands
  | .neg operand => references_map f operand
termination_by structural p => p
theorem referencesOfAll_map {ρ σ : Type} (f : ρ → σ) :
    ∀ ps : List (Predicate ρ),
      Predicate.referencesOfAll (Predicate.mapAll f ps) = (Predicate.referencesOfAll ps).map f
  | [] => rfl
  | p :: rest => by
      simp only [Predicate.mapAll, Predicate.referencesOfAll, List.map_append,
        references_map f p, referencesOfAll_map f rest]
termination_by structural ps => ps
end

theorem forM_eq_ok {ε α : Type} {xs : List α} {f : α → Except ε Unit}
    (h : xs.forM f = .ok ()) : ∀ x ∈ xs, f x = .ok () := by
  induction xs with
  | nil => exact fun _ hx => nomatch hx
  | cons x xs ih =>
      obtain ⟨_, hx, hxs⟩ := exists_of_bind_eq_ok h
      intro y hy
      rcases List.mem_cons.mp hy with rfl | hy
      · exact hx
      · exact ih hxs y hy

theorem mem_names_of_resolve {scope : Scope} {reference : Reference}
    (h : scope.resolve reference = .ok ()) : reference.name ∈ scope.map Binding.name := by
  unfold Scope.resolve at h
  cases hfind : scope.find? (·.name == reference.name) with
  | none =>
      rw [hfind] at h
      cases h
  | some binding =>
      have hname : binding.name = reference.name := by simpa using List.find?_some hfind
      exact hname ▸ List.mem_map_of_mem (List.mem_of_find?_eq_some hfind)

theorem appends_filter {predicate : Predicate Reference} (h : t.filter model predicate = .ok t') :
    ∃ added, Appends t t' added := by
  obtain ⟨-, -, h⟩ := exists_of_bind_eq_ok h
  obtain ⟨_, hresolved, h⟩ := exists_of_bind_eq_ok h
  cases h
  refine ⟨_, .push rfl rfl ?_ rfl⟩
  simp only [Step.unbound?, references_map, List.find?_eq_none, List.mem_map]
  rintro name ⟨reference, hreference, rfl⟩
  have hname := mem_names_of_resolve (forM_eq_ok hresolved reference hreference)
  simpa using hname

/-- Each call that runs no further program appends checked steps, if the results have the call. -/
theorem appends_runSimple {call : Call} (havailable : call.available t.result = true)
    (h : call.runSimple model t = .ok t') : ∃ added, Appends t t' added := by
  cases call with
  | vertices | edges | verticesById _ | inject _ | fold | limit _ | count | drop =>
      cases h
      exact ⟨_, .push rfl rfl rfl rfl⟩
  | verticesOf type =>
      have hkind : type.kind = .vertex := beq_iff_eq.mp havailable
      exact appends_selection_ofType (.push rfl rfl rfl rfl) rfl hkind h
  | edgesOf type =>
      have hkind : type.kind = .edge := beq_iff_eq.mp havailable
      exact appends_selection_ofType (.push rfl rfl rfl rfl) rfl hkind h
  | vertexOf type id =>
      have hkind : type.kind = .vertex := beq_iff_eq.mp havailable
      exact appends_selection_ofType (.push rfl rfl rfl rfl) rfl hkind h
  | addVertex type value =>
      have hkind : type.kind = .vertex := beq_iff_eq.mp havailable
      obtain ⟨value', -, h⟩ := exists_of_bind_eq_ok h
      obtain ⟨label, -, h⟩ := exists_of_bind_eq_ok h
      obtain ⟨properties, -, h⟩ := exists_of_bind_eq_ok h
      cases h
      exact ⟨_, .push rfl (congrArg some hkind.symm) rfl rfl⟩
  | ofType type => exact appends_ofType (beq_iff_eq.mp havailable) h
  | id | label =>
      cases h
      exact ⟨_, .push havailable rfl rfl rfl⟩
  | values key type =>
      obtain ⟨-, -, h⟩ := exists_of_bind_eq_ok h
      cases h
      exact ⟨_, .push havailable rfl rfl rfl⟩
  | update value =>
      obtain ⟨type, hresult⟩ := exists_of_available_update havailable
      simp only [Call.runSimple, hresult] at h
      obtain ⟨value', -, h⟩ := exists_of_bind_eq_ok h
      obtain ⟨properties, -, h⟩ := exists_of_bind_eq_ok h
      cases h
      exact ⟨_, .push (by rw [hresult]; rfl) rfl rfl rfl⟩
  | walk direction type =>
      obtain ⟨hvertex, -⟩ := Bool.and_eq_true_iff.mp havailable
      obtain ⟨label, -, h⟩ := exists_of_bind_eq_ok h
      cases h
      exact ⟨_, .push hvertex rfl rfl rfl⟩
  | walkEdges direction type =>
      obtain ⟨hvertex, hedge⟩ := Bool.and_eq_true_iff.mp havailable
      obtain ⟨label, -, h⟩ := exists_of_bind_eq_ok h
      cases h
      exact ⟨_, .push hvertex (congrArg some (beq_iff_eq.mp hedge).symm) rfl rfl⟩
  | walkAny direction | endpoint direction =>
      cases h
      exact ⟨_, .push havailable rfl rfl rfl⟩
  | unreadable error => cases h
  | filter _ | addEdge _ _ _ _ | bind _ _ _ | probe _ =>
      cases h
      exact ⟨_, .refl t⟩

end Calls

section Programs

variable {model : GraphModel} {t : Traversal} {state : BuildState}

theorem Ensures.ofExcept {α : Type} {r : Except TraversalError α} {ok : α → BuildState → Prop}
    (h : ∀ a, r = .ok a → ok a state) :
    Ensures (Build.ofExcept r) state ok fun _ _ => True := by
  cases r with
  | ok a => exact .pure (h a rfl)
  | error e => exact True.intro

theorem Ensures.require {available : Bool} {ok : Unit → BuildState → Prop}
    (h : available = true → ok () state) :
    Ensures (Build.require available) state ok fun _ _ => True := by
  cases available with
  | true => exact .pure (h rfl)
  | false => exact True.intro

theorem Ensures.get {ok : BuildState → BuildState → Prop} {failed : BuildError → BuildState → Prop}
    (h : ok state state) : Ensures (MonadState.get : Build BuildState) state ok failed := h

theorem Ensures.set {ok : PUnit → BuildState → Prop} {failed : BuildError → BuildState → Prop}
    {state' : BuildState} (h : ok ⟨⟩ state') :
    Ensures (MonadStateOf.set state' : Build PUnit) state ok failed := h

/-- A computation of the builder whose result continues a traversal with checked steps. -/
def AppendsChecked (t : Traversal) (state : BuildState) (program : Build Traversal) : Prop :=
  Ensures program state (fun t' _ => ∃ added, Appends t t' added) fun _ _ => True

def Call.isSimple : Call → Bool
  | filter _ | addEdge _ _ _ _ | bind _ _ _ | probe _ => false
  | _ => true

theorem run_of_isSimple {call : Call} (h : call.isSimple = true) :
    call.run model t = (do
      Build.require (call.available t.result)
      Build.ofExcept (call.runSimple model t)) := by
  cases call <;> first | rfl | cases h

theorem appendsChecked_of_isSimple {call : Call} (h : call.isSimple = true) :
    AppendsChecked t state (call.run model t) := by
  rw [run_of_isSimple h]
  exact .bind (.require fun havailable => .ofExcept fun _ hok => appends_runSimple havailable hok)

theorem type_of_draftEdge {type : ElementType} {value : Json} {draft : Traversal.EdgeDraft}
    (h : Traversal.draftEdge model type value = .ok draft) : draft.type = type := by
  obtain ⟨label, -, h⟩ := exists_of_bind_eq_ok h
  obtain ⟨properties, -, h⟩ := exists_of_bind_eq_ok h
  cases h
  rfl

/-- An edge is appended with a selector that was built from the same kind of element, ends with vertices
and has been accepted. -/
theorem appends_addEdge {draft : Traversal.EdgeDraft} {edgeEnd : EdgeEnd} {chosen t' : Traversal}
    {added : List Step} (hvertex : t.result.elementKind? = some .vertex)
    (hedge : draft.type.kind = .edge) (hselector : Appends t.anonymous chosen added)
    (hchosen : chosen.result.elementKind? = some .vertex)
    (h : t.addEdge draft edgeEnd chosen.steps = .ok t') : ∃ added, Appends t t' added := by
  obtain ⟨_, hcheck, h⟩ := exists_of_bind_eq_ok h
  have hsteps : chosen.steps = added := hselector.steps
  rw [hsteps] at h hcheck
  have hsingle := Cardinality.checkSelector_eq_ok_iff.mp hcheck
  have hfits : Step.selectorFits t.result.elementKind? (some added) = true := by
    have hfitsAll : Step.fitsAll t.result.elementKind? added = true := hselector.fits
    have hkind : Step.kindAfterAll t.result.elementKind? added = some .vertex :=
      hselector.kind.trans hchosen
    simp [Step.selectorFits, hfitsAll, hkind]
  have hnone : Step.selectorFits t.result.elementKind? none = true := rfl
  have hbound : Step.unboundIn? (t.scope.map Binding.name) added = none := hselector.bound
  have haccepted : Step.selectorAccepted (some added) = true := by
    simp [Step.selectorAccepted, hsingle, hselector.accepted]
  have hresult : some ElementKind.edge = (ResultType.element draft.type).elementKind? :=
    congrArg some hedge.symm
  cases h
  cases edgeEnd with
  | source =>
      refine ⟨_, .push ?_ hresult ?_ ?_⟩
      · rw [Step.fits, hfits, hnone, hvertex]
        rfl
      · simp [Step.unbound?, Step.selectorUnbound?, hbound]
      · rw [Step.selectorsAccepted, haccepted]
        rfl
  | target =>
      refine ⟨_, .push ?_ hresult ?_ ?_⟩
      · rw [Step.fits, hfits, hnone, hvertex]
        rfl
      · simp [Step.unbound?, Step.selectorUnbound?, hbound]
      · rw [Step.selectorsAccepted, haccepted]
        rfl

/-- A finished bind passes the checks that its continuation has passed with one more name in scope. -/
theorem appends_closed {binding : Binding} {inner : Traversal} {added : List Step}
    (h : Appends (t.opened binding) inner added) :
    Appends t (t.closed binding.name inner) [.bind binding.name added] := by
  have hsteps : inner.steps = added := h.steps
  rw [← hsteps] at h ⊢
  exact .push h.fits h.kind h.bound h.accepted

mutual
theorem appendsChecked_run (model : GraphModel) : ∀ (call : Call) (t : Traversal)
    (state : BuildState), AppendsChecked t state (call.run model t)
  | .filter predicate, t, state => .ofExcept fun _ hok => appends_filter hok
  | .addEdge type value edgeEnd selector, t, state => by
      refine .bind (.require fun havailable => .bind (.ofExcept fun value' _ =>
        .bind (.ofExcept fun draft hdraft => .bind ?_)))
      obtain ⟨hvertex, hedge⟩ := Bool.and_eq_true_iff.mp havailable
      refine (appendsChecked_runAll model selector t.anonymous state).mono ?_ fun _ _ h => h
      intro chosen state' ⟨added, hselector⟩
      refine .bind (.require fun hchosen => .ofExcept fun t' hok => ?_)
      have hkind : draft.type.kind = .edge := type_of_draftEdge hdraft ▸ beq_iff_eq.mp hedge
      exact appends_addEdge (beq_iff_eq.mp hvertex) hkind hselector (beq_iff_eq.mp hchosen) hok
  | .bind name key continuation, t, state => by
      unfold Call.run AppendsChecked
      dsimp only
      split
      · exact .bind True.intro
      · refine .bind (.get (.bind (.set (.bind ?_))))
        refine (appendsChecked_runAll model continuation _ _).mono ?_ fun _ _ h => h
        intro inner _ ⟨added, hadded⟩
        exact .pure ⟨_, appends_closed hadded⟩
  | .probe question, t, state => ⟨[], .refl t⟩
  | .vertices, _, _ | .edges, _, _ | .verticesOf _, _, _ | .edgesOf _, _, _
  | .vertexOf _ _, _, _ | .verticesById _, _, _ | .addVertex _ _, _, _ | .inject _, _, _
  | .fold, _, _ | .limit _, _, _ | .count, _, _ | .drop, _, _ | .ofType _, _, _ | .id, _, _
  | .label, _, _ | .values _ _, _, _ | .update _, _, _ | .walk _ _, _, _
  | .walkEdges _ _, _, _ | .walkAny _, _, _ | .endpoint _, _, _ | .unreadable _, _, _ =>
    appendsChecked_of_isSimple rfl
termination_by structural call => call
theorem appendsChecked_runAll (model : GraphModel) : ∀ (calls : List Call) (t : Traversal)
    (state : BuildState), AppendsChecked t state (Call.runAll model t calls)
  | [], t, state => ⟨[], .refl t⟩
  | call :: rest, t, state => by
      refine .bind ((appendsChecked_run model call t state).mono ?_ fun _ _ h => h)
      intro t' state' ⟨added, hadded⟩
      refine (appendsChecked_runAll model rest t' state').mono ?_ fun _ _ h => h
      intro t'' _ ⟨more, hmore⟩
      exact ⟨_, hadded.trans hmore⟩
termination_by structural calls => calls
end

/-- Of the errors of the engine, the three checks leave a selector without results. -/
theorem exists_missing_endpoint {e : EngineError} (hhandles : Handles e) (hfinds : FindsAll e)
    (hunambiguous : Unambiguous e) : ∃ label, e = .endpoint label 0 := by
  cases e with
  | invalidRequest reason => exact absurd rfl (hhandles.2 reason)
  | unsupportedInput step found => exact absurd rfl (hhandles.1 step found)
  | unknownBinding name => exact absurd rfl (hfinds name)
  | endpoint label n =>
      have hn : n = 0 := hunambiguous label n rfl
      exact ⟨label, by rw [hn]⟩

theorem runSteps_of_checked {steps : List Step} {access : Access} {g : Graph}
    (hfits : Step.fitsAll none steps = true) (hbound : Step.unboundIn? [] steps = none)
    (haccepted : Step.allSelectorsAccepted steps = true)
    (haccess : access = .read → Step.anyMutates steps = false) :
    Ensures (runSteps access steps) g (fun _ _ => True)
      fun e _ => ∃ label, e = .endpoint label 0 := by
  have hkinds : Ensures (evaluateSteps access steps [⟨.root, []⟩] []) g (fun _ _ => True)
      fun e _ => Handles e :=
    (keepsKinds.holdsOfAll steps hfits haccess (.none _)).mono (fun _ _ _ => True.intro)
      fun _ _ h => h
  have hscope : Ensures (evaluateSteps access steps [⟨.root, []⟩] []) g (fun _ _ => True)
      fun e _ => FindsAll e :=
    (keepsScope.holdsOfAll steps (.singleton ⟨.root, []⟩)).mono (fun _ _ _ => True.intro)
      fun _ _ h => h hbound
  have hselectors : Ensures (evaluateSteps access steps [⟨.root, []⟩] []) g (fun _ _ => True)
      fun e _ => Unambiguous e :=
    failsUnambiguously.holdsOfAll steps haccepted
  refine .runSteps (((hkinds.and hscope).and hselectors).mono (fun _ _ _ => True.intro) ?_)
  exact fun e _ h => exists_missing_endpoint h.1.1 h.1.2 h.2

theorem evaluate_of_checked {c : CompiledTraversal} (g : Graph)
    (hfits : Step.fitsAll none c.steps = true) (hbound : Step.unboundIn? [] c.steps = none)
    (haccepted : Step.allSelectorsAccepted c.steps = true) :
    (∃ results, (g.evaluate c).1 = .ok results) ∨
      ∃ label, (g.evaluate c).1 = .error (.endpoint label 0) := by
  have hrun := runSteps_of_checked (g := g) hfits hbound haccepted anyMutates_eq_false_of_accessFor
  cases hresult : (g.evaluate c).1 with
  | ok results => exact .inl ⟨results, rfl⟩
  | error e =>
      obtain ⟨label, rfl⟩ := hrun.of_error (Prod.ext hresult rfl)
      exact .inr ⟨label, rfl⟩

/-- If all calls of a program succeed, its traversal compiles, and the engine evaluates it on every graph
or reports a selector that resolves to no vertex. Nothing else is refused. -/
theorem built_traversal_evaluates {model : GraphModel} {calls : List Call} {t : Traversal}
    {state state' : BuildState} (h : (Call.runAll model .source calls).run state = (.ok t, state')) :
    ∃ c, t.compile = .ok c ∧ c.steps = t.steps ∧ ∀ g : Graph,
      (∃ results, (g.evaluate c).1 = .ok results) ∨
        ∃ label, (g.evaluate c).1 = .error (.endpoint label 0) := by
  obtain ⟨added, hadded⟩ := (appendsChecked_runAll model calls .source state).of_ok h
  have hsteps : t.steps = added := hadded.steps
  subst hsteps
  exact ⟨⟨t.steps⟩, hadded.compile, rfl, fun g => evaluate_of_checked g hadded.fits hadded.bound
    hadded.accepted⟩

theorem acquaintance_evaluates :
    let person : ElementType := ⟨"Person", .vertex, "Person", [], none⟩
    let knows : ElementType := ⟨"Knows", .edge, "Knows", [], none⟩
    let model : GraphModel := ⟨[⟨.ofType person, []⟩, ⟨.ofType knows, []⟩]⟩
    let others : List Call := [.vertices, .filter (.is ⟨.neq, .bound (.handle "p")⟩), .limit 1]
    let calls : List Call :=
      [.addVertex person .null, .bind none "p" [.addEdge knows .null .target others]]
    ∃ t state', (Call.runAll model .source calls).run .initial = (.ok t, state') ∧
      ∃ c, t.compile = .ok c ∧ c.steps = t.steps ∧ ∀ g : Graph,
        (∃ results, (g.evaluate c).1 = .ok results) ∨
          ∃ label, (g.evaluate c).1 = .error (.endpoint label 0) := by
  intro person knows model others calls
  have hrun : ∃ t state', (Call.runAll model .source calls).run .initial = (.ok t, state') :=
    ⟨_, _, rfl⟩
  obtain ⟨t, state', hrun⟩ := hrun
  exact ⟨t, state', hrun, built_traversal_evaluates hrun⟩

end Programs

end PropertyGraph
