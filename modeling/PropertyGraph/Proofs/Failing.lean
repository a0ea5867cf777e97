import Mathlib.Logic.Relation
import PropertyGraph.Proofs.Looking
import PropertyGraph.Proofs.Turns

/-!
# What a failed evaluation leaves behind

Nothing is rolled back. `Fails` says which operation an evaluation fails at, with the graph that this
operation finds, and `Makes` which change it makes to which graph. The graph after a failure is the one
that the failing operation has found, and it has come about from the graph before the evaluation by the
changes made on the way, one after the other. So a failure is without trace when nothing had been changed
before it.
-/

namespace PropertyGraph

inductive Change where
  | addVertex (label : String) (properties : List Property)
  | addEdge (label : String) (properties : List Property) (source target : Nat)
  | update (kind : ElementKind) (id : Nat) (properties : List Property)
  | remove (kind : ElementKind) (id : Nat)

def Change.apply (g : Graph) : Change → Graph
  | addVertex label properties => (g.addVertex label properties).2
  | addEdge label properties source target => (g.addEdge label properties source target).2
  | update kind id properties => g.update kind id properties
  | remove kind id => g.remove kind id

/-- An evaluation makes a change to a graph. -/
inductive Makes (access : Access) (steps : List Step) (g : Graph) : Change → Graph → Prop
  | addVertex {label : String} {properties : List Property} {t : Traverser} {now : Graph} :
      Turns access steps g (.addVertex label properties) t now →
      Makes access steps g (.addVertex label properties) now
  | addEdge {label : String} {properties : List Property} {source target : Option (List Step)}
      {edgeEnd : EdgeEnd} {selector : List Step} {t : Traverser} {found : List Traverser}
      {current chosen : Nat} {before now : Graph} :
      Turns access steps g (.addEdge label properties source target) t before →
      t.item = .element .vertex current →
      Step.onlySelector? source target = some (edgeEnd, selector) →
      (evaluateSteps access selector [t] t.bindings).run before = (.ok found, now) →
      chosenVertex label found = .ok chosen →
      Makes access steps g (.addEdge label properties (edgeEnd.join current chosen).1
        (edgeEnd.join current chosen).2) now
  | update {properties : List Property} {t : Traverser} {kind : ElementKind} {id : Nat}
      {now : Graph} :
      Turns access steps g (.update properties) t now → t.item = .element kind id →
      Makes access steps g (.update kind id properties) now
  | remove {t : Traverser} {kind : ElementKind} {id : Nat} {now : Graph} :
      Turns access steps g .drop t now → t.item = .element kind id →
      Makes access steps g (.remove kind id) now

/-- A later graph has come about from an earlier one by changes that an evaluation makes. -/
def Trail (access : Access) (steps : List Step) (start : Graph) : Graph → Graph → Prop :=
  Relation.ReflTransGen fun now next =>
    ∃ change, Makes access steps start change now ∧ next = change.apply now

namespace Trail

variable {access : Access} {steps : List Step} {start g g' : Graph}

theorem single {change : Change} (h : Makes access steps start change g) :
    Trail access steps start g (change.apply g) :=
  Relation.ReflTransGen.single ⟨change, h, rfl⟩

theorem eq_of_not_makes (h : Trail access steps start g g')
    (hnone : ∀ change now, ¬ Makes access steps start change now) : g' = g := by
  rcases h.cases_head with heq | ⟨_, ⟨change, hmakes, -⟩, -⟩
  · exact heq.symm
  · exact absurd hmakes (hnone change g)

end Trail

/-- An evaluation comes to an operation that fails with the graph it finds. -/
inductive Fails (access : Access) (steps : List Step) (g : Graph) : EngineError → Graph → Prop
  /-- A step that looks meets an item that it cannot handle, or a reference that nothing binds. -/
  | look {env scope : Bindings} {step : Step} {rest : List Step} {input : List Traverser}
      {now : Graph} {e : EngineError} :
      Visits access steps g env ⟨step :: rest, input, scope, now⟩ → step.looks = true →
      now.look scope input step = .error e → Fails access steps g e now
  /-- What is to be updated is no element. -/
  | update {properties : List Property} {t : Traverser} {now : Graph} :
      Turns access steps g (.update properties) t now → t.item.kind? = none →
      Fails access steps g (.unsupportedInput "update" t.item.describe) now
  /-- An edge is to be created from what is no vertex. -/
  | current {label : String} {properties : List Property} {source target : Option (List Step)}
      {t : Traverser} {now : Graph} {e : EngineError} :
      Turns access steps g (.addEdge label properties source target) t now →
      t.item.vertexFor "addEdge" = .error e → Fails access steps g e now
  /-- An edge is to be created without exactly one selector. -/
  | selectors {label : String} {properties : List Property} {source target : Option (List Step)}
      {t : Traverser} {current : Nat} {now : Graph} :
      Turns access steps g (.addEdge label properties source target) t now →
      t.item = .element .vertex current → Step.onlySelector? source target = none →
      Fails access steps g
        (.invalidRequest s!"edge '{label}' needs exactly one endpoint selector") now
  /-- The selector of an edge does not choose one vertex. -/
  | chosen {label : String} {properties : List Property} {source target : Option (List Step)}
      {edgeEnd : EdgeEnd} {selector : List Step} {t : Traverser} {found : List Traverser}
      {current : Nat} {before now : Graph} {e : EngineError} :
      Turns access steps g (.addEdge label properties source target) t before →
      t.item = .element .vertex current →
      Step.onlySelector? source target = some (edgeEnd, selector) →
      (evaluateSteps access selector [t] t.bindings).run before = (.ok found, now) →
      chosenVertex label found = .error e → Fails access steps g e now

section Ends

variable {access : Access} {steps : List Step} {start g : Graph}

theorem run_updateItem_of_not_element {properties : List Property} {item : Item} {now : Graph}
    (h : item.kind? = none) :
    (updateItem access properties item).run now
      = (.error (.unsupportedInput "update" item.describe), now) := by
  cases item with
  | element kind id => cases h
  | root | value _ | list _ => rfl

theorem run_of_fails {e : EngineError} {now : Graph} (h : Fails access steps g e now) :
    (evaluateSteps access steps [⟨.root, []⟩] []).run g = (.error e, now) := by
  cases h with
  | @look env scope step rest input now e hvisits hlooks hfails =>
      have hlook : (evaluateStep access step input scope).run now = (.error e, now) := by
        rw [evaluateStep_of_looks hlooks, run_read, hfails]
      exact run_of_visits hvisits (run_bind_of_error hlook)
  | update hturns hitem =>
      exact run_of_turns hturns (run_bind_of_error (run_updateItem_of_not_element hitem))
  | @current label properties source target t now e hturns hitem =>
      have hconnect : (connect access label properties source target t).run now
          = (.error e, now) := by
        rw [connect_eq]
        apply run_bind_of_error
        rw [run_read, hitem]
      exact run_of_turns hturns (run_bind_of_error hconnect)
  | @selectors label properties source target t current now hturns hitem honly =>
      have hconnect : (connect access label properties source target t).run now
          = (.error (.invalidRequest s!"edge '{label}' needs exactly one endpoint selector"),
            now) := by
        rw [run_connect_of_vertex hitem, honly]
        rfl
      exact run_of_turns hturns (run_bind_of_error hconnect)
  | @chosen label properties source target edgeEnd selector t found current before now e hturns
      hitem honly hselector hchosen =>
      have hconnect : (connect access label properties source target t).run before
          = (.error e, now) := by
        rw [run_connect_of_vertex hitem, honly]
        refine (run_bind_of_ok hselector).trans (run_bind_of_error ?_)
        rw [run_read, hchosen]
      exact run_of_turns hturns (run_bind_of_error hconnect)

/-- How steps end that are evaluated at a moment of an evaluation: their changes lie on the trail, and
if they fail, they do so at an operation that leaves the graph as it is. -/
def LeavesTrailAll (left : List Step) : Prop :=
  ∀ {access : Access} {steps : List Step} {start g : Graph} {env scope : Bindings}
    {input : List Traverser}, Visits access steps start env ⟨left, input, scope, g⟩ →
      (access = .read → Step.anyMutates left = false) →
      Ensures (evaluateSteps access left input scope) g (fun _ g' => Trail access steps start g g')
        fun e g' => Fails access steps start e g' ∧ Trail access steps start g g'

def LeavesTrail (step : Step) : Prop :=
  ∀ {access : Access} {steps rest : List Step} {start g : Graph} {env scope : Bindings}
    {input : List Traverser}, Visits access steps start env ⟨step :: rest, input, scope, g⟩ →
      (access = .read → step.mutates = false) →
      Ensures (evaluateStep access step input scope) g
        (fun _ g' => Trail access steps start g g')
        fun e g' => Fails access steps start e g' ∧ Trail access steps start g g'

theorem Ensures.turns {step : Step} {rest : List Step} {env scope : Bindings}
    {input : List Traverser} (hvisits : Visits access steps start env ⟨step :: rest, input, scope, g⟩)
    (hlooks : step.looks = false)
    (hturn : ∀ t now, Turns access steps start step t now →
      Ensures (turn access step t) now (fun _ g' => Trail access steps start now g')
        fun e g' => Fails access steps start e g' ∧ Trail access steps start now g') :
    Ensures (evaluateStep access step input scope) g (fun _ g' => Trail access steps start g g')
      fun e g' => Fails access steps start e g' ∧ Trail access steps start g g' := by
  have hloop : Ensures (input.mapM (turn access step)) g
      (fun parts g' => parts.length = input.length ∧ (∀ part ∈ parts, True) ∧
        Trail access steps start g g')
      fun e g' => Fails access steps start e g' ∧ Trail access steps start g g' := by
    refine .mapM_after (P := fun _ _ => True) (R := Trail access steps start)
      (fun _ => .refl) (fun h h' => Relation.ReflTransGen.trans h h') (fun _ h => h) ?_
    intro earlier t later parts now hinput hearlier _
    subst hinput
    exact (hturn t now (.after hvisits hlooks hearlier)).mono (fun _ _ h => ⟨True.intro, h⟩)
      fun _ _ h => h
  rw [evaluateStep_of_turns hlooks]
  exact .bind (hloop.mono (fun _ _ h => .pure h.2.2) fun _ _ h => h)

theorem leavesTrail : Step.Induction LeavesTrail LeavesTrailAll where
  look step hlooks := by
    intro access steps rest start g env scope input hvisits _
    rw [evaluateStep_of_looks hlooks]
    exact .read (fun _ _ => .refl) fun e hfails => ⟨.look hvisits hlooks hfails, .refl⟩
  addVertex label properties := by
    intro access steps rest start g env scope input hvisits hmutates
    refine .turns hvisits rfl fun t now hturns => ?_
    refine .bind (.addVertexFrom (.pure (.single (.addVertex hturns))) fun hread => ?_)
    cases hmutates hread
  addEdge label properties source target hsource htarget := by
    intro access steps rest start g env scope input hvisits hmutates
    refine .turns hvisits rfl fun t now hturns => ?_
    suffices hends : Ensures (connect access label properties source target t) now
        (fun _ g' => Trail access steps start now g')
        fun e g' => Fails access steps start e g' ∧ Trail access steps start now g' from
      .bind (hends.mono (fun _ _ h => .pure h) fun _ _ h => h)
    rw [connect_eq]
    refine .bind (.read (fun current hcurrent => ?_) fun e hfails => ⟨.current hturns hfails, .refl⟩)
    have hitem := eq_of_vertexFor_eq_ok hcurrent
    cases honly : Step.onlySelector? source target with
    | none => exact .refuse ⟨.selectors hturns hitem honly, .refl⟩
    | some only =>
        obtain ⟨edgeEnd, selector⟩ := only
        -- The selector has moments of its own, so what it changes lies on the trail as well.
        obtain ⟨_, hmoment⟩ := visits_selector_of_turns hturns hitem honly
        have hselector : LeavesTrailAll selector :=
          Step.all_of_onlySelector? hsource htarget honly
        have hends := (hselector hmoment fun hread => nomatch hmutates hread).and .run
        refine .bind (hends.mono (fun found g' ⟨htrail, hrun⟩ => ?_) fun _ _ h => h.1)
        refine .bind (.read (fun chosen hchosen => ?_) fun e hchosen => ?_)
        · have hmakes := Makes.addEdge hturns hitem honly hrun hchosen
          refine .bind (.change (.pure (htrail.trans (Trail.single hmakes))) fun hread => ?_)
          cases hmutates hread
        · exact ⟨.chosen hturns hitem honly hrun hchosen, htrail⟩
  update properties := by
    intro access steps rest start g env scope input hvisits hmutates
    refine .turns hvisits rfl fun t now hturns => ?_
    refine .bind (.updateItem (fun kind id hitem => ?_) (fun hread => ?_) fun hitem => ?_)
    · exact .pure (.single (.update hturns hitem))
    · cases hmutates hread
    · exact ⟨.update hturns hitem, .refl⟩
  bind name continuation ih := by
    intro access steps rest start g env scope input hvisits hmutates
    refine .turns hvisits rfl fun t now hturns => ?_
    obtain ⟨_, hmoment⟩ := visits_continuation_of_turns hturns
    exact .continueFrom (ih hmoment hmutates)
  drop := by
    intro access steps rest start g env scope input hvisits hmutates
    refine .turns hvisits rfl fun t now hturns => ?_
    refine .bind (.dropItem (fun kind id hitem => ?_) (fun _ => .pure .refl) fun hread => ?_)
    · exact .pure (.single (.remove hturns hitem))
    · cases hmutates hread
  nil := by
    intro access steps start g env scope input _ _
    exact .pure .refl
  cons step rest hstep hrest := by
    intro access steps start g env scope input hvisits hmutates
    simp only [Step.anyMutates, Bool.or_eq_false_iff] at hmutates
    have hfirst := (hstep hvisits fun hread => (hmutates hread).1).and .run
    rw [evaluateSteps_cons]
    refine .bind (hfirst.mono (fun out between ⟨htrail, hrun⟩ => ?_) fun _ _ h => h.1)
    have hlater := hrest (.next hvisits hrun) fun hread => (hmutates hread).2
    exact hlater.mono (fun _ _ h => htrail.trans h) fun _ _ h => ⟨h.1, htrail.trans h.2⟩

theorem anyMutates_of_visits {env : Bindings} {m : Moment} (h : Visits access steps g env m)
    (hmutates : Step.anyMutates m.steps = true) : Step.anyMutates steps = true := by
  induction h with
  | start => exact hmutates
  | next _ _ ih =>
      apply ih
      rw [Step.anyMutates, hmutates, Bool.or_true]
  | continuation _ _ ih =>
      apply ih
      rw [Step.anyMutates, Step.mutates, hmutates, Bool.true_or]
  | selector _ _ _ _ ih => exact ih rfl

theorem anyMutates_of_makes {change : Change} {now : Graph}
    (h : Makes access steps g change now) : Step.anyMutates steps = true := by
  cases h with
  | addVertex hturns | addEdge hturns | update hturns | remove hturns =>
      obtain ⟨hvisits, -, -⟩ := hturns
      exact anyMutates_of_visits hvisits rfl

end Ends

theorem evaluate_ends (g : Graph) (c : CompiledTraversal) :
    Ensures (runSteps (accessFor c.steps) c.steps) g
      (fun _ g' => Trail (accessFor c.steps) c.steps g g g')
      fun e g' => Fails (accessFor c.steps) c.steps g e g' ∧
        Trail (accessFor c.steps) c.steps g g g' :=
  .runSteps (leavesTrail.holdsOfAll c.steps .start anyMutates_eq_false_of_accessFor)

/-- An evaluation fails exactly when it comes to an operation that fails, and leaves the graph as this
operation has found it. All changes made before stay, so the graph is the one from before the evaluation
if there are none. -/
theorem failure_keeps_earlier_changes (g g' : Graph) (c : CompiledTraversal) (e : EngineError) :
    (g.evaluate c = (.error e, g') ↔ Fails (accessFor c.steps) c.steps g e g') ∧
    (g.evaluate c = (.error e, g') →
      Trail (accessFor c.steps) c.steps g g g' ∧
      ((∀ change now, ¬ Makes (accessFor c.steps) c.steps g change now) → g' = g) ∧
      (Step.anyMutates c.steps = false → g' = g)) := by
  have hends := evaluate_ends g c
  constructor
  · constructor
    · intro hfails
      exact (hends.of_error hfails).1
    · intro hfails
      exact run_bind_of_error (run_of_fails hfails)
  · intro hfails
    have htrail := (hends.of_error hfails).2
    refine ⟨htrail, htrail.eq_of_not_makes, fun hreads => htrail.eq_of_not_makes ?_⟩
    intro change now hmakes
    rw [anyMutates_of_makes hmakes] at hreads
    cases hreads

/-- A person is added with an acquaintance that is not there: the evaluation fails, and the person
stays. -/
theorem failed_evaluation_leaves_vertex :
    let unknown : List Step := [.selectById .vertex [.int 99]]
    let c : CompiledTraversal := ⟨[.addVertex "person" [], .addEdge "knows" [] none (some unknown)]⟩
    CompiledTraversal.compile c.steps = .ok c ∧
      (Graph.empty.evaluate c).1 = .error (.endpoint "knows" 0) ∧
      Graph.empty.vertices.keys = [] ∧ (Graph.empty.evaluate c).2.vertices.keys = [1] :=
  ⟨rfl, rfl, rfl, rfl⟩

theorem vertex_on_trail_of_failure :
    let unknown : List Step := [.selectById .vertex [.int 99]]
    let c : CompiledTraversal := ⟨[.addVertex "person" [], .addEdge "knows" [] none (some unknown)]⟩
    let left : Graph := (Graph.empty.addVertex "person" []).2
    Graph.empty.evaluate c = (.error (.endpoint "knows" 0), left) ∧
      Fails .write c.steps .empty (.endpoint "knows" 0) left ∧
      Trail .write c.steps .empty .empty left := by
  intro unknown c left
  have hfails : Graph.empty.evaluate c = (.error (.endpoint "knows" 0), left) := rfl
  obtain ⟨hiff, hkeeps⟩ := failure_keeps_earlier_changes .empty left c (.endpoint "knows" 0)
  exact ⟨hfails, hiff.mp hfails, (hkeeps hfails).1⟩

end PropertyGraph
