import PropertyGraph.Proofs.Scoping

/-!
# Places

Steps are nested in binds and edge creations, and each nested sequence has a place: the indices of the
steps on the way to it. The place determines the sequence and the binds around it. An evaluation that has
come to a place has entered these binds and no others, each with the item of the traverser that it is
entered for, and these items are what its traversers carry.
-/

namespace PropertyGraph

/-- The indices of the steps that a sequence is nested in, outermost first. -/
abbrev Place := List Nat

/-- The sequence nested in a step, and the name that is bound in it. -/
def Step.nested? : Step → Option (Option String × List Step)
  | bind name continuation => some (some name, continuation)
  | addEdge _ _ source target =>
    (onlySelector? source target).map fun (_, selector) => (none, selector)
  | _ => none

/-- The sequence at a place, with the binds around it, innermost first. -/
inductive StandsAt (steps : List Step) : Place → List (Place × String) → List Step → Prop
  | top : StandsAt steps [] [] steps
  | nested {place : Place} {binds : List (Place × String)} {sequence inner : List Step}
      {index : Nat} {step : Step} {name : Option String} :
      StandsAt steps place binds sequence → sequence[index]? = some step →
      step.nested? = some (name, inner) →
      StandsAt steps (place ++ [index]) (name.toList.map (place ++ [index], ·) ++ binds) inner

namespace StandsAt

variable {steps sequence sequence' : List Step} {place : Place} {binds binds' : List (Place × String)}

theorem unique (h : StandsAt steps place binds sequence)
    (h' : StandsAt steps place binds' sequence') : binds = binds' ∧ sequence = sequence' := by
  induction h generalizing binds' sequence' with
  | top =>
      generalize hplace : ([] : Place) = whole at h'
      cases h' with
      | top => exact ⟨rfl, rfl⟩
      | nested => simp at hplace
  | @nested place binds sequence inner index step name _ hstep hinner ih =>
      generalize hplace : place ++ [index] = whole at h'
      cases h' with
      | top => simp at hplace
      | nested houter' hstep' hinner' =>
          obtain ⟨rfl, hindex⟩ := List.append_inj' hplace rfl
          cases hindex
          obtain ⟨rfl, rfl⟩ := ih houter'
          cases hstep.symm.trans hstep'
          cases hinner.symm.trans hinner'
          exact ⟨rfl, rfl⟩

theorem length_le (h : StandsAt steps place binds sequence) :
    ∀ bind ∈ binds, bind.1.length ≤ place.length := by
  induction h with
  | top => exact fun _ hbind => nomatch hbind
  | @nested place _ _ _ index _ name _ _ _ ih =>
      intro bind hbind
      rw [List.length_append]
      rcases List.mem_append.mp hbind with hbind | hbind
      · obtain ⟨_, -, rfl⟩ := List.mem_map.mp hbind
        exact Nat.le_of_eq List.length_append
      · exact Nat.le_add_right_of_le (ih bind hbind)

/-- The binds around a sequence are at different places. -/
theorem nodup (h : StandsAt steps place binds sequence) : (binds.map Prod.fst).Nodup := by
  induction h with
  | top => exact .nil
  | @nested place binds _ _ index _ name houter _ _ ih =>
      cases name with
      | none => exact ih
      | some name =>
          refine List.nodup_cons.mpr ⟨fun hmem => ?_, ih⟩
          obtain ⟨bind, hbind, hplace⟩ := List.mem_map.mp hmem
          have hlength := houter.length_le bind hbind
          rw [hplace, List.length_append] at hlength
          exact Nat.not_succ_le_self _ hlength

end StandsAt

/-- A bind that has been entered for an item. -/
structure Activation where
  place : Place
  name : String
  item : Item

/-- The moments of an evaluation, each with its place, the number of steps of the sequence there that lie
behind it, and the binds that are entered. -/
inductive VisitsAt (access : Access) (steps : List Step) (g : Graph) :
    Place → Nat → List Activation → Moment → Prop
  | start : VisitsAt access steps g [] 0 [] ⟨steps, [⟨.root, []⟩], [], g⟩
  | next {place : Place} {index : Nat} {entered : List Activation} {scope : Bindings} {step : Step}
      {rest : List Step} {input out : List Traverser} {before after : Graph} :
      VisitsAt access steps g place index entered ⟨step :: rest, input, scope, before⟩ →
      (evaluateStep access step input scope).run before = (.ok out, after) →
      VisitsAt access steps g place (index + 1) entered ⟨rest, out, scope, after⟩
  | continuation {place : Place} {index : Nat} {entered : List Activation} {scope : Bindings}
      {name : String} {continuation rest : List Step} {earlier later : List Traverser}
      {t : Traverser} {parts : List (List Traverser)} {before after : Graph} :
      VisitsAt access steps g place index entered
        ⟨.bind name continuation :: rest, earlier ++ t :: later, scope, before⟩ →
      (earlier.mapM (continueFrom access name continuation)).run before = (.ok parts, after) →
      VisitsAt access steps g (place ++ [index]) 0 (⟨place ++ [index], name, t.item⟩ :: entered)
        ⟨continuation, [⟨t.item, (name, t.item) :: t.bindings⟩], (name, t.item) :: t.bindings, after⟩
  | selector {place : Place} {index : Nat} {entered : List Activation} {scope : Bindings}
      {label : String} {properties : List Property} {source target : Option (List Step)}
      {rest selector : List Step} {edgeEnd : EdgeEnd} {earlier later created : List Traverser}
      {t : Traverser} {before after : Graph} :
      VisitsAt access steps g place index entered
        ⟨.addEdge label properties source target :: rest, earlier ++ t :: later, scope, before⟩ →
      (earlier.mapM (connect access label properties source target)).run before
        = (.ok created, after) →
      t.item.kind? = some .vertex →
      Step.onlySelector? source target = some (edgeEnd, selector) →
      VisitsAt access steps g (place ++ [index]) 0 entered ⟨selector, [t], t.bindings, after⟩

section Visits

variable {access : Access} {steps : List Step} {g : Graph} {place : Place} {index : Nat}
  {entered : List Activation} {m : Moment}

def Activation.binding (a : Activation) : String × Item := (a.name, a.item)

def Activation.bind (a : Activation) : Place × String := (a.place, a.name)

theorem VisitsAt.visits (h : VisitsAt access steps g place index entered m) :
    Visits access steps g (entered.map Activation.binding) m := by
  induction h with
  | start => exact .start
  | next _ hrun ih => exact .next ih hrun
  | continuation _ hearlier ih => exact .continuation ih hearlier
  | selector _ hearlier hvertex honly ih => exact .selector ih hearlier hvertex honly

/-- The binds that are entered at a place are those around it. -/
theorem VisitsAt.stands (h : VisitsAt access steps g place index entered m) :
    ∃ sequence, StandsAt steps place (entered.map Activation.bind) sequence ∧
      m.steps = sequence.drop index := by
  induction h with
  | start => exact ⟨steps, .top, rfl⟩
  | @next place index entered scope step rest _ _ _ _ _ _ ih =>
      obtain ⟨sequence, hstands, hsteps⟩ := ih
      refine ⟨sequence, hstands, ?_⟩
      rw [← List.tail_drop, ← hsteps]
      rfl
  | @continuation place index entered _ name continuation rest _ _ _ _ _ _ _ _ ih =>
      obtain ⟨sequence, hstands, hsteps⟩ := ih
      have hstep : sequence[index]? = some (.bind name continuation) := by
        rw [← List.head?_drop, ← hsteps]
        rfl
      exact ⟨continuation, .nested hstands hstep rfl, rfl⟩
  | @selector place index entered _ label properties source target rest selector edgeEnd _ _ _ _ _ _
      _ _ _ honly ih =>
      obtain ⟨sequence, hstands, hsteps⟩ := ih
      have hstep : sequence[index]? = some (.addEdge label properties source target) := by
        rw [← List.head?_drop, ← hsteps]
        rfl
      have hinner : (Step.addEdge label properties source target).nested?
          = some (none, selector) := by
        rw [Step.nested?, honly]
        rfl
      exact ⟨selector, .nested hstands hstep hinner, rfl⟩

theorem VisitsAt.bindings (h : VisitsAt access steps g place index entered m) :
    ∀ t ∈ m.input, t.bindings = entered.map Activation.binding := (bindings_of_visits h.visits).2

end Visits

end PropertyGraph
