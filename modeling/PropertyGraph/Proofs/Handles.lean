import Mathlib.Data.List.Nodup
import PropertyGraph.Proofs.Building
import PropertyGraph.Proofs.Places

/-!
# What a handle stands for

A bind gives out a handle with a number, and a predicate may use the handle wherever its program has got
hold of it. The builder compares numbers, the steps keep names alone, and the engine looks names up. All
three mean the same bind. The binds that a program opens are numbered in their order, so a number tells
them apart; the scope of a traversal lists the binds around it; and the steps of a finished program have
the same binds around the same places, which is where the engine has bound an item to the name.
-/

namespace PropertyGraph

/-- A bind that has been opened, with its place in the finished steps and the key of its handle. -/
structure Opening where
  place : Place
  key : String
  binding : Binding

namespace Call

/-- The name of a bind. -/
def boundName (t : Traversal) (name : Option String) : String :=
  name.getD (Scope.generatedName t.scope.length)

/-- The opening of a bind that is called on a traversal. -/
def opening (place : Place) (t : Traversal) (name : Option String) (key : String)
    (state : BuildState) : Opening :=
  ⟨place ++ [t.steps.length], key, (state.openScope (boundName t name) key).1⟩

/-- Whether the creation of an edge comes to its selector. -/
def asksSelector (model : GraphModel) (t : Traversal) (type : ElementType) (value : Json) : Bool :=
  isOf .vertex t.result && type.kind == .edge &&
    ((readValue type value).bind (Traversal.draftEdge model type)).isOk

mutual
/-- The binds that a run of a call opens, in their order. -/
def openings (model : GraphModel) (place : Place) (t : Traversal) :
    Call → BuildState → List Opening
  | .addEdge type value _ selector, state =>
    if asksSelector model t type value then
      openingsAll model (place ++ [t.steps.length]) t.anonymous selector state
    else []
  | .bind name key continuation, state =>
    if (boundName t name).isEmpty then []
    else
      opening place t name key state ::
        openingsAll model (place ++ [t.steps.length])
          (t.opened (opening place t name key state).binding) continuation
          (state.openScope (boundName t name) key).2
  | _, _ => []
termination_by structural call => call
def openingsAll (model : GraphModel) (place : Place) (t : Traversal) :
    List Call → BuildState → List Opening
  | [], _ => []
  | call :: rest, state =>
    openings model place t call state ++
      match (run model t call).run state with
      | (.ok t', state') => openingsAll model place t' rest state'
      | (.error _, _) => []
termination_by structural calls => calls
end

end Call

/-- These binds have been opened between two states, and nothing else has given out handles. -/
structure Opens (opened : List Opening) (s s' : BuildState) : Prop where
  handles : s'.handles = (opened.map fun o => (o.key, o.binding)).reverse ++ s.handles
  numbers : opened.map (·.binding.scope) = List.range' s.nextScope opened.length
  next : s'.nextScope = s.nextScope + opened.length

namespace Opens

variable {s s' s'' : BuildState} {opened more : List Opening}

theorem refl (s : BuildState) : Opens [] s s := ⟨rfl, rfl, rfl⟩

theorem trans (h : Opens opened s s') (h' : Opens more s' s'') : Opens (opened ++ more) s s'' where
  handles := by
    rw [h'.handles, h.handles, List.map_append, List.reverse_append, List.append_assoc]
  numbers := by
    rw [List.map_append, h.numbers, h'.numbers, h.next, List.length_append, List.range'_append_1]
  next := by rw [h'.next, h.next, List.length_append, Nat.add_assoc]

theorem single (place : Place) (t : Traversal) (name : Option String) (key : String)
    (s : BuildState) : Opens [Call.opening place t name key s] s
      (s.openScope (Call.boundName t name) key).2 := ⟨rfl, rfl, rfl⟩

/-- Binds have different numbers. -/
theorem nodup (h : Opens opened s s') : (opened.map (·.binding.scope)).Nodup := by
  rw [h.numbers]
  exact List.nodup_range'

theorem number_mem (h : Opens opened s s') {o : Opening} (ho : o ∈ opened) :
    o.binding.scope ∈ List.range' s.nextScope opened.length :=
  h.numbers ▸ List.mem_map_of_mem ho

theorem le (h : Opens opened s s') {o : Opening} (ho : o ∈ opened) :
    s.nextScope ≤ o.binding.scope :=
  (List.mem_range'_1.mp (h.number_mem ho)).1

theorem lt (h : Opens opened s s') {o : Opening} (ho : o ∈ opened) :
    o.binding.scope < s'.nextScope :=
  h.next ▸ (List.mem_range'_1.mp (h.number_mem ho)).2

theorem nextScope_le (h : Opens opened s s') : s.nextScope ≤ s'.nextScope :=
  h.next ▸ Nat.le_add_right _ _

theorem eq_of_scope (h : Opens opened s s') {o o' : Opening} (ho : o ∈ opened) (ho' : o' ∈ opened)
    (hscope : o.binding.scope = o'.binding.scope) : o = o' :=
  List.inj_on_of_nodup_map h.nodup ho ho' hscope

end Opens

section Runs

variable {model : GraphModel} {t : Traversal} {state : BuildState}

theorem Ensures.ofExcept_state {α : Type} (r : Except TraversalError α) (state : BuildState) :
    Ensures (Build.ofExcept r) state (fun a s => r = .ok a ∧ s = state) fun _ s => s = state := by
  cases r with
  | ok a => exact .pure ⟨rfl, rfl⟩
  | error e => exact rfl

theorem Ensures.require_state (available : Bool) (state : BuildState) :
    Ensures (Build.require available) state (fun _ s => available = true ∧ s = state)
      fun _ s => s = state := by
  cases available with
  | true => exact .pure ⟨rfl, rfl⟩
  | false => exact rfl

theorem run_bindCall (name : Option String) (key : String) (continuation : List Call)
    (hname : (Call.boundName t name).isEmpty = false) :
    ((Call.bind name key continuation).run model t).run state
      = (do
          let inner ← Call.runAll model
            (t.opened (state.openScope (Call.boundName t name) key).1) continuation
          return t.closed (Call.boundName t name) inner : Build Traversal).run
        (state.openScope (Call.boundName t name) key).2 := by
  unfold Call.run
  dsimp only
  rw [if_neg (by simpa [Call.boundName] using hname)]
  rfl

theorem run_bindCall_of_isEmpty (name : Option String) (key : String) (continuation : List Call)
    (hname : (Call.boundName t name).isEmpty = true) :
    ((Call.bind name key continuation).run model t).run state
      = (.error (.refused (.unboundReference (Call.boundName t name))), state) := by
  have hname' : (name.getD (Scope.generatedName t.scope.length)).isEmpty = true := hname
  unfold Call.run
  dsimp only
  rw [if_pos hname']
  rfl

theorem run_addEdgeCall {type : ElementType} {value : Json} (state : BuildState)
    (edgeEnd : EdgeEnd) (selector : List Call) (hasks : Call.asksSelector model t type value = true) :
    ∃ draft, ((Call.addEdge type value edgeEnd selector).run model t).run state
      = (do
          let chosen ← Call.runAll model t.anonymous selector
          Build.require (Call.isOf .vertex chosen.result)
          Build.ofExcept (t.addEdge draft edgeEnd chosen.steps) : Build Traversal).run state := by
  rw [Call.asksSelector, Bool.and_eq_true] at hasks
  obtain ⟨havailable, hdraft⟩ := hasks
  cases hread : Call.readValue type value with
  | error e =>
      rw [hread] at hdraft
      cases hdraft
  | ok value' =>
      rw [hread] at hdraft
      cases hdraft' : Traversal.draftEdge model type value' with
      | error e =>
          simp [Except.bind, hdraft', Except.isOk, Except.toBool] at hdraft
      | ok draft =>
          refine ⟨draft, ?_⟩
          have havailable' : (Call.addEdge type value edgeEnd []).available t.result = true :=
            havailable
          simp only [Call.run, havailable', hread, Build.require, Build.ofExcept, hdraft', if_true,
            pure_bind]

theorem run_addEdgeCall_of_not {type : ElementType} {value : Json} (state : BuildState)
    (edgeEnd : EdgeEnd) (selector : List Call) (hasks : Call.asksSelector model t type value = false) :
    ∃ e, ((Call.addEdge type value edgeEnd selector).run model t).run state = (.error e, state) := by
  rw [Call.run]
  cases havailable : (Call.addEdge type value edgeEnd []).available t.result with
  | false => exact ⟨_, run_bind_of_error rfl⟩
  | true =>
      have hrequire : (Build.require true).run state = (.ok (), state) := rfl
      rw [run_bind_of_ok hrequire]
      cases hread : Call.readValue type value with
      | error e => exact ⟨_, run_bind_of_error rfl⟩
      | ok value' =>
          have hvalue : (Build.ofExcept (.ok value')).run state = (.ok value', state) := rfl
          rw [run_bind_of_ok hvalue]
          cases hdraft : Traversal.draftEdge model type value' with
          | error e => exact ⟨_, run_bind_of_error rfl⟩
          | ok draft =>
              have havailable' : (Call.isOf .vertex t.result && type.kind == .edge) = true :=
                havailable
              simp [Call.asksSelector, havailable', hread, Except.bind, hdraft, Except.isOk,
                Except.toBool] at hasks

/-- A computation opens these binds, whether it succeeds or not. -/
def OpensRunning {α : Type} (opened : List Opening) (state : BuildState) (m : Build α) : Prop :=
  Ensures m state (fun _ s => Opens opened state s) fun _ s => Opens opened state s

theorem opensRunning_of_isSimple {call : Call} (place : Place) (h : call.isSimple = true) :
    OpensRunning (call.openings model place t state) state (call.run model t) := by
  have hnone : call.openings model place t state = [] := by
    cases call <;> first | rfl | cases h
  rw [hnone, run_of_isSimple h]
  refine .bind ((Ensures.require_state _ state).mono ?_ fun _ _ hs => hs ▸ .refl state)
  rintro _ _ ⟨-, rfl⟩
  exact (Ensures.ofExcept_state _ _).mono (fun _ _ hs => hs.2 ▸ .refl _) fun _ _ hs => hs ▸ .refl _

mutual
theorem opensRunning (model : GraphModel) : ∀ (call : Call) (place : Place) (t : Traversal)
    (state : BuildState), OpensRunning (call.openings model place t state) state (call.run model t)
  | .filter predicate, _, t, state =>
      (Ensures.ofExcept_state _ state).mono (fun _ _ hs => hs.2 ▸ .refl _) fun _ _ hs => hs ▸ .refl _
  | .addEdge type value edgeEnd selector, place, t, state => by
      cases hasks : Call.asksSelector model t type value with
      | true =>
          obtain ⟨draft, hrun⟩ := run_addEdgeCall state edgeEnd selector hasks
          rw [OpensRunning, Ensures, hrun, Call.openings, if_pos hasks]
          refine Ensures.bind ?_
          have hselector := opensRunningAll model selector (place ++ [t.steps.length]) t.anonymous state
          refine hselector.mono (fun chosen state' h => ?_) fun _ _ h => h
          refine .bind ((Ensures.require_state _ state').mono ?_ fun _ _ hs => hs ▸ h)
          rintro _ _ ⟨-, rfl⟩
          exact (Ensures.ofExcept_state _ _).mono (fun _ _ hs => hs.2 ▸ h) fun _ _ hs => hs ▸ h
      | false =>
          obtain ⟨e, hrun⟩ := run_addEdgeCall_of_not state edgeEnd selector hasks
          rw [OpensRunning, Ensures, hrun, Call.openings, if_neg (by simp [hasks])]
          exact .refl state
  | .bind name key continuation, place, t, state => by
      cases hname : (Call.boundName t name).isEmpty with
      | true =>
          rw [OpensRunning, Ensures, run_bindCall_of_isEmpty name key continuation hname,
            Call.openings, if_pos hname]
          exact .refl state
      | false =>
        rw [OpensRunning, Ensures, run_bindCall name key continuation hname, Call.openings,
          if_neg (by simp [hname])]
        refine Ensures.bind ?_
        have hinner := opensRunningAll model continuation (place ++ [t.steps.length])
          (t.opened (Call.opening place t name key state).binding)
          (state.openScope (Call.boundName t name) key).2
        have hopen := Opens.single place t name key state
        exact hinner.mono (fun _ _ h => .pure (hopen.trans h)) fun _ _ h => hopen.trans h
  | .probe question, _, t, state => ⟨rfl, rfl, rfl⟩
  | .vertices, _, _, _ | .edges, _, _, _ | .verticesOf _, _, _, _ | .edgesOf _, _, _, _
  | .vertexOf _ _, _, _, _ | .verticesById _, _, _, _ | .addVertex _ _, _, _, _
  | .inject _, _, _, _ | .fold, _, _, _ | .limit _, _, _, _ | .count, _, _, _ | .drop, _, _, _
  | .ofType _, _, _, _ | .id, _, _, _ | .label, _, _, _ | .values _ _, _, _, _
  | .update _, _, _, _ | .walk _ _, _, _, _ | .walkEdges _ _, _, _, _ | .walkAny _, _, _, _
  | .endpoint _, _, _, _ | .unreadable _, _, _, _ => opensRunning_of_isSimple _ rfl
termination_by structural call => call
theorem opensRunningAll (model : GraphModel) : ∀ (calls : List Call) (place : Place) (t : Traversal)
    (state : BuildState),
    OpensRunning (Call.openingsAll model place t calls state) state (Call.runAll model t calls)
  | [], _, t, state => .refl state
  | call :: rest, place, t, state => by
      have hcall := (opensRunning model call place t state).and .run
      refine .bind (hcall.mono ?_ ?_)
      · intro t' state' ⟨hopens, hrun⟩
        have hrest := opensRunningAll model rest place t' state'
        rw [Call.openingsAll, hrun]
        exact hrest.mono (fun _ _ h => hopens.trans h) fun _ _ h => hopens.trans h
      · intro e state' ⟨hopens, hrun⟩
        rw [Call.openingsAll, hrun]
        simpa using hopens
termination_by structural calls => calls
end

end Runs

namespace BuildState

/-- Handles that are given out are told apart from those to come, and from one that never was. -/
structure Sound (s : BuildState) : Prop where
  pos : 0 < s.nextScope
  lt : ∀ handle ∈ s.handles, handle.2.scope < s.nextScope

theorem sound_initial : initial.Sound := ⟨Nat.one_pos, fun _ h => nomatch h⟩

end BuildState

/-! ### The moments of a program

Calls are made one after the other, and those of a continuation or a selector while the call around them is
under way. What a call finds depends on this, so places are followed through the making of a program. -/

/-- The calls that are left, the traversal they continue and the state. -/
structure BuildMoment where
  calls : List Call
  traversal : Traversal
  state : BuildState

/-- The moments of a program, each with its place, the binds around it, innermost first, and all binds
opened before it, newest first. -/
inductive Builds (model : GraphModel) (calls : List Call) (state : BuildState) :
    Place → List Opening → List Opening → BuildMoment → Prop
  | start : Builds model calls state [] [] [] ⟨calls, .source, state⟩
  | next {place : Place} {entered opened : List Opening} {call : Call} {rest : List Call}
      {t t' : Traversal} {s s' : BuildState} :
      Builds model calls state place entered opened ⟨call :: rest, t, s⟩ →
      (call.run model t).run s = (.ok t', s') →
      Builds model calls state place entered ((call.openings model place t s).reverse ++ opened)
        ⟨rest, t', s'⟩
  | continuation {place : Place} {entered opened : List Opening} {name : Option String}
      {key : String} {continuation rest : List Call} {t : Traversal} {s : BuildState} :
      Builds model calls state place entered opened ⟨.bind name key continuation :: rest, t, s⟩ →
      (Call.boundName t name).isEmpty = false →
      Builds model calls state (place ++ [t.steps.length])
        (Call.opening place t name key s :: entered) (Call.opening place t name key s :: opened)
        ⟨continuation, t.opened (Call.opening place t name key s).binding,
          (s.openScope (Call.boundName t name) key).2⟩
  | selector {place : Place} {entered opened : List Opening} {type : ElementType} {value : Json}
      {edgeEnd : EdgeEnd} {selector rest : List Call} {t : Traversal} {s : BuildState} :
      Builds model calls state place entered opened
        ⟨.addEdge type value edgeEnd selector :: rest, t, s⟩ →
      Call.asksSelector model t type value = true →
      Builds model calls state (place ++ [t.steps.length]) entered opened
        ⟨selector, t.anonymous, s⟩

section Moments

variable {model : GraphModel} {calls : List Call} {state : BuildState} {place : Place}
  {entered opened : List Opening} {m : BuildMoment}

theorem Builds.opens (h : Builds model calls state place entered opened m) :
    Opens opened.reverse state m.state := by
  induction h with
  | start => exact .refl state
  | @next place _ _ call _ t _ s _ _ hrun ih =>
      rw [List.reverse_append, List.reverse_reverse]
      exact ih.trans ((opensRunning model call place t s).of_ok hrun)
  | continuation _ _ ih =>
      rw [List.reverse_cons]
      exact ih.trans (.single ..)
  | selector _ _ ih => exact ih

/-- The binds around a moment are among those that have been opened. -/
theorem Builds.sublist (h : Builds model calls state place entered opened m) :
    entered.Sublist opened := by
  induction h with
  | start => exact .slnil
  | next _ _ ih => exact ih.trans (List.sublist_append_right ..)
  | continuation _ _ ih => exact ih.cons_cons _
  | selector _ _ ih => exact ih

theorem scope_run {call : Call} {t t' : Traversal} {s s' : BuildState}
    (h : (call.run model t).run s = (.ok t', s')) : t'.scope = t.scope := by
  obtain ⟨added, hadded⟩ := (appendsChecked_run model call t s).of_ok h
  exact hadded.scope

/-- The scope of a traversal consists of the binds around it. -/
theorem Builds.scope (h : Builds model calls state place entered opened m) :
    m.traversal.scope = entered.map Opening.binding := by
  induction h with
  | start => rfl
  | next _ hrun ih => exact (scope_run hrun).trans ih
  | continuation _ _ ih => exact congrArg _ ih
  | selector _ _ ih => exact ih

theorem Builds.exists_opening (h : Builds model calls state place entered opened m)
    {binding : Binding} (hbinding : binding ∈ m.traversal.scope) :
    ∃ o ∈ opened.reverse, o.binding = binding := by
  rw [h.scope] at hbinding
  obtain ⟨o, ho, hsame⟩ := List.mem_map.mp hbinding
  exact ⟨o, List.mem_reverse.mpr (h.sublist.subset ho), hsame⟩

theorem lookup_openings (opened : List Opening) (key : String) :
    (opened.map fun o => (o.key, o.binding)).lookup key
      = (opened.find? (·.key == key)).map Opening.binding := by
  induction opened with
  | nil => rfl
  | cons o rest ih =>
      rw [List.map_cons, List.lookup_cons, List.find?_cons, ih]
      rw [Bool.beq_comm]
      cases o.key == key <;> rfl

theorem find?_map_binding (entered : List Opening) (name : String) :
    (entered.map Opening.binding).find? (·.name == name)
      = (entered.find? (·.binding.name == name)).map Opening.binding := by
  rw [List.find?_map]
  rfl

theorem resolve_eq_ok_iff {scope : Scope} {reference : Reference} :
    scope.resolve reference = .ok () ↔
      ∃ binding, scope.find? (·.name == reference.name) = some binding ∧
        ∀ number, reference.scope = some number → number = binding.scope := by
  rw [Scope.resolve]
  cases scope.find? (·.name == reference.name) with
  | none => simp
  | some binding =>
      cases reference.scope with
      | none => simp
      | some number =>
          by_cases hnumber : number = binding.scope <;> simp [hnumber]

theorem resolve_eq_error {scope : Scope} {reference : Reference}
    (h : scope.resolve reference ≠ .ok ()) :
    scope.resolve reference = .error (.unboundReference reference.name) := by
  rw [Scope.resolve] at h ⊢
  split
  · rfl
  · split
    · simp_all
    · rfl

/-- What a mention means at a moment. A handle means its own bind, which has to be the innermost of its
name there; the newest handle of a key counts. A name means the innermost bind of that name. -/
def Denotes (entered opened : List Opening) : Mention → Prop
  | .handle key => ∃ o, opened.find? (·.key == key) = some o ∧
      entered.find? (·.binding.name == o.binding.name) = some o
  | .named name => ∃ o ∈ entered, o.binding.name = name

/-- The handle of a key, when its newest bind of this program is known. -/
theorem resolve_handle {o : Opening} {key : String} {s : BuildState}
    (hopens : Opens opened.reverse state s) (hkey : opened.find? (·.key == key) = some o) :
    (Mention.handle key).resolve s.handles = o.binding.reference := by
  have hlookup : s.handles.lookup key = some o.binding := by
    rw [hopens.handles, List.map_reverse, List.reverse_reverse, List.lookup_append,
      lookup_openings, hkey]
    rfl
  rw [Mention.resolve, hlookup]

/-- A handle of an earlier program, or one that was never given out. -/
theorem number_of_foreign_handle {key : String} {s : BuildState} (hstate : state.Sound)
    (hopens : Opens opened.reverse state s) (hkey : opened.find? (·.key == key) = none) :
    ∃ number, ((Mention.handle key).resolve s.handles).scope = some number ∧
      number < state.nextScope := by
  have hlookup : s.handles.lookup key = state.handles.lookup key := by
    rw [hopens.handles, List.map_reverse, List.reverse_reverse, List.lookup_append,
      lookup_openings, hkey]
    rfl
  rw [Mention.resolve, hlookup]
  cases hfound : state.handles.lookup key with
  | none => exact ⟨0, rfl, hstate.pos⟩
  | some binding =>
      obtain ⟨newer, older, hsplit, -⟩ := List.lookup_eq_some_iff.mp hfound
      exact ⟨binding.scope, rfl, hstate.lt (key, binding) (by simp [hsplit])⟩

/-- The number of a handle of this program tells whether its name leads to its own bind. -/
theorem resolve_own_handle_iff {s : BuildState} (hopens : Opens opened.reverse state s)
    (hsublist : entered.Sublist opened) {o : Opening} (ho : o ∈ opened) :
    (∃ binding, (entered.find? (·.binding.name == o.binding.name)).map Opening.binding
        = some binding ∧ o.binding.scope = binding.scope) ↔
      entered.find? (·.binding.name == o.binding.name) = some o := by
  constructor
  · rintro ⟨binding, hfind, hscope⟩
    obtain ⟨o', ho', rfl⟩ := Option.map_eq_some_iff.mp hfind
    have hmem' := hsublist.subset (List.mem_of_find?_eq_some ho')
    have heq : o = o' := hopens.eq_of_scope (List.mem_reverse.mpr ho)
      (List.mem_reverse.mpr hmem') hscope
    exact heq ▸ ho'
  · intro hfind
    exact ⟨o.binding, congrArg _ hfind, rfl⟩

/-- No bind around the place has the number of a handle of an earlier program. -/
theorem not_resolve_foreign {s : BuildState} (hopens : Opens opened.reverse state s)
    (hsublist : entered.Sublist opened) {number : Nat} (hlt : number < state.nextScope)
    {name : String} {binding : Binding}
    (hfind : (entered.find? (·.binding.name == name)).map Opening.binding = some binding) :
    number ≠ binding.scope := by
  obtain ⟨o, ho, rfl⟩ := Option.map_eq_some_iff.mp hfind
  have hmem := hsublist.subset (List.mem_of_find?_eq_some ho)
  exact Nat.ne_of_lt (Nat.lt_of_lt_of_le hlt (hopens.le (List.mem_reverse.mpr hmem)))

theorem resolve_iff_denotes (hstate : state.Sound)
    (h : Builds model calls state place entered opened m) (mention : Mention) :
    m.traversal.scope.resolve (mention.resolve m.state.handles) = .ok () ↔
      Denotes entered opened mention := by
  have hopens := h.opens
  rw [resolve_eq_ok_iff, h.scope]
  simp only [find?_map_binding]
  cases mention with
  | named name =>
      have hsome : (entered.find? (·.binding.name == name)).isSome = true ↔
          ∃ o ∈ entered, (o.binding.name == name) = true := List.find?_isSome
      simpa [Mention.resolve, Denotes, Option.isSome_iff_exists] using hsome
  | handle key =>
      cases hkey : opened.find? (·.key == key) with
      | none =>
          obtain ⟨number, hnumber, hlt⟩ := number_of_foreign_handle hstate hopens hkey
          refine iff_of_false ?_ ?_
          · rintro ⟨binding, hfind, hsame⟩
            exact not_resolve_foreign hopens h.sublist hlt hfind (hsame number hnumber)
          · rintro ⟨o, ho, -⟩
            rw [hkey] at ho
            cases ho
      | some o =>
          have hown := resolve_own_handle_iff hopens h.sublist (List.mem_of_find?_eq_some hkey)
          rw [resolve_handle hopens hkey]
          simpa [Denotes, hkey, Binding.reference] using hown

theorem exists_of_forM_eq_error {ε α : Type} {xs : List α} {f : α → Except ε Unit} {e : ε}
    (h : xs.forM f = .error e) : ∃ x ∈ xs, f x = .error e := by
  induction xs with
  | nil => cases h
  | cons x xs ih =>
      rcases of_bind_eq_error h with hx | ⟨_, -, hxs⟩
      · exact ⟨x, List.mem_cons_self, hx⟩
      · obtain ⟨y, hy, he⟩ := ih hxs
        exact ⟨y, List.mem_cons_of_mem _ hy, he⟩

mutual
theorem propertyKeys_map {ρ σ : Type} (f : ρ → σ) :
    ∀ p : Predicate ρ, (p.map f).propertyKeys = p.propertyKeys
  | .has _ _ | .is _ => rfl
  | .conj operands => propertyKeysOfAll_map f operands
  | .disj operands => propertyKeysOfAll_map f operands
  | .neg operand => propertyKeys_map f operand
termination_by structural p => p
theorem propertyKeysOfAll_map {ρ σ : Type} (f : ρ → σ) :
    ∀ ps : List (Predicate ρ),
      Predicate.propertyKeysOfAll (Predicate.mapAll f ps) = Predicate.propertyKeysOfAll ps
  | [] => rfl
  | p :: rest => by
      simp only [Predicate.mapAll, Predicate.propertyKeysOfAll, propertyKeys_map f p,
        propertyKeysOfAll_map f rest]
termination_by structural ps => ps
end

/-- A predicate as it is written into the steps, with names for mentions. -/
def written (s : BuildState) (predicate : Predicate Mention) : Predicate BoundName :=
  (predicate.map (Mention.resolve s.handles)).map Reference.name

/-- A filter is refused for a property, or else for a mention that means nothing there, or else it is
appended. -/
theorem run_filterCall {predicate : Predicate Mention} {rest : List Call} {t : Traversal}
    {s : BuildState} (hstate : state.Sound)
    (h : Builds model calls state place entered opened ⟨.filter predicate :: rest, t, s⟩) :
    (∃ key ∈ predicate.propertyKeys, ∃ e, t.shape.checkProperty model key = .error e ∧
      ((Call.filter predicate).run model t).run s = (.error (.refused e), s)) ∨
    (∀ key ∈ predicate.propertyKeys, t.shape.checkProperty model key = .ok ()) ∧
      ((∃ mention ∈ predicate.references, ¬Denotes entered opened mention ∧
          ((Call.filter predicate).run model t).run s
            = (.error (.refused (.unboundReference (mention.resolve s.handles).name)), s)) ∨
        (∀ mention ∈ predicate.references, Denotes entered opened mention) ∧
          ((Call.filter predicate).run model t).run s
            = (.ok (t.push (.filter (written s predicate)) t.result t.shape), s)) := by
  have hrun : ((Call.filter predicate).run model t).run s
      = (Build.ofExcept (t.filter model (predicate.map (Mention.resolve s.handles)))).run s := rfl
  have hdenotes := resolve_iff_denotes hstate h
  rw [hrun, Traversal.filter, propertyKeys_map, references_map]
  cases hkeys : predicate.propertyKeys.forM (t.shape.checkProperty model) with
  | error e =>
      obtain ⟨key, hkey, he⟩ := exists_of_forM_eq_error hkeys
      exact .inl ⟨key, hkey, e, he, rfl⟩
  | ok _ =>
      refine .inr ⟨forM_eq_ok hkeys, ?_⟩
      cases hresolved : (predicate.references.map (Mention.resolve s.handles)).forM
          t.scope.resolve with
      | error e =>
          obtain ⟨reference, hreference, he⟩ := exists_of_forM_eq_error hresolved
          obtain ⟨mention, hmention, rfl⟩ := List.mem_map.mp hreference
          have hfails : t.scope.resolve (mention.resolve s.handles) ≠ .ok () := by simp [he]
          have hunbound := resolve_eq_error hfails
          cases he.symm.trans hunbound
          exact .inl ⟨mention, hmention, (hdenotes mention).not.mp hfails, rfl⟩
      | ok _ =>
          refine .inr ⟨fun mention hmention => ?_, rfl⟩
          exact (hdenotes mention).mp (forM_eq_ok hresolved _ (List.mem_map_of_mem hmention))

/-- A filter that is appended mentions nothing but what stands for a bind there. -/
theorem denotes_of_filterCall {predicate : Predicate Mention} {rest : List Call} {t t' : Traversal}
    {s s' : BuildState} (hstate : state.Sound)
    (h : Builds model calls state place entered opened ⟨.filter predicate :: rest, t, s⟩)
    (hrun : ((Call.filter predicate).run model t).run s = (.ok t', s')) :
    (∀ mention ∈ predicate.references, Denotes entered opened mention) ∧
      t'.steps = t.steps ++ [.filter (written s predicate)] := by
  rcases run_filterCall hstate h with
    ⟨_, _, _, _, hfails⟩ | ⟨-, ⟨_, _, _, hfails⟩ | ⟨hdenotes, hok⟩⟩
  · cases hrun.symm.trans hfails
  · cases hrun.symm.trans hfails
  · cases hrun.symm.trans hok
    exact ⟨hdenotes, rfl⟩

/-! ### Finished programs

Nothing is taken back of the steps that a call has appended. So a program that is made to the end has, at each
place that was come through, the steps that were appended there. -/

theorem exists_of_run_bind_eq_ok {ε σ α β : Type} {m : ExceptT ε (StateM σ) α}
    {f : α → ExceptT ε (StateM σ) β} {s s' : σ} {b : β} (h : (m >>= f).run s = (.ok b, s')) :
    ∃ a between, m.run s = (.ok a, between) ∧ (f a).run between = (.ok b, s') := by
  rcases hm : m.run s with ⟨e | a, between⟩
  · rw [run_bind_of_error hm] at h
    cases h
  · rw [run_bind_of_ok hm] at h
    exact ⟨a, between, rfl, h⟩

def Opening.bind (o : Opening) : Place × String := (o.place, o.binding.name)

theorem steps_runAll {t t' : Traversal} {s s' : BuildState}
    (h : (Call.runAll model t calls).run s = (.ok t', s')) :
    ∃ added, t'.steps = t.steps ++ added := by
  obtain ⟨added, hadded⟩ := (appendsChecked_runAll model calls t s).of_ok h
  exact ⟨added, hadded.steps⟩

/-- The step that a call appends first stands where the traversal has ended. -/
theorem getElem?_of_pushed {t t₁ t' : Traversal} {s s' : BuildState} {step : Step}
    (hstep : t₁.steps = t.steps ++ [step])
    (h : (Call.runAll model t₁ calls).run s = (.ok t', s')) :
    t'.steps[t.steps.length]? = some step := by
  obtain ⟨added, hsteps⟩ := steps_runAll h
  rw [hsteps, hstep, List.append_assoc]
  simp

theorem exists_step_of_addEdge {draft : Traversal.EdgeDraft} {edgeEnd : EdgeEnd}
    {selector : List Step} {t t' : Traversal} (h : t.addEdge draft edgeEnd selector = .ok t') :
    ∃ step, t'.steps = t.steps ++ [step] ∧ step.nested? = some (none, selector) := by
  obtain ⟨_, -, h⟩ := exists_of_bind_eq_ok h
  cases h
  cases edgeEnd with
  | source => exact ⟨_, rfl, rfl⟩
  | target => exact ⟨_, rfl, rfl⟩

/-- What a program builds at a place stands there in the end, with the same binds around it. -/
theorem Builds.stands {whole : Traversal} {last : BuildState}
    (h : Builds model calls state place entered opened m)
    (hrun : (Call.runAll model .source calls).run state = (.ok whole, last)) :
    ∃ t' s', (Call.runAll model m.traversal m.calls).run m.state = (.ok t', s') ∧
      StandsAt whole.steps place (entered.map Opening.bind) t'.steps := by
  induction h with
  | start => exact ⟨whole, last, hrun, .top⟩
  | next _ hcall ih =>
      obtain ⟨t', s', hrest, hstands⟩ := ih
      rw [Call.runAll, run_bind_of_ok hcall] at hrest
      exact ⟨t', s', hrest, hstands⟩
  | @continuation place entered opened name key continuation rest t s _ hname ih =>
      obtain ⟨t', s', hrest, hstands⟩ := ih
      obtain ⟨t₁, s₁, hcall, hafter⟩ := exists_of_run_bind_eq_ok hrest
      rw [run_bindCall name key continuation hname] at hcall
      obtain ⟨inner, s₂, hinner, hclosed⟩ := exists_of_run_bind_eq_ok hcall
      cases hclosed
      have hstep := getElem?_of_pushed (t := t) rfl hafter
      exact ⟨inner, s₁, hinner, .nested hstands hstep rfl⟩
  | @selector place entered opened type value edgeEnd selector rest t s _ hasks ih =>
      obtain ⟨t', s', hrest, hstands⟩ := ih
      obtain ⟨t₁, s₁, hcall, hafter⟩ := exists_of_run_bind_eq_ok hrest
      obtain ⟨draft, hrun'⟩ := run_addEdgeCall s edgeEnd selector hasks
      rw [hrun'] at hcall
      obtain ⟨chosen, s₂, hchosen, hadd⟩ := exists_of_run_bind_eq_ok hcall
      obtain ⟨_, s₃, -, hadded⟩ := exists_of_run_bind_eq_ok hadd
      have hedge : t.addEdge draft edgeEnd chosen.steps = .ok t₁ := by
        cases hedge : t.addEdge draft edgeEnd chosen.steps with
        | error e =>
            rw [hedge] at hadded
            cases hadded
        | ok t₂ =>
            rw [hedge] at hadded
            cases hadded
            rfl
      obtain ⟨step, hstep, hnested⟩ := exists_step_of_addEdge hedge
      exact ⟨chosen, s₂, hchosen, .nested hstands (getElem?_of_pushed hstep hafter) hnested⟩

/-- The name of an innermost bind leads to the item that this bind has been entered for. -/
theorem exists_activation {activations : List Activation} {o : Opening}
    (hbinds : activations.map Activation.bind = entered.map Opening.bind)
    (hfind : entered.find? (·.binding.name == o.binding.name) = some o) :
    ∃ a ∈ activations, a.bind = o.bind ∧
      (activations.map Activation.binding).lookup o.binding.name = some a.item := by
  induction entered generalizing activations with
  | nil => cases hfind
  | cons o' outer ih =>
      obtain ⟨a, activations, rfl, ha, houter⟩ := List.map_eq_cons_iff.mp hbinds
      rw [List.map_cons, List.lookup_cons]
      have hname : a.binding.1 = o'.binding.name := congrArg Prod.snd ha
      rw [List.find?_cons] at hfind
      rw [hname, Bool.beq_comm]
      cases hinnermost : o'.binding.name == o.binding.name with
      | true =>
          rw [hinnermost] at hfind
          cases hfind
          exact ⟨a, List.mem_cons_self, ha, rfl⟩
      | false =>
          rw [hinnermost] at hfind
          obtain ⟨a', hmem, ha', hlookup⟩ := ih houter hfind
          exact ⟨a', List.mem_cons_of_mem _ hmem, ha', hlookup⟩

end Moments

/-- A predicate is accepted only if each handle in it comes from a bind around its place that is the
innermost one of its name there. Otherwise it is refused with the name of a reference that means nothing
there, unless a property of it is refused before. In the finished traversal the filter stands at the same
place inside of the same binds, and whenever an evaluation comes there, the name of a handle leads each
traverser to the item that its own bind has been entered for. -/
theorem handle_denotes_its_bind {model : GraphModel} {calls : List Call} {state : BuildState}
    {place : Place} {entered opened : List Opening} {predicate : Predicate Mention}
    {rest : List Call} {t : Traversal} {s : BuildState} (hstate : state.Sound)
    (hbuilds : Builds model calls state place entered opened ⟨.filter predicate :: rest, t, s⟩) :
    let called := ((Call.filter predicate).run model t).run s
    ((opened.map (·.binding.scope)).Nodup ∧ entered.Sublist opened) ∧
    ((∃ key ∈ predicate.propertyKeys, ∃ e, t.shape.checkProperty model key = .error e ∧
        called = (.error (.refused e), s)) ∨
      (∀ key ∈ predicate.propertyKeys, t.shape.checkProperty model key = .ok ()) ∧
        ((∃ mention ∈ predicate.references, ¬Denotes entered opened mention ∧
            called = (.error (.refused (.unboundReference (mention.resolve s.handles).name)), s)) ∨
          (∀ mention ∈ predicate.references, Denotes entered opened mention) ∧
            called = (.ok (t.push (.filter (written s predicate)) t.result t.shape), s))) ∧
    ∀ whole last, (Call.runAll model .source calls).run state = (.ok whole, last) →
      ∀ access g activations m,
        VisitsAt access whole.steps g place t.steps.length activations m →
        (∃ later, m.steps = .filter (written s predicate) :: later) ∧
        activations.map Activation.bind = entered.map Opening.bind ∧
        ∀ key, .handle key ∈ predicate.references →
          ∃ o ∈ entered, opened.find? (·.key == key) = some o ∧
            ((Mention.handle key).resolve s.handles).name = o.binding.name ∧
            ∃ a ∈ activations, a.bind = o.bind ∧
              (∀ a' ∈ activations, a'.place = o.place → a' = a) ∧
              ∀ traverser ∈ m.input,
                (Operand.bound o.binding.name).item traverser.bindings = .ok a.item := by
  intro called
  have hopens : Opens opened.reverse state s := hbuilds.opens
  have hcalled := run_filterCall hstate hbuilds
  have hnumbers : (opened.map (·.binding.scope)).Nodup := by
    have hnodup := hopens.nodup
    rwa [List.map_reverse, List.nodup_reverse] at hnodup
  refine ⟨⟨hnumbers, hbuilds.sublist⟩, hcalled, fun whole last hrun access g activations m hvisits => ?_⟩
  obtain ⟨t', s', hrest, hstands⟩ := hbuilds.stands hrun
  obtain ⟨t₁, s₁, hcall, hafter⟩ := exists_of_run_bind_eq_ok hrest
  obtain ⟨hdenotes, hpush⟩ := denotes_of_filterCall hstate hbuilds hcall
  have hstep := getElem?_of_pushed hpush hafter
  obtain ⟨sequence, hstands', hsteps⟩ := hvisits.stands
  obtain ⟨hbinds, rfl⟩ := hstands'.unique hstands
  refine ⟨?_, hbinds, fun key hkey => ?_⟩
  · rw [hsteps]
    exact ⟨_, List.drop_eq_getElem?_toList_append.trans (by rw [hstep]; rfl)⟩
  · obtain ⟨o, ho, hinnermost⟩ := hdenotes _ hkey
    obtain ⟨a, ha, hbind, hlookup⟩ := exists_activation hbinds hinnermost
    refine ⟨o, List.mem_of_find?_eq_some hinnermost, ho, by rw [resolve_handle hopens ho]; rfl, a, ha,
      hbind, fun a' ha' hplace => ?_, fun traverser htraverser => ?_⟩
    · have hnodup : (activations.map Activation.place).Nodup := by
        have hnodup := hstands'.nodup
        rwa [List.map_map] at hnodup
      exact List.inj_on_of_nodup_map hnodup ha' ha (hplace.trans (congrArg Prod.fst hbind).symm)
    · rw [Operand.item, hvisits.bindings traverser htraverser, hlookup]

/-- Two binds of one name, and a predicate with the handle of the inner one. -/
theorem inner_handle_denotes_inner_bind :
    let inner : List Call := [.filter (.is ⟨.eq, .bound (.handle "inner")⟩)]
    let calls : List Call :=
      [.inject [.bool true], .bind (some "x") "outer" [.count, .bind (some "x") "inner" inner]]
    ∃ entered opened t s whole last activations m,
      BuildState.initial.Sound ∧
      Builds ⟨[]⟩ calls .initial [1, 1] entered opened ⟨inner, t, s⟩ ∧
      (Call.runAll ⟨[]⟩ .source calls).run .initial = (.ok whole, last) ∧
      VisitsAt .read whole.steps .empty [1, 1] t.steps.length activations m ∧
      activations.map Activation.bind = [([1, 1], "x"), ([1], "x")] ∧
      ∃ o, opened.find? (·.key == "inner") = some o ∧
        ∃ a ∈ activations, a.bind = o.bind ∧ ∀ traverser ∈ m.input,
          (Operand.bound o.binding.name).item traverser.bindings = .ok a.item := by
  intro inner calls
  let steps : List Step := [.inject [.bool true],
    .bind "x" [.project .count, .bind "x" [.filter (.is ⟨.eq, .bound "x"⟩)]]]
  have hstart : Builds ⟨[]⟩ calls .initial [] [] [] ⟨calls, .source, .initial⟩ := .start
  have hmoment := ((((hstart.next rfl).continuation rfl).next rfl).continuation rfl)
  obtain ⟨whole, last, hrun, hsteps⟩ : ∃ whole last,
      (Call.runAll ⟨[]⟩ .source calls).run .initial = (.ok whole, last) ∧ whole.steps = steps :=
    ⟨_, _, rfl, rfl⟩
  have hroot : VisitsAt .read steps .empty [] 0 [] ⟨steps, [⟨.root, []⟩], [], .empty⟩ := .start
  have hinject : VisitsAt .read steps .empty [] 1 []
      ⟨steps.tail, [] ++ [⟨.value (.bool true), []⟩], [], .empty⟩ := hroot.next rfl
  let bound : Bindings := [("x", .value (.bool true))]
  have hcount : VisitsAt .read steps .empty [1] 1 [⟨[1], "x", .value (.bool true)⟩]
      ⟨[.bind "x" [.filter (.is ⟨.eq, .bound "x"⟩)]], [] ++ [⟨.value (.int 1), bound⟩], bound,
        .empty⟩ := (hinject.continuation rfl).next rfl
  have hvisits := hcount.continuation rfl
  rw [← hsteps] at hvisits
  obtain ⟨-, -, hengine⟩ := handle_denotes_its_bind BuildState.sound_initial hmoment
  obtain ⟨-, -, hhandles⟩ := hengine whole last hrun _ _ _ _ hvisits
  obtain ⟨o, -, ho, -, a, ha, hbind, -, hitem⟩ := hhandles "inner" (.head _)
  exact ⟨_, _, _, _, whole, last, _, _, BuildState.sound_initial, hmoment, hrun, hvisits, rfl, o, ho,
    a, ha, hbind, hitem⟩

/-- A property that is not there is found before a handle that is used after its bind has ended. -/
theorem property_refused_before_handle :
    let person : ElementType := ⟨"Person", .vertex, "Person", [], none⟩
    let model : GraphModel := ⟨[⟨.ofType person, []⟩]⟩
    let calls (predicate : Predicate Mention) : List Call :=
      [.verticesOf person, .bind (some "x") "h" [], .filter predicate]
    let leaked : Operand Mention := .bound (.handle "h")
    ((Call.runAll model .source (calls (.is ⟨.eq, leaked⟩))).run .initial).1
        = .error (.refused (.unboundReference "x")) ∧
      ((Call.runAll model .source (calls (.has "salary" ⟨.eq, leaked⟩))).run .initial).1
        = .error (.refused (.unknownProperty "[Person]" "salary")) := by
  intro person model calls leaked
  refine ⟨rfl, ?_⟩
  rfl

end PropertyGraph
