import Mathlib.Data.Set.Function
import PropertyGraph.Proofs.Fields
import PropertyGraph.Proofs.Handles
import PropertyGraph.Proofs.Predicates

/-!
# Numbers of scopes do not matter

Each bind takes the next number, and a program may start at any of them. Numbers are compared with each
other and never written into steps. So a run from another start is the same run with other numbers: a
function that keeps numbers apart translates the one into the other, through scopes, handles and
references. What is accepted, what is refused, the errors and the steps contain no numbers and are the
same. The numbers have no upper bound here, which stands for a counter of fixed width before it wraps.
-/

namespace PropertyGraph

section Renumber

variable (f : Nat → Nat)

def Binding.renumber (binding : Binding) : Binding := ⟨binding.name, f binding.scope⟩

def Reference.renumber (reference : Reference) : Reference :=
  ⟨reference.name, reference.scope.map f⟩

def renumberHandles (handles : List (String × Binding)) : List (String × Binding) :=
  handles.map fun handle => (handle.1, handle.2.renumber f)

def Traversal.renumber (t : Traversal) : Traversal :=
  { t with scope := t.scope.map (Binding.renumber f) }

def Event.renumber : Event → Event
  | opened name => opened name
  | probed probe t => probed probe (t.renumber f)

def BuildState.renumber (s : BuildState) : BuildState where
  nextScope := f s.nextScope
  handles := renumberHandles f s.handles
  events := s.events.map (Event.renumber f)

def BuildMoment.renumber (m : BuildMoment) : BuildMoment :=
  ⟨m.calls, m.traversal.renumber f, m.state.renumber f⟩

/-- The other computation does from the renumbered state what the one does, with other numbers. -/
def Renumbered {α : Type} (translate : α → α) (m m' : Build α) (s : BuildState) : Prop :=
  m'.run (s.renumber f)
    = ((m.run s : Except BuildError α × BuildState).1.map translate,
      (m.run s : Except BuildError α × BuildState).2.renumber f)

end Renumber

namespace Renumbered

variable {f : Nat → Nat} {α β : Type} {translate : α → α} {translate' : β → β}
  {m m' : Build α} {s s' : BuildState}

theorem of_ok (h : Renumbered f translate m m' s) {a : α} (hrun : m.run s = (.ok a, s')) :
    m'.run (s.renumber f) = (.ok (translate a), s'.renumber f) := by
  rw [Renumbered, hrun] at h
  exact h

theorem of_error (h : Renumbered f translate m m' s) {e : BuildError}
    (hrun : m.run s = (.error e, s')) :
    m'.run (s.renumber f) = (.error e, s'.renumber f) := by
  rw [Renumbered, hrun] at h
  exact h

theorem pure (a : α) : Renumbered f translate (Pure.pure a) (Pure.pure (translate a)) s := rfl

theorem bind {g g' : α → Build β} (h : Renumbered f translate m m' s)
    (hnext : ∀ a s', m.run s = (.ok a, s') → Renumbered f translate' (g a) (g' (translate a)) s') :
    Renumbered f translate' (m >>= g) (m' >>= g') s := by
  rcases hrun : m.run s with ⟨e | a, s'⟩
  · rw [Renumbered, run_bind_of_error hrun, run_bind_of_error (h.of_error hrun)]
    rfl
  · rw [Renumbered, run_bind_of_ok hrun, run_bind_of_ok (h.of_ok hrun)]
    exact hnext a s' hrun

theorem ofExcept {r r' : Except TraversalError α} (h : r' = r.map translate) :
    Renumbered f translate (Build.ofExcept r) (Build.ofExcept r') s := by
  subst h
  cases r <;> rfl

theorem ofExcept_self (r : Except TraversalError α) :
    Renumbered f id (Build.ofExcept r) (Build.ofExcept r) s := by
  cases r <;> rfl

theorem require (available : Bool) :
    Renumbered f id (Build.require available) (Build.require available) s := by
  cases available <;> rfl

end Renumbered

theorem bind_eq_map_bind {ε α β γ : Type} {m : Except ε α} {k : α → Except ε β}
    {k' : α → Except ε γ} {g : β → γ} (h : ∀ a, k' a = (k a).map g) :
    (m >>= k') = (m >>= k).map g := by
  cases m with
  | error e => rfl
  | ok a => exact h a

section Calls

variable {f : Nat → Nat} {model : GraphModel}

theorem ofType_renumber (t : Traversal) (type : ElementType) :
    (t.renumber f).ofType model type = (t.ofType model type).map (Traversal.renumber f) :=
  bind_eq_map_bind fun _ => bind_eq_map_bind fun _ => rfl

theorem runSimple_renumber (t : Traversal) (call : Call) :
    call.runSimple model (t.renumber f) = (call.runSimple model t).map (Traversal.renumber f) := by
  cases call with
  | vertices | edges | verticesById _ | inject _ | fold | limit _ | count | drop | id | label
  | walkAny _ | endpoint _ | filter _ | addEdge _ _ _ _ | bind _ _ _ | probe _ | unreadable _ => rfl
  | verticesOf type => exact ofType_renumber t.vertices type
  | edgesOf type => exact ofType_renumber t.edges type
  | vertexOf type id => exact ofType_renumber (t.verticesById [id]) type
  | ofType type => exact ofType_renumber t type
  | addVertex type value =>
      exact bind_eq_map_bind fun _ => bind_eq_map_bind fun _ => bind_eq_map_bind fun _ => rfl
  | values key type => exact bind_eq_map_bind fun _ => rfl
  | walk direction type => exact bind_eq_map_bind fun _ => rfl
  | walkEdges direction type => exact bind_eq_map_bind fun _ => rfl
  | update value =>
      obtain ⟨result, steps, shape, scope⟩ := t
      cases result with
      | element type => exact bind_eq_map_bind fun _ => bind_eq_map_bind fun _ => rfl
      | start | anyVertex | anyEdge | value _ | folded _ => rfl

end Calls

/-! ### References -/

section References

variable {f : Nat → Nat} {known : Set Nat} {handles : List (String × Binding)} {scope : Scope}

theorem lookup_renumber (handles : List (String × Binding)) (key : String) :
    (renumberHandles f handles).lookup key
      = (handles.lookup key).map (Binding.renumber f) := by
  induction handles with
  | nil => rfl
  | cons handle rest ih =>
      rw [renumberHandles, List.map_cons, List.lookup_cons, List.lookup_cons, ← renumberHandles, ih]
      cases key == handle.1 <;> rfl

/-- A handle that was not given out stands for number zero, whatever the other numbers are. -/
theorem mention_renumber {mention : Mention}
    (hmissing : ∀ key, mention = .handle key → (handles.lookup key).isSome = true ∨ f 0 = 0) :
    mention.resolve (renumberHandles f handles) = (mention.resolve handles).renumber f := by
  cases mention with
  | named name => rfl
  | handle key =>
      rw [Mention.resolve, Mention.resolve, lookup_renumber]
      cases hlookup : handles.lookup key with
      | some binding => rfl
      | none =>
          have hzero : f 0 = 0 := by simpa [hlookup] using hmissing key rfl
          exact congrArg (fun number => (⟨key, some number⟩ : Reference)) hzero.symm

theorem name_renumber (mention : Mention) :
    (mention.resolve (renumberHandles f handles)).name = (mention.resolve handles).name := by
  cases mention with
  | named name => rfl
  | handle key =>
      rw [Mention.resolve, Mention.resolve, lookup_renumber]
      cases handles.lookup key <;> rfl

theorem find?_renumber (scope : Scope) (name : String) :
    (scope.map (Binding.renumber f)).find? (·.name == name)
      = (scope.find? (·.name == name)).map (Binding.renumber f) := by
  rw [List.find?_map]
  rfl

/-- Numbers that stay apart resolve as before. -/
theorem resolve_renumber (hf : Set.InjOn f known)
    (hscope : ∀ binding ∈ scope, binding.scope ∈ known)
    {reference : Reference} (hnumber : ∀ number, reference.scope = some number → number ∈ known) :
    Scope.resolve (scope.map (Binding.renumber f)) (reference.renumber f)
      = Scope.resolve scope reference := by
  obtain ⟨name, number?⟩ := reference
  simp only [Scope.resolve, Reference.renumber, find?_renumber]
  cases hfind : scope.find? (·.name == name) with
  | none => rfl
  | some binding =>
      cases number? with
      | none => rfl
      | some number =>
          have hsame : f number = f binding.scope ↔ number = binding.scope :=
            hf.eq_iff (hnumber number rfl) (hscope binding (List.mem_of_find?_eq_some hfind))
          simp [Binding.renumber, hsame]

end References

theorem forM_map_congr {ε α β γ : Type} {xs : List α} {k : α → β} {k' : α → γ}
    {l : β → Except ε Unit} {l' : γ → Except ε Unit} (h : ∀ x ∈ xs, l (k x) = l' (k' x)) :
    (xs.map k).forM l = (xs.map k').forM l' := by
  induction xs with
  | nil => rfl
  | cons x xs ih =>
      have hrest := ih fun y hy => h y (List.mem_cons_of_mem x hy)
      change (l (k x) >>= fun _ => (xs.map k).forM l) = (l' (k' x) >>= fun _ => (xs.map k').forM l')
      rw [h x List.mem_cons_self, hrest]

/-- A filter whose mentions stand for renumbered references is accepted or refused alike. -/
theorem filter_renumber {f : Nat → Nat} {known : Set Nat} {model : GraphModel} {t : Traversal}
    {handles : List (String × Binding)} {predicate : Predicate Mention} (hf : Set.InjOn f known)
    (hscope : ∀ binding ∈ t.scope, binding.scope ∈ known)
    (hmissing : ∀ key, .handle key ∈ predicate.references →
      (handles.lookup key).isSome = true ∨ f 0 = 0)
    (hmentions : ∀ mention ∈ predicate.references, ∀ number,
      (mention.resolve handles).scope = some number → number ∈ known) :
    (t.renumber f).filter model (predicate.map (Mention.resolve (renumberHandles f handles)))
      = (t.filter model (predicate.map (Mention.resolve handles))).map (Traversal.renumber f) := by
  have hresolved : ∀ mention ∈ predicate.references,
      (t.renumber f).scope.resolve (mention.resolve (renumberHandles f handles))
        = t.scope.resolve (mention.resolve handles) := by
    intro mention hmention
    rw [mention_renumber fun key hkey => hmissing key (hkey ▸ hmention)]
    exact resolve_renumber hf hscope (hmentions mention hmention)
  -- only names are written into the step, so the renumbered references leave the same step
  have hnames : Reference.name ∘ Mention.resolve (renumberHandles f handles)
      = Reference.name ∘ Mention.resolve handles := funext name_renumber
  rw [Traversal.filter, Traversal.filter, propertyKeys_map, propertyKeys_map, references_map,
    references_map, forM_map_congr hresolved, Predicate.map_map, Predicate.map_map, hnames]
  exact bind_eq_map_bind fun _ => bind_eq_map_bind fun _ => rfl

/-! ### Programs

A handle that has not been given out resolves to number zero, which no bind ever takes. So either a program
mentions no such handle, or zero has to stay what it is. -/

/-- No filter that a program comes to mentions a handle that has not been given out. -/
def MentionsGiven (model : GraphModel) (calls : List Call) (state : BuildState) : Prop :=
  ∀ {place entered opened predicate rest t s},
    Builds model calls state place entered opened ⟨.filter predicate :: rest, t, s⟩ →
      ∀ key, Mention.handle key ∈ predicate.references → (s.handles.lookup key).isSome = true

/-- Numbers that are given out stay apart, and new ones are taken one after the other. -/
structure StaysApart (f : Nat → Nat) (known : Set Nat) (s : BuildState) : Prop where
  injOn : Set.InjOn f known
  later : ∀ number, s.nextScope ≤ number → number ∈ known
  next : ∀ number, s.nextScope ≤ number → f (number + 1) = f number + 1
  handles : ∀ handle ∈ s.handles, handle.2.scope ∈ known

theorem StaysApart.opens {f : Nat → Nat} {known : Set Nat} {s s' : BuildState}
    {opened : List Opening} (h : StaysApart f known s) (hopens : Opens opened s s') :
    StaysApart f known s' where
  injOn := h.injOn
  later number hnumber := h.later number (le_trans hopens.nextScope_le hnumber)
  next number hnumber := h.next number (le_trans hopens.nextScope_le hnumber)
  handles handle hhandle := by
    rw [hopens.handles] at hhandle
    rcases List.mem_append.mp hhandle with hnew | hold
    · obtain ⟨o, ho, rfl⟩ := List.mem_map.mp (List.mem_reverse.mp hnew)
      exact h.later _ (hopens.le ho)
    · exact h.handles handle hold

/-- The numbers that a program comes across stay apart. -/
structure Separates (f : Nat → Nat) (known : Set Nat) (model : GraphModel) (calls : List Call)
    (state : BuildState) : Prop extends StaysApart f known state where
  missing : MentionsGiven model calls state ∨ 0 ∈ known ∧ f 0 = 0

namespace Separates

variable {f : Nat → Nat} {known : Set Nat} {model : GraphModel} {calls : List Call}
  {state : BuildState} {place : Place} {entered opened : List Opening} {m : BuildMoment}

theorem scope_known (h : Separates f known model calls state)
    (hbuilds : Builds model calls state place entered opened m) :
    ∀ binding ∈ m.traversal.scope, binding.scope ∈ known := by
  intro binding hbinding
  obtain ⟨o, ho, rfl⟩ := hbuilds.exists_opening hbinding
  exact h.later _ (hbuilds.opens.le ho)

theorem staysApart (h : Separates f known model calls state)
    (hbuilds : Builds model calls state place entered opened m) : StaysApart f known m.state :=
  h.toStaysApart.opens hbuilds.opens

variable {predicate : Predicate Mention} {rest : List Call} {t : Traversal} {s : BuildState}

/-- A mention stands for a number that is known. -/
theorem mention_known (h : Separates f known model calls state)
    (hbuilds : Builds model calls state place entered opened ⟨.filter predicate :: rest, t, s⟩) :
    ∀ mention ∈ predicate.references, ∀ number,
      (mention.resolve s.handles).scope = some number → number ∈ known := by
  intro mention hmention number hnumber
  cases mention with
  | named name => cases hnumber
  | handle key =>
      rw [Mention.resolve] at hnumber
      cases hlookup : s.handles.lookup key with
      | some binding =>
          rw [hlookup] at hnumber
          cases hnumber
          exact (h.staysApart hbuilds).handles _ (mem_of_lookup hlookup)
      | none =>
          rw [hlookup] at hnumber
          cases hnumber
          rcases h.missing with hgiven | ⟨hzero, -⟩
          · simpa [hlookup] using hgiven hbuilds key hmention
          · exact hzero

theorem filter (h : Separates f known model calls state)
    (hbuilds : Builds model calls state place entered opened ⟨.filter predicate :: rest, t, s⟩) :
    (t.renumber f).filter model (predicate.map (Mention.resolve (s.renumber f).handles))
      = (t.filter model (predicate.map (Mention.resolve s.handles))).map (Traversal.renumber f) := by
  refine filter_renumber h.injOn (h.scope_known hbuilds) (fun key hkey => ?_)
    (h.mention_known hbuilds)
  rcases h.missing with hgiven | ⟨-, hzero⟩
  · exact .inl (hgiven hbuilds key hkey)
  · exact .inr hzero

end Separates

section Programs

variable {f : Nat → Nat} {known : Set Nat} {model : GraphModel} {calls : List Call}
  {state : BuildState}

theorem boundName_renumber (t : Traversal) (name : Option String) :
    Call.boundName (t.renumber f) name = Call.boundName t name := by
  rw [Call.boundName, Call.boundName, Traversal.renumber, List.length_map]

theorem openScope_renumber {s : BuildState} (hnext : f (s.nextScope + 1) = f s.nextScope + 1)
    (name key : String) :
    (s.renumber f).openScope name key
      = ((s.openScope name key).1.renumber f, (s.openScope name key).2.renumber f) := by
  simp [BuildState.openScope, BuildState.renumber, Binding.renumber, renumberHandles, hnext,
    Event.renumber]

/-- The moment at which a continuation starts. -/
theorem continuation_renumber {s : BuildState} (inner : List Call) (place : Place) (t : Traversal)
    (name : Option String) (key : String) (hnext : f (s.nextScope + 1) = f s.nextScope + 1) :
    (⟨inner,
        (t.renumber f).opened (Call.opening place (t.renumber f) name key (s.renumber f)).binding,
        ((s.renumber f).openScope (Call.boundName (t.renumber f) name) key).2⟩ : BuildMoment)
      = BuildMoment.renumber f ⟨inner, t.opened (Call.opening place t name key s).binding,
          (s.openScope (Call.boundName t name) key).2⟩ := by
  rw [Call.opening, boundName_renumber, openScope_renumber hnext]
  rfl

theorem asksSelector_of_ok {t : Traversal} {type : ElementType} {value value' : Json}
    {draft : Traversal.EdgeDraft}
    (havailable : (Call.addEdge type value .target []).available t.result = true)
    (hread : Call.readValue type value = .ok value')
    (hdraft : Traversal.draftEdge model type value' = .ok draft) :
    Call.asksSelector model t type value = true := by
  have havailable' : (Call.isOf .vertex t.result && type.kind == .edge) = true := havailable
  simp [Call.asksSelector, havailable', hread, Except.bind, hdraft, Except.isOk, Except.toBool]

theorem addEdge_renumber (t : Traversal) (draft : Traversal.EdgeDraft) (edgeEnd : EdgeEnd)
    (selector : List Step) :
    (t.renumber f).addEdge draft edgeEnd selector
      = (t.addEdge draft edgeEnd selector).map (Traversal.renumber f) :=
  bind_eq_map_bind fun _ => rfl

theorem emit_renumber (event : Event) (s : BuildState) :
    (s.emit event).renumber f = (s.renumber f).emit (event.renumber f) := by
  simp [BuildState.emit, BuildState.renumber]

/-- A call that a program comes to is run alike with other numbers. -/
def RunsRenumbered (f : Nat → Nat) (model : GraphModel) (calls : List Call) (state : BuildState)
    (call : Call) : Prop :=
  ∀ ⦃place entered opened rest t s⦄,
    Builds model calls state place entered opened ⟨call :: rest, t, s⟩ →
    Renumbered f (Traversal.renumber f) (call.run model t) (call.run model (t.renumber f)) s

theorem runsRenumbered_of_isSimple {call : Call} (hsimple : call.isSimple = true) :
    RunsRenumbered f model calls state call := by
  intro _ _ _ _ t _ _
  rw [run_of_isSimple hsimple, run_of_isSimple hsimple]
  exact (Renumbered.require _).bind fun _ _ _ => .ofExcept (runSimple_renumber t call)

mutual
theorem renumbered_run (h : Separates f known model calls state) :
    ∀ call : Call, RunsRenumbered f model calls state call
  | .filter predicate => fun _ _ _ _ _ _ hbuilds => .ofExcept (h.filter hbuilds)
  | .addEdge type value edgeEnd selector => by
      intro _ _ _ _ t s hbuilds
      -- what comes before the selector leaves the state, so the selector starts at a moment
      refine (Renumbered.require _).bind fun _ _ hrequire => ?_
      obtain ⟨havailable, rfl⟩ := (Ensures.require_state _ _).of_ok hrequire
      refine (Renumbered.ofExcept_self _).bind fun value' _ hvalue => ?_
      obtain ⟨hread, rfl⟩ := (Ensures.ofExcept_state _ _).of_ok hvalue
      refine (Renumbered.ofExcept_self _).bind fun draft _ hedge => ?_
      obtain ⟨hdraft, rfl⟩ := (Ensures.ofExcept_state _ _).of_ok hedge
      have hasks : Call.asksSelector model t type value = true :=
        asksSelector_of_ok havailable hread hdraft
      refine (renumbered_runAll h selector (hbuilds.selector hasks)).bind fun chosen _ _ => ?_
      refine (Renumbered.require _).bind fun _ _ _ => ?_
      exact .ofExcept (addEdge_renumber t draft edgeEnd chosen.steps)
  | .bind name key continuation => by
      intro _ _ _ _ t s hbuilds
      have hsame := boundName_renumber (f := f) t name
      cases hname : (Call.boundName t name).isEmpty with
      | true =>
          rw [Renumbered, run_bindCall_of_isEmpty name key continuation hname,
            run_bindCall_of_isEmpty name key continuation (hsame.symm ▸ hname), hsame]
          rfl
      | false =>
          have hinner := renumbered_runAll h continuation (hbuilds.continuation hname)
          rw [Renumbered, run_bindCall name key continuation hname,
            run_bindCall name key continuation (hsame.symm ▸ hname), hsame,
            openScope_renumber ((h.staysApart hbuilds).next _ le_rfl)]
          exact hinner.bind fun inner _ _ => .pure (t.closed (Call.boundName t name) inner)
  | .probe question => by
      intro _ _ _ _ t s _
      exact congrArg (Prod.mk (Except.ok (t.renumber f))) (emit_renumber (.probed question t) s).symm
  | .vertices | .edges | .verticesOf _ | .edgesOf _ | .vertexOf _ _ | .verticesById _
  | .addVertex _ _ | .inject _ | .fold | .limit _ | .count | .drop | .ofType _ | .id | .label
  | .values _ _ | .update _ | .walk _ _ | .walkEdges _ _ | .walkAny _ | .endpoint _
  | .unreadable _ => runsRenumbered_of_isSimple rfl
termination_by structural call => call
theorem renumbered_runAll (h : Separates f known model calls state) :
    ∀ (left : List Call) {place : Place} {entered opened : List Opening} {t : Traversal}
      {s : BuildState}, Builds model calls state place entered opened ⟨left, t, s⟩ →
      Renumbered f (Traversal.renumber f) (Call.runAll model t left)
        (Call.runAll model (t.renumber f) left) s
  | [], _, _, _, t, _, _ => .pure t
  | call :: rest, _, _, _, _, _, hbuilds =>
      (renumbered_run h call hbuilds).bind fun _ _ hrun =>
        renumbered_runAll h rest (hbuilds.next hrun)
termination_by structural left => left
end

theorem Builds.renumber (h : Separates f known model calls state) {place : Place}
    {entered opened : List Opening} {m : BuildMoment}
    (hbuilds : Builds model calls state place entered opened m) :
    ∃ entered' opened',
      Builds model calls (state.renumber f) place entered' opened' (m.renumber f) := by
  induction hbuilds with
  | start => exact ⟨_, _, .start⟩
  | @next _ _ _ call _ _ _ _ _ hbuilds hrun ih =>
      obtain ⟨_, _, hbuilds'⟩ := ih
      exact ⟨_, _, hbuilds'.next ((renumbered_run h call hbuilds).of_ok hrun)⟩
  | @continuation place _ _ name key inner _ t s hbuilds hname ih =>
      obtain ⟨_, _, hbuilds'⟩ := ih
      have hinner := hbuilds'.continuation ((boundName_renumber t name).symm ▸ hname)
      rw [continuation_renumber inner place t name key ((h.staysApart hbuilds).next _ le_rfl)] at hinner
      exact ⟨_, _, hinner⟩
  | selector _ hasks ih =>
      obtain ⟨_, _, hbuilds'⟩ := ih
      exact ⟨_, _, hbuilds'.selector hasks⟩

/-- With other numbers a program comes to no other moments. -/
theorem Builds.of_renumber (h : Separates f known model calls state) {place : Place}
    {entered' opened' : List Opening} {m' : BuildMoment}
    (hbuilds' : Builds model calls (state.renumber f) place entered' opened' m') :
    ∃ entered opened m, Builds model calls state place entered opened m ∧ m' = m.renumber f := by
  induction hbuilds' with
  | start => exact ⟨_, _, _, .start, rfl⟩
  | @next _ _ _ call _ _ _ _ _ _ hrun ih =>
      obtain ⟨_, _, ⟨_, t, s⟩, hbuilds, hm⟩ := ih
      cases hm
      have hcall := renumbered_run h call hbuilds
      rcases hrun' : (call.run model t).run s with ⟨e | t₁, s₁⟩
      · cases hrun.symm.trans (hcall.of_error hrun')
      · cases hrun.symm.trans (hcall.of_ok hrun')
        exact ⟨_, _, _, hbuilds.next hrun', rfl⟩
  | @continuation place _ _ name key inner _ _ _ _ hname ih =>
      obtain ⟨_, _, ⟨_, t, s⟩, hbuilds, hm⟩ := ih
      cases hm
      have hnext := (h.staysApart hbuilds).next _ le_rfl
      have hinner := hbuilds.continuation (boundName_renumber t name ▸ hname)
      exact ⟨_, _, _, hinner, continuation_renumber inner place t name key hnext⟩
  | selector _ hasks ih =>
      obtain ⟨_, _, ⟨_, t, s⟩, hbuilds, hm⟩ := ih
      cases hm
      exact ⟨_, _, _, hbuilds.selector hasks, rfl⟩

end Programs

/-- The same calls are left, and nothing that a caller can see differs, also after the next call. -/
structure BuildMoment.Alike (model : GraphModel) (m m' : BuildMoment) : Prop where
  calls : m'.calls = m.calls
  steps : m'.traversal.steps = m.traversal.steps
  result : m'.traversal.result = m.traversal.result
  shape : m'.traversal.shape = m.traversal.shape
  names : m'.traversal.scope.names = m.traversal.scope.names
  handles : m'.state.handles.map (fun handle => (handle.1, handle.2.name))
    = m.state.handles.map fun handle => (handle.1, handle.2.name)
  compiled : m'.traversal.compile = m.traversal.compile
  wire : (Step.sequenceToJson m'.traversal.steps).compact
    = (Step.sequenceToJson m.traversal.steps).compact
  next : ∀ call rest, m.calls = call :: rest →
    ((call.run model m'.traversal).run m'.state : Except BuildError Traversal × BuildState).1.map
        Traversal.steps
      = ((call.run model m.traversal).run m.state : Except BuildError Traversal × BuildState).1.map
        Traversal.steps

/-- A program comes to the same moments from two states, and to the same end. -/
structure SameRun (model : GraphModel) (calls : List Call) (s s' : BuildState) : Prop where
  result : ((Call.runAll model .source calls).run s' : Except BuildError Traversal × BuildState).1
    = ((Call.runAll model .source calls).run s : Except BuildError Traversal × BuildState).1
  there : ∀ {place entered opened m}, Builds model calls s place entered opened m →
    ∃ entered' opened' m', Builds model calls s' place entered' opened' m' ∧ m.Alike model m'
  back : ∀ {place entered' opened' m'}, Builds model calls s' place entered' opened' m' →
    ∃ entered opened m, Builds model calls s place entered opened m ∧ m.Alike model m'

namespace BuildState

/-- The state before the first bind, which is going to take the number. -/
def startingAt (number : Nat) : BuildState := ⟨number, [], []⟩

/-- The state that a program leaves behind, also when it fails. -/
def after (model : GraphModel) (calls : List Call) (s : BuildState) : BuildState :=
  ((Call.runAll model .source calls).run s : Except BuildError Traversal × BuildState).2

theorem opens_after (model : GraphModel) (calls : List Call) (s : BuildState) :
    Opens (Call.openingsAll model [] .source calls s) s (s.after model calls) :=
  (opensRunningAll model calls [] .source s).state

end BuildState

/-- Programs run alike, one after the other. Each can use the handles of those before it. -/
def RunAlike (model : GraphModel) : List (List Call) → BuildState → BuildState → Prop
  | [], _, _ => True
  | calls :: rest, s, s' =>
    SameRun model calls s s' ∧ RunAlike model rest (s.after model calls) (s'.after model calls)

/-- Each program mentions no handle but those given out until then, by itself or one before it. -/
def AllMentionGiven (model : GraphModel) : List (List Call) → BuildState → Prop
  | [], _ => True
  | calls :: rest, s =>
    MentionsGiven model calls s ∧ AllMentionGiven model rest (s.after model calls)

section Alike

variable {f : Nat → Nat} {known : Set Nat} {model : GraphModel} {calls : List Call}
  {state : BuildState}

theorem names_renumber (scope : Scope) :
    Scope.names (scope.map (Binding.renumber f)) = scope.names := by
  simp [Scope.names, Binding.renumber]

theorem compile_renumber (t : Traversal) : (t.renumber f).compile = t.compile :=
  congrArg (CompiledTraversal.inScope · t.steps) (names_renumber t.scope)

theorem Builds.alike_renumber (h : Separates f known model calls state) {place : Place}
    {entered opened : List Opening} {m : BuildMoment}
    (hbuilds : Builds model calls state place entered opened m) :
    m.Alike model (m.renumber f) where
  calls := rfl
  steps := rfl
  result := rfl
  shape := rfl
  names := names_renumber m.traversal.scope
  handles := by
    simp [BuildMoment.renumber, BuildState.renumber, renumberHandles, Binding.renumber]
  compiled := compile_renumber m.traversal
  wire := rfl
  next call rest hcalls := by
    obtain ⟨_, t, s⟩ := m
    cases hcalls
    have hrun := renumbered_run h call hbuilds
    rcases hrun' : (call.run model t).run s with ⟨e | t', s'⟩
    · exact congrArg (·.1.map Traversal.steps) (hrun.of_error hrun')
    · exact congrArg (·.1.map Traversal.steps) (hrun.of_ok hrun')

theorem renumber_of_scope_nil {t : Traversal} (hscope : t.scope = []) : t.renumber f = t := by
  rw [Traversal.renumber, hscope, List.map_nil, ← hscope]

/-- A finished program stands in no scope, so its result has no numbers at all. -/
theorem Separates.run_renumber (h : Separates f known model calls state) :
    (Call.runAll model .source calls).run (state.renumber f)
      = (((Call.runAll model .source calls).run state : Except BuildError Traversal × BuildState).1,
        (state.after model calls).renumber f) := by
  have hrun : Renumbered f (Traversal.renumber f) (Call.runAll model .source calls)
      (Call.runAll model (Traversal.renumber f .source) calls) state :=
    renumbered_runAll h calls .start
  rcases hfinished : (Call.runAll model .source calls).run state with ⟨e | t, s⟩
  · rw [BuildState.after, hfinished]
    exact hrun.of_error hfinished
  · obtain ⟨added, hadded⟩ := (appendsChecked_runAll model calls .source state).of_ok hfinished
    rw [BuildState.after, hfinished]
    exact renumber_of_scope_nil (f := f) hadded.scope ▸ hrun.of_ok hfinished

theorem Separates.sameRun (h : Separates f known model calls state) :
    SameRun model calls state (state.renumber f) where
  result := by rw [h.run_renumber]
  there hbuilds := by
    obtain ⟨_, _, hbuilds'⟩ := hbuilds.renumber h
    exact ⟨_, _, _, hbuilds', hbuilds.alike_renumber h⟩
  back hbuilds' := by
    obtain ⟨_, _, m, hbuilds, rfl⟩ := hbuilds'.of_renumber h
    exact ⟨_, _, m, hbuilds, hbuilds.alike_renumber h⟩

theorem Separates.after_renumber (h : Separates f known model calls state) :
    (state.renumber f).after model calls = (state.after model calls).renumber f :=
  congrArg Prod.snd h.run_renumber

/-- Programs run alike when the handles given out so far have been renumbered. -/
theorem StaysApart.runAlike (h : StaysApart f known state) {programs : List (List Call)}
    (hmissing : AllMentionGiven model programs state ∨ 0 ∈ known ∧ f 0 = 0) :
    RunAlike model programs state (state.renumber f) := by
  induction programs generalizing state with
  | nil => trivial
  | cons calls rest ih =>
      have hseparates : Separates f known model calls state := ⟨h, hmissing.imp_left And.left⟩
      have hafter := h.opens (BuildState.opens_after model calls state)
      have hrest := ih hafter (hmissing.imp_left And.right)
      exact ⟨hseparates.sameRun, hseparates.after_renumber ▸ hrest⟩

end Alike

/-! ### Another start -/

/-- Moves the numbers from one start on, and keeps those before it. -/
def shift (first second number : Nat) : Nat :=
  if number < first then number else second + (number - first)

/-- The numbers from a start on, and zero if no bind takes it from either start. -/
def numbersFrom (first second : Nat) : Set Nat :=
  {number | first ≤ number ∨ number = 0 ∧ 0 < first ∧ 0 < second}

theorem staysApart_startingAt (first second : Nat) :
    StaysApart (shift first second) (numbersFrom first second) (.startingAt first) where
  injOn a ha b hb hsame := by
    have ha' : first ≤ a ∨ a = 0 ∧ 0 < first ∧ 0 < second := ha
    have hb' : first ≤ b ∨ b = 0 ∧ 0 < first ∧ 0 < second := hb
    simp only [shift] at hsame
    split at hsame <;> split at hsame <;> omega
  later _ hnumber := .inl hnumber
  next number hnumber := by
    have hle : first ≤ number := hnumber
    simp only [shift]
    rw [if_neg (by omega), if_neg (by omega)]
    omega
  handles _ hhandle := nomatch hhandle

theorem startingAt_renumber (first second : Nat) :
    (BuildState.startingAt first).renumber (shift first second) = .startingAt second := by
  simp [BuildState.startingAt, BuildState.renumber, renumberHandles, shift]

/-- Whatever number the first bind takes, programs accept and refuse the same calls with the same errors
and produce the same steps with the same wire form. A handle that was never given out stands for number
zero, so either there is none or no bind takes zero. -/
theorem start_of_numbers_does_not_matter (model : GraphModel) (programs : List (List Call))
    (first second : Nat)
    (hgiven : AllMentionGiven model programs (.startingAt first) ∨ 0 < first ∧ 0 < second) :
    RunAlike model programs (.startingAt first) (.startingAt second) := by
  have hmissing : AllMentionGiven model programs (.startingAt first) ∨
      0 ∈ numbersFrom first second ∧ shift first second 0 = 0 :=
    hgiven.imp_right fun hpos => ⟨.inr ⟨rfl, hpos⟩, if_pos hpos.1⟩
  have halike := (staysApart_startingAt first second).runAlike hmissing
  rwa [startingAt_renumber] at halike

/-- A handle that is used after its bind has ended, by its own program and by the one after it. -/
theorem leaked_handle_refused_from_any_start :
    let leaked : Call := .filter (.is ⟨.eq, .bound (.handle "h")⟩)
    let own : List Call := [.inject [.bool true], .bind (some "x") "h" [leaked], leaked]
    let other : List Call := [.inject [.bool true], .bind (some "x") "k" [leaked]]
    (0 < 1 ∧ 0 < 7) ∧
      RunAlike ⟨[]⟩ [own, other] (.startingAt 1) (.startingAt 7) ∧
      ((Call.runAll ⟨[]⟩ .source own).run (.startingAt 7)).1
        = .error (.refused (.unboundReference "x")) ∧
      ((Call.runAll ⟨[]⟩ .source other).run ((BuildState.startingAt 7).after ⟨[]⟩ own)).1
        = .error (.refused (.unboundReference "x")) := by
  intro leaked own other
  have halike := start_of_numbers_does_not_matter ⟨[]⟩ [own, other] 1 7 (.inr (by decide))
  obtain ⟨hown, hother, -⟩ := halike
  exact ⟨by decide, ⟨hown, hother, trivial⟩, hown.result.trans rfl, hother.result.trans rfl⟩

end PropertyGraph
