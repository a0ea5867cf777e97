import PropertyGraph.Proofs.Decoding
import PropertyGraph.Proofs.ReadOnly

/-!
# Results of traversers

The results of an evaluation are those of its last traversers that have one: the source has none, nor has
an element that is gone. `fold` leaves the source out and keeps an element that is gone, `count` counts it,
and `limit` takes traversers without a look at what they have reached. So each could disagree with the
results themselves. It does not where nothing is changed and every edge has its endpoints, because then the
traversers are settled: they all have a result, or there is but one, which is still at the source.
-/

namespace PropertyGraph

/-- Every edge has its endpoints. -/
def Graph.Whole (g : Graph) : Prop :=
  ∀ id e, (id, e) ∈ g.edges.rows → ∀ v ∈ e.ends .both, v ∈ g.vertices.keys

def Item.HasResult (g : Graph) (item : Item) : Prop := (item.result? g).isSome

def AllHaveResults (g : Graph) (input : List Traverser) : Prop := ∀ t ∈ input, t.item.HasResult g

/-- Every traverser has a result, or the only one is at the source. -/
def Settled (g : Graph) (input : List Traverser) : Prop :=
  AllHaveResults g input ∨ ∃ bindings, input = [⟨.root, bindings⟩]

section Looking

variable {g : Graph} {scope : Bindings} {input out : List Traverser} {item : Item}

theorem hasResult_of_mem_ids {kind : ElementKind} {id : Nat} (h : id ∈ g.ids kind) :
    (Item.element kind id).HasResult g := by
  rw [Item.HasResult, Item.result?, Option.isSome_map]
  cases kind with
  | vertex | edge =>
      obtain ⟨record, hrecord⟩ := Table.mem_keys_iff.mp h
      rw [Graph.raw?, hrecord, Option.map_some, Option.isSome_some]

theorem hasResult_of_reached (hwhole : g.Whole) {kind : Option ElementKind} (h : Reached g kind item)
    (hkind : kind.isSome) : item.HasResult g := by
  cases h with
  | present hid => exact hasResult_of_mem_ids hid
  | endpoint hedge hv => exact hasResult_of_mem_ids (hwhole _ _ hedge _ hv)
  | other => cases hkind

theorem ne_root_of_hasResult (h : item.HasResult g) : item ≠ .root := by
  rintro rfl
  cases h

theorem isRoot_of_mem_injected {values : List Json} {t : Traverser}
    (h : t ∈ injected values scope input) : t.item.isRoot = false := by
  unfold injected at h
  split at h
  · obtain ⟨t', -, ht⟩ := List.mem_flatMap.mp h
    split at ht
    · obtain ⟨v, -, rfl⟩ := List.mem_map.mp ht
      rfl
    · rw [List.mem_singleton.mp ht]
      exact eq_false_of_ne_true ‹_›
  · rename_i hnone
    rcases List.mem_append.mp h with hold | hnew
    · by_contra hroot
      exact hnone (List.any_eq_true.mpr ⟨t, hold, eq_true_of_ne_false hroot⟩)
    · obtain ⟨v, -, rfl⟩ := List.mem_map.mp hnew
      rfl

theorem hasResult_of_projected {projection : Projection} {items : List Item}
    (hcount : projection ≠ .count) (h : g.projected projection item = .ok items) :
    ∀ item' ∈ items, item'.HasResult g := by
  intro item' hitem'
  unfold Graph.projected at h
  split at h <;> cases h
  · rw [List.mem_singleton.mp hitem']
    rfl
  · obtain ⟨label, -, rfl⟩ := Option.map_eq_some_iff.mp (Option.mem_toList.mp hitem')
    rfl
  · obtain ⟨value, -, rfl⟩ := Option.map_eq_some_iff.mp (Option.mem_toList.mp hitem')
    rfl
  · exact absurd rfl hcount

/-- A step that looks keeps some of the traversers, or behind it none is at the source. -/
theorem results_of_look (hwhole : g.Whole) {step : Step} (hlooks : step.looks = true)
    (hout : g.look scope input step = .ok out) :
    out.Sublist input ∨ ∀ t ∈ out, t.item.HasResult g ∨ t ∈ input ∧ t.item.isRoot = false := by
  by_cases hkind : (step.kindAfter none).isSome
  · refine .inr fun t ht => .inl ?_
    rcases of_mem_look hlooks hout ht with ⟨-, hkept⟩ | ⟨hreached, -⟩
    · -- a kind that is known after nothing was known is not that of an earlier traverser
      obtain ⟨kind, hafter⟩ := Option.isSome_iff_exists.mp hkind
      cases hkept none kind hafter
    · exact hasResult_of_reached hwhole (hreached none) hkind
  · unfold Graph.look at hout
    cases step with
    | typeFilter labels =>
        cases hout
        exact .inl List.filter_sublist
    | filter predicate => exact .inl (sublist_of_satisfying_eq_ok hout)
    | limit count =>
        cases hout
        exact .inl (List.take_sublist ..)
    | inject values =>
        cases hout
        refine .inr fun t ht => ?_
        rcases of_mem_injected ht with hold | ⟨⟨v, hv⟩, -⟩
        · exact .inr ⟨hold, isRoot_of_mem_injected ht⟩
        · rw [hv]
          exact .inl rfl
    | fold =>
        cases hout
        exact .inr (List.forall_mem_singleton.mpr (.inl rfl))
    | project projection =>
        cases projection with
        | count =>
            cases hout
            exact .inr (List.forall_mem_singleton.mpr (.inl rfl))
        | id | label | values _ =>
            refine .inr fun t ht => .inl ?_
            obtain ⟨_, -, items, hitems, hmem, -⟩ := exists_of_mem_expand hout ht
            exact hasResult_of_projected Projection.noConfusion hitems _ hmem
    | selectAll _ | selectById _ _ | edgeVertex _ => exact absurd rfl hkind
    | traverse _ _ target => cases target <;> exact absurd rfl hkind
    | addVertex _ _ | addEdge _ _ _ _ | update _ | bind _ _ | drop => cases hlooks

theorem AllHaveResults.look (hwhole : g.Whole) {step : Step} (hlooks : step.looks = true)
    (hout : g.look scope input step = .ok out) (h : AllHaveResults g input) :
    AllHaveResults g out := by
  intro t ht
  rcases results_of_look hwhole hlooks hout with hsublist | hnew
  · exact h t (hsublist.subset ht)
  · rcases hnew t ht with hresult | ⟨hold, -⟩
    · exact hresult
    · exact h t hold

theorem Settled.look (hwhole : g.Whole) {step : Step} (hlooks : step.looks = true)
    (hout : g.look scope input step = .ok out) (h : Settled g input) : Settled g out := by
  rcases h with hall | ⟨bindings, rfl⟩
  · exact .inl (hall.look hwhole hlooks hout)
  · rcases results_of_look hwhole hlooks hout with hsublist | hnew
    · rcases List.sublist_singleton.mp hsublist with rfl | rfl
      · exact .inl (List.forall_mem_nil _)
      · exact .inr ⟨bindings, rfl⟩
    · refine .inl fun t ht => ?_
      rcases hnew t ht with hresult | ⟨hold, hroot⟩
      · exact hresult
      · rw [List.mem_singleton.mp hold] at hroot
        cases hroot

end Looking

/-! ### Settled traversers stay settled

A traversal that only reads leaves the graph as it is. So there is one graph to have results in, and each step
leads from settled traversers to settled ones there. -/

/-- What a computation on the graph leads to is settled if what it starts from is. -/
structure Settles (g : Graph) (input out : List Traverser) : Prop where
  all : AllHaveResults g input → AllHaveResults g out
  settled : Settled g input → Settled g out

section Evaluation

variable {access : Access} {g : Graph}

theorem Settles.trans {input between out : List Traverser} (h : Settles g input between)
    (h' : Settles g between out) : Settles g input out :=
  ⟨h'.all ∘ h.all, h'.settled ∘ h.settled⟩

def StepSettles (access : Access) (g : Graph) (step : Step) : Prop :=
  step.mutates = false → ∀ input scope, Ensures (evaluateStep access step input scope) g
    (fun out g' => Settles g input out ∧ g' = g) fun _ g' => g' = g

def StepsSettle (access : Access) (g : Graph) (steps : List Step) : Prop :=
  Step.anyMutates steps = false → ∀ input scope, Ensures (evaluateSteps access steps input scope) g
    (fun out g' => Settles g input out ∧ g' = g) fun _ g' => g' = g

theorem settles_of_withItem {t : Traverser} {inner : Bindings} {results : List Traverser}
    (h : Settles g [⟨t.item, inner⟩] results) :
    Settles g [t] (results.map fun r => t.withItem r.item) where
  all hall := by
    have hitem : t.item.HasResult g := hall t (List.mem_singleton_self t)
    exact List.forall_mem_map.mpr (h.all (List.forall_mem_singleton.mpr hitem))
  settled hsettled := by
    have hinner : Settled g [⟨t.item, inner⟩] := by
      rcases hsettled with hall | ⟨_, heq⟩
      · exact .inl (List.forall_mem_singleton.mpr (hall t (List.mem_singleton_self t)))
      · rw [List.singleton_inj.mp heq]
        exact .inr ⟨inner, rfl⟩
    rcases h.settled hinner with hall | ⟨_, rfl⟩
    · exact .inl (List.forall_mem_map.mpr hall)
    · exact .inr ⟨t.bindings, rfl⟩

theorem settles_of_parts {input : List Traverser} {parts : List (List Traverser)}
    (h : List.Forall₂ (fun t part => Settles g [t] part) input parts) :
    Settles g input parts.flatten := by
  have hall (hinput : AllHaveResults g input) : AllHaveResults g parts.flatten := by
    induction h with
    | nil => exact List.forall_mem_nil _
    | cons hpart _ ih =>
        obtain ⟨hitem, hrest⟩ := List.forall_mem_cons.mp hinput
        rw [List.flatten_cons, AllHaveResults, List.forall_mem_append]
        exact ⟨hpart.all (List.forall_mem_singleton.mpr hitem), ih hrest⟩
  refine ⟨hall, fun hsettled => ?_⟩
  rcases hsettled with hinput | ⟨bindings, rfl⟩
  · exact .inl (hall hinput)
  · cases h with
    | cons hpart hrest =>
        cases hrest
        rw [List.flatten_singleton]
        exact hpart.settled (.inr ⟨bindings, rfl⟩)

/-- A loop whose rounds leave the state as it is. -/
theorem Ensures.mapM_keeping {ε σ α β : Type} {R : α → β → Prop} {f : α → ExceptT ε (StateM σ) β} {s : σ}
    {xs : List α}
    (hround : ∀ x ∈ xs, Ensures (f x) s (fun b s' => R x b ∧ s' = s) fun _ s' => s' = s) :
    Ensures (xs.mapM f) s (fun bs s' => List.Forall₂ R xs bs ∧ s' = s) fun _ s' => s' = s := by
  induction xs with
  | nil =>
      rw [List.mapM_nil]
      exact .pure ⟨.nil, rfl⟩
  | cons x rest ih =>
      obtain ⟨hx, hrest⟩ := List.forall_mem_cons.mp hround
      rw [List.mapM_cons]
      refine .bind (hx.mono ?_ fun _ _ h => h)
      rintro b _ ⟨hb, rfl⟩
      refine .bind ((ih hrest).mono ?_ fun _ _ h => h)
      rintro bs _ ⟨hbs, rfl⟩
      exact .pure ⟨.cons hb hbs, rfl⟩

theorem stepsSettle (access : Access) (hwhole : g.Whole) :
    Step.Induction (StepSettles access g) (StepsSettle access g) where
  look step hlooks _ input scope := by
    rw [evaluateStep_of_looks hlooks]
    exact .read (fun out hout => ⟨⟨.look hwhole hlooks hout, .look hwhole hlooks hout⟩, rfl⟩)
      fun _ _ => rfl
  addVertex _ _ hreads := nomatch hreads
  addEdge _ _ _ _ _ _ hreads := nomatch hreads
  update _ hreads := nomatch hreads
  bind name continuation ih := by
    intro hreads input scope
    have hcontinuation : Step.anyMutates continuation = false := hreads
    rw [evaluateStep_bind]
    refine .bind ((Ensures.mapM_keeping (R := fun t part => Settles g [t] part) fun t _ => ?_).mono
      ?_ fun _ _ h => h)
    · exact .continueFrom ((ih hcontinuation _ _).mono
        (fun _ _ h => ⟨settles_of_withItem h.1, h.2⟩) fun _ _ h => h)
    · rintro parts _ ⟨hparts, rfl⟩
      exact .pure ⟨settles_of_parts hparts, rfl⟩
  drop hreads := nomatch hreads
  nil _ input _ := .pure ⟨⟨fun h => h, fun h => h⟩, rfl⟩
  cons step rest hstep hrest := by
    intro hreads input scope
    rw [Step.anyMutates, Bool.or_eq_false_iff] at hreads
    rw [evaluateSteps_cons]
    refine .bind ((hstep hreads.1 input scope).mono ?_ fun _ _ h => h)
    rintro between _ ⟨hfirst, rfl⟩
    exact (hrest hreads.2 between scope).mono (fun _ _ h => ⟨hfirst.trans h.1, h.2⟩) fun _ _ h => h

end Evaluation

section Results

variable {g : Graph} {found : List Traverser}

/-- The results of traversers. -/
def resultsOf (g : Graph) (found : List Traverser) : List RawResult :=
  found.filterMap fun t => t.item.result? g

theorem results_reached (g : Graph) (found : List Traverser) :
    Item.results g (reached found) = resultsOf g found := by
  have hroot : ∀ item : Item, (if (!item.isRoot) = true then item.result? g else none) = item.result? g := by
    intro item
    cases item <;> rfl
  rw [results_eq_filterMap, reached, List.filterMap_filter, List.filterMap_map, resultsOf]
  exact congrArg (List.filterMap · found) (funext fun t => hroot t.item)

theorem map_result? (h : AllHaveResults g found) :
    found.map (fun t => t.item.result? g) = (resultsOf g found).map some := by
  induction found with
  | nil => rfl
  | cons t rest ih =>
      obtain ⟨hitem, hrest⟩ := List.forall_mem_cons.mp h
      obtain ⟨r, hr⟩ := Option.isSome_iff_exists.mp hitem
      have hresults : resultsOf g (t :: rest) = r :: resultsOf g rest := List.filterMap_cons_some hr
      rw [List.map_cons, ih hrest, hr, hresults, List.map_cons]

theorem length_reached (h : Settled g found) : (reached found).length = (resultsOf g found).length := by
  rcases h with hall | ⟨_, rfl⟩
  · have hitems : reached found = found.map (·.item) := by
      refine List.filter_eq_self.mpr (List.forall_mem_map.mpr fun t ht => ?_)
      cases hitem : t.item with
      | root => exact absurd hitem (ne_root_of_hasResult (hall t ht))
      | element _ _ | value _ | list _ => rfl
    calc (reached found).length
        = (found.map fun t => t.item.result? g).length := by rw [hitems, List.length_map, List.length_map]
      _ = (resultsOf g found).length := by rw [map_result? hall, List.length_map]
  · rfl

theorem resultsOf_take (h : Settled g found) (n : Nat) :
    resultsOf g (found.take n) = (resultsOf g found).take n := by
  rcases h with hall | ⟨bindings, rfl⟩
  · calc resultsOf g (found.take n)
        = ((found.take n).map fun t => t.item.result? g).filterMap id := by rw [List.filterMap_map]; rfl
      _ = (((resultsOf g found).take n).map some).filterMap id := by
        rw [List.map_take, map_result? hall, List.map_take]
      _ = (resultsOf g found).take n := by rw [List.filterMap_map]; exact List.filterMap_some
  · have hnone : resultsOf g [⟨.root, bindings⟩] = [] := rfl
    rw [hnone, List.take_nil]
    rcases List.sublist_singleton.mp (List.take_sublist n [(⟨.root, bindings⟩ : Traverser)]) with heq | heq
    · rw [heq]
      rfl
    · rw [heq, hnone]

end Results

section Runs

variable {steps : List Step} {g : Graph}

section

variable {access : Access} {input : List Traverser} {scope : Bindings}
  {found : Except EngineError (List Traverser)}

theorem runSteps_of_run (h : (evaluateSteps access steps [⟨.root, []⟩] []).run g = (found, g)) :
    (runSteps access steps).run g = (found.map (resultsOf g), g) := by
  cases found with
  | error e => exact run_bind_of_error h
  | ok ts => exact run_bind_of_ok h

theorem run_snoc_of_look {step : Step} (hlooks : step.looks = true)
    (h : (evaluateSteps access steps input scope).run g = (found, g)) :
    (evaluateSteps access (steps ++ [step]) input scope).run g
      = (found >>= fun ts => g.look scope ts step, g) := by
  rw [evaluateSteps_append]
  cases found with
  | error e => exact run_bind_of_error h
  | ok ts =>
      rw [run_bind_of_ok h, evaluateSteps_cons, evaluateStep_of_looks hlooks]
      change (Evaluation.read _ >>= fun out => Pure.pure out).run g = (g.look scope ts step, g)
      rw [bind_pure, run_read]

end

/-- What steps that only read have found when they are done, and what one more step that looks makes of it. -/
theorem exists_found (hreads : Step.anyMutates steps = false) (hwhole : g.Whole) :
    ∃ found : Except EngineError (List Traverser),
      (∀ ts, found = .ok ts → Settled g ts) ∧
      g.evaluate ⟨steps⟩ = (found.map (resultsOf g), g) ∧
      ∀ step : Step, step.looks = true →
        g.evaluate ⟨steps ++ [step]⟩
          = ((found >>= fun ts => g.look [] ts step).map (resultsOf g), g) := by
  obtain ⟨found, hrun, -⟩ := stepsOnlyRead.holdsOfAll steps hreads [⟨.root, []⟩] [] g
  refine ⟨found, fun ts hfound => ?_, ?_, fun step hlooks => ?_⟩
  · have hsettle := (stepsSettle .read hwhole).holdsOfAll steps hreads [⟨.root, []⟩] []
    rw [hfound] at hrun
    exact (hsettle.of_ok (hrun .read)).1.settled (.inr ⟨[], rfl⟩)
  · rw [evaluate_eq_run]
    exact runSteps_of_run (hrun _)
  · rw [evaluate_eq_run]
    exact runSteps_of_run (run_snoc_of_look hlooks (hrun _))

theorem agree_of_results {rs : List RawResult} (hreads : Step.anyMutates steps = false)
    (hwhole : g.Whole) (h : (g.evaluate ⟨steps⟩).1 = .ok rs) :
    g.evaluate ⟨steps ++ [.fold]⟩ = (.ok [.list rs], g) ∧
      g.evaluate ⟨steps ++ [.project .count]⟩ = (.ok [.value (.int rs.length)], g) ∧
      ∀ n, g.evaluate ⟨steps ++ [.limit n]⟩ = (.ok (rs.take n.toNat), g) := by
  obtain ⟨found, hsettled, hplain, hmore⟩ := exists_found hreads hwhole
  rw [hplain] at h
  obtain ⟨ts, rfl, rfl⟩ := exists_of_map_eq_ok h
  refine ⟨?_, ?_, fun n => ?_⟩
  · rw [hmore .fold rfl, ← results_reached]
    rfl
  · rw [hmore (.project .count) rfl, ← length_reached (hsettled ts rfl)]
    rfl
  · rw [hmore (.limit n) rfl, ← resultsOf_take (hsettled ts rfl)]
    rfl

theorem fails_of_failure {e : EngineError} (hreads : Step.anyMutates steps = false)
    (hwhole : g.Whole) (h : (g.evaluate ⟨steps⟩).1 = .error e) {step : Step}
    (hlooks : step.looks = true) : g.evaluate ⟨steps ++ [step]⟩ = (.error e, g) := by
  obtain ⟨found, -, hplain, hmore⟩ := exists_found hreads hwhole
  rw [hplain] at h
  rw [hmore step hlooks, eq_error_of_map_eq_error h]
  rfl

theorem compile_limit {t : Traversal} (h : t.compile = .ok ⟨steps⟩) (n : UInt64) :
    (t.limit n).compile = .ok ⟨steps ++ [.limit n]⟩ := by
  unfold Traversal.compile CompiledTraversal.inScope at h ⊢
  have hsteps : (t.limit n).steps = t.steps ++ [.limit n] := rfl
  have hnames : (t.limit n).scope.names = t.scope.names := rfl
  have hlimit : Step.unboundIn? t.scope.names [.limit n] = none := rfl
  rw [hsteps, hnames, unboundIn?_append, hlimit, Option.or_none]
  cases hunbound : Step.unboundIn? t.scope.names t.steps with
  | some name =>
      rw [hunbound] at h
      cases h
  | none =>
      rw [hunbound] at h
      cases h
      rfl

theorem first_handedOut (decode : Decoder) (rs : List RawResult) :
    (handedOut decode (.ok (rs.take 1))).map (·.head?) = rs.head?.elim (.ok none) decode := by
  cases rs with
  | nil => rfl
  | cons r rest =>
      rw [List.take_succ_cons, List.take_zero, handedOut, List.mapM_cons]
      cases hdecode : decode r with
      | error e => simp [hdecode, Except.map, bind, Except.bind]
      | ok output => cases output <;> simp [hdecode, Except.map, bind, Except.bind, pure, Except.pure]

/-- After steps that only read, on a graph whose edges have their endpoints, `fold` makes one list of the
results, `count` gives their number and `limit` keeps the first of them. A failure of the steps is that of
all three. So the first result that a client asks for is made of the first of those that a list is made of. -/
theorem fold_count_limit_agree (hreads : Step.anyMutates steps = false) (hwhole : g.Whole) :
    (∀ rs, (g.evaluate ⟨steps⟩).1 = .ok rs →
      g.evaluate ⟨steps ++ [.fold]⟩ = (.ok [.list rs], g) ∧
      g.evaluate ⟨steps ++ [.project .count]⟩ = (.ok [.value (.int rs.length)], g) ∧
      ∀ n, g.evaluate ⟨steps ++ [.limit n]⟩ = (.ok (rs.take n.toNat), g)) ∧
    (∀ e, (g.evaluate ⟨steps⟩).1 = .error e →
      g.evaluate ⟨steps ++ [.fold]⟩ = (.error e, g) ∧
      g.evaluate ⟨steps ++ [.project .count]⟩ = (.error e, g) ∧
      ∀ n, g.evaluate ⟨steps ++ [.limit n]⟩ = (.error e, g)) ∧
    ∀ (model : GraphModel) (config : EnvironmentConfig) (t : Traversal), t.compile = .ok ⟨steps⟩ →
      let env : Environment := ⟨model, config, .memory g⟩
      let decode : Decoder := fun r => r.decode model config.projection t.result
      (∀ rs, (g.evaluate ⟨steps⟩).1 = .ok rs →
        (env.toList t).1 = some ((rs.mapM decode).map (·.filterMap id)) ∧
        (env.first t).1 = some (rs.head?.elim (.ok none) decode)) ∧
      ∀ e, (g.evaluate ⟨steps⟩).1 = .error e →
        (env.toList t).1 = some (.error e.toTraversalError) ∧
        (env.first t).1 = some (.error e.toTraversalError) := by
  refine ⟨fun rs => agree_of_results hreads hwhole, fun e hfails => ?_, fun model config t hcompile => ?_⟩
  · have hsame {step : Step} (hlooks : step.looks = true) :
        g.evaluate ⟨steps ++ [step]⟩ = (.error e, g) := fails_of_failure hreads hwhole hfails hlooks
    exact ⟨hsame rfl, hsame rfl, fun n => hsame rfl⟩
  · intro env decode
    have hlist := toList_eq_handedOut model config g hcompile
    have hlimited := toList_eq_handedOut model config g (compile_limit hcompile 1)
    have hfirst : (env.first t).1 = some ((handedOut decode (g.evaluate ⟨steps ++ [.limit 1]⟩).1).map
        (·.head?)) := by
      rw [Environment.first, hlimited]
      rfl
    refine ⟨fun rs hrs => ⟨?_, ?_⟩, fun e hfails => ⟨?_, ?_⟩⟩
    · rw [hlist, hrs]
      rfl
    · obtain ⟨-, -, hlimit⟩ := agree_of_results hreads hwhole hrs
      rw [hfirst, hlimit]
      exact congrArg some (first_handedOut decode rs)
    · rw [hlist, hfails]
      rfl
    · rw [hfirst, fails_of_failure hreads hwhole hfails rfl]
      rfl

/-- Each of two people has the other for a neighbour, one bind deep. -/
theorem neighbours_counted :
    let steps : List Step := [.selectAll .vertex, .bind "p" [.traverse .both ["Knows"] .vertices]]
    let people := ((Graph.empty.addVertex "Person" []).2.addVertex "Person" []).2
    let g := (people.addEdge "Knows" [] 1 2).2
    let first : RawElement := ⟨.int 2, "Person", .vertex, [], none, none⟩
    Step.anyMutates steps = false ∧ g.Whole ∧
      g.evaluate ⟨steps ++ [.project .count]⟩ = (.ok [.value (.int 2)], g) ∧
      g.evaluate ⟨steps ++ [.limit 1]⟩ = (.ok [.element first], g) := by
  intro steps people g first
  have hreads : Step.anyMutates steps = false := rfl
  have hwhole : g.Whole := by
    intro id e he v hv
    have hrow : (id, e) = (3, ⟨"Knows", [], 1, 2⟩) := List.mem_singleton.mp he
    cases hrow
    exact hv
  let second : RawElement := ⟨.int 1, "Person", .vertex, [], none, none⟩
  have hresults : (g.evaluate ⟨steps⟩).1 = .ok [.element first, .element second] := by
    with_unfolding_all rfl
  obtain ⟨-, hcount, hlimit⟩ := (fold_count_limit_agree hreads hwhole).1 _ hresults
  exact ⟨hreads, hwhole, hcount, hlimit 1⟩

end Runs

end PropertyGraph
