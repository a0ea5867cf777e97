import PropertyGraph.Environment
import PropertyGraph.Proofs.Typing

/-!
# Decoding leaves nothing out

The client compares the label of each element with the declared type, and depending on the projection
mode it leaves out an element of another label or reports it. For a built traversal and the engine of
this library neither can happen, because the items that the traversal ends with are of the declared type
already. So decoding can do without the comparison, and both modes have the outcome of a decoding that
does not make it.
-/

namespace PropertyGraph

/-- A raw result is of a type. Of values nothing is asked, and nothing before anything is selected. -/
def RawResult.Matches : ResultType → RawResult → Prop
  | .start, _ | .value _, _ => True
  | .anyVertex, r => ∃ e, r = .element e ∧ e.kind = .vertex
  | .anyEdge, r => ∃ e, r = .element e ∧ e.kind = .edge
  | .element type, r => ∃ e, r = .element e ∧ e.kind = type.kind ∧ e.label = type.label
  | .folded inner, r => ∃ items, r = .list items ∧ ∀ item ∈ items, Matches inner item

theorem results_eq_filterMap (g : Graph) (items : List Item) :
    Item.results g items = items.filterMap (Item.result? g) := by
  induction items with
  | nil => rfl
  | cons item rest ih =>
      rw [Item.results, List.filterMap_cons, ih]
      cases item.result? g <;> rfl

theorem of_raw?_eq_some {g : Graph} {kind : ElementKind} {id : Nat} {e : RawElement}
    (h : g.raw? kind id = some e) : e.kind = kind ∧ g.label? kind id = some e.label := by
  cases kind with
  | vertex | edge =>
      obtain ⟨record, hrecord, rfl⟩ := Option.map_eq_some_iff.mp h
      rw [Graph.label?, hrecord]
      exact ⟨rfl, rfl⟩

/-- The result of an item of a type is of the type. -/
theorem matches_of_fits {g : Graph} {result : ResultType} {item : Item} {r : RawResult}
    (h : item.Fits g result) (hr : item.result? g = some r) : r.Matches result := by
  induction result generalizing item r with
  | start | value _ => trivial
  | anyVertex | anyEdge =>
      obtain ⟨id, rfl⟩ := h
      obtain ⟨e, he, rfl⟩ := Option.map_eq_some_iff.mp hr
      exact ⟨e, rfl, (of_raw?_eq_some he).1⟩
  | element type =>
      obtain ⟨id, rfl, -, hlabel⟩ := h
      obtain ⟨e, he, rfl⟩ := Option.map_eq_some_iff.mp hr
      obtain ⟨hkind, hpresent⟩ := of_raw?_eq_some he
      exact ⟨e, rfl, hkind, hlabel _ hpresent⟩
  | folded inner ih =>
      obtain ⟨items, rfl, hall⟩ := h
      cases hr
      refine ⟨_, rfl, fun result hresult => ?_⟩
      rw [results_eq_filterMap] at hresult
      obtain ⟨member, hmember, hresult⟩ := List.mem_filterMap.mp hresult
      exact ih (hall member hmember) hresult

/-- A raw result as a result of a type, without a look at labels. Nothing is left out. -/
def RawResult.decodeWhole : ResultType → RawResult → Except TraversalError Output
  | .start, r => .ok (.raw r)
  | .anyVertex, r => (r.decodeAny .vertex).map .element
  | .anyEdge, r => (r.decodeAny .edge).map .element
  | .element type, r => do
    let e ← r.expectElement
    match type.read .value (Document.ofJson (.obj (valueMembers e))) with
    | .ok v => return .value v
    | .error error => decodingError s!"cannot decode '{type.label}': {error.message}"
  | .value type, r => (r.decodeValue type).map .value
  | .folded inner, r => do
    let items ← r.expectList
    let outputs ← items.mapM (decodeWhole inner)
    return .list outputs

section Decoding

variable {model : GraphModel} {result : ResultType} {r : RawResult}

theorem mapM_eq_map_some {ε α β : Type} {f : α → Except ε (Option β)} {whole : α → Except ε β}
    {xs : List α} (h : ∀ x ∈ xs, f x = (whole x).map some) :
    xs.mapM f = (xs.mapM whole).map (·.map some) := by
  induction xs with
  | nil => rfl
  | cons x rest ih =>
      have hrest := ih fun y hy => h y (List.mem_cons_of_mem x hy)
      rw [List.mapM_cons, List.mapM_cons, h x List.mem_cons_self, hrest]
      cases whole x with
      | error e => rfl
      | ok b => cases rest.mapM whole <;> rfl

theorem decode_list (model : GraphModel) (mode : ProjectionMode) (inner : ResultType)
    (items : List RawResult) :
    (RawResult.list items).decode model mode (.folded inner)
      = (items.mapM (RawResult.decode model mode inner)).map fun outputs =>
        some (.list (outputs.filterMap id)) := by
  rw [RawResult.decode]
  change (items.mapM (RawResult.decode model mode inner) >>= fun outputs =>
    Except.ok (some (Output.list (outputs.filterMap id)))) = _
  cases items.mapM (RawResult.decode model mode inner) <;> rfl

theorem decodeWhole_list (inner : ResultType) (items : List RawResult) :
    (RawResult.list items).decodeWhole (.folded inner)
      = (items.mapM (RawResult.decodeWhole inner)).map .list := by
  rw [RawResult.decodeWhole]
  change (items.mapM (RawResult.decodeWhole inner) >>= fun outputs =>
    Except.ok (Output.list outputs)) = _
  cases items.mapM (RawResult.decodeWhole inner) <;> rfl

/-- The comparison of labels passes. -/
theorem decode_element {type : ElementType} {e : RawElement}
    (hlabelOf : model.labelOf type = .ok (.ofType type)) (hkind : e.kind = type.kind)
    (hlabel : e.label = type.label) (mode : ProjectionMode) :
    (RawResult.element e).decode model mode (.element type)
      = ((RawResult.element e).decodeWhole (.element type)).map some := by
  have hsame : ¬(e.kind ≠ (LabelDescriptor.ofType type).kind ∨
      e.label ≠ (LabelDescriptor.ofType type).label) := by
    simpa [LabelDescriptor.ofType] using ⟨hkind, hlabel⟩
  have hdecode : (RawResult.element e).decode model mode (.element type)
      = match type.read .value (Document.ofJson (.obj (RawResult.valueMembers e))) with
        | .ok v => .ok (some (.value v))
        | .error error =>
          RawResult.decodingError s!"cannot decode '{type.label}': {error.message}" := by
    rw [RawResult.decode, RawResult.decodeElement, hlabelOf]
    exact if_neg hsame
  rw [hdecode, RawResult.decodeWhole]
  change _ = Except.map some (match type.read .value _ with | .ok v => _ | .error error => _)
  cases type.read .value (Document.ofJson (.obj (RawResult.valueMembers e))) <;> rfl

/-- A result of the type is decoded as a whole in either mode. -/
theorem decode_eq_decodeWhole (h : r.Matches result) (hregistered : result.RegisteredIn model)
    (mode : ProjectionMode) : r.decode model mode result = (r.decodeWhole result).map some := by
  induction result generalizing r with
  | start => rfl
  | anyVertex | anyEdge =>
      rw [RawResult.decode, RawResult.decodeWhole]
      cases r.decodeAny _ <;> rfl
  | value type =>
      rw [RawResult.decode, RawResult.decodeWhole]
      cases r.decodeValue type <;> rfl
  | element type =>
      obtain ⟨e, rfl, hkind, hlabel⟩ := h
      exact decode_element hregistered hkind hlabel mode
  | folded inner ih =>
      obtain ⟨items, rfl, hall⟩ := h
      have hitems := mapM_eq_map_some fun item hitem => ih (hall item hitem) hregistered
      rw [decode_list, decodeWhole_list, hitems]
      cases items.mapM (RawResult.decodeWhole inner) with
      | error e => rfl
      | ok outputs => simp [Except.map, List.filterMap_map]

end Decoding

section Errors

variable {e : TraversalError} {r : RawResult}

theorem reason_of_expectElement (h : r.expectElement = .error e) :
    ∃ reason, e = .decoding reason := by
  cases r with
  | element element => cases h
  | value _ | list _ =>
      cases h
      exact ⟨_, rfl⟩

theorem reason_of_expectList (h : r.expectList = .error e) : ∃ reason, e = .decoding reason := by
  cases r with
  | list items => cases h
  | element _ | value _ =>
      cases h
      exact ⟨_, rfl⟩

theorem reason_of_decodeAny {kind : ElementKind} (h : r.decodeAny kind = .error e) :
    ∃ reason, e = .decoding reason := by
  rcases of_bind_eq_error h with hexpect | ⟨element, -, h⟩
  · exact reason_of_expectElement hexpect
  · split at h
    · cases h
    · cases h
      exact ⟨_, rfl⟩

/-- Decoding that does not compare labels reports no label. -/
theorem reason_of_decodeWhole {result : ResultType} (h : r.decodeWhole result = .error e) :
    ∃ reason, e = .decoding reason := by
  induction result generalizing r e with
  | start => cases h
  | anyVertex | anyEdge => exact reason_of_decodeAny (eq_error_of_map_eq_error h)
  | element type =>
      rcases of_bind_eq_error h with hexpect | ⟨element, -, h⟩
      · exact reason_of_expectElement hexpect
      · split at h
        · cases h
        · cases h
          exact ⟨_, rfl⟩
  | value type =>
      have hvalue := eq_error_of_map_eq_error h
      unfold RawResult.decodeValue at hvalue
      split at hvalue
      · cases hvalue
      · cases hvalue
        exact ⟨_, rfl⟩
  | folded inner ih =>
      rcases of_bind_eq_error h with hexpect | ⟨items, -, h⟩
      · exact reason_of_expectList hexpect
      · rcases of_bind_eq_error h with hitems | ⟨outputs, -, h⟩
        · obtain ⟨item, -, hitem⟩ := exists_of_mapM_eq_error hitems
          exact ih hitem
        · cases h

end Errors

/-- What an evaluation delivers if nothing is left out. -/
def delivered (result : ResultType) :
    Except EngineError (List RawResult) → Except TraversalError (List Output)
  | .ok results => results.mapM (RawResult.decodeWhole result)
  | .error e => .error e.toTraversalError

section Runs

variable {decode : Decoder} {e : Execution}

theorem receive_phase (phase : Phase) (ends : Bool) (items : List StreamItem) :
    { e with phase }.receive decode ends items = e.receive decode ends items := by
  induction items with
  | nil => rfl
  | cons item rest ih =>
      cases item with
      | error error => rfl
      | ok raw =>
          simp only [Execution.receive]
          cases decode raw with
          | error error => rfl
          | ok output =>
              cases output with
              | none => exact ih
              | some output => rfl

/-- A complete stream is gathered up to the first result that cannot be decoded, without those that are
left out. -/
theorem gather_results {results : List RawResult} {fuel : Nat} (hfuel : results.length < fuel)
    (hphase : e.phase = .receiving (results.map .ok) true) (hcancelled : e.cancelled = false)
    (outputs : List Output) :
    (e.gather decode fuel outputs).1
      = some ((results.mapM decode).map (outputs.reverse ++ ·.filterMap id)) := by
  induction results generalizing e fuel outputs with
  | nil =>
      obtain ⟨fuel, rfl⟩ := Nat.exists_eq_add_one_of_ne_zero (Nat.ne_of_gt hfuel)
      have hadvance : e.advance decode = e.complete := by
        simp [Execution.advance, hphase, hcancelled, Execution.receive]
      rw [Execution.gather, hadvance, Execution.complete, List.mapM_nil]
      simp [Except.map, pure, Except.pure]
  | cons r rest ih =>
      obtain ⟨fuel, rfl⟩ := Nat.exists_eq_add_one_of_ne_zero (Nat.ne_of_gt (Nat.zero_lt_of_lt hfuel))
      have hrest : rest.length < fuel := Nat.lt_of_succ_lt_succ hfuel
      have hadvance : e.advance decode = e.receive decode true (.ok r :: rest.map .ok) := by
        simp [Execution.advance, hphase, hcancelled]
      cases hdecode : decode r with
      | error error =>
          rw [Execution.gather, hadvance, Execution.receive, hdecode, List.mapM_cons, hdecode]
          rfl
      | ok output =>
          have hall : (r :: rest).mapM decode = (rest.mapM decode).map (output :: ·) := by
            rw [List.mapM_cons, hdecode]
            cases rest.mapM decode <;> rfl
          cases output with
          | none =>
              -- the result is left out, as if the stream had begun after it
              let later : Execution := { e with phase := .receiving (rest.map .ok) true }
              have hlater : later.advance decode = e.receive decode true (rest.map .ok) := by
                have hreceive : later.advance decode = later.receive decode true (rest.map .ok) := by
                  simp [later, Execution.advance, hcancelled]
                rw [hreceive, receive_phase]
              have hskip : e.advance decode = later.advance decode := by
                rw [hadvance, hlater, Execution.receive, hdecode]
              have hgather : e.gather decode (fuel + 1) outputs
                  = later.gather decode (fuel + 1) outputs := by
                rw [Execution.gather, Execution.gather, hskip]
              rw [hgather, ih (e := later) (Nat.lt_succ_of_lt hrest) rfl hcancelled outputs, hall]
              cases rest.mapM decode <;> rfl
          | some output =>
              rw [Execution.gather, hadvance, Execution.receive, hdecode]
              refine (ih (e := { e with
                phase := .receiving (rest.map .ok) true, emitted := e.emitted + 1 })
                hrest rfl hcancelled (output :: outputs)).trans ?_
              rw [hall]
              cases rest.mapM decode <;> simp [Except.map]

theorem gather_failure {error : TraversalError} (hphase : e.phase = .receiving [.error error] true)
    (hcancelled : e.cancelled = false) (fuel : Nat) :
    (e.gather decode (fuel + 1) []).1 = some (.error error) := by
  have hadvance : e.advance decode = e.fail error := by
    simp [Execution.advance, hphase, hcancelled, Execution.receive]
  rw [Execution.gather, hadvance]
  rfl

variable {model : GraphModel} {config : EnvironmentConfig} {g : Graph} {t : Traversal}
  {c : CompiledTraversal}

/-- What is handed out of an evaluation. -/
def handedOut (decode : Decoder) :
    Except EngineError (List RawResult) → Except TraversalError (List Output)
  | .ok results => (results.mapM decode).map (·.filterMap id)
  | .error e => .error e.toTraversalError

theorem toList_eq_handedOut (model : GraphModel) (config : EnvironmentConfig) (g : Graph)
    (hcompile : t.compile = .ok c) :
    (Environment.mk model config (.memory g)).toList t
      = (some (handedOut (fun raw => raw.decode model config.projection t.result) (g.evaluate c).1),
        ⟨model, config, .memory (g.evaluate c).2⟩) := by
  have hrun : (Environment.mk model config (.memory g)).toList t
      = ((((Execution.start c).submitted (.accepted (evaluationItems (g.evaluate c).1) true)).gather
          (fun raw => raw.decode model config.projection t.result)
          ((evaluationItems (g.evaluate c).1).length + 1) []).1,
        ⟨model, config, .memory (g.evaluate c).2⟩) := by
    rw [Environment.toList, hcompile]
    rfl
  rw [hrun, Prod.mk.injEq]
  refine ⟨?_, rfl⟩
  cases hresult : (g.evaluate c).1 with
  | ok results =>
      have hfuel : results.length < (evaluationItems (.ok results)).length + 1 := by
        simp [evaluationItems]
      rw [gather_results hfuel rfl rfl, handedOut]
      rfl
  | error e => exact gather_failure rfl rfl 1

/-- The list of all results on the engine. -/
theorem toList_memory (hcompile : t.compile = .ok c)
    (hdecode : ∀ results, (g.evaluate c).1 = .ok results → ∀ r ∈ results,
      r.decode model config.projection t.result = (r.decodeWhole t.result).map some) :
    (Environment.mk model config (.memory g)).toList t
      = (some (delivered t.result (g.evaluate c).1), ⟨model, config, .memory (g.evaluate c).2⟩) := by
  rw [toList_eq_handedOut model config g hcompile]
  cases hresult : (g.evaluate c).1 with
  | ok results =>
      have hall : handedOut (fun raw => raw.decode model config.projection t.result) (.ok results)
          = delivered t.result (.ok results) := by
        rw [handedOut, delivered, mapM_eq_map_some (hdecode results hresult)]
        cases results.mapM (RawResult.decodeWhole t.result) with
        | error e => rfl
        | ok outputs => simp [Except.map, List.filterMap_map]
      rw [hall]
  | error e => rfl

/-- The failures are those of the engine and of decoding as a whole, and none is about a label. -/
theorem delivered_ne_typeFilterMismatch {result : ResultType}
    {evaluated : Except EngineError (List RawResult)} (expected found : String) :
    delivered result evaluated ≠ .error (.typeFilterMismatch expected found) := by
  intro h
  cases evaluated with
  | ok results =>
      obtain ⟨r, -, hr⟩ := exists_of_mapM_eq_error h
      obtain ⟨reason, heq⟩ := reason_of_decodeWhole hr
      cases heq
  | error e => cases h

end Runs

/-! ### Built traversals -/

section Programs

variable {registrations : List Registration} {model : GraphModel} {calls : List Call}
  {t : Traversal} {state state' : BuildState}

/-- What a run brings is of the type that the run ends with. -/
theorem matches_of_evaluate {access : Access} {steps : List Step} {g : Graph} {result : ResultType}
    (hfits : Ensures (evaluateSteps access steps [⟨.root, []⟩] []) g
      (fun out g' => AllFit g' result out) fun _ _ => True) :
    Ensures (runSteps access steps) g (fun results _ => ∀ r ∈ results, r.Matches result)
      fun _ _ => True := by
  refine .bind (hfits.mono (fun found g' hfound => .read (fun results hresults => ?_) fun _ _ =>
    trivial) fun _ _ h => h)
  cases hresults
  intro r hr
  obtain ⟨t, ht, hresult⟩ := List.mem_filterMap.mp hr
  exact matches_of_fits (hfound t ht) hresult

/-- A built traversal ends with items of its type, on every graph. -/
theorem matches_of_continues {added : List Step} {g : Graph}
    (h : Continues model .source t added) : ∀ results, (g.evaluate ⟨t.steps⟩).1 = .ok results →
      ∀ r ∈ results, r.Matches t.result := by
  have hsteps : t.steps = added := h.steps
  subst hsteps
  intro results hresults
  have hstart : AllFit g Traversal.source.result [⟨.root, []⟩] :=
    List.forall_mem_singleton.mpr trivial
  exact (matches_of_evaluate (h.fits hstart)).of_ok (Prod.ext hresults rfl)

/-- The label filter of the client has nothing to do after a built traversal: the shape that the builder
tracks is that of the declared type, and the engine answers with results of that type. So both projection
modes decode every result as a whole, with the outcome of a decoding that does not compare labels. -/
theorem label_filter_redundant
    (hmodel : (ModelBuilder.after registrations).build = .ok model)
    (hnames : NamesIdentify (registrations.flatMap Registration.types ++ Call.typesOfAll calls))
    (h : (Call.runAll model .source calls).run state = (.ok t, state')) (g : Graph) :
    t.shape = t.result.shape ∧ ∃ c, t.compile = .ok c ∧
      (∀ results, (g.evaluate c).1 = .ok results → ∀ r ∈ results, r.Matches t.result ∧
        ∀ mode, r.decode model mode t.result = (r.decodeWhole t.result).map some) ∧
      ∀ config : EnvironmentConfig,
        let run mode := (Environment.mk model (config.withProjection mode) (.memory g)).toList t
        (run .strict).1 = (run .exclude).1 ∧
        (run .strict).2.channel = (run .exclude).2.channel ∧
        ∀ mode, (run mode).1 = some (delivered t.result (g.evaluate c).1) ∧
          (run mode).2.channel = .memory (g.evaluate c).2 ∧
          ∀ expected found, (run mode).1 ≠ some (.error (.typeFilterMismatch expected found)) := by
  have hlabels : model.Labels (Call.typesOfAll calls) :=
    (((GraphModel.IsOf.after (List.subset_append_left ..)).build hmodel).labels hnames).of_subset
      (List.subset_append_right ..)
  obtain ⟨_, hcontinues⟩ := (continues_runAll model calls .source state hlabels).of_ok h
  obtain ⟨_, happends⟩ := (appendsChecked_runAll model calls .source state).of_ok h
  have hmatches := matches_of_continues (g := g) hcontinues
  have hregistered : t.result.RegisteredIn model := hcontinues.registered trivial
  have hdecode : ∀ mode results, (g.evaluate ⟨t.steps⟩).1 = .ok results → ∀ r ∈ results,
      r.decode model mode t.result = (r.decodeWhole t.result).map some :=
    fun mode results hresults r hr =>
      decode_eq_decodeWhole (hmatches results hresults r hr) hregistered mode
  refine ⟨hcontinues.shape rfl, _, happends.compile, fun results hresults r hr =>
    ⟨hmatches results hresults r hr, fun mode => hdecode mode results hresults r hr⟩, ?_⟩
  intro config run
  have hrun : ∀ mode, run mode = (some (delivered t.result (g.evaluate ⟨t.steps⟩).1),
      ⟨model, config.withProjection mode, .memory (g.evaluate ⟨t.steps⟩).2⟩) :=
    fun mode => toList_memory happends.compile (hdecode mode)
  refine ⟨?_, ?_, fun mode => ⟨?_, ?_, fun expected found => ?_⟩⟩
  · rw [hrun, hrun]
  · rw [hrun, hrun]
  · rw [hrun]
  · rw [hrun]
  · rw [hrun]
    exact fun hsome => delivered_ne_typeFilterMismatch expected found (Option.some.inj hsome)

/-- Of the vertices that a person knows, one is a robot. It is left out by the engine already. -/
theorem acquaintances_need_no_label_filter :
    let person : ElementType := ⟨"Person", .vertex, "Person", [], none⟩
    let knows : ElementType := ⟨"Knows", .edge, "Knows", [], none⟩
    let registrations : List Registration := [.register person, .register knows]
    let calls : List Call :=
      [.verticesOf person, .bind none "p" [.walk .outgoing knows, .ofType person], .fold]
    let people := ((Graph.empty.addVertex "Person" []).2.addVertex "Robot" []).2
    let g := (((people.addVertex "Person" []).2.addEdge "Knows" [] 1 2).2.addEdge "Knows" [] 1 3).2
    ∃ model t state', (ModelBuilder.after registrations).build = .ok model ∧
      NamesIdentify (registrations.flatMap Registration.types ++ Call.typesOfAll calls) ∧
      (Call.runAll model .source calls).run .initial = (.ok t, state') ∧
      t.result = .folded (.element person) ∧ ∃ c, t.compile = .ok c ∧
        (g.evaluate c).1 = .ok [.list [.element ⟨.int 3, "Person", .vertex, [], none, none⟩]] ∧
        ∀ config : EnvironmentConfig,
          ((Environment.mk model (config.withProjection .strict) (.memory g)).toList t).1
            = ((Environment.mk model (config.withProjection .exclude) (.memory g)).toList t).1 := by
  intro person knows registrations calls people g
  let model : GraphModel := ⟨[⟨.ofType person, []⟩, ⟨.ofType knows, []⟩]⟩
  have hmodel : (ModelBuilder.after registrations).build = .ok model := by decide
  have hnames : NamesIdentify (registrations.flatMap Registration.types ++ Call.typesOfAll calls) := by
    decide
  refine ⟨model, _, _, hmodel, hnames, rfl, rfl, ?_⟩
  have hbuilt : (Call.runAll model .source calls).run .initial = (.ok _, _) := rfl
  obtain ⟨-, c, hcompile, -, hruns⟩ := label_filter_redundant hmodel hnames hbuilt g
  cases hcompile
  refine ⟨_, rfl, ?_, fun config => (hruns config).1⟩
  with_unfolding_all rfl

end Programs

end PropertyGraph
