import PropertyGraph.Proofs.Decoding

/-!
# Strict and lenient projection

An element of another kind or label than the declared type is left out of the results under lenient
projection, and is an error under strict projection. What is left out and what an output shows of a raw
result is said here by the type alone, for lists in lists to any depth. Lenient decoding succeeds exactly
for what can be shown in this sense. Strict decoding succeeds with the same outputs, where nothing is left
out at any depth, and otherwise differs only by reporting a label.
-/

namespace PropertyGraph

namespace RawResult

/-- Whether results of a type leave out a raw result, which is an element of another kind or label. -/
def isForeign : ResultType → RawResult → Bool
  | .element type, .element e => e.kind != type.kind || e.label != type.label
  | _, _ => false

/-- An output shows a raw result as a result of a type. A list shows its members that are not foreign, in
their order. -/
def ShownAs : ResultType → RawResult → Output → Prop
  | .start, r, output => output = .raw r
  | .anyVertex, r, output => ∃ e, r = .element e ∧ e.kind = .vertex ∧ output = .element e
  | .anyEdge, r, output => ∃ e, r = .element e ∧ e.kind = .edge ∧ output = .element e
  | .element type, r, output => ∃ e v, r = .element e ∧ e.kind = type.kind ∧ e.label = type.label ∧
      type.read .value (Document.ofJson (.obj (valueMembers e))) = .ok v ∧ output = .value v
  | .value type, r, output => ∃ v,
      type.read .value (Document.ofJson r.plain) = .ok v ∧ output = .value v
  | .folded inner, r, output => ∃ items outputs, r = .list items ∧ output = .list outputs ∧
      List.Forall₂ (ShownAs inner) (items.filter fun item => !item.isForeign inner) outputs

/-- Nothing is left out of a raw result, at any depth. -/
def IsWhole : ResultType → RawResult → Prop
  | .folded inner, .list items => ∀ item ∈ items, IsWhole inner item
  | result, r => r.isForeign result = false

end RawResult

/-! ### Loops that leave out

Both modes go through a list in the same way and differ in what they do with a member of another label. What
comes of the loop is told by the members that are left out and by what the others show. -/

section Leaving

variable {ε α β : Type} {f strict lenient : α → Except ε (Option β)} {left : α → Bool}
  {shows : α → β → Prop} {xs : List α}

/-- A loop that leaves out some members gathers what the others show, in their order. -/
theorem mapM_filterMap_eq_ok_iff (hnone : ∀ x ∈ xs, f x = .ok none ↔ left x = true)
    (hsome : ∀ x ∈ xs, ∀ b, f x = .ok (some b) ↔ shows x b) (bs : List β) :
    (xs.mapM f).map (·.filterMap id) = .ok bs
      ↔ List.Forall₂ shows (xs.filter fun x => !left x) bs := by
  induction xs generalizing bs with
  | nil => cases bs <;> simp [Except.map, pure, Except.pure]
  | cons x rest ih =>
      obtain ⟨hleft, hnone⟩ := List.forall_mem_cons.mp hnone
      obtain ⟨hshows, hsome⟩ := List.forall_mem_cons.mp hsome
      have ih := ih hnone hsome
      rw [List.mapM_cons]
      cases hx : f x with
      | error e =>
          have hkept : left x = false := by
            rw [← Bool.not_eq_true, ← hleft, hx]
            simp
          rw [List.filter_cons_of_pos (by simp [hkept])]
          constructor
          · intro h
            cases h
          · rintro (_ | ⟨hb, -⟩)
            cases hx.symm.trans ((hshows _).mpr hb)
      | ok shown =>
          cases shown with
          | none =>
              have hgone : left x = true := hleft.mp hx
              rw [List.filter_cons_of_neg (by simp [hgone]), ← ih]
              cases rest.mapM f <;> rfl
          | some b =>
              have hkept : left x = false := by
                rw [← Bool.not_eq_true, ← hleft, hx]
                simp
              rw [List.filter_cons_of_pos (by simp [hkept])]
              constructor
              · intro h
                obtain ⟨outputs, houtputs, rfl⟩ := exists_of_map_eq_ok h
                obtain ⟨_, hfirst, houtputs⟩ := exists_of_bind_eq_ok houtputs
                obtain ⟨others, hothers, houtputs⟩ := exists_of_bind_eq_ok houtputs
                cases hfirst
                cases houtputs
                refine .cons ((hshows b).mp hx) ((ih _).mp ?_)
                rw [hothers]
                rfl
              · rintro (_ | ⟨hb, hbs⟩)
                cases hx.symm.trans ((hshows _).mpr hb)
                obtain ⟨others, hothers, rfl⟩ := exists_of_map_eq_ok ((ih _).mpr hbs)
                rw [hothers]
                rfl

/-- If a strict round succeeds as the lenient one does where a condition holds, so does the loop. -/
theorem mapM_strict_eq_ok_iff {whole : α → Prop}
    (h : ∀ x ∈ xs, ∀ o, strict x = .ok o ↔ lenient x = .ok o ∧ whole x) (os : List (Option β)) :
    xs.mapM strict = .ok os ↔ xs.mapM lenient = .ok os ∧ ∀ x ∈ xs, whole x := by
  induction xs generalizing os with
  | nil => simp
  | cons x rest ih =>
      obtain ⟨hx, hrest⟩ := List.forall_mem_cons.mp h
      rw [List.mapM_cons, List.mapM_cons, List.forall_mem_cons]
      constructor
      · intro hstrict
        obtain ⟨o, ho, hstrict⟩ := exists_of_bind_eq_ok hstrict
        obtain ⟨others, hothers, hstrict⟩ := exists_of_bind_eq_ok hstrict
        cases hstrict
        obtain ⟨hlenient, hwhole⟩ := (hx o).mp ho
        obtain ⟨hlenients, hwholes⟩ := (ih hrest others).mp hothers
        rw [hlenient, hlenients]
        exact ⟨rfl, hwhole, hwholes⟩
      · rintro ⟨hlenient, hwhole, hwholes⟩
        obtain ⟨o, ho, hlenient⟩ := exists_of_bind_eq_ok hlenient
        obtain ⟨others, hothers, hlenient⟩ := exists_of_bind_eq_ok hlenient
        cases hlenient
        rw [(hx o).mpr ⟨ho, hwhole⟩, (ih hrest others).mpr ⟨hothers, hwholes⟩]
        rfl

/-- If two loops have the same results as far as the strict one has any, it fails like the lenient one or
for a reason of its own. -/
theorem mapM_fails_alike (own : ε → Prop) (hok : ∀ x o, strict x = .ok o → lenient x = .ok o)
    (herror : ∀ x e, strict x = .error e → own e ∨ lenient x = .error e) {e : ε}
    (h : xs.mapM strict = .error e) : own e ∨ xs.mapM lenient = .error e := by
  induction xs with
  | nil => cases h
  | cons x rest ih =>
      rw [List.mapM_cons] at h ⊢
      rcases of_bind_eq_error h with hx | ⟨shown, hx, h⟩
      · refine (herror x e hx).imp_right fun hx => ?_
        rw [hx]
        rfl
      · rcases of_bind_eq_error h with hrest | ⟨others, -, h⟩
        · refine (ih hrest).imp_right fun hrest => ?_
          rw [hok x shown hx, hrest]
          rfl
        · cases h

end Leaving

namespace RawResult

variable {model : GraphModel} {result : ResultType} {r : RawResult} {e : TraversalError}

theorem decodeAny_eq_ok_iff {kind : ElementKind} {element : RawElement} :
    r.decodeAny kind = .ok element ↔ r = .element element ∧ element.kind = kind := by
  constructor
  · intro h
    obtain ⟨found, hfound, hchecked⟩ := exists_of_bind_eq_ok h
    cases r with
    | element _ =>
        cases hfound
        split at hchecked
        · cases hchecked
          exact ⟨rfl, ‹_›⟩
        · cases hchecked
    | value _ | list _ => cases hfound
  · rintro ⟨rfl, rfl⟩
    exact if_pos rfl

theorem decodeValue_eq_ok_iff {type : ValueType} {v : Json} :
    r.decodeValue type = .ok v ↔ type.read .value (Document.ofJson r.plain) = .ok v := by
  unfold decodeValue
  cases type.read .value (Document.ofJson r.plain) <;> simp [decodingError]

theorem map_some_eq_ok_iff {ε α β : Type} {m : Except ε α} {f : α → β} {output : Option β} :
    (m.map fun a => some (f a)) = .ok output ↔ ∃ a, m = .ok a ∧ output = some (f a) := by
  cases m <;> simp [Except.map, eq_comm]

/-- An element of the declared kind and label is decoded alike in both modes. -/
theorem decode_element_of_not_foreign {type : ElementType} {element : RawElement}
    (hlabelOf : model.labelOf type = .ok (.ofType type))
    (h : (RawResult.element element).isForeign (.element type) = false) (mode : ProjectionMode) :
    (RawResult.element element).decode model mode (.element type)
      = ((RawResult.element element).decodeWhole (.element type)).map some := by
  rw [isForeign, Bool.or_eq_false_iff, bne_eq_false_iff_eq, bne_eq_false_iff_eq] at h
  exact decode_element hlabelOf h.1 h.2 mode

theorem decode_foreign {type : ElementType} {element : RawElement}
    (hlabelOf : model.labelOf type = .ok (.ofType type))
    (h : (RawResult.element element).isForeign (.element type) = true) (mode : ProjectionMode) :
    (RawResult.element element).decode model mode (.element type)
      = match mode with
        | .exclude => .ok none
        | .strict => .error (.typeFilterMismatch type.label element.label) := by
  rw [isForeign, Bool.or_eq_true, bne_iff_ne, bne_iff_ne] at h
  rw [decode, decodeElement, hlabelOf]
  have hother : element.kind ≠ (LabelDescriptor.ofType type).kind ∨
      element.label ≠ (LabelDescriptor.ofType type).label := h
  exact (if_pos hother).trans (by cases mode <;> rfl)

theorem decode_folded_eq_ok_iff {mode : ProjectionMode} {inner : ResultType} {output : Option Output} :
    r.decode model mode (.folded inner) = .ok output ↔
      ∃ items outputs, r = .list items ∧ output = some (.list outputs) ∧
        (items.mapM (decode model mode inner)).map (·.filterMap id) = .ok outputs := by
  cases r with
  | list items =>
      have hsplit : (RawResult.list items).decode model mode (.folded inner)
          = ((items.mapM (decode model mode inner)).map (·.filterMap id)).map
              fun outputs => some (Output.list outputs) := by
        rw [decode_list]
        cases items.mapM (decode model mode inner) <;> rfl
      rw [hsplit, map_some_eq_ok_iff]
      constructor
      · rintro ⟨outputs, houtputs, rfl⟩
        exact ⟨items, outputs, rfl, rfl, houtputs⟩
      · rintro ⟨_, outputs, hitems, rfl, houtputs⟩
        cases hitems
        exact ⟨outputs, houtputs, rfl⟩
  | element _ | value _ =>
      constructor
      · intro h
        cases h
      · rintro ⟨_, _, hitems, -⟩
        cases hitems

/-- An element of the declared kind and label is shown by what its members are read as. -/
theorem decodeWhole_element_eq_ok_iff {type : ElementType} {element : RawElement} {output : Output} :
    (RawResult.element element).decodeWhole (.element type) = .ok output ↔
      ∃ v, type.read .value (Document.ofJson (.obj (valueMembers element))) = .ok v ∧
        output = .value v := by
  simp only [decodeWhole, expectElement, bind, Except.bind, pure, Except.pure]
  cases type.read .value (Document.ofJson (.obj (valueMembers element))) with
  | error error => simp [decodingError]
  | ok v => simp [eq_comm]

theorem shownAs_element_iff {type : ElementType} {element : RawElement} {output : Output} :
    (RawResult.element element).ShownAs (.element type) output ↔
      (RawResult.element element).isForeign (.element type) = false ∧
        (RawResult.element element).decodeWhole (.element type) = .ok output := by
  rw [decodeWhole_element_eq_ok_iff, isForeign, Bool.or_eq_false_iff, bne_eq_false_iff_eq,
    bne_eq_false_iff_eq]
  constructor
  · rintro ⟨_, v, helement, hkind, hlabel, hread, houtput⟩
    cases helement
    exact ⟨⟨hkind, hlabel⟩, v, hread, houtput⟩
  · rintro ⟨⟨hkind, hlabel⟩, v, hread, houtput⟩
    exact ⟨element, v, rfl, hkind, hlabel, hread, houtput⟩

/-- Lenient decoding leaves out what is foreign, and succeeds with what an output shows. -/
theorem decode_exclude_eq_ok_iff (hregistered : result.RegisteredIn model) :
    (r.decode model .exclude result = .ok none ↔ r.isForeign result = true) ∧
      ∀ output, r.decode model .exclude result = .ok (some output) ↔ r.ShownAs result output := by
  induction result generalizing r with
  | start => simp [decode, isForeign, ShownAs, eq_comm]
  | anyVertex | anyEdge =>
      rw [decode]
      simp [map_some_eq_ok_iff, decodeAny_eq_ok_iff, isForeign, ShownAs, and_assoc]
  | value type =>
      rw [decode]
      simp [map_some_eq_ok_iff, decodeValue_eq_ok_iff, isForeign, ShownAs]
  | element type =>
      cases r with
      | element element =>
          simp only [shownAs_element_iff]
          cases hforeign : (RawResult.element element).isForeign (.element type) with
          | true => simp [decode_foreign hregistered hforeign]
          | false =>
              rw [decode_element_of_not_foreign hregistered hforeign]
              cases (RawResult.element element).decodeWhole (.element type) <;> simp [Except.map]
      | value _ | list _ =>
          constructor
          · constructor <;> intro h <;> cases h
          · intro output
            constructor
            · intro h
              cases h
            · rintro ⟨_, _, helement, -⟩
              cases helement
  | folded inner ih =>
      have hitems : ∀ items : List RawResult, ∀ outputs,
          (items.mapM (decode model .exclude inner)).map (·.filterMap id) = .ok outputs ↔
            List.Forall₂ (ShownAs inner) (items.filter fun item => !item.isForeign inner) outputs :=
        fun items => mapM_filterMap_eq_ok_iff (fun item _ => (ih hregistered).1)
          fun item _ => (ih hregistered).2
      simp only [decode_folded_eq_ok_iff, hitems]
      constructor
      · simp [isForeign]
      · intro output
        rw [ShownAs]
        simp only [Option.some.injEq]

theorem isForeign_eq_false_of_isWhole (h : r.IsWhole result) : r.isForeign result = false := by
  cases result with
  | folded inner => cases r <;> rfl
  | start | anyVertex | anyEdge | element _ | value _ => exact h

/-- Strict decoding succeeds like lenient decoding for results from which nothing is left out. -/
theorem decode_strict_eq_ok_iff (hregistered : result.RegisteredIn model) {output : Option Output} :
    r.decode model .strict result = .ok output ↔
      r.decode model .exclude result = .ok output ∧ r.IsWhole result := by
  induction result generalizing r output with
  | start | anyVertex | anyEdge | value _ => exact (and_iff_left rfl).symm
  | element type =>
      cases r with
      | element element =>
          have hwhole : (RawResult.element element).IsWhole (.element type) ↔
              (RawResult.element element).isForeign (.element type) = false := Iff.rfl
          rw [hwhole]
          cases hforeign : (RawResult.element element).isForeign (.element type) with
          | true => simp [decode_foreign hregistered hforeign]
          | false => simp [decode_element_of_not_foreign hregistered hforeign]
      | value _ | list _ => exact (and_iff_left rfl).symm
  | folded inner ih =>
      simp only [decode_folded_eq_ok_iff]
      constructor
      · rintro ⟨items, outputs, rfl, rfl, hitems⟩
        obtain ⟨shown, hshown, rfl⟩ := exists_of_map_eq_ok hitems
        obtain ⟨hlenient, hwhole⟩ :=
          (mapM_strict_eq_ok_iff (fun item _ _ => ih hregistered) shown).mp hshown
        refine ⟨⟨items, _, rfl, rfl, ?_⟩, hwhole⟩
        rw [hlenient]
        rfl
      · rintro ⟨⟨items, outputs, rfl, rfl, hitems⟩, hwhole⟩
        obtain ⟨shown, hshown, rfl⟩ := exists_of_map_eq_ok hitems
        refine ⟨items, _, rfl, rfl, ?_⟩
        rw [(mapM_strict_eq_ok_iff (fun item _ _ => ih hregistered) shown).mpr ⟨hshown, hwhole⟩]
        rfl

/-- Lenient decoding reports no label. -/
theorem reason_of_decode_exclude (hregistered : result.RegisteredIn model)
    (h : r.decode model .exclude result = .error e) : ∃ reason, e = .decoding reason := by
  induction result generalizing r e with
  | start => cases h
  | anyVertex | anyEdge => exact reason_of_decodeAny (eq_error_of_map_eq_error h)
  | value type =>
      have hwhole : r.decodeWhole (.value type) = .error e := by
        rw [decodeWhole, eq_error_of_map_eq_error h]
        rfl
      exact reason_of_decodeWhole hwhole
  | element type =>
      cases r with
      | element element =>
          cases hforeign : (RawResult.element element).isForeign (.element type) with
          | true =>
              rw [decode_foreign hregistered hforeign] at h
              cases h
          | false =>
              rw [decode_element_of_not_foreign hregistered hforeign] at h
              exact reason_of_decodeWhole (eq_error_of_map_eq_error h)
      | value _ | list _ =>
          cases h
          exact ⟨_, rfl⟩
  | folded inner ih =>
      rcases of_bind_eq_error h with hexpect | ⟨items, -, h⟩
      · exact reason_of_expectList hexpect
      · rcases of_bind_eq_error h with hitems | ⟨outputs, -, h⟩
        · obtain ⟨item, -, hitem⟩ := exists_of_mapM_eq_error hitems
          exact ih hregistered hitem
        · cases h

/-- Strict decoding fails like lenient decoding, unless it reports a label. -/
theorem decode_strict_fails (hregistered : result.RegisteredIn model)
    (h : r.decode model .strict result = .error e) :
    (∃ expected found, e = .typeFilterMismatch expected found) ∨
      r.decode model .exclude result = .error e := by
  induction result generalizing r e with
  | start | anyVertex | anyEdge | value _ => exact .inr h
  | element type =>
      cases r with
      | element element =>
          cases hforeign : (RawResult.element element).isForeign (.element type) with
          | true =>
              rw [decode_foreign hregistered hforeign] at h
              cases h
              exact .inl ⟨_, _, rfl⟩
          | false =>
              rw [decode_element_of_not_foreign hregistered hforeign] at h ⊢
              exact .inr h
      | value _ | list _ => exact .inr h
  | folded inner ih =>
      cases r with
      | list items =>
          rw [decode_list] at h ⊢
          have hstrict : items.mapM (decode model .strict inner) = .error e :=
            eq_error_of_map_eq_error h
          have hinner : inner.RegisteredIn model := hregistered
          have hfails : (∃ expected found, e = .typeFilterMismatch expected found) ∨
              items.mapM (decode model .exclude inner) = .error e :=
            mapM_fails_alike (fun e => ∃ expected found, e = .typeFilterMismatch expected found)
              (fun _ _ hitem => ((decode_strict_eq_ok_iff hinner).mp hitem).1)
              (fun _ _ hitem => ih hinner hitem) hstrict
          refine hfails.imp_right fun hlenient => ?_
          rw [hlenient]
          rfl
      | element _ | value _ => exact .inr h

end RawResult

/-- Strict projection refines lenient projection, for results of a registered type. The lenient one fails
for no label, and its outputs show exactly the elements of the declared kind and label in their order. The
strict one succeeds with the same outputs where nothing is left out, and else fails like the lenient one or
for a label. -/
theorem strict_refines_lenient {model : GraphModel} {result : ResultType}
    (hregistered : result.RegisteredIn model) (r : RawResult) :
    (∀ output, r.decode model .strict result = .ok output →
      r.decode model .exclude result = .ok output) ∧
    (∀ expected found,
      r.decode model .exclude result ≠ .error (.typeFilterMismatch expected found)) ∧
    (r.decode model .exclude result = .ok none ↔ r.isForeign result = true) ∧
    (∀ output, r.decode model .exclude result = .ok (some output) ↔ r.ShownAs result output) ∧
    (∀ output, r.decode model .strict result = .ok output ↔
      ∃ shown, output = some shown ∧ r.ShownAs result shown ∧ r.IsWhole result) ∧
    ∀ e, r.decode model .strict result = .error e →
      (∃ expected found, e = .typeFilterMismatch expected found) ∨
        r.decode model .exclude result = .error e := by
  obtain ⟨hforeign, hshown⟩ := @RawResult.decode_exclude_eq_ok_iff _ _ r hregistered
  refine ⟨fun output hstrict => ((RawResult.decode_strict_eq_ok_iff hregistered).mp hstrict).1, ?_,
    hforeign, hshown, fun output => ?_, fun e => RawResult.decode_strict_fails hregistered⟩
  · intro expected found hfails
    obtain ⟨reason, hreason⟩ := RawResult.reason_of_decode_exclude hregistered hfails
    cases hreason
  · rw [RawResult.decode_strict_eq_ok_iff hregistered]
    cases output with
    | some shown => simp [hshown]
    | none =>
        simp only [hforeign]
        constructor
        · rintro ⟨hleft, hwhole⟩
          rw [r.isForeign_eq_false_of_isWhole hwhole] at hleft
          cases hleft
        · rintro ⟨_, hnone, -⟩
          cases hnone

/-- Of a team in a list of teams a robot is left out, which strict projection reports. -/
theorem robot_left_out_of_team :
    let person : ElementType := ⟨"Person", .vertex, "Person", [], none⟩
    let model : GraphModel := ⟨[⟨.ofType person, []⟩]⟩
    let teams : ResultType := .folded (.folded (.element person))
    let member (id : Int64) (label : String) : RawResult :=
      .element ⟨.int id, label, .vertex, [], none, none⟩
    let r : RawResult := .list [.list [member 1 "Person", member 2 "Robot", member 3 "Person"], .list []]
    let shown : Output :=
      .list [.list [.value (.obj [("id", .int 1)]), .value (.obj [("id", .int 3)])], .list []]
    teams.RegisteredIn model ∧ r.ShownAs teams shown ∧
      r.decode model .exclude teams = .ok (some shown) ∧
      r.decode model .strict teams = .error (.typeFilterMismatch "Person" "Robot") ∧
      ¬ r.IsWhole teams := by
  intro person model teams member r shown
  have hregistered : teams.RegisteredIn model := rfl
  obtain ⟨-, -, -, hshown, hstrict, -⟩ := strict_refines_lenient hregistered r
  have hlenient : r.decode model .exclude teams = .ok (some shown) := rfl
  have hfails : r.decode model .strict teams = .error (.typeFilterMismatch "Person" "Robot") := rfl
  refine ⟨hregistered, (hshown shown).mp hlenient, hlenient, hfails, fun hwhole => ?_⟩
  have hsucceeds := (hstrict (some shown)).mpr ⟨shown, rfl, (hshown shown).mp hlenient, hwhole⟩
  cases hfails.symm.trans hsucceeds

end PropertyGraph
