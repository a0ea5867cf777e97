import PropertyGraph.Proofs.Handles

/-!
# Handles that a bind hides

References are resolved by name, so a bind hides the handles around it that have its name. A bind that is
called without a name takes the name of its depth. Depths have different names, and binds of this kind
leave each other's handles alone. A name that is given explicitly may be the name of a depth, though. If a
bind without a name stands at just this depth inside of it, the handle is hidden and a filter with it is
refused. This is the only way in which such a bind hides a handle.
-/

namespace PropertyGraph

namespace Scope

theorem toList_generatedName_of_lt {depth : Nat} (h : depth < 26) :
    (generatedName depth).toList = ['_', Char.ofNat ('a'.toNat + depth)] := by
  rw [generatedName, if_pos h, String.toList_append, String.toList_singleton]
  rfl

theorem toList_generatedName_of_ge {depth : Nat} (h : 26 ≤ depth) :
    (generatedName depth).toList = '_' :: Nat.toDigits 10 depth := by
  rw [generatedName, if_neg (Nat.not_lt.mpr h), String.toList_append]
  exact congrArg ('_' :: ·) Nat.toList_repr

theorem isDigit_letter :
    ∀ depth < 26, (Char.ofNat ('a'.toNat + depth)).isDigit = false := by
  decide

theorem letter_injective : ∀ depth < 26, ∀ depth' < 26,
    Char.ofNat ('a'.toNat + depth) = Char.ofNat ('a'.toNat + depth') → depth = depth' := by
  decide

theorem generatedName_ne {depth depth' : Nat} (h : depth < 26) (h' : 26 ≤ depth') :
    generatedName depth ≠ generatedName depth' := by
  intro hname
  have hchars := congrArg String.toList hname
  rw [toList_generatedName_of_lt h, toList_generatedName_of_ge h', List.cons.injEq] at hchars
  have hmem : Char.ofNat ('a'.toNat + depth) ∈ Nat.toDigits 10 depth' :=
    hchars.2 ▸ List.mem_singleton_self _
  have hdigit := Nat.isDigit_of_mem_toDigits (by decide) (by decide) hmem
  rw [isDigit_letter depth h] at hdigit
  cases hdigit

/-- Binds that are called without a name at different depths have different names. -/
theorem generatedName_injective : Function.Injective generatedName := by
  intro depth depth' hname
  have hchars := congrArg String.toList hname
  rcases Nat.lt_or_ge depth 26 with h | h <;> rcases Nat.lt_or_ge depth' 26 with h' | h'
  · rw [toList_generatedName_of_lt h, toList_generatedName_of_lt h'] at hchars
    exact letter_injective depth h depth' h' (by simpa using hchars)
  · exact absurd hname (generatedName_ne h h')
  · exact absurd hname.symm (generatedName_ne h' h)
  · rw [toList_generatedName_of_ge h, toList_generatedName_of_ge h', List.cons.injEq] at hchars
    calc
      depth = Nat.ofDigitChars 10 (Nat.toDigits 10 depth) 0 := Nat.ofDigitChars_ten_toDigits.symm
      _ = Nat.ofDigitChars 10 (Nat.toDigits 10 depth') 0 := by rw [hchars.2]
      _ = depth' := Nat.ofDigitChars_ten_toDigits

theorem isEmpty_generatedName (depth : Nat) : (generatedName depth).isEmpty = false := by
  rw [String.isEmpty_eq_false_iff, ne_eq, ← String.toList_eq_nil_iff]
  rcases Nat.lt_or_ge depth 26 with h | h
  · simp [toList_generatedName_of_lt h]
  · simp [toList_generatedName_of_ge h]

variable {binding : Binding} {scope : Scope} {reference : Reference}

theorem resolve_cons_of_ne (h : reference.name ≠ binding.name) :
    resolve (binding :: scope) reference = resolve scope reference := by
  have hfind : List.find? (·.name == reference.name) (binding :: scope)
      = List.find? (·.name == reference.name) scope :=
    List.find?_cons_of_neg (by simpa using h.symm)
  rw [resolve, resolve, hfind]

theorem resolve_cons_self_iff (h : reference.name = binding.name) :
    resolve (binding :: scope) reference = .ok () ↔
      ∀ number, reference.scope = some number → number = binding.scope := by
  have hfind : List.find? (·.name == reference.name) (binding :: scope) = some binding :=
    List.find?_cons_of_pos (by simpa using h.symm)
  simp [resolve_eq_ok_iff, hfind]

/-- A reference with a number that is not the number of a bind is hidden by this bind, if their names
are the same. -/
theorem resolve_cons_iff (h : resolve scope reference = .ok ())
    (hnumbers : ∀ other ∈ scope, other.scope ≠ binding.scope) :
    resolve (binding :: scope) reference = .ok () ↔
      (reference.scope.isSome = true → reference.name ≠ binding.name) := by
  by_cases hname : reference.name = binding.name
  · rw [resolve_cons_self_iff hname]
    constructor
    · intro hnumber hsome
      obtain ⟨number, hscope⟩ := Option.isSome_iff_exists.mp hsome
      obtain ⟨other, hfind, hother⟩ := resolve_eq_ok_iff.mp h
      have hsame : other.scope = binding.scope :=
        (hother number hscope).symm.trans (hnumber number hscope)
      exact absurd hsame (hnumbers other (List.mem_of_find?_eq_some hfind))
    · intro hnone number hscope
      exact absurd hname (hnone (hscope ▸ rfl))
  · rw [resolve_cons_of_ne hname]
    exact iff_of_true h fun _ => hname

end Scope

/-- Some filter on the traversal is accepted that uses the reference. -/
def Traversal.Admits (model : GraphModel) (t : Traversal) (reference : Reference) : Prop :=
  ∃ predicate result, reference ∈ predicate.references ∧ t.filter model predicate = .ok result

theorem forM_eq_ok_of_forall {ε α : Type} {xs : List α} {f : α → Except ε Unit}
    (h : ∀ x ∈ xs, f x = .ok ()) : xs.forM f = .ok () := by
  cases hforM : xs.forM f with
  | error e =>
      obtain ⟨x, hx, he⟩ := exists_of_forM_eq_error hforM
      cases (h x hx).symm.trans he
  | ok _ => rfl

section Filters

variable {model : GraphModel} {t : Traversal} {predicate : Predicate Reference}
  {reference : Reference}

theorem filter_eq_ok_iff {result : Traversal} :
    t.filter model predicate = .ok result ↔
      (∀ key ∈ predicate.propertyKeys, t.shape.checkProperty model key = .ok ()) ∧
        (∀ reference ∈ predicate.references, t.scope.resolve reference = .ok ()) ∧
          t.push (.filter (predicate.map Reference.name)) t.result t.shape = result := by
  constructor
  · intro h
    obtain ⟨_, hkeys, h⟩ := exists_of_bind_eq_ok h
    obtain ⟨_, hreferences, h⟩ := exists_of_bind_eq_ok h
    exact ⟨forM_eq_ok hkeys, forM_eq_ok hreferences, Except.ok.inj h⟩
  · rintro ⟨hkeys, hreferences, rfl⟩
    rw [Traversal.filter, forM_eq_ok_of_forall hkeys, forM_eq_ok_of_forall hreferences]
    rfl

/-- A filter whose properties are known is refused for a reference only. -/
theorem filter_eq_error {bad : Reference}
    (hkeys : ∀ key ∈ predicate.propertyKeys, t.shape.checkProperty model key = .ok ())
    (hbad : bad ∈ predicate.references) (hfails : t.scope.resolve bad ≠ .ok ()) :
    ∃ reference ∈ predicate.references, t.scope.resolve reference ≠ .ok () ∧
      t.filter model predicate = .error (.unboundReference reference.name) := by
  cases hforM : predicate.references.forM t.scope.resolve with
  | ok _ => exact absurd (forM_eq_ok hforM bad hbad) hfails
  | error e =>
      obtain ⟨reference, hreference, he⟩ := exists_of_forM_eq_error hforM
      have hfails' : t.scope.resolve reference ≠ .ok () := by simp [he]
      cases he.symm.trans (resolve_eq_error hfails')
      refine ⟨reference, hreference, hfails', ?_⟩
      rw [Traversal.filter, forM_eq_ok_of_forall hkeys, hforM]
      rfl

/-- Whether a reference is admitted depends on the scope alone. -/
theorem admits_iff : t.Admits model reference ↔ t.scope.resolve reference = .ok () := by
  constructor
  · rintro ⟨predicate, result, hmem, hok⟩
    exact (filter_eq_ok_iff.mp hok).2.1 reference hmem
  · intro h
    refine ⟨.is ⟨.eq, .bound reference⟩, _, List.mem_singleton_self _,
      filter_eq_ok_iff.mpr ⟨fun _ hkey => (nomatch hkey), fun other hother => ?_, rfl⟩⟩
    exact List.mem_singleton.mp hother ▸ h

end Filters

section Moments

variable {model : GraphModel} {calls : List Call} {state : BuildState} {place : Place}
  {entered opened : List Opening} {m : BuildMoment}

/-- The next bind has a number that no bind around it has. -/
theorem Builds.number_ne (h : Builds model calls state place entered opened m) :
    ∀ binding ∈ m.traversal.scope, binding.scope ≠ m.state.nextScope := by
  intro binding hbinding
  obtain ⟨o, ho, rfl⟩ := h.exists_opening hbinding
  exact Nat.ne_of_lt (h.opens.lt ho)

/-- Each bind around a moment has been called at a moment with the binds around that one. -/
theorem Builds.exists_call (h : Builds model calls state place entered opened m) {o : Opening}
    {newer older : List Opening} (hentered : entered = newer ++ o :: older) :
    ∃ place' opened' name key continuation rest t s,
      Builds model calls state place' older opened' ⟨.bind name key continuation :: rest, t, s⟩ ∧
        o = Call.opening place' t name key s := by
  induction h generalizing newer with
  | start => simp at hentered
  | next _ _ ih => exact ih hentered
  | continuation h _ ih =>
      cases newer with
      | nil =>
          cases hentered
          exact ⟨_, _, _, _, _, _, _, _, h, rfl⟩
      | cons o' newer =>
          cases hentered
          exact ih rfl
  | selector _ _ ih => exact ih hentered

/-- The handle of a bind around a place that has been given its name in the program. -/
def IsNamedAround (model : GraphModel) (calls : List Call) (state : BuildState)
    (entered : List Opening) (reference : Reference) : Prop :=
  ∃ place older opened key continuation rest t s,
    Builds model calls state place older opened
      ⟨.bind (some reference.name) key continuation :: rest, t, s⟩ ∧
    Call.opening place t (some reference.name) key s :: older <:+ entered ∧
    reference = (Call.opening place t (some reference.name) key s).binding.reference

theorem IsNamedAround.isSome {reference : Reference}
    (h : IsNamedAround model calls state entered reference) : reference.scope.isSome = true := by
  obtain ⟨place', older, opened', key, continuation, rest, t, s, -, -, hreference⟩ := h
  rw [hreference]
  rfl

/-- A handle with the name of a depth belongs to a bind that has been given this name, as a bind without
a name has the name of a smaller depth. -/
theorem Builds.isNamedAround (h : Builds model calls state place entered opened m)
    {reference : Reference} (hresolves : m.traversal.scope.resolve reference = .ok ())
    (hsome : reference.scope.isSome = true)
    (hname : reference.name = Scope.generatedName entered.length) :
    IsNamedAround model calls state entered reference := by
  obtain ⟨number, hscope⟩ := Option.isSome_iff_exists.mp hsome
  obtain ⟨binding, hfind, hnumber⟩ := resolve_eq_ok_iff.mp hresolves
  rw [h.scope, find?_map_binding] at hfind
  obtain ⟨o, ho, rfl⟩ := Option.map_eq_some_iff.mp hfind
  have hsame : o.binding.name = reference.name := by simpa using List.find?_some ho
  have hreference : reference = o.binding.reference := by
    rw [Binding.reference, hsame, ← hnumber number hscope, ← hscope]
  obtain ⟨newer, older, hentered⟩ := List.append_of_mem (List.mem_of_find?_eq_some ho)
  obtain ⟨place', opened', name, key, continuation, rest, t, s, hcall, rfl⟩ := h.exists_call hentered
  cases name with
  | none =>
      have hdepth : t.scope.length = older.length := by rw [hcall.scope, List.length_map]
      have hgenerated : Scope.generatedName older.length = Scope.generatedName entered.length :=
        hdepth ▸ hsame.trans hname
      have hlength := congrArg List.length hentered
      rw [← Scope.generatedName_injective hgenerated, List.length_append, List.length_cons] at hlength
      omega
  | some given =>
      have hgiven : given = reference.name := hsame
      subst hgiven
      exact ⟨place', older, opened', key, continuation, rest, t, s, hcall, ⟨newer, hentered.symm⟩,
        hreference⟩

end Moments

/-- A bind that is called without a name takes the name of its depth. What a filter around it may refer to,
a filter in its continuation may refer to as well, with one exception: the handle of a bind that has been
given this very name. A filter that was accepted around the bind is then refused for this name, and only
then. -/
theorem hidden_iff_named_for_depth {model : GraphModel} {calls : List Call} {state : BuildState}
    {place : Place} {entered opened : List Opening} {key : String} {continuation rest : List Call}
    {t : Traversal} {s : BuildState}
    (hbuilds : Builds model calls state place entered opened
      ⟨.bind none key continuation :: rest, t, s⟩) :
    let generated := Scope.generatedName entered.length
    let inner := t.opened ⟨generated, s.nextScope⟩
    ((Call.bind none key continuation).run model t).run s
      = (do return t.closed generated (← Call.runAll model inner continuation) : Build Traversal).run
          (s.openScope generated key).2 ∧
    (∀ (other : Traversal) (reference : Reference), other.scope = t.scope →
      other.Admits model reference →
      (inner.Admits model reference ↔
        ¬(reference.name = generated ∧ IsNamedAround model calls state entered reference))) ∧
    ∀ (predicate : Predicate Reference) (result : Traversal), t.filter model predicate = .ok result →
      ((∀ reference ∈ predicate.references, inner.Admits model reference) ∧
        inner.filter model predicate
          = .ok (inner.push (.filter (predicate.map Reference.name)) t.result t.shape)) ∨
      (∃ reference ∈ predicate.references, ¬inner.Admits model reference) ∧
        inner.filter model predicate = .error (.unboundReference generated) := by
  intro generated inner
  have hnumbers : ∀ binding ∈ t.scope, binding.scope ≠ s.nextScope := hbuilds.number_ne
  have hdepth : t.scope.length = entered.length := by rw [hbuilds.scope, List.length_map]
  have hname : Call.boundName t none = generated := by
    rw [Call.boundName, hdepth]
    rfl
  -- what is no longer resolved has the generated name
  have hhidden : ∀ reference, t.scope.resolve reference = .ok () →
      (inner.scope.resolve reference = .ok () ↔
        (reference.scope.isSome = true → reference.name ≠ generated)) :=
    fun reference h => Scope.resolve_cons_iff h hnumbers
  refine ⟨?_, fun other reference hscope hadmits => ?_, fun predicate result hok => ?_⟩
  · rw [run_bindCall none key continuation (hname ▸ Scope.isEmpty_generatedName _), hname]
    rfl
  · rw [admits_iff, hscope] at hadmits
    rw [admits_iff, hhidden reference hadmits]
    constructor
    · rintro hkept ⟨hsame, hnamed⟩
      exact hkept hnamed.isSome hsame
    · intro hnot hsome hsame
      exact hnot ⟨hsame, hbuilds.isNamedAround hadmits hsome hsame⟩
  · obtain ⟨hkeys, hreferences, -⟩ := filter_eq_ok_iff.mp hok
    by_cases hall : ∀ reference ∈ predicate.references, inner.scope.resolve reference = .ok ()
    · exact .inl ⟨fun reference hmem => admits_iff.mpr (hall reference hmem),
        filter_eq_ok_iff.mpr ⟨hkeys, hall, rfl⟩⟩
    · simp only [not_forall] at hall
      obtain ⟨bad, hbad, hfails⟩ := hall
      obtain ⟨reference, hmem, hunresolved, herror⟩ := filter_eq_error (t := inner) hkeys hbad hfails
      have hsame : reference.name = generated := by
        by_contra hne
        exact hunresolved ((hhidden reference (hreferences reference hmem)).mpr fun _ => hne)
      exact .inr ⟨⟨bad, hbad, fun h => hfails (admits_iff.mp h)⟩, hsame ▸ herror⟩

/-- Two binds deep, a bind without a name hides the handle of the bind that was called `_c`. It keeps the
handle of the other one, which had no name given to it either. -/
theorem named_handle_hidden_other_kept :
    let calls : List Call :=
      [.inject [.bool true], .bind none "a" [.bind (some "_c") "b" [.bind none "k" []]]]
    let named : Reference := ⟨"_c", some 2⟩
    let other : Reference := ⟨"_a", some 1⟩
    ∃ place entered opened t s,
      Builds ⟨[]⟩ calls .initial place entered opened ⟨[.bind none "k" []], t, s⟩ ∧
      entered.map Opening.binding = [⟨"_c", 2⟩, ⟨"_a", 1⟩] ∧
      (t.Admits ⟨[]⟩ named ∧ ¬(t.opened ⟨"_c", s.nextScope⟩).Admits ⟨[]⟩ named) ∧
      t.Admits ⟨[]⟩ other ∧ (t.opened ⟨"_c", s.nextScope⟩).Admits ⟨[]⟩ other := by
  intro calls named other
  have hstart : Builds ⟨[]⟩ calls .initial [] [] [] ⟨calls, .source, .initial⟩ := .start
  have houter := (hstart.next rfl).continuation rfl
  have hinner := houter.continuation rfl
  obtain ⟨-, hadmits, -⟩ := hidden_iff_named_for_depth hinner
  have hnamed := hadmits _ named rfl (admits_iff.mpr rfl)
  have hother := hadmits _ other rfl (admits_iff.mpr rfl)
  refine ⟨_, _, _, _, _, hinner, rfl, ⟨admits_iff.mpr rfl, fun hkept => ?_⟩, admits_iff.mpr rfl, ?_⟩
  · exact hnamed.mp hkept ⟨by decide, _, _, _, _, _, _, _, _, houter, ⟨[], rfl⟩, rfl⟩
  · exact hother.mpr fun h => absurd h.1 (by decide)

/-- A handle that a filter may use is refused one bind further inside, although this bind was given no
name: its name is that of the handle. -/
theorem handle_hidden_by_generated_name :
    let usesHandle : Call := .filter (.is ⟨.eq, .bound (.handle "h")⟩)
    let calls (inner : List Call) : List Call := [.inject [.bool true], .bind (some "_b") "h" inner]
    (∃ t, ((Call.runAll ⟨[]⟩ .source (calls [usesHandle, .bind none "k" []])).run .initial).1
        = .ok t) ∧
      ((Call.runAll ⟨[]⟩ .source (calls [usesHandle, .bind none "k" [usesHandle]])).run .initial).1
        = .error (.refused (.unboundReference "_b")) :=
  ⟨⟨_, rfl⟩, rfl⟩

end PropertyGraph
