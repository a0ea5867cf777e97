import Mathlib.Data.List.Basic
import PropertyGraph.Engine.Test

/-!
# What predicates mean and read

Predicates are put together by `and`, `or` and `not`, which flatten what is nested and cancel double
negations. None of this can be told from the outside: a combination is evaluated as its parts are, one
after the other as far as they decide, and it collects what its parts collect.

What is collected is also all that is read. A predicate gives the same answer in two graphs and under two
lists of bindings as soon as they agree on the properties and on the references that it names, wherever
these stand in it.
-/

namespace PropertyGraph

namespace Predicate

section Flattening

variable {ρ σ α : Type} {collect : Predicate ρ → List α}

theorem propertyKeysOfAll_eq_flatMap (ps : List (Predicate ρ)) :
    propertyKeysOfAll ps = ps.flatMap propertyKeys := by
  induction ps with
  | nil => rfl
  | cons p rest ih => rw [propertyKeysOfAll, ih, List.flatMap_cons]

theorem referencesOfAll_eq_flatMap (ps : List (Predicate ρ)) :
    referencesOfAll ps = ps.flatMap references := by
  induction ps with
  | nil => rfl
  | cons p rest ih => rw [referencesOfAll, ih, List.flatMap_cons]

theorem mapAll_eq_map (f : ρ → σ) (ps : List (Predicate ρ)) : mapAll f ps = ps.map (map f) := by
  induction ps with
  | nil => rfl
  | cons p rest ih => rw [mapAll, ih, List.map_cons]

theorem flatMap_conjuncts (h : ∀ ps, collect (conj ps) = ps.flatMap collect) (p : Predicate ρ) :
    p.conjuncts.flatMap collect = collect p := by
  cases p with
  | conj operands => exact (h operands).symm
  | has _ _ | is _ | disj _ | neg _ => exact List.flatMap_singleton ..

theorem flatMap_disjuncts (h : ∀ ps, collect (disj ps) = ps.flatMap collect) (p : Predicate ρ) :
    p.disjuncts.flatMap collect = collect p := by
  cases p with
  | disj operands => exact (h operands).symm
  | has _ _ | is _ | conj _ | neg _ => exact List.flatMap_singleton ..

/-- Whatever is collected from the operands of conjunctions in turn. -/
theorem collect_and (h : ∀ ps, collect (conj ps) = ps.flatMap collect) (p q : Predicate ρ) :
    collect (p.and q) = collect p ++ collect q := by
  rw [and, h, List.flatMap_append, flatMap_conjuncts h, flatMap_conjuncts h]

theorem collect_or (h : ∀ ps, collect (disj ps) = ps.flatMap collect) (p q : Predicate ρ) :
    collect (p.or q) = collect p ++ collect q := by
  rw [or, h, List.flatMap_append, flatMap_disjuncts h, flatMap_disjuncts h]

theorem and_assoc (p q r : Predicate ρ) : (p.and q).and r = p.and (q.and r) :=
  congrArg conj (List.append_assoc p.conjuncts q.conjuncts r.conjuncts)

theorem or_assoc (p q r : Predicate ρ) : (p.or q).or r = p.or (q.or r) :=
  congrArg disj (List.append_assoc p.disjuncts q.disjuncts r.disjuncts)

theorem conjuncts_map (f : ρ → σ) (p : Predicate ρ) :
    (p.map f).conjuncts = p.conjuncts.map (map f) := by
  cases p with
  | conj operands => exact mapAll_eq_map f operands
  | has _ _ | is _ | disj _ | neg _ => rfl

theorem disjuncts_map (f : ρ → σ) (p : Predicate ρ) :
    (p.map f).disjuncts = p.disjuncts.map (map f) := by
  cases p with
  | disj operands => exact mapAll_eq_map f operands
  | has _ _ | is _ | conj _ | neg _ => rfl

theorem map_and (f : ρ → σ) (p q : Predicate ρ) : (p.and q).map f = (p.map f).and (q.map f) := by
  rw [and, map, mapAll_eq_map, List.map_append, and, conjuncts_map, conjuncts_map]

theorem map_or (f : ρ → σ) (p q : Predicate ρ) : (p.or q).map f = (p.map f).or (q.map f) := by
  rw [or, map, mapAll_eq_map, List.map_append, or, disjuncts_map, disjuncts_map]

theorem map_not (f : ρ → σ) (p : Predicate ρ) : p.not.map f = (p.map f).not := by
  cases p <;> rfl

end Flattening

section Evaluation

variable (g : Graph) (t : Traverser)

theorem allHold_append (ps qs : List (Predicate BoundName)) :
    allHold g t (ps ++ qs)
      = (do if ← allHold g t ps then allHold g t qs else return false) := by
  induction ps with
  | nil => rfl
  | cons p rest ih =>
      rw [List.cons_append, allHold, allHold, ih]
      rcases p.holds g t with _ | _ | _ <;> rfl

theorem anyHolds_append (ps qs : List (Predicate BoundName)) :
    anyHolds g t (ps ++ qs)
      = (do if ← anyHolds g t ps then return true else anyHolds g t qs) := by
  induction ps with
  | nil => rfl
  | cons p rest ih =>
      rw [List.cons_append, anyHolds, anyHolds, ih]
      rcases p.holds g t with _ | _ | _ <;> rfl

/-- A predicate that is no conjunction is the only one of its conjuncts. -/
theorem allHold_conjuncts (p : Predicate BoundName) : allHold g t p.conjuncts = p.holds g t := by
  have hsingle : allHold g t [p] = p.holds g t := by
    rw [allHold]
    rcases p.holds g t with _ | _ | _ <;> rfl
  cases p with
  | conj operands => rfl
  | has _ _ | is _ | disj _ | neg _ => exact hsingle

theorem anyHolds_disjuncts (p : Predicate BoundName) : anyHolds g t p.disjuncts = p.holds g t := by
  have hsingle : anyHolds g t [p] = p.holds g t := by
    rw [anyHolds]
    rcases p.holds g t with _ | _ | _ <;> rfl
  cases p with
  | disj operands => rfl
  | has _ _ | is _ | conj _ | neg _ => exact hsingle

theorem holds_and (p q : Predicate BoundName) :
    (p.and q).holds g t = (do if ← p.holds g t then q.holds g t else return false) := by
  rw [and, holds, allHold_append, allHold_conjuncts, allHold_conjuncts]

theorem holds_or (p q : Predicate BoundName) :
    (p.or q).holds g t = (do if ← p.holds g t then return true else q.holds g t) := by
  rw [or, holds, anyHolds_append, anyHolds_disjuncts, anyHolds_disjuncts]

theorem holds_not (p : Predicate BoundName) : p.not.holds g t = (p.holds g t).map (!·) := by
  cases p with
  | neg operand =>
      rw [not, holds]
      rcases operand.holds g t with _ | _ | _ <;> rfl
  | has _ _ | is _ | conj _ | disj _ => rfl

end Evaluation

/-- Combinations are evaluated as their parts are, errors included, and neither how they are grouped nor
that they are flattened shows in what they are, what they name, or what becomes of their references. -/
theorem combinations_mean_what_they_say :
    (∀ (p q : Predicate BoundName) (g : Graph) (t : Traverser),
      (p.and q).holds g t = (do if ← p.holds g t then q.holds g t else return false) ∧
      (p.or q).holds g t = (do if ← p.holds g t then return true else q.holds g t) ∧
      p.not.holds g t = (do return !(← p.holds g t))) ∧
    ∀ {ρ : Type} (p q r : Predicate ρ),
      (p.and q).and r = p.and (q.and r) ∧ (p.or q).or r = p.or (q.or r) ∧
      (p.and q).propertyKeys = p.propertyKeys ++ q.propertyKeys ∧
      (p.or q).propertyKeys = p.propertyKeys ++ q.propertyKeys ∧
      (p.and q).references = p.references ++ q.references ∧
      (p.or q).references = p.references ++ q.references ∧
      ∀ {σ : Type} (f : ρ → σ),
        (p.and q).map f = (p.map f).and (q.map f) ∧ (p.or q).map f = (p.map f).or (q.map f) ∧
        p.not.map f = (p.map f).not := by
  refine ⟨fun p q g t => ⟨holds_and g t p q, holds_or g t p q, ?_⟩, fun p q r => ?_⟩
  · rw [holds_not]
    cases p.holds g t <;> rfl
  · refine ⟨and_assoc p q r, or_assoc p q r, ?_, ?_, ?_, ?_, fun f => ?_⟩
    · exact collect_and propertyKeysOfAll_eq_flatMap p q
    · exact collect_or propertyKeysOfAll_eq_flatMap p q
    · exact collect_and referencesOfAll_eq_flatMap p q
    · exact collect_or referencesOfAll_eq_flatMap p q
    · exact ⟨map_and f p q, map_or f p q, map_not f p⟩

section Reading

variable {ρ : Type} {f f' : ρ → BoundName} {g g' : Graph} {item : Item} {bindings bindings' : Bindings}

mutual
theorem map_id : ∀ p : Predicate ρ, p.map id = p
  | .has _ ⟨_, operand⟩ | .is ⟨_, operand⟩ => by cases operand <;> rfl
  | .conj operands => congrArg conj (mapAll_id operands)
  | .disj operands => congrArg disj (mapAll_id operands)
  | .neg operand => congrArg neg (map_id operand)
termination_by structural p => p
theorem mapAll_id : ∀ ps : List (Predicate ρ), mapAll id ps = ps
  | [] => rfl
  | p :: rest => by rw [mapAll, map_id p, mapAll_id rest]
termination_by structural ps => ps
end

mutual
theorem map_map {σ τ : Type} (k : ρ → σ) (l : σ → τ) :
    ∀ p : Predicate ρ, (p.map k).map l = p.map (l ∘ k)
  | .has _ ⟨_, operand⟩ | .is ⟨_, operand⟩ => by cases operand <;> rfl
  | .conj operands => congrArg conj (mapAll_mapAll k l operands)
  | .disj operands => congrArg disj (mapAll_mapAll k l operands)
  | .neg operand => congrArg neg (map_map k l operand)
termination_by structural p => p
theorem mapAll_mapAll {σ τ : Type} (k : ρ → σ) (l : σ → τ) :
    ∀ ps : List (Predicate ρ), mapAll l (mapAll k ps) = mapAll (l ∘ k) ps
  | [] => rfl
  | p :: rest => by rw [mapAll, mapAll, mapAll, map_map k l p, mapAll_mapAll k l rest]
termination_by structural ps => ps
end

theorem testHolds_map {test : Test ρ}
    (h : ∀ r ∈ test.references,
      (Operand.bound (f r)).item bindings = (Operand.bound (f' r)).item bindings') :
    (test.map f).holds bindings item = (test.map f').holds bindings' item := by
  obtain ⟨comparison, operand⟩ := test
  cases operand with
  | constant v => rfl
  | bound r => exact congrArg (Except.map _) (h r (List.mem_singleton_self r))

mutual
/-- A predicate depends on the graph only through the properties that it names, and on the names in it
only through the items that they stand for. -/
theorem holds_map : ∀ p : Predicate ρ,
    (∀ key ∈ p.propertyKeys, g.property? key item = g'.property? key item) →
    (∀ r ∈ p.references,
      (Operand.bound (f r)).item bindings = (Operand.bound (f' r)).item bindings') →
    (p.map f).holds g ⟨item, bindings⟩ = (p.map f').holds g' ⟨item, bindings'⟩
  | .has key test, hkeys, h => by
      rw [map, map, holds, holds, hkeys key (List.mem_singleton_self key)]
      cases g'.property? key item with
      | none => rfl
      | some v => exact testHolds_map h
  | .is test, _, h => testHolds_map h
  | .conj operands, hkeys, h => allHold_map operands hkeys h
  | .disj operands, hkeys, h => anyHolds_map operands hkeys h
  | .neg operand, hkeys, h => congrArg (Except.map _) (holds_map operand hkeys h)
termination_by structural p => p
theorem allHold_map : ∀ ps : List (Predicate ρ),
    (∀ key ∈ propertyKeysOfAll ps, g.property? key item = g'.property? key item) →
    (∀ r ∈ referencesOfAll ps,
      (Operand.bound (f r)).item bindings = (Operand.bound (f' r)).item bindings') →
    allHold g ⟨item, bindings⟩ (mapAll f ps) = allHold g' ⟨item, bindings'⟩ (mapAll f' ps)
  | [], _, _ => rfl
  | p :: rest, hkeys, h => by
      obtain ⟨hkeysp, hkeysrest⟩ := List.forall_mem_append.mp hkeys
      obtain ⟨hp, hrest⟩ := List.forall_mem_append.mp h
      rw [mapAll, mapAll, allHold, allHold, holds_map p hkeysp hp, allHold_map rest hkeysrest hrest]
termination_by structural ps => ps
theorem anyHolds_map : ∀ ps : List (Predicate ρ),
    (∀ key ∈ propertyKeysOfAll ps, g.property? key item = g'.property? key item) →
    (∀ r ∈ referencesOfAll ps,
      (Operand.bound (f r)).item bindings = (Operand.bound (f' r)).item bindings') →
    anyHolds g ⟨item, bindings⟩ (mapAll f ps) = anyHolds g' ⟨item, bindings'⟩ (mapAll f' ps)
  | [], _, _ => rfl
  | p :: rest, hkeys, h => by
      obtain ⟨hkeysp, hkeysrest⟩ := List.forall_mem_append.mp hkeys
      obtain ⟨hp, hrest⟩ := List.forall_mem_append.mp h
      rw [mapAll, mapAll, anyHolds, anyHolds, holds_map p hkeysp hp, anyHolds_map rest hkeysrest hrest]
termination_by structural ps => ps
end

/-- The properties and references that a predicate names are all that its evaluation reads. -/
theorem named_is_all_that_is_read {p : Predicate BoundName}
    (hkeys : ∀ key ∈ p.propertyKeys, g.property? key item = g'.property? key item)
    (hreferences : ∀ name ∈ p.references, bindings.lookup name = bindings'.lookup name) :
    p.holds g ⟨item, bindings⟩ = p.holds g' ⟨item, bindings'⟩ := by
  have hmapped : (p.map id).holds g ⟨item, bindings⟩ = (p.map id).holds g' ⟨item, bindings'⟩ := by
    apply holds_map p hkeys
    intro name hname
    rw [id, Operand.item, Operand.item, hreferences name hname]
  rwa [map_id] at hmapped

/-- Two people who differ in their names, under bindings of which only one is common to both, are the same
to a predicate on zip codes and phones. -/
theorem name_not_read_by_test_of_zip :
    let p : Predicate BoundName :=
      conj [has "zip" ⟨.eq, .bound "x"⟩, neg (disj [has "phone" ⟨.eq, .bound "x"⟩, is ⟨.eq, .bound "x"⟩])]
    let ann := (Graph.empty.addVertex "Person" [⟨"name", .str "Ann"⟩, ⟨"zip", .str "10001"⟩]).2
    let bob := (Graph.empty.addVertex "Person" [⟨"name", .str "Bob"⟩, ⟨"zip", .str "10001"⟩]).2
    let bindings : Bindings := [("x", .value (.str "10001")), ("y", .root)]
    let bindings' : Bindings := [("z", .list []), ("x", .value (.str "10001"))]
    (∀ key ∈ p.propertyKeys,
        ann.property? key (.element .vertex 1) = bob.property? key (.element .vertex 1)) ∧
      (∀ name ∈ p.references, bindings.lookup name = bindings'.lookup name) ∧
      p.holds ann ⟨.element .vertex 1, bindings⟩ = p.holds bob ⟨.element .vertex 1, bindings'⟩ ∧
      p.holds ann ⟨.element .vertex 1, bindings⟩ = .ok true := by
  intro p ann bob bindings bindings'
  have hkeys : ∀ key ∈ p.propertyKeys,
      ann.property? key (.element .vertex 1) = bob.property? key (.element .vertex 1) :=
    List.forall_mem_cons.mpr ⟨rfl, List.forall_mem_singleton.mpr rfl⟩
  have hreferences : ∀ name ∈ p.references, bindings.lookup name = bindings'.lookup name := by
    intro name hname
    have hx : name = "x" := by simpa [p, references, referencesOfAll, Test.references] using hname
    rw [hx]
    rfl
  exact ⟨hkeys, hreferences, named_is_all_that_is_read hkeys hreferences, rfl⟩

end Reading

end Predicate

end PropertyGraph
