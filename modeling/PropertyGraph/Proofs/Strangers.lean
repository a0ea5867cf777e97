import Mathlib.Data.List.Forall2
import PropertyGraph.Proofs.Descent
import PropertyGraph.Proofs.Selecting
import PropertyGraph.Social.Queries

/-!
# Who is a stranger nearby

The query for strangers nearby folds the acquaintances of a person into a list, binds it inside of a bind
of the zip codes, and then goes through all people and leaves out those in the list. Its results are
described here by the graph alone, whatever it holds: loops and parallel edges, edges to vertices that
are gone, elements of other labels, and people without a name or a zip code.
-/

namespace PropertyGraph.Social

open Person (elementType)

/-- The steps to the acquaintances of a person. -/
def acquaintanceSteps (person : ElementId) : List Step :=
  [.selectById .vertex [person], .typeFilter [elementType.label],
    .traverse .both [knows.label] .vertices, .typeFilter [elementType.label]]

/-- Whoever is no acquaintance, lives nearby and has another name. The acquaintances and the zip codes are
bound under two names. -/
def strangerPredicate (acquaintances zipCodes name : String) : Predicate BoundName :=
  .conj [.neg (.is ⟨.within, .bound acquaintances⟩), .has "zip_code" ⟨.within, .bound zipCodes⟩,
    .has "name" ⟨.neq, .constant (.str name)⟩]

def strangerSteps (acquaintances zipCodes : String) (person : ElementId) (name : String)
    (nearby : List String) : List Step :=
  [.inject (nearby.map .str), .fold,
    .bind zipCodes (acquaintanceSteps person ++ [.fold,
      .bind acquaintances [.selectAll .vertex, .typeFilter [elementType.label],
        .filter (strangerPredicate acquaintances zipCodes name)]])]

theorem compile_nearbyStrangersOf (person : ElementId) (name : String) (nearby : List String) :
    ∃ model t, Social.model = .ok model ∧ nearbyStrangersOf person name nearby model = .ok t ∧
      t.compile
        = .ok ⟨strangerSteps (Scope.generatedName 1) (Scope.generatedName 0) person name nearby⟩ :=
  ⟨_, _, rfl, rfl, rfl⟩

/-- A vertex is joined with the person of an identifier by an edge, in either direction. With what is no
person nothing is joined. -/
def Joined (g : Graph) (person : ElementId) (v : Nat) : Prop :=
  ∃ m : Nat, (∃ i : Int64, person = .int i ∧ i.toInt = m) ∧
    g.label? .vertex m = some elementType.label ∧
    ∃ id e, (id, e) ∈ g.edges.rows ∧ e.label = knows.label ∧
      (e.source = m ∧ e.target = v ∨ e.source = v ∧ e.target = m)

section Acquaintances

variable {g : Graph} {person : ElementId} {v : Nat}

def isPerson (g : Graph) (v : Nat) : Bool := g.hasLabel [elementType.label] (.element .vertex v)

theorem isPerson_iff : isPerson g v = true ↔ g.label? .vertex v = some elementType.label :=
  hasLabel_singleton_iff

/-- The acquaintances of a person, once for each edge. -/
def acquaintances (g : Graph) (person : ElementId) : List Nat :=
  ((([person].filterMap (g.find? .vertex)).filter (isPerson g)).flatMap
    (g.adjacent .both [knows.label])).filter (isPerson g)

theorem mem_acquaintances_iff :
    v ∈ acquaintances g person ↔ Joined g person v ∧ isPerson g v = true := by
  have hknows : ∀ e : EdgeRecord,
      ([knows.label].isEmpty || [knows.label].contains e.label) = true ↔ e.label = knows.label := by
    simp
  simp only [acquaintances, List.mem_filter, List.mem_flatMap, List.mem_filterMap,
    List.mem_singleton, exists_eq_left, find?_eq_some_iff, mem_adjacent_both_iff, Joined,
    isPerson_iff, hknows, and_congr_left_iff]
  intro _
  constructor
  · rintro ⟨m, ⟨⟨hnamed, -⟩, hperson⟩, hedge⟩
    exact ⟨m, hnamed, hperson, hedge⟩
  · rintro ⟨m, hnamed, hperson, hedge⟩
    exact ⟨m, ⟨⟨hnamed, mem_ids_of_label? hperson⟩, hperson⟩, hedge⟩

theorem run_acquaintanceSteps {access : Access} {scope : Bindings} (person : ElementId)
    (t : Traverser) (rest : List Step) :
    (evaluateSteps access (acquaintanceSteps person ++ rest) [t] scope).run g
      = (evaluateSteps access rest (t.spread .vertex (acquaintances g person)) scope).run g := by
  have hnamed := look_selectById g scope t .vertex [person]
  have hperson := look_typeFilter g scope t .vertex ([person].filterMap (g.find? .vertex))
    [elementType.label]
  have hwalk := look_walk g scope t
    (([person].filterMap (g.find? .vertex)).filter (isPerson g)) .both [knows.label]
  have hpeople := look_typeFilter g scope t .vertex
    ((([person].filterMap (g.find? .vertex)).filter (isPerson g)).flatMap
      (g.adjacent .both [knows.label])) [elementType.label]
  exact (run_evaluateSteps_of_look rfl hnamed).trans ((run_evaluateSteps_of_look rfl hperson).trans
    ((run_evaluateSteps_of_look rfl hwalk).trans (run_evaluateSteps_of_look rfl hpeople)))

end Acquaintances

/-! ### Strangers -/

/-- A person whom nothing joins with another one, who lives nearby and has a name of their own. -/
structure IsStranger (g : Graph) (person : ElementId) (name : String) (nearby : List String)
    (v : Nat) : Prop where
  labelled : g.label? .vertex v = some elementType.label
  apart : ¬ Joined g person v
  housed : ∃ zipCode ∈ nearby,
    (g.properties? .vertex v).bind (·.find? "zip_code") = some (.str zipCode)
  named : ∃ other, (g.properties? .vertex v).bind (·.find? "name") = some other ∧
    other ≠ .str name

section Strangers

variable {g : Graph} {person : ElementId} {name : String} {nearby : List String} {v : Nat}

def livesNearby (g : Graph) (nearby : List String) (v : Nat) : Bool :=
  (g.property? "zip_code" (.element .vertex v)).any fun zipCode =>
    (Item.value zipCode).isWithin (.list (nearby.map fun s => .value (.str s)))

def hasOtherName (g : Graph) (name : String) (v : Nat) : Bool :=
  (g.property? "name" (.element .vertex v)).any fun other =>
    !(Item.value other).same (.value (.str name))

def isStranger (g : Graph) (person : ElementId) (name : String) (nearby : List String) (v : Nat) :
    Bool :=
  !(Item.element .vertex v).isWithin (.list ((acquaintances g person).map (.element .vertex))) &&
    (livesNearby g nearby v && hasOtherName g name v)

theorem property?_vertex {key : String} (hid : key ≠ idKey) (hlabel : key ≠ labelKey) :
    g.property? key (.element .vertex v) = (g.properties? .vertex v).bind (·.find? key) := by
  rw [Graph.property?, if_neg hid, if_neg hlabel]

theorem livesNearby_iff : livesNearby g nearby v = true ↔ ∃ zipCode ∈ nearby,
    (g.properties? .vertex v).bind (·.find? "zip_code") = some (.str zipCode) := by
  rw [livesNearby, property?_vertex (by decide) (by decide), Option.any_eq_true]
  simp only [Item.isWithin_strs_iff]
  constructor
  · rintro ⟨_, hfind, zipCode, hnearby, rfl⟩
    exact ⟨zipCode, hnearby, hfind⟩
  · rintro ⟨zipCode, hnearby, hfind⟩
    exact ⟨_, hfind, zipCode, hnearby, rfl⟩

theorem hasOtherName_iff : hasOtherName g name v = true ↔ ∃ other,
    (g.properties? .vertex v).bind (·.find? "name") = some other ∧ other ≠ .str name := by
  rw [hasOtherName, property?_vertex (by decide) (by decide), Option.any_eq_true]
  simp only [Bool.not_eq_true', ← Bool.not_eq_true, Item.same_str_iff, ne_eq]

theorem isStranger_iff (hperson : isPerson g v = true) :
    isStranger g person name nearby v = true ↔ IsStranger g person name nearby v := by
  have hacquainted : (Item.element .vertex v).isWithin
      (.list ((acquaintances g person).map (.element .vertex))) = true ↔ Joined g person v := by
    rw [Item.isWithin_elements_iff (by simp [Item.kind?]),
      List.mem_map_of_injective fun _ _ h => (Item.element.inj h).2, mem_acquaintances_iff]
    exact and_iff_left hperson
  rw [isStranger, Bool.and_eq_true, Bool.and_eq_true, Bool.not_eq_true', ← Bool.not_eq_true,
    hacquainted, livesNearby_iff, hasOtherName_iff]
  constructor
  · rintro ⟨hapart, hnear, hother⟩
    exact ⟨isPerson_iff.mp hperson, hapart, hnear, hother⟩
  · rintro ⟨-, hapart, hnear, hother⟩
    exact ⟨hapart, hnear, hother⟩

theorem holds_strangerPredicate {acquaintanceName zipCodes : String} {t : Traverser}
    (hacquaintances : t.bindings.lookup acquaintanceName
      = some (.list ((acquaintances g person).map (.element .vertex))))
    (hzipCodes : t.bindings.lookup zipCodes
      = some (.list (nearby.map fun s => .value (.str s)))) (hitem : t.item = .element .vertex v) :
    (strangerPredicate acquaintanceName zipCodes name).holds g t
      = .ok (isStranger g person name nearby v) := by
  have hname : Operand.item t.bindings (.constant (.str name)) = .ok (.value (.str name)) := rfl
  have hknown : Operand.item t.bindings (.bound acquaintanceName)
      = .ok (.list ((acquaintances g person).map (.element .vertex))) := by
    rw [Operand.item, hacquaintances]
  have hnear : Operand.item t.bindings (.bound zipCodes)
      = .ok (.list (nearby.map fun s => .value (.str s))) := by
    rw [Operand.item, hzipCodes]
  have hstranger : (Predicate.neg (.is ⟨.within, .bound acquaintanceName⟩)).holds g t
      = .ok !(Item.element .vertex v).isWithin
        (.list ((acquaintances g person).map (.element .vertex))) := by
    rw [← hitem]
    exact Predicate.holds_neg (Predicate.holds_is hknown)
  have hlives : (Predicate.has "zip_code" ⟨.within, .bound zipCodes⟩).holds g t
      = .ok (livesNearby g nearby v) := by
    rw [livesNearby, ← hitem]
    exact Predicate.holds_has hnear
  have hother : (Predicate.has "name" ⟨.neq, .constant (.str name)⟩).holds g t
      = .ok (hasOtherName g name v) := by
    rw [hasOtherName, ← hitem]
    exact Predicate.holds_has hname
  have hnone : Predicate.allHold g t [] = .ok true := rfl
  have hall := Predicate.allHold_cons hstranger
    (Predicate.allHold_cons hlives (Predicate.allHold_cons hother hnone))
  rw [Bool.and_true] at hall
  exact hall

end Strangers

section Results

variable {access : Access} {acquaintanceName zipCodes : String}

/-- The strangers in ascending order. -/
def strangers (g : Graph) (person : ElementId) (name : String) (nearby : List String) : List Nat :=
  ((g.ids .vertex).filter (isPerson g)).filter (isStranger g person name nearby)

theorem pairwise_strangers (g : Graph) (person : ElementId) (name : String) (nearby : List String) :
    (strangers g person name nearby).Pairwise (· < ·) := by
  have hids : (g.ids .vertex).Pairwise (· < ·) := List.pairwise_map.mpr g.vertices.ascending
  exact (hids.filter _).filter _

theorem mem_strangers_iff {g : Graph} {person : ElementId} {name : String} {nearby : List String}
    {v : Nat} : v ∈ strangers g person name nearby ↔ IsStranger g person name nearby v := by
  rw [strangers, List.mem_filter, List.mem_filter]
  constructor
  · rintro ⟨⟨-, hperson⟩, hstranger⟩
    exact (isStranger_iff hperson).mp hstranger
  · intro hstranger
    have hperson : isPerson g v = true := isPerson_iff.mpr hstranger.labelled
    exact ⟨⟨mem_ids_of_label? hstranger.labelled, hperson⟩, (isStranger_iff hperson).mpr hstranger⟩

/-- The continuation goes through all people, with the acquaintances and the zip codes bound. -/
theorem run_selection (access : Access) {g : Graph} {person : ElementId} (name : String)
    {nearby : List String} (scope : Bindings) {t : Traverser}
    (hacquaintances : t.bindings.lookup acquaintanceName
      = some (.list ((acquaintances g person).map (.element .vertex))))
    (hzipCodes : t.bindings.lookup zipCodes
      = some (.list (nearby.map fun s => .value (.str s)))) :
    (evaluateSteps access [.selectAll .vertex, .typeFilter [elementType.label],
        .filter (strangerPredicate acquaintanceName zipCodes name)] [t] scope).run g
      = (.ok (t.spread .vertex (strangers g person name nearby)), g) := by
  have hall := look_selectAll g scope t .vertex
  have hpeople := look_typeFilter g scope t .vertex (g.ids .vertex) [elementType.label]
  have hstrangers : g.look scope (t.spread .vertex ((g.ids .vertex).filter (isPerson g)))
      (.filter (strangerPredicate acquaintanceName zipCodes name))
      = .ok (t.spread .vertex (strangers g person name nearby)) :=
    look_filter fun v _ => holds_strangerPredicate hacquaintances hzipCodes rfl
  rw [run_evaluateSteps_of_look rfl hall, run_evaluateSteps_of_look rfl hpeople]
  exact run_evaluateSteps_of_look rfl hstrangers

theorem run_strangerSteps (access : Access) (hnames : acquaintanceName ≠ zipCodes) (g : Graph)
    (person : ElementId) (name : String) (nearby : List String) :
    ∃ t : Traverser,
      (evaluateSteps access (strangerSteps acquaintanceName zipCodes person name nearby)
          [⟨.root, []⟩] []).run g
        = (.ok (t.spread .vertex (strangers g person name nearby)), g) := by
  let zips : Item := .list (nearby.map fun s => .value (.str s))
  let known : Item := .list ((acquaintances g person).map (.element .vertex))
  let outside : Traverser := ⟨zips, [(zipCodes, zips)]⟩
  let inside : Traverser := ⟨known, [(acquaintanceName, known), (zipCodes, zips)]⟩
  have hzips : inside.bindings.lookup zipCodes = some zips := by
    have hne : (zipCodes == acquaintanceName) = false := beq_false_of_ne hnames.symm
    simp [inside, List.lookup_cons, hne]
  have hknown : inside.bindings.lookup acquaintanceName = some known := by
    simp [inside]
  have hselection := run_selection access name inside.bindings hknown hzips
  have hinnerBind := run_evaluateSteps_of_bind ⟨known, outside.bindings⟩ outside.bindings hselection
  have hfolded := look_fold g outside.bindings outside .vertex (acquaintances g person)
  have hcontinuation := (run_acquaintanceSteps person outside _).trans
    ((run_evaluateSteps_of_look rfl hfolded).trans hinnerBind)
  have houterBind := run_evaluateSteps_of_bind ⟨zips, []⟩ [] hcontinuation
  rw [map_withItem_spread, map_withItem_spread] at houterBind
  have hinjected : g.look [] [⟨.root, []⟩] (.inject (nearby.map .str))
      = .ok ((nearby.map Json.str).map fun v => ⟨.value v, []⟩) := by
    rw [Graph.look, injected_source]
  have hzipped : g.look [] ((nearby.map Json.str).map fun v => ⟨.value v, []⟩) .fold
      = .ok [⟨zips, []⟩] := by
    rw [Graph.look, reached_values, List.map_map]
    rfl
  exact ⟨_, (run_evaluateSteps_of_look rfl hinjected).trans
    ((run_evaluateSteps_of_look rfl hzipped).trans houterBind)⟩

theorem run_result_of_spread {g : Graph} {steps : List Step} {t : Traverser} {ids : List Nat}
    (h : (evaluateSteps access steps [⟨.root, []⟩] []).run g = (.ok (t.spread .vertex ids), g)) :
    (runSteps access steps).run g
      = (.ok (ids.filterMap fun v => (g.raw? .vertex v).map .element), g) := by
  have hresults : (t.spread .vertex ids).filterMap (fun t => t.item.result? g)
      = ids.filterMap fun v => (g.raw? .vertex v).map .element := by
    rw [Traverser.spread, List.filterMap_map]
    rfl
  rw [← hresults]
  exact run_bind_of_ok h

/-- Elements that are there are returned one by one. -/
theorem forall₂_results {g : Graph} {ids : List Nat} (h : ∀ v ∈ ids, v ∈ g.ids .vertex) :
    List.Forall₂ (fun v r => ∃ e, g.raw? .vertex v = some e ∧ r = RawResult.element e) ids
      (ids.filterMap fun v => (g.raw? .vertex v).map .element) := by
  induction ids with
  | nil => exact .nil
  | cons v rest ih =>
      obtain ⟨record, hrecord⟩ := Table.mem_keys_iff.mp (h v List.mem_cons_self)
      have hraw : g.raw? .vertex v
          = some ⟨Graph.elementId v, record.label, .vertex, record.properties, none, none⟩ := by
        rw [Graph.raw?, hrecord]
        rfl
      simp only [List.filterMap_cons, hraw, Option.map_some]
      exact .cons ⟨_, hraw, rfl⟩ (ih fun w hw => h w (List.mem_cons_of_mem v hw))

/-- On every graph, the query of the sample for strangers nearby results in the people who are strangers
to Marko and live nearby, each once and in the order of their numbers, and leaves the graph as it is. -/
theorem nearby_strangers_are_strangers (g : Graph) (people : People) (nearby : List String)
    (m : ElementId) (hm : idOf people.marko = .ok m) :
    nearbyStrangers people nearby = (do
      peopleOf (← Work.toList (← Work.build (nearbyStrangersOf m people.marko.name nearby)))) ∧
    ∃ model t c, Social.model = .ok model ∧
      nearbyStrangersOf m people.marko.name nearby model = .ok t ∧ t.compile = .ok c ∧
      ∃ results found, g.evaluate c = (.ok results, g) ∧
        List.Forall₂ (fun v r => ∃ e, g.raw? .vertex v = some e ∧ r = RawResult.element e)
          found results ∧
        found.Pairwise (· < ·) ∧
        ∀ v, v ∈ found ↔ IsStranger g m people.marko.name nearby v := by
  constructor
  · rw [nearbyStrangers, hm]
    rfl
  · obtain ⟨model, t, hmodel, ht, hcompile⟩ :=
      compile_nearbyStrangersOf m people.marko.name nearby
    have hnames : Scope.generatedName 1 ≠ Scope.generatedName 0 := by decide
    obtain ⟨_, hrun⟩ := run_strangerSteps (accessFor (strangerSteps (Scope.generatedName 1)
      (Scope.generatedName 0) m people.marko.name nearby)) hnames g m people.marko.name nearby
    refine ⟨model, t, _, hmodel, ht, hcompile, _, _, run_result_of_spread hrun, ?_,
      pairwise_strangers .., fun v => mem_strangers_iff⟩
    exact forall₂_results fun v hv => mem_ids_of_label? (mem_strangers_iff.mp hv).labelled

/-- Marko knows Vadas, who lives nearby like Peter, whom he does not know. -/
theorem peter_is_the_stranger :
    let properties (name zipCode : String) : List Property :=
      [⟨"name", .str name⟩, ⟨"zip_code", .str zipCode⟩]
    let one := (Graph.empty.addVertex "Person" (properties "Marko" "89002")).2
    let two := (one.addVertex "Person" (properties "Vadas" "10199")).2
    let three := (two.addVertex "Person" (properties "Peter" "10122")).2
    let g := (three.addEdge "Knows" [] 1 2).2
    let marko : Person := { Person.new "Marko" 29 "89002" with id := some (.int 1) }
    let people : People := ⟨marko, marko, marko, marko, marko⟩
    idOf people.marko = .ok (.int 1) ∧
    ∃ model t c, Social.model = .ok model ∧
      nearbyStrangersOf (.int 1) "Marko" nearbyZipCodes model = .ok t ∧ t.compile = .ok c ∧
      ∃ (results : List RawResult) (found : List Nat), g.evaluate c = (.ok results, g) ∧
        results.length = found.length ∧ 3 ∈ found ∧ 2 ∉ found := by
  intro properties one two three g marko people
  have hm : idOf people.marko = .ok (.int 1) := rfl
  obtain ⟨-, model, t, c, hmodel, ht, hcompile, results, found, hevaluate, hresults, -, hfound⟩ :=
    nearby_strangers_are_strangers g people nearbyZipCodes (.int 1) hm
  have hother : Json.str "Peter" ≠ .str "Marko" := by simp
  have hedges : g.edges.rows = [(4, ⟨"Knows", [], 1, 2⟩)] := rfl
  refine ⟨hm, model, t, c, hmodel, ht, hcompile, results, found, hevaluate,
    hresults.length_eq.symm, ?_, ?_⟩
  · refine (hfound 3).mpr ⟨rfl, ?_, ⟨"10122", by decide, rfl⟩, ⟨.str "Peter", rfl, hother⟩⟩
    rintro ⟨m, -, -, id, e, he, -, hends⟩
    rw [hedges] at he
    cases List.mem_singleton.mp he
    rcases hends with ⟨-, htarget⟩ | ⟨hsource, -⟩
    · cases htarget
    · cases hsource
  · intro hvadas
    refine ((hfound 2).mp hvadas).apart ⟨1, ⟨1, rfl, rfl⟩, rfl, 4, ⟨"Knows", [], 1, 2⟩, ?_, rfl, ?_⟩
    · rw [hedges]
      exact List.mem_singleton_self _
    · exact .inl ⟨rfl, rfl⟩

end Results

end PropertyGraph.Social
