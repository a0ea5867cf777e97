import Mathlib.Algebra.Group.Nat.Defs
import PropertyGraph.Proofs.Decoding
import PropertyGraph.Proofs.Descent
import PropertyGraph.Proofs.People
import PropertyGraph.Proofs.Selecting
import PropertyGraph.Social.Queries

/-!
# Created values come back

A value goes through four hands when it is created: the payload leaves out its identifier and its nulls,
the store numbers the vertex, the engine returns it as an element, and the projector puts the new
identifier among the properties before they are decoded. In the end the decoder of the type is given
what the value has and its new identifier, and nothing else.
-/

namespace PropertyGraph

open Document (ofJson)

/-- An element is the vertex that has been added to a graph, and the others have stayed. -/
structure Graph.Adds (g : Graph) (label : String) (properties : Members) (e : RawElement)
    (g' : Graph) : Prop where
  id : e.id = elementId (g.counter + 1)
  label : e.label = label
  kind : e.kind = .vertex
  properties : e.properties = properties
  endpoints : e.outV = none ∧ e.inV = none
  present : g'.raw? .vertex (g.counter + 1) = some e
  others : ∀ kind id, (kind, id) ≠ (.vertex, g.counter + 1) → g'.raw? kind id = g.raw? kind id
  /-- It is numbered past all elements of the graph. -/
  past : ∀ kind, ∀ id ∈ g.ids kind, id < g.counter + 1
  /-- Its identifier is new, as long as numbers fit into 63 bits. -/
  fresh : g.counter + 1 < 2 ^ 63 → ∀ kind, ∀ id ∈ g.ids kind, elementId id ≠ e.id

section Adding

variable {g : Graph} {label : String} {properties : List Property}

theorem elementId_injective_of_lt {id id' : Nat} (hid : id < 2 ^ 63) (hid' : id' < 2 ^ 63)
    (h : Graph.elementId id = Graph.elementId id') : id = id' := by
  have hint : (Int64.ofNat id).toInt = (Int64.ofNat id').toInt :=
    congrArg Int64.toInt (ElementId.int.inj h)
  rw [Int64.toInt_ofNat_of_lt hid, Int64.toInt_ofNat_of_lt hid'] at hint
  exact Int.ofNat_inj.mp hint

theorem raw?_addVertex (kind : ElementKind) (id : Nat) :
    (g.addVertex label properties).2.raw? kind id
      = if (kind, id) = (.vertex, g.counter + 1) then
          some ⟨Graph.elementId (g.counter + 1), label, .vertex, Graph.setAll properties [], none, none⟩
        else g.raw? kind id := by
  cases kind with
  | edge => rfl
  | vertex =>
      have hpush : (g.addVertex label properties).2.vertices = g.vertices.push (g.counter + 1)
          ⟨label, Graph.setAll properties []⟩ (Graph.lt_counter_succ g.vertices_le) := rfl
      rw [Graph.raw?, hpush, Table.get?_push]
      by_cases hid : id = g.counter + 1
      · rw [if_pos hid, if_pos (congrArg (ElementKind.vertex, ·) hid), hid]
        rfl
      · rw [if_neg hid, if_neg fun heq => hid (congrArg Prod.snd heq)]
        rfl

theorem adds_addVertex (g : Graph) (label : String) (properties : List Property) :
    g.Adds label (Graph.setAll properties [])
      ⟨Graph.elementId (g.counter + 1), label, .vertex, Graph.setAll properties [], none, none⟩
      (g.addVertex label properties).2 where
  id := rfl
  label := rfl
  kind := rfl
  properties := rfl
  endpoints := ⟨rfl, rfl⟩
  present := by rw [raw?_addVertex, if_pos rfl]
  others kind id hne := by rw [raw?_addVertex, if_neg hne]
  past kind id hid := Nat.lt_succ_of_le (le_counter_of_mem_ids hid)
  fresh hfew kind id hid heq := by
    have hlt : id < g.counter + 1 := Nat.lt_succ_of_le (le_counter_of_mem_ids hid)
    have hsame := elementId_injective_of_lt (Nat.lt_trans hlt hfew) hfew heq
    exact Nat.ne_of_lt hlt hsame

/-- A traversal has one element as its only result. -/
def Traversal.YieldsOne (t : Traversal) (g : Graph) (e : RawElement) (g' : Graph) : Prop :=
  ∃ c, t.compile = .ok c ∧ g.evaluate c = (.ok [.element e], g')

theorem evaluate_of_single {steps : List Step} {g g' : Graph} {t : Traverser} {kind : ElementKind}
    {id : Nat} {e : RawElement}
    (h : (evaluateSteps (accessFor steps) steps [⟨.root, []⟩] []).run g
      = (.ok [t.withItem (.element kind id)], g')) (he : g'.raw? kind id = some e) :
    g.evaluate ⟨steps⟩ = (.ok [.element e], g') := by
  have hresult : (Item.element kind id).result? g' = some (.element e) := by
    rw [Item.result?, he, Option.map_some]
  have hresults : [t.withItem (.element kind id)].filterMap (fun t => t.item.result? g')
      = [.element e] := by
    rw [List.filterMap_cons, Traverser.withItem, hresult, List.filterMap_nil]
  rw [← hresults]
  exact run_bind_of_ok h

theorem evaluate_addVertex (g : Graph) (label : String) (properties : List Property) :
    ∃ e, g.evaluate ⟨[.addVertex label properties]⟩
        = (.ok [.element e], (g.addVertex label properties).2) ∧
      g.Adds label (Graph.setAll properties []) e (g.addVertex label properties).2 := by
  have hadds := adds_addVertex g label properties
  have hrun : (evaluateSteps .write [.addVertex label properties] [⟨.root, []⟩] []).run g
      = (.ok [Traverser.withItem ⟨.root, []⟩ (.element .vertex (g.counter + 1))],
        (g.addVertex label properties).2) := rfl
  exact ⟨_, evaluate_of_single hrun hadds.present, hadds⟩

end Adding

/-- What becomes of members that are handed to the decoder of a type. -/
def ElementType.decoded (type : ElementType) (members : Members) : Except TraversalError Output :=
  match type.read .value (ofJson (.obj members)) with
  | .ok v => .ok (.value v)
  | .error error => RawResult.decodingError s!"cannot decode '{type.label}': {error.message}"

section Decoding

variable {model : GraphModel} {type : ElementType} {schema : ElementSchema} {members : Members}

theorem decode_eq_decoded (hlabelOf : model.labelOf type = .ok (.ofType type)) {e : RawElement}
    (hkind : e.kind = type.kind) (hlabel : e.label = type.label) (mode : ProjectionMode) :
    (RawResult.element e).decode model mode (.element type)
      = (type.decoded (RawResult.valueMembers e)).map some := by
  rw [decode_element hlabelOf hkind hlabel, RawResult.decodeWhole]
  rfl

theorem Traversal.YieldsOne.toList_eq {t : Traversal} {g g' : Graph} {e : RawElement}
    (h : t.YieldsOne g e g') (hresult : t.result = .element type)
    (hdecode : ∀ mode, (RawResult.element e).decode model mode (.element type)
      = (type.decoded (RawResult.valueMembers e)).map some) (config : EnvironmentConfig) :
    (Environment.mk model config (.memory g)).toList t
      = (some ((type.decoded (RawResult.valueMembers e)).map ([·])), ⟨model, config, .memory g'⟩) := by
  obtain ⟨c, hcompile, hevaluate⟩ := h
  rw [toList_eq_handedOut model config g hcompile, hevaluate, hresult, handedOut, List.mapM_cons,
    hdecode config.projection, List.mapM_nil]
  cases type.decoded (RawResult.valueMembers e) <;> rfl

/-- The identifier is not among the stored fields, so it is one member more. -/
theorem perm_insert_id (members : Members) (id : ElementId) :
    (Members.insert idKey id.toJson members.stored).Perm ((idKey, id.toJson) :: members.stored) := by
  refine Members.perm_insert fun p hp => ?_
  have hkept := (List.mem_filter.mp hp).2
  exact bne_iff_ne.mp (Bool.and_eq_true_iff.mp hkept).1

/-- How a value comes back that a traversal creates in a graph. -/
structure ComesBack (model : GraphModel) (type : ElementType) (members : Members) (t : Traversal)
    (g : Graph) (e : RawElement) (g' : Graph) : Prop where
  added : g.Adds type.label members.stored e g'
  /-- The new vertex is the only result. -/
  evaluated : t.YieldsOne g e g'
  /-- The decoder is handed the fields of the value and the new identifier. -/
  handed : (RawResult.valueMembers e).Perm ((idKey, e.id.toJson) :: members.stored)
  decoded : ∀ mode, (RawResult.element e).decode model mode (.element type)
    = (type.decoded (RawResult.valueMembers e)).map some
  listed : ∀ config, (Environment.mk model config (.memory g)).toList t
    = (some ((type.decoded (RawResult.valueMembers e)).map ([·])), ⟨model, config, .memory g'⟩)

theorem comesBack_of_describes (hschema : model.schemaOf type = .ok schema)
    (hdescribes : schema.Describes type) (hkind : type.kind = .vertex)
    (hascending : members.Ascending) (hdeclared : members.DeclaredIn type.properties) :
    ∃ t, Traversal.source.addVertex model type (.obj members) = .ok t ∧
      ∀ g, ∃ e g', ComesBack model type members t g e g' := by
  have hlabelOf := hdescribes.labelOf hschema
  have hnames := hdescribes.names
  have hid : idKey ∉ type.properties := fun hmem => by cases hdescribes.unreserved idKey hmem
  let payload := schema.properties.filterMap (payloadProperty? members)
  have hpayload : model.creationPayload type (.obj members) = .ok payload :=
    creationPayload_eq_ok hschema (hnames ▸ hdeclared)
  have hset : Graph.setAll payload [] = members.stored :=
    setAll_payload_nil hascending (hnames ▸ hdescribes.nodup) (hnames ▸ hid) (hnames ▸ hdeclared)
  let t := Traversal.source.push (.addVertex type.label payload) (.element type)
    (.elements .vertex (some type.label))
  have hadd : Traversal.source.addVertex model type (.obj members) = .ok t := by
    rw [Traversal.addVertex, hlabelOf, hpayload]
    rfl
  refine ⟨t, hadd, fun g => ?_⟩
  obtain ⟨e, hevaluate, hadds⟩ := evaluate_addVertex g type.label payload
  rw [hset] at hadds
  have hyields : t.YieldsOne g e (g.addVertex type.label payload).2 := ⟨_, rfl, hevaluate⟩
  have hdecode := decode_eq_decoded hlabelOf (hadds.kind.trans hkind.symm) hadds.label
  refine ⟨e, _, hadds, hyields, ?_, hdecode, hyields.toList_eq rfl hdecode⟩
  rw [RawResult.valueMembers, hadds.properties]
  exact perm_insert_id members e.id

theorem Social.Person.decoded_members (p : Social.Person) :
    Social.Person.elementType.decoded p.members = .ok (.value p.toJson) := by
  rw [ElementType.decoded, ← p.toJson_eq, p.read_toJson]

/-- Whatever a value of a registered vertex type carries as its identifier, it comes back with its fields
and the identifier of a new vertex. A person comes back as a person with that identifier. -/
theorem created_values_come_back :
    (∀ registrations model type members,
      (ModelBuilder.after registrations).build = .ok model →
      NamesDeclare (type :: registrations.flatMap Registration.types) →
      model.contains type = true → type.kind = .vertex →
      Members.Ascending members → members.DeclaredIn type.properties →
      ∃ t, Traversal.source.addVertex model type (.obj members) = .ok t ∧
        ∀ g, ∃ e g', ComesBack model type members t g e g') ∧
    ∀ p : Social.Person, ∃ model t, Social.model = .ok model ∧ Social.creation p model = .ok t ∧
      ∀ config g,
        let created := { p with id := some (Graph.elementId (g.counter + 1)) }
        ((Environment.mk model config (.memory g)).toList t).1 = some (.ok [.value created.toJson]) ∧
          Social.Person.ofJson? created.toJson = some created := by
  refine ⟨?_, fun p => ?_⟩
  · intro registrations model type members hmodel hnames hcontains hkind hascending hdeclared
    obtain ⟨schema, hschema, hdescribes⟩ := exists_describes hmodel hnames hcontains
    exact comesBack_of_describes hschema hdescribes hkind hascending hdeclared
  · obtain ⟨model, hmodel, hschema⟩ := Social.Person.exists_schemaOf
    obtain ⟨t, hcreation, hback⟩ := comesBack_of_describes hschema Social.Person.describes_schema rfl
      p.ascending_members p.declaredIn_members
    rw [← p.toJson_eq] at hcreation
    refine ⟨model, t, hmodel, hcreation, fun config g => ⟨?_, Social.Person.ofJson?_toJson _⟩⟩
    obtain ⟨e, g', he⟩ := hback g
    have hmembers : RawResult.valueMembers e
        = { p with id := some (Graph.elementId (g.counter + 1)) }.members := by
      rw [RawResult.valueMembers, he.added.properties, he.added.id, p.stored_members]
      exact Social.Person.insert_id _ _ rfl
    rw [he.listed, hmembers, Social.Person.decoded_members]
    rfl

/-- A note that brings an identifier along gets another one, and its null is not kept. -/
theorem note_comes_back :
    let note : ElementType := ⟨"Note", .vertex, "Note", ["text", "due"], none⟩
    let members : Members := [("due", .null), ("id", .str "mine"), ("text", .str "milk")]
    let g := (Graph.empty.addVertex "Note" []).2
    ∃ model t, (ModelBuilder.after [.register note]).build = .ok model ∧
      Traversal.source.addVertex model note (.obj members) = .ok t ∧
      (∀ config, ((Environment.mk model config (.memory g)).toList t).1
        = some (.ok [.value (.obj [("id", .int 2), ("text", .str "milk")])])) ∧
      ∃ e g', ComesBack model note members t g e g' := by
  intro note members g
  let model : GraphModel := ⟨[⟨.ofType note, [⟨"text", false⟩, ⟨"due", false⟩]⟩]⟩
  have hmodel : (ModelBuilder.after [.register note]).build = .ok model := by decide
  have hnames : NamesDeclare (note :: [Registration.register note].flatMap Registration.types) := by
    decide
  have hascending : Members.Ascending members :=
    .of_keys ["due", "id", "text"] (by decide) rfl
  obtain ⟨t, ht, hback⟩ := created_values_come_back.1 _ model note members hmodel hnames (by decide)
    rfl hascending (by decide)
  refine ⟨model, t, hmodel, ht, ?_, hback g⟩
  cases ht
  intro config
  rfl

end Decoding

end PropertyGraph
