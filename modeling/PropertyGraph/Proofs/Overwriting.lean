import PropertyGraph.Proofs.Creation

/-!
# What an update overwrites

An update sets the properties that its value has and leaves all others alone, so it takes nothing away: a
property that the value does not have stays what it was, and so does one that is left out of updates, even
if the value has it.
-/

namespace PropertyGraph

section Engine

variable {g : Graph} {n : Nat} {e : RawElement} {label : String}

theorem raw?_update (g : Graph) (n : Nat) (properties : List Property) (kind : ElementKind) (id : Nat) :
    (g.update .vertex n properties).raw? kind id
      = if (kind, id) = (.vertex, n) then
          (g.raw? kind id).map fun e => { e with properties := Graph.setAll properties e.properties }
        else g.raw? kind id := by
  cases kind with
  | edge => rfl
  | vertex =>
      have hget : (g.update .vertex n properties).vertices.get? id
          = if id = n then
              (g.vertices.get? id).map fun v => { v with properties := Graph.setAll properties v.properties }
            else g.vertices.get? id := Table.get?_modify
      rw [Graph.raw?, hget]
      by_cases hid : id = n
      · rw [if_pos hid, if_pos (congrArg (ElementKind.vertex, ·) hid), Graph.raw?, Option.map_map,
          Option.map_map]
        rfl
      · rw [if_neg hid, if_neg fun heq => hid (congrArg Prod.snd heq)]
        rfl

/-- The steps to the vertex of an identifier, if it has a label. -/
def vertexSteps (id : ElementId) (label : String) : List Step :=
  [.selectById .vertex [id], .typeFilter [label]]

theorem run_vertexSteps (hn : n < 2 ^ 63) (hlabel : g.label? .vertex n = some label) (access : Access)
    (rest : List Step) (t : Traverser) (scope : Bindings) :
    (evaluateSteps access (vertexSteps (Graph.elementId n) label ++ rest) [t] scope).run g
      = (evaluateSteps access rest [t.withItem (.element .vertex n)] scope).run g := by
  have hfind : g.find? .vertex (Graph.elementId n) = some n :=
    find?_eq_some_iff.mpr ⟨⟨_, rfl, Int64.toInt_ofNat_of_lt hn⟩, mem_ids_of_label? hlabel⟩
  have hnamed : [Graph.elementId n].filterMap (g.find? .vertex) = [n] := by
    rw [List.filterMap_cons, hfind, List.filterMap_nil]
  have hkept : [n].filter (fun id => g.hasLabel [label] (.element .vertex id)) = [n] := by
    rw [List.filter_cons, if_pos (hasLabel_singleton_iff.mpr hlabel), List.filter_nil]
  have hselect := look_selectById g scope t .vertex [Graph.elementId n]
  rw [hnamed] at hselect
  have hfilter := look_typeFilter g scope t .vertex [n] [label]
  rw [hkept] at hfilter
  exact (run_evaluateSteps_of_look rfl hselect).trans (run_evaluateSteps_of_look rfl hfilter)

theorem evaluate_vertexSteps (hn : n < 2 ^ 63) (he : g.raw? .vertex n = some e) :
    g.evaluate ⟨vertexSteps (Graph.elementId n) e.label⟩ = (.ok [.element e], g) :=
  evaluate_of_single (run_vertexSteps hn (of_raw?_eq_some he).2 .read [] ⟨.root, []⟩ []) he

theorem evaluate_update (hn : n < 2 ^ 63) (he : g.raw? .vertex n = some e)
    (properties : List Property) :
    g.evaluate ⟨vertexSteps (Graph.elementId n) e.label ++ [.update properties]⟩
      = (.ok [.element { e with properties := Graph.setAll properties e.properties }],
        g.update .vertex n properties) := by
  have hrun : (evaluateSteps .write (vertexSteps (Graph.elementId n) e.label ++ [.update properties])
      [⟨.root, []⟩] []).run g
      = (.ok [Traverser.withItem ⟨.root, []⟩ (.element .vertex n)], g.update .vertex n properties) :=
    run_vertexSteps hn (of_raw?_eq_some he).2 .write [.update properties] ⟨.root, []⟩ []
  refine evaluate_of_single hrun ?_
  rw [raw?_update, if_pos rfl, he, Option.map_some]

end Engine

section Properties

variable {schema : ElementSchema} {d : PropertyDescriptor}

theorem name_mem_updateProperties_iff (hnodup : (schema.properties.map (·.name)).Nodup)
    (hd : d ∈ schema.properties) :
    d.name ∈ schema.updateProperties.map (·.name) ↔ d.ignoreOnUpdate = false := by
  rw [ElementSchema.updateProperties, List.mem_map]
  constructor
  · rintro ⟨d', hd', hname⟩
    obtain ⟨hmem, hupdated⟩ := List.mem_filter.mp hd'
    obtain rfl : d' = d := List.inj_on_of_nodup_map hnodup hmem hd hname
    rwa [Bool.not_eq_true'] at hupdated
  · intro hupdated
    refine ⟨d, List.mem_filter.mpr ⟨hd, ?_⟩, rfl⟩
    rw [hupdated, Bool.not_false]

theorem find?_update (hnodup : (schema.properties.map (·.name)).Nodup) (hd : d ∈ schema.properties)
    (new old : Members) :
    (Graph.setAll (schema.updateProperties.filterMap (payloadProperty? new)) old).find? d.name
      = if d.ignoreOnUpdate then old.find? d.name
        else ((new.find? d.name).filter (!·.isNull)).or (old.find? d.name) := by
  have hupdates : (schema.updateProperties.map (·.name)).Nodup :=
    hnodup.sublist (List.filter_sublist.map _)
  rw [find?_setAll_payload hupdates, if_congr (name_mem_updateProperties_iff hnodup hd) rfl rfl]
  cases d.ignoreOnUpdate <;> rfl

end Properties

section Updating

variable {model : GraphModel} {type : ElementType} {schema : ElementSchema}

/-- The traversal to the vertex of an identifier. -/
def vertexTraversal (type : ElementType) (id : ElementId) : Traversal :=
  ⟨.element type, vertexSteps id type.label, .elements .vertex (some type.label), []⟩

theorem vertexOf_eq_ok (hlabelOf : model.labelOf type = .ok (.ofType type)) (hkind : type.kind = .vertex)
    (id : ElementId) : Traversal.source.vertexOf model type id = .ok (vertexTraversal type id) := by
  have hnarrow : (Shape.elements .vertex none).narrow type.kind type.label
      = .ok (.elements .vertex (some type.label)) := by
    rw [hkind]
    rfl
  rw [Traversal.vertexOf, Traversal.ofType, hlabelOf]
  change ((Shape.elements .vertex none).narrow type.kind type.label >>= _) = _
  rw [hnarrow]
  rfl

/-- A vertex of the type is updated with the fields of a value, and read back as it has been left. -/
theorem exists_update (hschema : model.schemaOf type = .ok schema) (hdescribes : schema.Describes type)
    (hkind : type.kind = .vertex) {new : Members} (hdeclared : new.DeclaredIn type.properties)
    {g : Graph} {n : Nat} (hn : n < 2 ^ 63) {e : RawElement} (he : g.raw? .vertex n = some e)
    (hlabel : e.label = type.label) :
    ∃ found, Traversal.source.vertexOf model type (Graph.elementId n) = .ok found ∧
      ∃ updated, found.update model type (.obj new) = .ok updated ∧
      ∃ e' g', updated.YieldsOne g e' g' ∧ found.YieldsOne g' e' g' ∧
        e' = { e with
          properties := Graph.setAll (schema.updateProperties.filterMap (payloadProperty? new))
            e.properties } ∧
        ∀ config, (Environment.mk model config (.memory g')).toList found
          = (some ((type.decoded (RawResult.valueMembers e')).map ([·])), ⟨model, config, .memory g'⟩) := by
  have hlabelOf := hdescribes.labelOf hschema
  let payload := schema.updateProperties.filterMap (payloadProperty? new)
  let e' := { e with properties := Graph.setAll payload e.properties }
  let g' := g.update .vertex n payload
  let found := vertexTraversal type (Graph.elementId n)
  let updated := found.push (.update payload) found.result found.shape
  have hpayload : model.updatePayload type (.obj new) = .ok payload :=
    updatePayload_eq_ok hschema (hdescribes.names ▸ hdeclared)
  have hupdate : found.update model type (.obj new) = .ok updated := by
    rw [Traversal.update, hpayload]
    rfl
  have he' : g'.raw? .vertex n = some e' := by
    rw [raw?_update, if_pos rfl, he, Option.map_some]
  have hchange : g.evaluate ⟨vertexSteps (Graph.elementId n) type.label ++ [.update payload]⟩
      = (.ok [.element e'], g') := hlabel ▸ evaluate_update hn he payload
  have hread : g'.evaluate ⟨vertexSteps (Graph.elementId n) type.label⟩ = (.ok [.element e'], g') :=
    hlabel ▸ evaluate_vertexSteps hn he'
  have hfound : found.YieldsOne g' e' g' := ⟨_, rfl, hread⟩
  have hdecode := decode_eq_decoded hlabelOf ((of_raw?_eq_some he').1.trans hkind.symm) hlabel
  exact ⟨found, vertexOf_eq_ok hlabelOf hkind _, updated, hupdate, e', g', ⟨_, rfl, hchange⟩, hfound, rfl,
    hfound.toList_eq rfl hdecode⟩

end Updating

namespace Social

open Person (elementType)

/-- What an update with the values of another person makes of a person. -/
def Person.overwritten (old new : Person) : Person :=
  { old with
    name := new.name
    age := new.age
    zipCode := new.zipCode
    phoneNumbers := new.phoneNumbers.or old.phoneNumbers }

theorem updatePayload_members (p : Person) :
    Person.schema.updateProperties.filterMap (payloadProperty? p.members)
      = [⟨"name", .str p.name⟩, ⟨"age", .int p.age.toNat⟩, ⟨"zip_code", .str p.zipCode⟩] ++
        (p.phoneNumbers.map fun ns => ⟨"phone_numbers", .arr (ns.map .str)⟩).toList := by
  obtain ⟨id, name, age, zipCode, phoneNumbers, partitionKey⟩ := p
  cases id <;> cases phoneNumbers <;> rfl

theorem setAll_update_members (old new : Person) (h : old.id = none) :
    Graph.setAll (Person.schema.updateProperties.filterMap (payloadProperty? new.members)) old.members
      = (old.overwritten new).members := by
  obtain ⟨_, name, age, zipCode, phoneNumbers, partitionKey⟩ := old
  obtain ⟨id, name', age', zipCode', phoneNumbers', partitionKey'⟩ := new
  cases h
  rw [updatePayload_members]
  cases phoneNumbers <;> cases phoneNumbers' <;>
    simp (disch := decide) [Person.overwritten, Person.members, Graph.setAll, Members.insertAll,
      Members.insert_before, Members.insert_at, Members.insert_after]

theorem find?_overwritten (old new : Person) {d : PropertyDescriptor}
    (hd : d ∈ Person.schema.properties) :
    (Graph.setAll (Person.schema.updateProperties.filterMap (payloadProperty? new.members))
        old.members.stored).find? d.name
      = if d.ignoreOnUpdate then old.toJson.member? d.name
        else (new.toJson.member? d.name).or (old.toJson.member? d.name) := by
  have hne : d.name ≠ idKey := by
    have hall : ∀ d ∈ Person.schema.properties, d.name ≠ idKey := by decide
    exact hall d hd
  have hstored : old.members.stored.find? d.name = old.members.find? d.name := by
    rw [Members.find?_stored old.ascending_members, bne_iff_ne.mpr hne]
    exact old.filter_find?_members d.name
  rw [find?_update (by decide) hd, new.filter_find?_members, hstored, old.toJson_eq, new.toJson_eq]
  rfl

/-- A person is created and yields `e`. The vertex is updated with another person, and from then on it is
found as `e'`. -/
structure ReadBack (model : GraphModel) (g : Graph) (old new : Person) (e e' : RawElement)
    (found : Traversal) (g' : Graph) : Prop where
  updated : ∃ created g₁, creation old model = .ok created ∧ created.YieldsOne g e g₁ ∧
    ∃ updated, birthdayOf e.id new model = .ok updated ∧ updated.YieldsOne g₁ e' g'
  vertexOf : Traversal.source.vertexOf model elementType e.id = .ok found
  found : found.YieldsOne g' e' g'

theorem exists_readBack (g : Graph) (old new : Person) (hfew : g.counter + 1 < 2 ^ 63) :
    ∃ model, Social.model = .ok model ∧ model.schemaOf elementType = .ok Person.schema ∧
      ∃ e e' found g', ReadBack model g old new e e' found g' ∧ e'.id = e.id ∧
        e'.label = elementType.label ∧
        e'.properties
          = Graph.setAll (Person.schema.updateProperties.filterMap (payloadProperty? new.members))
            old.members.stored ∧
        ∀ config, ((Environment.mk model config (.memory g')).toList found).1
          = some (.ok [.value { old.overwritten new with id := some e.id }.toJson]) := by
  obtain ⟨model, hmodel, hschema⟩ := Person.exists_schemaOf
  obtain ⟨created, hcreation, hback⟩ := comesBack_of_describes hschema Person.describes_schema rfl
    old.ascending_members old.declaredIn_members
  obtain ⟨e, g₁, he⟩ := hback g
  have hadded := he.added
  obtain ⟨found, hvertexOf, updated, hupdate, e', g', hupdated, hfound, he', hlist⟩ := exists_update
    hschema Person.describes_schema rfl new.declaredIn_members hfew hadded.present hadded.label
  rw [← old.toJson_eq] at hcreation
  rw [← new.toJson_eq] at hupdate
  rw [← hadded.id] at hvertexOf
  have hbirthday : birthdayOf e.id new model = .ok updated := by
    rw [birthdayOf, hvertexOf]
    exact hupdate
  have hproperties : e'.properties
      = Graph.setAll (Person.schema.updateProperties.filterMap (payloadProperty? new.members))
        old.members.stored := by
    rw [he', hadded.properties]
  have hid : e'.id = e.id := by rw [he']
  have hlabel : e'.label = elementType.label := by rw [he', hadded.label]
  have hmembers : RawResult.valueMembers e'
      = { old.overwritten new with id := some e.id }.members := by
    rw [RawResult.valueMembers, hproperties, old.stored_members, setAll_update_members _ _ rfl, hid]
    exact Person.insert_id _ _ rfl
  refine ⟨model, hmodel, hschema, e, e', found, g',
    ⟨⟨created, g₁, hcreation, he.evaluated, updated, hbirthday, hupdated⟩, hvertexOf, hfound⟩, hid, hlabel,
    hproperties, fun config => ?_⟩
  rw [hlist, hmembers, Person.decoded_members]
  rfl

/-- After an update the vertex has kept its identifier. Of the properties that are not left out of updates
it has those of the new person, and where the new person has none those of the old one, which is also where
the others come from. -/
theorem update_overwrites (g : Graph) (old new : Person) (hfew : g.counter + 1 < 2 ^ 63) :
    ∃ model schema, Social.model = .ok model ∧ model.schemaOf elementType = .ok schema ∧
      ∃ e e' found g', ReadBack model g old new e e' found g' ∧ e'.id = e.id ∧
        e'.label = elementType.label ∧
        (∀ d ∈ schema.properties, e'.property? d.name
          = if d.ignoreOnUpdate then old.toJson.member? d.name
            else (new.toJson.member? d.name).or (old.toJson.member? d.name)) ∧
        ∀ config, ((Environment.mk model config (.memory g')).toList found).1
          = some (.ok [.value { old.overwritten new with id := some e.id }.toJson]) := by
  obtain ⟨model, hmodel, hschema, e, e', found, g', hread, hid, hlabel, hproperties, hlist⟩ :=
    exists_readBack g old new hfew
  refine ⟨model, _, hmodel, hschema, e, e', found, g', hread, hid, hlabel, fun d hd => ?_, hlist⟩
  rw [RawElement.property?, hproperties, find?_overwritten old new hd]

/-- The vertex is an older Ann in her old partition. -/
theorem ann_gets_older :
    let ann := (Person.new "Ann" 30 "1").withPhoneNumbers ["1"]
    let older : Person := ⟨some (.int 7), "Ann", 31, "1", some ["2"], "elsewhere"⟩
    Graph.empty.counter + 1 < 2 ^ 63 ∧ ∃ model e e' found g', Social.model = .ok model ∧
      ReadBack model .empty ann older e e' found g' ∧ e'.id = e.id ∧
      e'.property? "age" = some (.int 31) ∧ e'.property? "phone_numbers" = some (.arr [.str "2"]) ∧
      e'.property? "partition_key" = some (.str "people") := by
  intro ann older
  have hfew : Graph.empty.counter + 1 < 2 ^ 63 := by decide
  obtain ⟨model, schema, hmodel, hschema, e, e', found, g', hread, hid, -, hproperties, -⟩ :=
    update_overwrites .empty ann older hfew
  refine ⟨hfew, model, e, e', found, g', hmodel, hread, hid, ?_⟩
  cases hmodel
  cases hschema
  rw [ann.toJson_eq, older.toJson_eq] at hproperties
  have hage := hproperties ⟨"age", false⟩ (by decide)
  have hphoneNumbers := hproperties ⟨"phone_numbers", false⟩ (by decide)
  have hpartition := hproperties ⟨"partition_key", true⟩ (by decide)
  exact ⟨hage, hphoneNumbers, hpartition⟩

/-- An update with a person who has no phone numbers leaves those that are there. -/
theorem phone_numbers_stay :
    let ann : Person := ⟨none, "Ann", 30, "1", some ["1"], "a"⟩
    let bea : Person := ⟨none, "Bea", 31, "2", none, "b"⟩
    ∃ model schema, Social.model = .ok model ∧ model.schemaOf elementType = .ok schema ∧
      ∃ e e' found g', ReadBack model .empty ann bea e e' found g' ∧
        ⟨"phone_numbers", false⟩ ∈ schema.properties ∧
        bea.toJson.member? "phone_numbers" = none ∧
        e'.property? "phone_numbers" = some (.arr [.str "1"]) := by
  intro ann bea
  have hdeclared : ⟨"phone_numbers", false⟩ ∈ Person.schema.properties := by decide
  obtain ⟨model, hmodel, hschema, e, e', found, g', hread, -, -, hproperties, -⟩ :=
    exists_readBack .empty ann bea (by decide)
  have hnone : bea.toJson.member? "phone_numbers" = none := by
    rw [bea.toJson_eq]
    rfl
  have hstays : e'.property? "phone_numbers" = ann.toJson.member? "phone_numbers" := by
    rw [RawElement.property?, hproperties]
    refine (find?_overwritten ann bea hdeclared).trans ?_
    rw [hnone]
    rfl
  rw [ann.toJson_eq] at hstays
  exact ⟨model, _, hmodel, hschema, e, e', found, g', hread, hdeclared, hnone, hstays⟩

end Social

end PropertyGraph
