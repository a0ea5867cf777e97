import PropertyGraph.Proofs.Payloads

/-!
# Complete models

A model is complete once the properties to be left out of updates have been marked. They are checked one
after the other against what is registered in the end, so it does not matter whether a type was registered
before or after one of its properties was named. The first that is at fault ends the whole; otherwise
every property that was named is marked, and nothing else has changed.
-/

namespace PropertyGraph

/-- What is wrong with leaving a property of a type out of updates, if anything is. -/
def GraphModel.fault? (model : GraphModel) (ignore : String × String) : Option SchemaError :=
  match model.schemaOf? ignore.1 with
  | none => some (.notRegistered ignore.1)
  | some schema =>
    if schema.declares ignore.2 then none else some (.unknownPropertyConfig ignore.1 ignore.2)

/-- The schema with those of its properties marked that are among the named ones. -/
def ElementSchema.marking (ignored : List (String × String)) (schema : ElementSchema) : ElementSchema :=
  { schema with
    properties := schema.properties.map fun p =>
      { p with ignoreOnUpdate := p.ignoreOnUpdate || ignored.contains (schema.label.typeName, p.name) } }

def GraphModel.marking (ignored : List (String × String)) (model : GraphModel) : GraphModel :=
  ⟨model.schemas.map (·.marking ignored)⟩

section Marking

variable {model : GraphModel} {schema : ElementSchema} {ignored more : List (String × String)}

theorem names_marking (ignored : List (String × String)) (schema : ElementSchema) :
    (schema.marking ignored).properties.map (·.name) = schema.properties.map (·.name) := by
  rw [ElementSchema.marking, List.map_map]
  rfl

theorem ElementSchema.Describes.marking {type : ElementType} (h : schema.Describes type)
    (ignored : List (String × String)) : (schema.marking ignored).Describes type where
  label := h.label
  names := (names_marking ignored schema).trans h.names
  nodup := h.nodup
  unreserved := h.unreserved

theorem ElementSchema.marking_nil (schema : ElementSchema) : schema.marking [] = schema := by
  obtain ⟨label, properties⟩ := schema
  refine congrArg (ElementSchema.mk label) ?_
  refine (List.map_congr_left fun p _ => ?_).trans (List.map_id' properties)
  rw [List.contains_nil, Bool.or_false]

theorem ElementSchema.marking_marking (ignored more : List (String × String)) (schema : ElementSchema) :
    (schema.marking ignored).marking more = schema.marking (ignored ++ more) := by
  simp only [ElementSchema.marking, List.map_map, Function.comp_def, Bool.or_assoc,
    List.contains_append]

theorem GraphModel.marking_nil (model : GraphModel) : model.marking [] = model := by
  rw [GraphModel.marking, List.map_congr_left fun schema _ => schema.marking_nil, List.map_id']

theorem GraphModel.marking_marking (ignored more : List (String × String)) (model : GraphModel) :
    (model.marking ignored).marking more = model.marking (ignored ++ more) := by
  simp only [GraphModel.marking, List.map_map, Function.comp_def, ElementSchema.marking_marking]

theorem declares_marking (ignored : List (String × String)) (schema : ElementSchema)
    (property : String) : (schema.marking ignored).declares property = schema.declares property := by
  rw [Bool.eq_iff_iff, declares_iff, declares_iff, names_marking]

theorem schemaOf?_marking (ignored : List (String × String)) (model : GraphModel) (typeName : String) :
    (model.marking ignored).schemaOf? typeName
      = (model.schemaOf? typeName).map (·.marking ignored) := List.find?_map ..

/-- Marks do not change what is at fault. -/
theorem fault?_marking (ignored : List (String × String)) (model : GraphModel) :
    (model.marking ignored).fault? = model.fault? := by
  funext ⟨typeName, property⟩
  rw [GraphModel.fault?, GraphModel.fault?, schemaOf?_marking]
  cases model.schemaOf? typeName with
  | none => rfl
  | some schema =>
      dsimp only [Option.map_some]
      rw [declares_marking]

/-- One property marked, in the schemas of the name. -/
theorem ElementSchema.marking_singleton (typeName property : String) (schema : ElementSchema) :
    schema.marking [(typeName, property)]
      = if schema.label.typeName == typeName then schema.ignoring property else schema := by
  by_cases hname : schema.label.typeName = typeName
  · rw [if_pos (beq_iff_eq.mpr hname), ElementSchema.marking, ElementSchema.ignoring]
    congr 1
    refine List.map_congr_left fun p _ => ?_
    by_cases hp : p.name = property
    · simp [hname, hp]
    · simp [hp]
  · rw [if_neg (by simpa using hname), ← schema.marking_nil]
    simp [ElementSchema.marking, hname]

theorem applyIgnore_eq (model : GraphModel) (typeName property : String) :
    ModelBuilder.applyIgnore model typeName property
      = unlessFault (model.fault? (typeName, property)) (model.marking [(typeName, property)]) := by
  rw [ModelBuilder.applyIgnore, GraphModel.fault?]
  cases model.schemaOf? typeName with
  | none => rfl
  | some schema =>
      cases hdeclares : schema.declares property with
      | false =>
          simp only [hdeclares, Bool.false_eq_true, ↓reduceIte]
          rfl
      | true =>
          simp only [hdeclares, ↓reduceIte, GraphModel.marking, ElementSchema.marking_singleton]
          rfl

theorem build_cons (model : GraphModel) (ignore : String × String) (rest : List (String × String)) :
    (ModelBuilder.mk model (ignore :: rest)).build
      = ModelBuilder.applyIgnore model ignore.1 ignore.2 >>= fun model =>
          (ModelBuilder.mk model rest).build := List.foldlM_cons

/-- A model is complete with every named property marked, unless one of them is at fault. -/
theorem build_eq (model : GraphModel) (ignored : List (String × String)) :
    (ModelBuilder.mk model ignored).build
      = unlessFault (ignored.findSome? model.fault?) (model.marking ignored) := by
  induction ignored generalizing model with
  | nil => exact congrArg Except.ok model.marking_nil.symm
  | cons ignore rest ih =>
      rw [build_cons, List.findSome?_cons, applyIgnore_eq]
      cases model.fault? ignore with
      | some e => rfl
      | none =>
          refine (ih _).trans ?_
          rw [fault?_marking, GraphModel.marking_marking]
          rfl

end Marking

/-- What a registration leaves out of updates: a property of a type. -/
def Registration.ignores : Registration → List (String × String)
  | ignoreOnUpdate type property => [(type.name, property)]
  | register _ | registerAs _ _ | fromBaseTypes _ _ => []

namespace ModelBuilder

variable {builder : ModelBuilder} {ignored : List (String × String)}

def withIgnored (ignored : List (String × String)) (builder : ModelBuilder) : ModelBuilder :=
  { builder with ignored }

theorem register_withIgnored (type : ElementType) :
    (builder.withIgnored ignored).register type
      = (builder.register type).map (Prod.map id (withIgnored ignored)) := by
  have hmodel : (builder.withIgnored ignored).model = builder.model := rfl
  rw [register, register, hmodel]
  cases builder.model.schemaOf? type.name with
  | some schema => rfl
  | none => cases schemaFor builder.model type <;> rfl

theorem registerAs_withIgnored (type : ElementType) (kind : ElementKind) :
    (builder.withIgnored ignored).registerAs type kind
      = (builder.registerAs type kind).map (Prod.map id (withIgnored ignored)) := by
  rw [registerAs, registerAs]
  split
  · rfl
  · exact register_withIgnored type

theorem registerAll_withIgnored (kind : ElementKind) (types : List ElementType) :
    registerAll kind (builder.withIgnored ignored) types
      = Prod.map id (withIgnored ignored) (registerAll kind builder types) := by
  induction types generalizing builder with
  | nil => rfl
  | cons type rest ih =>
      rw [registerAll, registerAll, registerAs_withIgnored]
      cases builder.registerAs type kind with
      | error e => rfl
      | ok answer =>
          dsimp only [Except.map, Prod.map]
          rw [ih]
          rfl

theorem fromBaseTypes_withIgnored (vertices edges : List ElementType) :
    (builder.withIgnored ignored).fromBaseTypes vertices edges
      = Prod.map id (withIgnored ignored) (builder.fromBaseTypes vertices edges) := by
  rw [fromBaseTypes, fromBaseTypes, registerAll_withIgnored]
  rcases registerAll .vertex builder vertices with ⟨e | labels, next⟩
  · rfl
  · dsimp only [Prod.map, id]
    rw [registerAll_withIgnored]
    rfl

/-- What is left out of updates has no part in the registration of types, and is added to by calls that say
so. -/
theorem perform_withIgnored (registration : Registration) :
    (builder.withIgnored ignored).perform registration
      = (builder.perform registration).withIgnored (ignored ++ registration.ignores) := by
  have hnone : ignored ++ [] = ignored := List.append_nil ignored
  cases registration with
  | register type =>
      rw [perform, perform, register_withIgnored, Registration.ignores, hnone]
      cases builder.register type <;> rfl
  | registerAs type kind =>
      rw [perform, perform, registerAs_withIgnored, Registration.ignores, hnone]
      cases builder.registerAs type kind <;> rfl
  | fromBaseTypes vertices edges =>
      rw [perform, perform, fromBaseTypes_withIgnored, Registration.ignores, hnone]
      rfl
  | ignoreOnUpdate type property => rfl

theorem after_concat {registrations : List Registration} {registration : Registration} :
    after (registrations ++ [registration]) = (after registrations).perform registration := by
  rw [after, List.foldl_append]
  rfl

/-- The types are registered as if no property had been left out of updates in between. -/
theorem after_eq (registrations : List Registration) :
    after registrations
      = (after (registrations.filter (·.ignores.isEmpty))).withIgnored
          (registrations.flatMap Registration.ignores) := by
  induction registrations using List.reverseRecOn with
  | nil => rfl
  | append_singleton earlier registration ih =>
      rw [List.filter_append, List.flatMap_append, List.flatMap_singleton, after_concat, ih,
        perform_withIgnored]
      cases registration with
      | ignoreOnUpdate type property =>
          exact congrArg (fun kept => (after kept).withIgnored _) (List.append_nil _).symm
      | register type => exact congrArg (withIgnored _) after_concat.symm
      | registerAs type kind => exact congrArg (withIgnored _) after_concat.symm
      | fromBaseTypes vertices edges => exact congrArg (withIgnored _) after_concat.symm

end ModelBuilder

theorem mem_ignores_iff {registrations : List Registration} {typeName property : String} :
    (typeName, property) ∈ registrations.flatMap Registration.ignores
      ↔ ∃ type, .ignoreOnUpdate type property ∈ registrations ∧ type.name = typeName := by
  rw [List.mem_flatMap]
  constructor
  · rintro ⟨registration, hregistration, hmem⟩
    cases registration with
    | ignoreOnUpdate type _ =>
        cases List.mem_singleton.mp hmem
        exact ⟨type, hregistration, rfl⟩
    | register _ => cases hmem
    | registerAs _ _ => cases hmem
    | fromBaseTypes _ _ => cases hmem
  · rintro ⟨type, hregistration, rfl⟩
    exact ⟨_, hregistration, List.mem_singleton_self _⟩

end PropertyGraph
