import Mathlib.Data.List.Induction
import Mathlib.Data.List.Nodup
import PropertyGraph.Proofs.Looking
import PropertyGraph.Schema.Model

/-!
# What a model has registered

A model comes about by registrations, and each of its schemas is that of a type that has been registered.
Types are told apart by name. If types of the same name have the same label and kind, the label that a
model has for a type is the label of the type, and if they declare the same properties, its schema is that
of the type.
-/

namespace PropertyGraph

/-- What is asked of a builder of models. A type that is known to be a vertex or an edge type is registered
as one. -/
inductive Registration where
  | register (type : ElementType)
  | registerAs (type : ElementType) (kind : ElementKind)
  | fromBaseTypes (vertices edges : List ElementType)
  | ignoreOnUpdate (type : ElementType) (property : String)

def Registration.types : Registration → List ElementType
  | register type | registerAs type _ | ignoreOnUpdate type _ => [type]
  | fromBaseTypes vertices edges => vertices ++ edges

namespace ModelBuilder

/-- The builder after a registration. It stays as it is if a type is refused, and keeps the types before
the one that is refused if there are several. -/
def perform (builder : ModelBuilder) : Registration → ModelBuilder
  | .register type =>
    match builder.register type with
    | .ok (_, builder) => builder
    | .error _ => builder
  | .registerAs type kind =>
    match builder.registerAs type kind with
    | .ok (_, builder) => builder
    | .error _ => builder
  | .fromBaseTypes vertices edges => (builder.fromBaseTypes vertices edges).2
  | .ignoreOnUpdate type property => builder.ignoreOnUpdate type property

def after (registrations : List Registration) : ModelBuilder := registrations.foldl perform empty

end ModelBuilder

/-- A condition on schemas that holds after the registration of a type and is kept when a property is left
out of updates. -/
structure SchemaInvariant (types : List ElementType) (P : ElementSchema → Prop) : Prop where
  registered : ∀ type ∈ types, ∀ model schema,
    ModelBuilder.schemaFor model type = .ok schema → P schema
  ignoring : ∀ schema property, P schema → P (schema.ignoring property)

def GraphModel.Each (P : ElementSchema → Prop) (model : GraphModel) : Prop :=
  ∀ schema ∈ model.schemas, P schema

namespace SchemaInvariant

variable {types : List ElementType} {P : ElementSchema → Prop} {type : ElementType}
  {builder builder' : ModelBuilder} {label : LabelDescriptor} {model model' : GraphModel}

theorem register (h : SchemaInvariant types P) (htype : type ∈ types) (hbuilder : builder.model.Each P)
    (hregister : builder.register type = .ok (label, builder')) : builder'.model.Each P := by
  unfold ModelBuilder.register at hregister
  split at hregister
  · cases hregister
    exact hbuilder
  · obtain ⟨schema, hschema, hregister⟩ := exists_of_bind_eq_ok hregister
    cases hregister
    intro schema' hschema'
    rcases List.mem_append.mp hschema' with hold | hnew
    · exact hbuilder schema' hold
    · cases List.mem_singleton.mp hnew
      exact h.registered type htype _ schema hschema

theorem registerAs (h : SchemaInvariant types P) {kind : ElementKind} (htype : type ∈ types)
    (hbuilder : builder.model.Each P) (hregister : builder.registerAs type kind = .ok (label, builder')) :
    builder'.model.Each P := by
  unfold ModelBuilder.registerAs at hregister
  split at hregister
  · cases hregister
  · exact h.register htype hbuilder hregister

theorem registerAll (h : SchemaInvariant types P) {registered : List ElementType} (kind : ElementKind)
    (hsubset : registered ⊆ types) (hbuilder : builder.model.Each P) :
    (ModelBuilder.registerAll kind builder registered).2.model.Each P := by
  induction registered generalizing builder with
  | nil => exact hbuilder
  | cons type rest ih =>
      obtain ⟨htype, hrest⟩ := List.cons_subset.mp hsubset
      rw [ModelBuilder.registerAll]
      split
      · exact hbuilder
      · exact ih hrest (h.registerAs htype hbuilder ‹_›)

theorem fromBaseTypes (h : SchemaInvariant types P) {vertices edges : List ElementType}
    (hvertices : vertices ⊆ types) (hedges : edges ⊆ types) (hbuilder : builder.model.Each P) :
    (builder.fromBaseTypes vertices edges).2.model.Each P := by
  have hregistered := h.registerAll .vertex hvertices hbuilder
  unfold ModelBuilder.fromBaseTypes
  split
  · rename_i heq
    rwa [heq] at hregistered
  · rename_i heq
    rw [heq] at hregistered
    exact h.registerAll .edge hedges hregistered

theorem perform (h : SchemaInvariant types P) {registration : Registration}
    (hsubset : registration.types ⊆ types) (hbuilder : builder.model.Each P) :
    (builder.perform registration).model.Each P := by
  cases registration with
  | register type =>
      rw [ModelBuilder.perform]
      split
      · exact h.register (hsubset List.mem_cons_self) hbuilder ‹_›
      · exact hbuilder
  | registerAs type kind =>
      rw [ModelBuilder.perform]
      split
      · exact h.registerAs (hsubset List.mem_cons_self) hbuilder ‹_›
      · exact hbuilder
  | fromBaseTypes vertices edges =>
      obtain ⟨hvertices, hedges⟩ := List.append_subset.mp hsubset
      exact h.fromBaseTypes hvertices hedges hbuilder
  | ignoreOnUpdate type property => exact hbuilder

theorem after (h : SchemaInvariant types P) {registrations : List Registration}
    (hsubset : registrations.flatMap Registration.types ⊆ types) :
    (ModelBuilder.after registrations).model.Each P := by
  induction registrations using List.reverseRecOn with
  | nil => exact fun _ h => nomatch h
  | append_singleton earlier registration ih =>
      rw [List.flatMap_append, List.flatMap_singleton] at hsubset
      obtain ⟨hearlier, hregistration⟩ := List.append_subset.mp hsubset
      rw [ModelBuilder.after, List.foldl_append]
      exact h.perform hregistration (ih hearlier)

theorem applyIgnore (h : SchemaInvariant types P) {typeName property : String} (hmodel : model.Each P)
    (happly : ModelBuilder.applyIgnore model typeName property = .ok model') : model'.Each P := by
  unfold ModelBuilder.applyIgnore at happly
  split at happly
  · cases happly
  · split at happly
    · cases happly
      intro schema hschema
      obtain ⟨earlier, hearlier, rfl⟩ := List.mem_map.mp hschema
      split
      · exact h.ignoring earlier property (hmodel earlier hearlier)
      · exact hmodel earlier hearlier
    · cases happly

theorem build (h : SchemaInvariant types P) (hbuilder : builder.model.Each P)
    (hbuild : builder.build = .ok model) : model.Each P := by
  obtain ⟨start, ignored⟩ := builder
  change ignored.foldlM _ start = _ at hbuild
  induction ignored generalizing start with
  | nil =>
      cases hbuild
      exact hbuilder
  | cons ignore rest ih =>
      rw [List.foldlM_cons] at hbuild
      obtain ⟨next, hnext, hbuild⟩ := exists_of_bind_eq_ok hbuild
      exact ih next (h.applyIgnore hbuilder hnext) hbuild

end SchemaInvariant

/-- A schema is that of a type: it has its label, and its properties in order of declaration, whose names
are distinct and not reserved. -/
structure ElementSchema.Describes (schema : ElementSchema) (type : ElementType) : Prop where
  label : schema.label = .ofType type
  names : schema.properties.map (·.name) = type.properties
  nodup : type.properties.Nodup
  unreserved : ∀ name ∈ type.properties, ModelBuilder.isReserved name = false

/-- The schema of a type as it declares itself: no property is left out of updates. -/
def ElementSchema.declaredBy (type : ElementType) : ElementSchema :=
  ⟨.ofType type, type.properties.map fun name => ⟨name, false⟩⟩

/-- What is asked of a type that is registered. -/
structure ElementType.Admissible (type : ElementType) : Prop where
  label_not_blank : Text.isAllBlank type.label = false
  label_unreserved : ModelBuilder.isReserved type.label = false
  nodup : type.properties.Nodup
  unreserved : ∀ name ∈ type.properties, ModelBuilder.isReserved name = false

section Describing

variable {type : ElementType} {schema : ElementSchema}

theorem names_declaredBy (type : ElementType) :
    (ElementSchema.declaredBy type).properties.map (·.name) = type.properties := by
  rw [ElementSchema.declaredBy, List.map_map]
  exact List.map_id' type.properties

theorem describe_eq_ok_iff {typeName : String} {names : List String}
    {described descriptors : List PropertyDescriptor} (hdescribed : (described.map (·.name)).Nodup) :
    ModelBuilder.describe typeName names described = .ok descriptors ↔
      descriptors = described ++ names.map (fun name => ⟨name, false⟩) ∧
        (described.map (·.name) ++ names).Nodup ∧
        ∀ name ∈ names, ModelBuilder.isReserved name = false := by
  induction names generalizing described with
  | nil =>
      rw [ModelBuilder.describe, List.map_nil, List.append_nil, List.append_nil, Except.ok.injEq, eq_comm]
      exact ⟨fun heq => ⟨heq, hdescribed, List.forall_mem_nil _⟩, And.left⟩
  | cons name rest ih =>
      rw [ModelBuilder.describe]
      by_cases hreserved : ModelBuilder.isReserved name = true
      · rw [if_pos hreserved]
        refine ⟨fun h => (nomatch h), fun ⟨_, _, hunreserved⟩ => ?_⟩
        rw [hunreserved name List.mem_cons_self] at hreserved
        cases hreserved
      by_cases hrepeated : described.any (·.name == name) = true
      · rw [if_neg hreserved, if_pos hrepeated]
        refine ⟨fun h => (nomatch h), fun ⟨_, hnodup, _⟩ => ?_⟩
        have hmem : name ∈ described.map (·.name) := by simpa using hrepeated
        exact absurd rfl ((List.nodup_append.mp hnodup).2.2 name hmem name List.mem_cons_self)
      · have hfresh : name ∉ described.map (·.name) := by simpa using hrepeated
        have hmap : (described ++ [(⟨name, false⟩ : PropertyDescriptor)]).map (·.name)
            = described.map (·.name) ++ [name] := List.map_append ..
        have hextended : ((described ++ [(⟨name, false⟩ : PropertyDescriptor)]).map (·.name)).Nodup := by
          rw [hmap, ← List.concat_eq_append]
          exact List.Nodup.concat hfresh hdescribed
        rw [if_neg hreserved, if_neg hrepeated, ih hextended, hmap, List.append_assoc, List.append_assoc,
          List.forall_mem_cons, and_iff_right (eq_false_of_ne_true hreserved)]
        rfl

theorem schemaFor_eq_ok_iff {model : GraphModel} :
    ModelBuilder.schemaFor model type = .ok schema ↔
      schema = .declaredBy type ∧ type.Admissible ∧ model.schemaForLabel? type.label = none := by
  have hdescribe {descriptors : List PropertyDescriptor} :
      ModelBuilder.describe type.name type.properties [] = .ok descriptors ↔
        descriptors = type.properties.map (fun name => ⟨name, false⟩) ∧
          type.properties.Nodup ∧ ∀ name ∈ type.properties, ModelBuilder.isReserved name = false :=
    describe_eq_ok_iff List.nodup_nil
  constructor
  · intro h
    unfold ModelBuilder.schemaFor at h
    dsimp only at h
    split at h
    · cases h
    · rename_i hblank
      split at h
      · cases h
      · rename_i hreserved
        split at h
        · cases h
        · rename_i htaken
          obtain ⟨descriptors, hdescriptors, h⟩ := exists_of_bind_eq_ok h
          cases h
          obtain ⟨rfl, hnodup, hunreserved⟩ := hdescribe.mp hdescriptors
          exact ⟨rfl, ⟨eq_false_of_ne_true hblank, eq_false_of_ne_true hreserved, hnodup, hunreserved⟩,
            Option.eq_none_iff_forall_ne_some.mpr htaken⟩
  · rintro ⟨rfl, ⟨hblank, hreserved, hnodup, hunreserved⟩, hlabel⟩
    unfold ModelBuilder.schemaFor
    rw [hblank, hreserved, hlabel, hdescribe.mpr ⟨rfl, hnodup, hunreserved⟩]
    rfl

theorem ElementType.Admissible.describes (h : type.Admissible) :
    (ElementSchema.declaredBy type).Describes type :=
  ⟨rfl, names_declaredBy type, h.nodup, h.unreserved⟩

theorem describes_of_schemaFor {model : GraphModel}
    (h : ModelBuilder.schemaFor model type = .ok schema) : schema.Describes type := by
  obtain ⟨rfl, hadmissible, -⟩ := schemaFor_eq_ok_iff.mp h
  exact hadmissible.describes

theorem ElementSchema.Describes.ignoring (h : schema.Describes type) (property : String) :
    (schema.ignoring property).Describes type where
  label := h.label
  names := by
    have hname : ∀ p : PropertyDescriptor,
        (if p.name == property then { p with ignoreOnUpdate := true } else p).name = p.name := by
      intro p
      split <;> rfl
    rw [ElementSchema.ignoring, List.map_map]
    exact (List.map_congr_left fun p _ => hname p).trans h.names
  nodup := h.nodup
  unreserved := h.unreserved

/-- Each schema of a model is that of a type that has been registered. -/
theorem describesInvariant (types : List ElementType) :
    SchemaInvariant types fun schema => ∃ type ∈ types, schema.Describes type where
  registered type htype _ _ hschema := ⟨type, htype, describes_of_schemaFor hschema⟩
  ignoring _ property := fun ⟨type, htype, hdescribes⟩ =>
    ⟨type, htype, hdescribes.ignoring property⟩

end Describing

/-- The schemas of a model are those of types. -/
def GraphModel.IsOf (types : List ElementType) (model : GraphModel) : Prop :=
  ∀ schema ∈ model.schemas, ∃ type ∈ types, schema.label = .ofType type

theorem labelInvariant (types : List ElementType) :
    SchemaInvariant types fun schema => ∃ type ∈ types, schema.label = .ofType type where
  registered type htype _ _ hschema := ⟨type, htype, (describes_of_schemaFor hschema).label⟩
  ignoring _ _ h := h

theorem GraphModel.IsOf.after {types : List ElementType} {registrations : List Registration}
    (hsubset : registrations.flatMap Registration.types ⊆ types) :
    (ModelBuilder.after registrations).model.IsOf types := (labelInvariant types).after hsubset

theorem GraphModel.IsOf.build {types : List ElementType} {builder : ModelBuilder} {model : GraphModel}
    (h : builder.model.IsOf types) (hbuild : builder.build = .ok model) : model.IsOf types :=
  (labelInvariant types).build h hbuild

/-- Types of the same name have the same label and kind. -/
def NamesIdentify (types : List ElementType) : Prop :=
  ∀ a ∈ types, ∀ b ∈ types, a.name = b.name → LabelDescriptor.ofType a = .ofType b

instance (types : List ElementType) : Decidable (NamesIdentify types) :=
  inferInstanceAs (Decidable (∀ a ∈ types, ∀ b ∈ types, _ → _))

/-- The labels that a model has for types are their own. -/
def GraphModel.Labels (model : GraphModel) (types : List ElementType) : Prop :=
  ∀ type ∈ types, ∀ label, model.labelOf type = .ok label → label = .ofType type

theorem GraphModel.IsOf.labels {types : List ElementType} {model : GraphModel}
    (hmodel : model.IsOf types) (hnames : NamesIdentify types) : model.Labels types := by
  intro type htype label h
  obtain ⟨schema, hschema, rfl⟩ := exists_of_map_eq_ok h
  unfold GraphModel.schemaOf at hschema
  split at hschema
  · rename_i heq
    cases hschema
    have hname : schema.label.typeName = type.name := by simpa using List.find?_some heq
    obtain ⟨registered, hregistered, hlabel⟩ := hmodel schema (List.mem_of_find?_eq_some heq)
    rw [hlabel] at hname ⊢
    exact hnames registered hregistered type htype hname
  · cases hschema

theorem GraphModel.Labels.of_subset {types fewer : List ElementType} {model : GraphModel}
    (h : model.Labels types) (hsubset : fewer ⊆ types) : model.Labels fewer :=
  fun type htype => h type (hsubset htype)

/-- Types of the same name are declared alike: they have the same label, kind and properties. -/
def NamesDeclare (types : List ElementType) : Prop :=
  ∀ a ∈ types, ∀ b ∈ types, a.name = b.name →
    LabelDescriptor.ofType a = .ofType b ∧ a.properties = b.properties

instance (types : List ElementType) : Decidable (NamesDeclare types) :=
  inferInstanceAs (Decidable (∀ a ∈ types, ∀ b ∈ types, _ → _))

theorem ElementSchema.Describes.of_declared {schema : ElementSchema} {a b : ElementType}
    (h : schema.Describes a) (hlabel : LabelDescriptor.ofType a = .ofType b)
    (hproperties : a.properties = b.properties) : schema.Describes b where
  label := h.label.trans hlabel
  names := h.names.trans hproperties
  nodup := hproperties ▸ h.nodup
  unreserved := hproperties ▸ h.unreserved

/-- What a complete model knows about a registered type is what the type declares. -/
theorem exists_describes {registrations : List Registration} {model : GraphModel} {type : ElementType}
    (hmodel : (ModelBuilder.after registrations).build = .ok model)
    (hnames : NamesDeclare (type :: registrations.flatMap Registration.types))
    (hcontains : model.contains type = true) :
    ∃ schema, model.schemaOf type = .ok schema ∧ schema.Describes type := by
  have hinvariant := describesInvariant (registrations.flatMap Registration.types)
  obtain ⟨schema, hschema⟩ := Option.isSome_iff_exists.mp hcontains
  have hname : schema.label.typeName = type.name := by simpa using List.find?_some hschema
  obtain ⟨registered, hregistered, hdescribes⟩ :=
    hinvariant.build (hinvariant.after fun _ h => h) hmodel schema (List.mem_of_find?_eq_some hschema)
  rw [hdescribes.label] at hname
  obtain ⟨hlabel, hproperties⟩ := hnames registered (List.mem_cons_of_mem type hregistered) type
    List.mem_cons_self hname
  refine ⟨schema, ?_, hdescribes.of_declared hlabel hproperties⟩
  rw [GraphModel.schemaOf, hschema]

end PropertyGraph
