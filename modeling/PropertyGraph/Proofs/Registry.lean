import PropertyGraph.Proofs.Completion
import PropertyGraph.Proofs.Ensures
import PropertyGraph.Proofs.Indexes

/-!
# A registry with indexes

A builder of models finds a type by looking through all that have been registered. The registry here keeps
two indexes besides, the place of each type by its name and by its label, and changes all three one after
the other. It behaves as the builder does: whatever is asked of both, they give the same answers and hold the
same types. What makes this so is that after every call, also one that fails, each index leads to each
registered type and to nothing else.
-/

namespace PropertyGraph

/-- Registered types in order of registration, the place of each by its name and by its label, and the
properties to be left out of updates. -/
structure Registry where
  entries : List ElementSchema
  byType : List (String × Nat)
  byLabel : List (String × Nat)
  ignored : List (String × String)

/-- What is asked of a registry. What it has changed before it fails stays changed. -/
abbrev Registering := ExceptT SchemaError (StateM Registry)

namespace Registry

def empty : Registry := ⟨[], [], [], []⟩

def entryOf? (registry : Registry) (typeName : String) : Option ElementSchema :=
  (registry.byType.lookup typeName).bind (registry.entries[·]?)

def entryForLabel? (registry : Registry) (label : String) : Option ElementSchema :=
  (registry.byLabel.lookup label).bind (registry.entries[·]?)

/-- The schema of a type that is not registered yet. -/
def schemaFor (registry : Registry) (type : ElementType) : Except SchemaError ElementSchema :=
  if Text.isAllBlank type.label then .error (.emptyLabel type.name)
  else if ModelBuilder.isReserved type.label then .error (.reservedName type.name type.label)
  else match registry.entryForLabel? type.label with
    | some schema => .error (.duplicateLabel type.label schema.label.typeName type.name)
    | none => (ModelBuilder.describe type.name type.properties []).map (⟨.ofType type, ·⟩)

/-- Registers a type. A new one gets the next place, in both indexes before it is there. -/
def register (type : ElementType) : Registering LabelDescriptor := do
  let registry ← get
  match registry.entryOf? type.name with
  | some schema => return schema.label
  | none => do
    let schema ← MonadExcept.ofExcept (registry.schemaFor type)
    let place := registry.entries.length
    modify fun registry => { registry with byType := (type.name, place) :: registry.byType }
    modify fun registry => { registry with byLabel := (type.label, place) :: registry.byLabel }
    modify fun registry => { registry with entries := registry.entries ++ [schema] }
    return schema.label

def registerAs (type : ElementType) (kind : ElementKind) : Registering LabelDescriptor :=
  if type.kind ≠ kind then throw (.unrecognizedKind type.name kind.text type.kind.text)
  else register type

def fromBaseTypes (vertices edges : List ElementType) : Registering (List LabelDescriptor) := do
  let labels ← vertices.mapM (registerAs · .vertex)
  let more ← edges.mapM (registerAs · .edge)
  return labels ++ more

/-- A registration, with the labels that it answers. -/
def perform : Registration → Registering (List LabelDescriptor)
  | .register type => return [← register type]
  | .registerAs type kind => return [← registerAs type kind]
  | .fromBaseTypes vertices edges => fromBaseTypes vertices edges
  | .ignoreOnUpdate type property => do
    modify fun registry => { registry with ignored := registry.ignored ++ [(type.name, property)] }
    return []

/-- The registry after registrations, whether they fail or not. -/
def after (registrations : List Registration) : Registry :=
  registrations.foldl
    (fun registry registration =>
      ((perform registration).run registry : Except SchemaError (List LabelDescriptor) × Registry).2)
    empty

/-- The properties with the first of a name marked. -/
def markFirst (property : String) : List PropertyDescriptor → Option (List PropertyDescriptor)
  | [] => none
  | p :: rest =>
    if p.name == property then some ({ p with ignoreOnUpdate := true } :: rest)
    else (markFirst property rest).map (p :: ·)

/-- Marks a property in the place of its type. -/
def applyIgnore (registry : Registry) (typeName property : String) : Except SchemaError Registry :=
  match registry.byType.lookup typeName with
  | none => .error (.notRegistered typeName)
  | some place =>
    match registry.entries[place]?.bind fun schema =>
      (markFirst property schema.properties).map fun properties => { schema with properties } with
    | none => .error (.unknownPropertyConfig typeName property)
    | some schema => .ok { registry with entries := registry.entries.set place schema }

/-- Marks all properties that are to be left out of updates, in turn. -/
def build (registry : Registry) : Except SchemaError Registry :=
  registry.ignored.foldlM
    (fun registry (typeName, property) => registry.applyIgnore typeName property)
    { registry with ignored := [] }

/-- The builder that holds the same types. -/
def builder (registry : Registry) : ModelBuilder := ⟨⟨registry.entries⟩, registry.ignored⟩

/-- The registry with a new type, and its place in both indexes. -/
def push (registry : Registry) (type : ElementType) : Registry :=
  { registry with
    entries := registry.entries ++ [.declaredBy type]
    byType := (type.name, registry.entries.length) :: registry.byType
    byLabel := (type.label, registry.entries.length) :: registry.byLabel }

/-- The registry with a type, which is added unless it is there. -/
def enrol (registry : Registry) (type : ElementType) : Registry :=
  if (registry.entryOf? type.name).isSome then registry else registry.push type

end Registry

/-- What holds of the types of a registry and of its indexes, after registrations of the given types. -/
structure Registry.Consistent (registry : Registry) (types : List ElementType) : Prop where
  /-- Each entry is a type as it declares itself, with a label and properties that are admissible. -/
  declared : ∀ schema ∈ registry.entries, ∃ type ∈ types, schema = .declaredBy type ∧ type.Admissible
  byType : Indexes registry.byType (·.label.typeName) registry.entries
  byLabel : Indexes registry.byLabel (·.label.label) registry.entries

/-- What a builder answers to a registration. -/
def ModelBuilder.answer (builder : ModelBuilder) :
    Registration → Except SchemaError (List LabelDescriptor)
  | .register type => (builder.register type).map fun answer => [answer.1]
  | .registerAs type kind => (builder.registerAs type kind).map fun answer => [answer.1]
  | .fromBaseTypes vertices edges => (builder.fromBaseTypes vertices edges).1
  | .ignoreOnUpdate _ _ => .ok []

namespace Registry

variable {registry : Registry} {types : List ElementType} {type : ElementType} {kind : ElementKind}

theorem consistent_empty (types : List ElementType) : empty.Consistent types :=
  ⟨List.forall_mem_nil _, .nil _, .nil _⟩

namespace Consistent

theorem entryOf?_eq (h : registry.Consistent types) (typeName : String) :
    registry.entryOf? typeName = registry.builder.model.schemaOf? typeName := h.byType.find?_eq typeName

theorem entryForLabel?_eq (h : registry.Consistent types) (label : String) :
    registry.entryForLabel? label = registry.builder.model.schemaForLabel? label :=
  h.byLabel.find?_eq label

theorem entryOf?_eq_none_iff (h : registry.Consistent types) {typeName : String} :
    registry.entryOf? typeName = none ↔ typeName ∉ registry.entries.map (·.label.typeName) :=
  h.byType.bind_eq_none_iff

theorem entryForLabel?_eq_none_iff (h : registry.Consistent types) {label : String} :
    registry.entryForLabel? label = none ↔ label ∉ registry.entries.map (·.label.label) :=
  h.byLabel.bind_eq_none_iff

theorem schemaFor_eq (h : registry.Consistent types) (type : ElementType) :
    registry.schemaFor type = ModelBuilder.schemaFor registry.builder.model type := by
  rw [schemaFor, h.entryForLabel?_eq, ModelBuilder.schemaFor]
  cases Text.isAllBlank type.label with
  | true => rfl
  | false =>
      cases ModelBuilder.isReserved type.label with
      | true => rfl
      | false =>
          cases registry.builder.model.schemaForLabel? type.label with
          | some schema => rfl
          | none => cases ModelBuilder.describe type.name type.properties [] <;> rfl

theorem push (h : registry.Consistent types) (htype : type ∈ types) (hadmissible : type.Admissible)
    (hname : registry.entryOf? type.name = none) (hlabel : registry.entryForLabel? type.label = none) :
    (registry.push type).Consistent types where
  declared schema hschema := by
    rcases List.mem_append.mp hschema with hold | hnew
    · exact h.declared schema hold
    · cases List.mem_singleton.mp hnew
      exact ⟨type, htype, rfl, hadmissible⟩
  byType := by
    have hfresh : (ElementSchema.declaredBy type).label.typeName
        ∉ registry.entries.map (·.label.typeName) := h.entryOf?_eq_none_iff.mp hname
    exact h.byType.push hfresh
  byLabel := by
    have hfresh : (ElementSchema.declaredBy type).label.label
        ∉ registry.entries.map (·.label.label) := h.entryForLabel?_eq_none_iff.mp hlabel
    exact h.byLabel.push hfresh

theorem entryOf?_eq_some_iff (h : registry.Consistent types) {typeName : String}
    {schema : ElementSchema} : registry.entryOf? typeName = some schema
      ↔ schema ∈ registry.entries ∧ schema.label.typeName = typeName := h.byType.bind_eq_some_iff

end Consistent

/-! ### What a registration does

Registering a type has three outcomes. They are told once, by `Registers`; the consistency of the indexes and
the agreement with the builder of models are read off them. -/

/-- What may come of registering a type: it is there already, or it is refused, or it is added. -/
inductive Registers (registry : Registry) (type : ElementType) :
    Except SchemaError LabelDescriptor → Registry → Prop
  | again {schema : ElementSchema} (hschema : registry.entryOf? type.name = some schema) :
      Registers registry type (.ok schema.label) registry
  | refused {e : SchemaError} (hnew : registry.entryOf? type.name = none)
      (hrefused : registry.schemaFor type = .error e) : Registers registry type (.error e) registry
  | added (hnew : registry.entryOf? type.name = none)
      (hadded : registry.schemaFor type = .ok (.declaredBy type)) :
      Registers registry type (.ok (.ofType type)) (registry.push type)

theorem run_register (registry : Registry) (type : ElementType) :
    (register type).run registry = match registry.entryOf? type.name with
      | some schema => (.ok schema.label, registry)
      | none => match registry.schemaFor type with
        | .error e => (.error e, registry)
        | .ok schema => (.ok schema.label,
          { registry with
            entries := registry.entries ++ [schema]
            byType := (type.name, registry.entries.length) :: registry.byType
            byLabel := (type.label, registry.entries.length) :: registry.byLabel }) := by
  have hget : (get : Registering Registry).run registry = (.ok registry, registry) := rfl
  rw [register, run_bind_of_ok hget]
  cases registry.entryOf? type.name with
  | some schema => rfl
  | none => cases registry.schemaFor type <;> rfl

namespace Consistent

theorem schemaFor_eq_ok_iff (h : registry.Consistent types) {schema : ElementSchema} :
    registry.schemaFor type = .ok schema ↔ schema = .declaredBy type ∧ type.Admissible ∧
      type.label ∉ registry.entries.map (·.label.label) := by
  rw [h.schemaFor_eq, PropertyGraph.schemaFor_eq_ok_iff, ← h.entryForLabel?_eq,
    h.entryForLabel?_eq_none_iff]

theorem registers (h : registry.Consistent types) (type : ElementType) :
    ∃ answer next, (register type).run registry = (answer, next) ∧ Registers registry type answer next := by
  rw [run_register]
  cases hentry : registry.entryOf? type.name with
  | some schema => exact ⟨_, _, rfl, .again hentry⟩
  | none =>
      cases hschema : registry.schemaFor type with
      | error e => exact ⟨_, _, rfl, .refused hentry hschema⟩
      | ok schema =>
          obtain ⟨rfl, -⟩ := h.schemaFor_eq_ok_iff.mp hschema
          exact ⟨_, _, rfl, .added hentry hschema⟩

end Consistent

namespace Registers

/-- A refusal changes nothing. -/
theorem eq_of_error {e : SchemaError} {next : Registry}
    (h : Registers registry type (.error e) next) : next = registry := by
  cases h
  rfl

theorem eq_enrol {label : LabelDescriptor} {next : Registry}
    (h : Registers registry type (.ok label) next) : next = registry.enrol type := by
  cases h with
  | again hschema =>
      rw [enrol, hschema]
      rfl
  | added hnew _ =>
      rw [enrol, hnew]
      rfl

theorem consistent {answer : Except SchemaError LabelDescriptor} {next : Registry}
    (hregisters : Registers registry type answer next) (h : registry.Consistent types)
    (htype : type ∈ types) : next.Consistent types := by
  cases hregisters with
  | again _ => exact h
  | refused _ _ => exact h
  | added hnew hadded =>
      obtain ⟨-, hadmissible, hlabel⟩ := h.schemaFor_eq_ok_iff.mp hadded
      exact h.push htype hadmissible hnew (h.entryForLabel?_eq_none_iff.mpr hlabel)

end Registers

theorem map_map_fst {ε α β : Type} (m : Except ε (α × β)) :
    (m.map Prod.fst).map ([·]) = m.map fun a => [a.1] := by cases m <;> rfl

theorem registerAll_cons_of_error {builder : ModelBuilder} {rest : List ElementType} {e : SchemaError}
    (h : builder.registerAs type kind = .error e) :
    ModelBuilder.registerAll kind builder (type :: rest) = (.error e, builder) := by
  rw [ModelBuilder.registerAll, h]

theorem registerAll_cons_of_ok {builder next : ModelBuilder} {rest : List ElementType}
    {label : LabelDescriptor} (h : builder.registerAs type kind = .ok (label, next)) :
    ModelBuilder.registerAll kind builder (type :: rest)
      = ((ModelBuilder.registerAll kind next rest).1.map (label :: ·),
        (ModelBuilder.registerAll kind next rest).2) := by
  rw [ModelBuilder.registerAll, h]

/-- A registry does what a builder does: it gives the same answer and holds the same types afterwards, and
its indexes are right. -/
def Follows {α : Type} (types : List ElementType) (m : Registering α) (registry : Registry)
    (answer : Except SchemaError α) (builder : ModelBuilder) : Prop :=
  ∃ next, m.run registry = (answer, next) ∧ next.builder = builder ∧ next.Consistent types

namespace Follows

variable {α β : Type} {m : Registering α} {answer : Except SchemaError α} {builder : ModelBuilder}

theorem pure (h : registry.Consistent types) (a : α) :
    Follows types (Pure.pure a) registry (.ok a) registry.builder := ⟨registry, rfl, rfl, h⟩

theorem bind_of_error {f : α → Registering β} {e : SchemaError}
    (h : Follows types m registry (.error e) builder) :
    Follows types (m >>= f) registry (.error e) builder := by
  obtain ⟨next, hrun, hnext⟩ := h
  exact ⟨next, run_bind_of_error hrun, hnext⟩

theorem bind_of_ok {f : α → Registering β} {a : α} {answer : Except SchemaError β}
    {builder' : ModelBuilder} (h : Follows types m registry (.ok a) builder)
    (hf : ∀ next : Registry, next.builder = builder → next.Consistent types →
      Follows types (f a) next answer builder') : Follows types (m >>= f) registry answer builder' := by
  obtain ⟨next, hrun, hbuilder, hnext⟩ := h
  obtain ⟨last, hlast, hconsistent⟩ := hf next hbuilder hnext
  exact ⟨last, (run_bind_of_ok hrun).trans hlast, hconsistent⟩

theorem map (h : Follows types m registry answer builder) (f : α → β) :
    Follows types (m >>= fun a => Pure.pure (f a)) registry (answer.map f) builder := by
  cases answer with
  | error e => exact h.bind_of_error
  | ok a =>
      refine h.bind_of_ok fun next hbuilder hnext => ?_
      rw [← hbuilder]
      exact .pure hnext (f a)

end Follows

namespace Consistent

theorem register (h : registry.Consistent types) (htype : type ∈ types) :
    Follows types (Registry.register type) registry ((registry.builder.register type).map Prod.fst)
      (registry.builder.perform (.register type)) := by
  obtain ⟨answer, next, hrun, hregisters⟩ := h.registers type
  have hnext := hregisters.consistent h htype
  refine ⟨next, ?_⟩
  rw [hrun, ModelBuilder.perform, ModelBuilder.register, ← h.entryOf?_eq]
  cases hregisters with
  | again hschema =>
      rw [hschema]
      exact ⟨rfl, rfl, hnext⟩
  | refused hnew hrefused =>
      rw [hnew, ← h.schemaFor_eq, hrefused]
      exact ⟨rfl, rfl, hnext⟩
  | added hnew hadded =>
      rw [hnew, ← h.schemaFor_eq, hadded]
      exact ⟨rfl, rfl, hnext⟩

theorem registerAs (h : registry.Consistent types) (htype : type ∈ types) (kind : ElementKind) :
    Follows types (Registry.registerAs type kind) registry
      ((registry.builder.registerAs type kind).map Prod.fst)
      (registry.builder.perform (.registerAs type kind)) := by
  have hregister := h.register htype
  rw [ModelBuilder.perform] at hregister
  rw [ModelBuilder.perform, Registry.registerAs, ModelBuilder.registerAs]
  split
  · exact ⟨registry, rfl, rfl, h⟩
  · exact hregister

theorem registerAll (kind : ElementKind) {registered : List ElementType} (hsubset : registered ⊆ types) :
    ∀ {registry : Registry}, registry.Consistent types →
      Follows types (registered.mapM (Registry.registerAs · kind)) registry
        (ModelBuilder.registerAll kind registry.builder registered).1
        (ModelBuilder.registerAll kind registry.builder registered).2 := by
  induction registered with
  | nil => exact fun h => .pure h []
  | cons type rest ih =>
      intro registry h
      obtain ⟨htype, hrest⟩ := List.cons_subset.mp hsubset
      have hregister := h.registerAs htype kind
      rw [ModelBuilder.perform] at hregister
      rw [List.mapM_cons]
      cases hanswer : registry.builder.registerAs type kind with
      | error e =>
          rw [hanswer] at hregister
          rw [registerAll_cons_of_error hanswer]
          exact hregister.bind_of_error
      | ok answer =>
          obtain ⟨label, builder⟩ := answer
          rw [hanswer] at hregister
          rw [registerAll_cons_of_ok hanswer]
          refine hregister.bind_of_ok fun next hbuilder hnext => ?_
          cases hbuilder
          exact (ih hrest hnext).map (label :: ·)

theorem fromBaseTypes (h : registry.Consistent types) {vertices edges : List ElementType}
    (hvertices : vertices ⊆ types) (hedges : edges ⊆ types) :
    Follows types (Registry.fromBaseTypes vertices edges) registry
      (registry.builder.fromBaseTypes vertices edges).1
      (registry.builder.fromBaseTypes vertices edges).2 := by
  have hregister := registerAll .vertex hvertices h
  rw [Registry.fromBaseTypes, ModelBuilder.fromBaseTypes]
  rcases hregistered : ModelBuilder.registerAll .vertex registry.builder vertices with ⟨e | labels, builder⟩
  · rw [hregistered] at hregister
    exact hregister.bind_of_error
  · rw [hregistered] at hregister
    refine hregister.bind_of_ok fun next hbuilder hnext => ?_
    cases hbuilder
    exact (registerAll .edge hedges hnext).map (labels ++ ·)

/-- Whatever is asked of a registry and of the builder that holds the same types, both answer alike. -/
theorem perform (h : registry.Consistent types) {registration : Registration}
    (hsubset : registration.types ⊆ types) :
    Follows types (Registry.perform registration) registry (registry.builder.answer registration)
      (registry.builder.perform registration) := by
  cases registration with
  | register type =>
      have hregister := (h.register (hsubset List.mem_cons_self)).map ([·])
      rwa [map_map_fst] at hregister
  | registerAs type kind =>
      have hregister := (h.registerAs (hsubset List.mem_cons_self) kind).map ([·])
      rwa [map_map_fst] at hregister
  | fromBaseTypes vertices edges =>
      obtain ⟨hvertices, hedges⟩ := List.append_subset.mp hsubset
      exact h.fromBaseTypes hvertices hedges
  | ignoreOnUpdate type property => exact ⟨_, rfl, rfl, h.declared, h.byType, h.byLabel⟩

end Consistent

/-- After any registrations a registry is consistent, and holds what a builder holds after them. -/
theorem consistent_after {registrations : List Registration}
    (hsubset : registrations.flatMap Registration.types ⊆ types) :
    (after registrations).Consistent types ∧
      (after registrations).builder = ModelBuilder.after registrations := by
  induction registrations using List.reverseRecOn with
  | nil => exact ⟨consistent_empty types, rfl⟩
  | append_singleton earlier registration ih =>
      rw [List.flatMap_append, List.flatMap_singleton] at hsubset
      obtain ⟨hearlier, hregistration⟩ := List.append_subset.mp hsubset
      obtain ⟨hconsistent, hbuilder⟩ := ih hearlier
      obtain ⟨next, hrun, hnext, hlast⟩ := hconsistent.perform hregistration
      rw [after, List.foldl_append, ModelBuilder.after, List.foldl_append]
      change (((perform registration).run (after earlier) :
          Except SchemaError (List LabelDescriptor) × Registry).2).Consistent types ∧
        (((perform registration).run (after earlier) :
          Except SchemaError (List LabelDescriptor) × Registry).2).builder
          = (ModelBuilder.after earlier).perform registration
      rw [hrun, ← hbuilder]
      exact ⟨hlast, hnext⟩

/-! ### Completion

The registry finds the type of a property through its index and marks the first property of that name; the
builder looks through all types and marks every such property. Names do not repeat, so both do the same. -/

theorem markFirst_eq (property : String) {properties : List PropertyDescriptor}
    (hnodup : (properties.map (·.name)).Nodup) :
    markFirst property properties
      = if properties.any (·.name == property) then
          some (properties.map fun p => if p.name == property then { p with ignoreOnUpdate := true } else p)
        else none := by
  induction properties with
  | nil => rfl
  | cons p rest ih =>
      obtain ⟨hp, hrest⟩ := List.nodup_cons.mp hnodup
      rw [markFirst, List.any_cons, List.map_cons]
      by_cases hname : p.name = property
      · have hothers : ∀ q ∈ rest,
            (if q.name == property then { q with ignoreOnUpdate := true } else q) = q := by
          intro q hq
          have hne : q.name ≠ property := fun heq =>
            hp (List.mem_map.mpr ⟨q, hq, heq.trans hname.symm⟩)
          rw [if_neg (by simpa using hne)]
        rw [List.map_congr_left hothers, List.map_id']
        simp [hname]
      · rw [beq_false_of_ne hname, Bool.false_or, if_neg Bool.false_ne_true, if_neg Bool.false_ne_true,
          ih hrest]
        cases rest.any (·.name == property) <;> rfl

theorem applyIgnore_eq (hindex : Indexes registry.byType (·.label.typeName) registry.entries)
    (hnodup : ∀ schema ∈ registry.entries, (schema.properties.map (·.name)).Nodup)
    (typeName property : String) :
    registry.applyIgnore typeName property
      = (ModelBuilder.applyIgnore ⟨registry.entries⟩ typeName property).map fun model =>
          { registry with entries := model.schemas } := by
  have hfound : (registry.byType.lookup typeName).bind (registry.entries[·]?)
      = GraphModel.schemaOf? ⟨registry.entries⟩ typeName := hindex.find?_eq typeName
  rw [applyIgnore, ModelBuilder.applyIgnore, ← hfound]
  cases hlookup : registry.byType.lookup typeName with
  | none => rfl
  | some place =>
      obtain ⟨schema, hplace, hname⟩ := (hindex typeName place).mp hlookup
      have hmark := markFirst_eq property (hnodup schema (List.mem_of_getElem? hplace))
      dsimp only [Option.bind_some]
      rw [hplace]
      dsimp only [Option.bind_some]
      rw [hmark, ElementSchema.declares]
      cases schema.properties.any (·.name == property) with
      | false => rfl
      | true =>
          have hset := hindex.set_eq_map hplace (·.ignoring property)
          rw [show schema.label.typeName = typeName from hname] at hset
          exact congrArg (fun entries => Except.ok { registry with entries }) hset

theorem foldlM_applyIgnore_eq (ignored : List (String × String)) :
    ∀ {registry : Registry}, Indexes registry.byType (·.label.typeName) registry.entries →
      (∀ schema ∈ registry.entries, (schema.properties.map (·.name)).Nodup) →
      ignored.foldlM (fun registry (typeName, property) => registry.applyIgnore typeName property) registry
        = (ModelBuilder.mk ⟨registry.entries⟩ ignored).build.map fun model =>
            { registry with entries := model.schemas } := by
  induction ignored with
  | nil => exact fun _ _ => rfl
  | cons ignore rest ih =>
      intro registry hindex hnodup
      obtain ⟨typeName, property⟩ := ignore
      rw [List.foldlM_cons, build_cons]
      dsimp only
      rw [applyIgnore_eq hindex hnodup]
      cases hmodel : ModelBuilder.applyIgnore ⟨registry.entries⟩ typeName property with
      | error e => rfl
      | ok model =>
          rw [PropertyGraph.applyIgnore_eq] at hmodel
          obtain ⟨-, rfl⟩ := unlessFault_eq_ok_iff.mp hmodel
          refine ih (hindex.map fun _ => rfl) fun schema hschema => ?_
          obtain ⟨earlier, hearlier, rfl⟩ := List.mem_map.mp hschema
          rw [names_marking]
          exact hnodup earlier hearlier

/-- A registry is completed as a builder is, and the places of its types stay. -/
theorem Consistent.build_eq (h : registry.Consistent types) :
    registry.build = registry.builder.build.map fun model =>
      { registry with entries := model.schemas, ignored := [] } := by
  refine foldlM_applyIgnore_eq registry.ignored h.byType fun schema hschema => ?_
  obtain ⟨type, -, rfl, hadmissible⟩ := h.declared schema hschema
  rw [names_declaredBy]
  exact hadmissible.nodup

/-- The types that a list of vertex types and one of edge types ask for, each with the kind it is listed as. -/
def slots (vertices edges : List ElementType) : List (ElementType × ElementKind) :=
  vertices.map (·, .vertex) ++ edges.map (·, .edge)

def registerEach (slots : List (ElementType × ElementKind)) : Registering (List LabelDescriptor) :=
  slots.mapM fun slot => registerAs slot.1 slot.2

theorem fromBaseTypes_eq (vertices edges : List ElementType) :
    fromBaseTypes vertices edges = registerEach (slots vertices edges) := by
  rw [registerEach, slots, List.mapM_append, List.mapM_map, List.mapM_map]
  rfl

namespace Consistent

theorem mono {more : List ElementType} (h : registry.Consistent types) (hsubset : types ⊆ more) :
    registry.Consistent more where
  declared schema hschema := by
    obtain ⟨type, htype, hdeclared⟩ := h.declared schema hschema
    exact ⟨type, hsubset htype, hdeclared⟩
  byType := h.byType
  byLabel := h.byLabel

theorem ensures_registerAs (h : registry.Consistent types) (htype : type ∈ types) (kind : ElementKind) :
    Ensures (Registry.registerAs type kind) registry
      (fun _ next => next = registry.enrol type ∧ next.Consistent types) fun _ next => next = registry := by
  rw [Registry.registerAs]
  split
  · exact rfl
  · obtain ⟨answer, next, hrun, hregisters⟩ := h.registers type
    rw [Ensures, hrun]
    cases answer with
    | error e => exact hregisters.eq_of_error
    | ok label => exact ⟨hregisters.eq_enrol, hregisters.consistent h htype⟩

theorem ensures_registerEach {slots : List (ElementType × ElementKind)}
    (hsubset : slots.map Prod.fst ⊆ types) : ∀ {registry : Registry}, registry.Consistent types →
      Ensures (registerEach slots) registry
        (fun _ next => next = (slots.map Prod.fst).foldl enrol registry)
        fun e next => ∃ earlier type kind later labels, slots = earlier ++ (type, kind) :: later ∧
          (registerEach earlier).run registry = (.ok labels, next) ∧
          next = (earlier.map Prod.fst).foldl enrol registry ∧
          (Registry.registerAs type kind).run next = (.error e, next) := by
  induction slots with
  | nil => exact fun _ => .pure rfl
  | cons slot rest ih =>
      intro registry h
      obtain ⟨type, kind⟩ := slot
      obtain ⟨htype, hrest⟩ := List.cons_subset.mp hsubset
      rw [registerEach, List.mapM_cons]
      refine Ensures.bind (((h.ensures_registerAs htype kind).and .run).mono ?_ ?_)
      · rintro label _ ⟨⟨rfl, hnext⟩, hfirst⟩
        refine Ensures.bind ((ih hrest hnext).mono (fun _ _ hlast => .pure hlast) ?_)
        rintro e next ⟨earlier, type', kind', later, labels, rfl, hearlier, hnext, hrefused⟩
        refine ⟨(type, kind) :: earlier, type', kind', later, label :: labels, rfl, ?_, hnext, hrefused⟩
        rw [registerEach, List.mapM_cons, run_bind_of_ok hfirst]
        exact run_bind_of_ok hearlier
      · rintro e _ ⟨rfl, hrefused⟩
        exact ⟨[], type, kind, rest, [], rfl, rfl, rfl, hrefused⟩

theorem run_register_of_added (h : registry.Consistent types)
    (hnew : type.name ∉ registry.entries.map (·.label.typeName)) (hadmissible : type.Admissible)
    (hfree : type.label ∉ registry.entries.map (·.label.label)) :
    (Registry.register type).run registry = (.ok (.ofType type), registry.push type) := by
  rw [run_register, h.entryOf?_eq_none_iff.mpr hnew, h.schemaFor_eq_ok_iff.mpr ⟨rfl, hadmissible, hfree⟩]
  rfl

theorem exists_run_register_eq_error (h : registry.Consistent types)
    (hnew : type.name ∉ registry.entries.map (·.label.typeName))
    (hunfit : ¬(type.Admissible ∧ type.label ∉ registry.entries.map (·.label.label))) :
    ∃ e, (Registry.register type).run registry = (.error e, registry) := by
  rw [run_register, h.entryOf?_eq_none_iff.mpr hnew]
  cases hschema : registry.schemaFor type with
  | error e => exact ⟨e, rfl⟩
  | ok schema => exact absurd (h.schemaFor_eq_ok_iff.mp hschema).2 hunfit

end Consistent

/-- What one more registration does. -/
structure Steady (registry : Registry) : Prop where
  /-- A type that is there keeps its registration. -/
  again : ∀ schema ∈ registry.entries, ∀ type : ElementType, type.name = schema.label.typeName →
    (register type).run registry = (.ok schema.label, registry)
  /-- A new type goes behind the others if it is admissible and its label is free. -/
  added : ∀ type : ElementType, type.name ∉ registry.entries.map (·.label.typeName) →
    type.Admissible → type.label ∉ registry.entries.map (·.label.label) →
    (register type).run registry = (.ok (.ofType type), registry.push type)
  /-- Any other new type is refused. -/
  refused : ∀ type : ElementType, type.name ∉ registry.entries.map (·.label.typeName) →
    ¬(type.Admissible ∧ type.label ∉ registry.entries.map (·.label.label)) →
    ∃ e, (register type).run registry = (.error e, registry)
  /-- A type that has to be of a kind is refused if it is not, and registered as any other if it is. -/
  kinds : ∀ (type : ElementType) (kind : ElementKind), (registerAs type kind).run registry
    = if type.kind ≠ kind then
        (.error (.unrecognizedKind type.name kind.text type.kind.text), registry)
      else (register type).run registry
  /-- A single registration that fails changes nothing. -/
  failed : ∀ (type : ElementType) (kind : ElementKind) (e : SchemaError) (next : Registry),
    (register type).run registry = (.error e, next) ∨ (registerAs type kind).run registry = (.error e, next) →
    next = registry
  /-- Several types are all registered, -/
  all : ∀ (vertices edges : List ElementType) (labels : List LabelDescriptor) (next : Registry),
    (fromBaseTypes vertices edges).run registry = (.ok labels, next) →
    next = (vertices ++ edges).foldl enrol registry
  /-- or those before the first that is refused. -/
  before : ∀ (vertices edges : List ElementType) (e : SchemaError) (next : Registry),
    (fromBaseTypes vertices edges).run registry = (.error e, next) →
    ∃ earlier type kind later labels, slots vertices edges = earlier ++ (type, kind) :: later ∧
      (registerEach earlier).run registry = (.ok labels, next) ∧
      next = (earlier.map Prod.fst).foldl enrol registry ∧
      (registerAs type kind).run next = (.error e, next)

theorem Steady.of_consistent (h : registry.Consistent types) : registry.Steady where
  again schema hschema type hname := by
    rw [run_register, h.entryOf?_eq_some_iff.mpr ⟨hschema, hname.symm⟩]
  added type hnew hadmissible hfree := h.run_register_of_added hnew hadmissible hfree
  refused type hnew hunfit := h.exists_run_register_eq_error hnew hunfit
  kinds type kind := by
    rw [registerAs]
    split <;> rfl
  failed type kind e next hfailed := by
    have hconsistent := h.mono (List.subset_cons_self type types)
    have hfails : (registerAs type type.kind).run registry = (.error e, next) ∨
        (registerAs type kind).run registry = (.error e, next) := by
      rwa [registerAs, if_neg (not_not_intro rfl)]
    rcases hfails with hrun | hrun
    · exact (hconsistent.ensures_registerAs List.mem_cons_self type.kind).of_error hrun
    · exact (hconsistent.ensures_registerAs List.mem_cons_self kind).of_error hrun
  all vertices edges labels next hrun := by
    have hconsistent := h.mono (List.subset_append_right ((slots vertices edges).map Prod.fst) types)
    rw [fromBaseTypes_eq] at hrun
    have hnext := (hconsistent.ensures_registerEach (List.subset_append_left _ _)).of_ok hrun
    rw [hnext, slots, List.map_append, List.map_map, List.map_map]
    simp [Function.comp_def]
  before vertices edges e next hrun := by
    have hconsistent := h.mono (List.subset_append_right ((slots vertices edges).map Prod.fst) types)
    rw [fromBaseTypes_eq] at hrun
    exact (hconsistent.ensures_registerEach (List.subset_append_left _ _)).of_error hrun

end Registry

/-- What becomes of a builder after registrations when it is complete. -/
structure ModelBuilder.Completes (builder : ModelBuilder) (registrations : List Registration) : Prop where
  /-- It fails with the first property left out of updates that is at fault, by the types that are registered
  in the end. -/
  fails_iff : ∀ e, builder.build = .error e ↔
    ∃ earlier ignore later, registrations.flatMap Registration.ignores = earlier ++ ignore :: later ∧
      builder.model.fault? ignore = some e ∧ ∀ other ∈ earlier, builder.model.fault? other = none
  /-- If none is, these properties are marked, and nothing else has changed. -/
  succeeds_iff : ∀ model, builder.build = .ok model ↔
    (∀ ignore ∈ registrations.flatMap Registration.ignores, builder.model.fault? ignore = none) ∧
      model = builder.model.marking (registrations.flatMap Registration.ignores)
  /-- A property is marked if and only if that has been asked for. -/
  marked_iff : ∀ model, builder.build = .ok model → ∀ schema ∈ model.schemas, ∀ p ∈ schema.properties,
    (p.ignoreOnUpdate = true ↔
      ∃ type, .ignoreOnUpdate type p.name ∈ registrations ∧ type.name = schema.label.typeName)
  /-- When it was asked for does not matter to the types that are registered. -/
  whenever : builder.model
    = (ModelBuilder.after (registrations.filter (·.ignores.isEmpty))).model

section Completing

variable {registrations : List Registration} {model : GraphModel} {schema : ElementSchema}

/-- Each type that a builder holds is one as it declares itself. -/
theorem declared_of_mem_after (hschema : schema ∈ (ModelBuilder.after registrations).model.schemas) :
    ∃ type ∈ registrations.flatMap Registration.types, schema = .declaredBy type ∧ type.Admissible := by
  obtain ⟨hconsistent, hbuilder⟩ :=
    Registry.consistent_after (List.Subset.refl (registrations.flatMap Registration.types))
  rw [← hbuilder] at hschema
  exact hconsistent.declared schema hschema

theorem build_after (registrations : List Registration) :
    (ModelBuilder.after registrations).build
      = unlessFault ((registrations.flatMap Registration.ignores).findSome?
          (ModelBuilder.after registrations).model.fault?)
        ((ModelBuilder.after registrations).model.marking
          (registrations.flatMap Registration.ignores)) := by
  have hignored : (ModelBuilder.after registrations).ignored
      = registrations.flatMap Registration.ignores := by
    rw [ModelBuilder.after_eq]
    rfl
  rw [← hignored]
  exact build_eq ..

theorem build_after_eq_ok_iff : (ModelBuilder.after registrations).build = .ok model ↔
    (∀ ignore ∈ registrations.flatMap Registration.ignores,
      (ModelBuilder.after registrations).model.fault? ignore = none) ∧
      model = (ModelBuilder.after registrations).model.marking
        (registrations.flatMap Registration.ignores) := by
  rw [build_after, unlessFault_eq_ok_iff, List.findSome?_eq_none_iff]

theorem build_after_eq_error_iff {e : SchemaError} :
    (ModelBuilder.after registrations).build = .error e ↔
      ∃ earlier ignore later, registrations.flatMap Registration.ignores = earlier ++ ignore :: later ∧
        (ModelBuilder.after registrations).model.fault? ignore = some e ∧
        ∀ other ∈ earlier, (ModelBuilder.after registrations).model.fault? other = none := by
  rw [build_after, unlessFault_eq_error_iff, List.findSome?_eq_some_iff]

/-- A complete model has the types that have been registered, with marks. -/
theorem exists_of_mem_build (hbuild : (ModelBuilder.after registrations).build = .ok model)
    (hschema : schema ∈ model.schemas) :
    ∃ type ∈ registrations.flatMap Registration.types, type.Admissible ∧
      schema = (ElementSchema.declaredBy type).marking (registrations.flatMap Registration.ignores) := by
  obtain ⟨-, rfl⟩ := build_after_eq_ok_iff.mp hbuild
  obtain ⟨earlier, hearlier, rfl⟩ := List.mem_map.mp hschema
  obtain ⟨type, htype, rfl, hadmissible⟩ := declared_of_mem_after hearlier
  exact ⟨type, htype, hadmissible, rfl⟩

/-- The properties of a type that declares itself have no marks but those that are added. -/
theorem ignoreOnUpdate_eq {type : ElementType} {ignored : List (String × String)} {p : PropertyDescriptor}
    (hp : p ∈ ((ElementSchema.declaredBy type).marking ignored).properties) :
    p.ignoreOnUpdate = ignored.contains (type.name, p.name) := by
  obtain ⟨q, hq, rfl⟩ := List.mem_map.mp hp
  obtain ⟨name, -, rfl⟩ := List.mem_map.mp hq
  exact Bool.false_or _

theorem ModelBuilder.completes_after (registrations : List Registration) :
    (after registrations).Completes registrations where
  fails_iff _ := build_after_eq_error_iff
  succeeds_iff _ := build_after_eq_ok_iff
  marked_iff model hbuild schema hschema p hp := by
    obtain ⟨type, -, -, rfl⟩ := exists_of_mem_build hbuild hschema
    rw [ignoreOnUpdate_eq hp, List.contains_iff_mem, mem_ignores_iff]
    rfl
  whenever := by
    rw [after_eq]
    rfl

end Completing

/-! ### Every sequence of calls -/

theorem Registry.Consistent.eq_declaredBy {registry : Registry} {types : List ElementType}
    (h : registry.Consistent types) (hnames : NamesDeclare types) {schema : ElementSchema}
    (hschema : schema ∈ registry.entries) {type : ElementType} (htype : type ∈ types)
    (hname : type.name = schema.label.typeName) : schema = .declaredBy type := by
  obtain ⟨registered, hregistered, rfl, -⟩ := h.declared schema hschema
  obtain ⟨hlabel, hproperties⟩ := hnames registered hregistered type htype hname.symm
  rw [ElementSchema.declaredBy, ElementSchema.declaredBy, hlabel, hproperties]

/-- A registry is consistent after every sequence of calls, and every further call finds it so. It is
completed by the marks that were asked for, and does in all this what the builder of models does. -/
theorem registrations_keep_registry_consistent (registrations : List Registration) :
    let registry := Registry.after registrations
    let builder := ModelBuilder.after registrations
    let types := registrations.flatMap Registration.types
    registry.Consistent types ∧
      (registry.entries.map (·.label.label)).Nodup ∧
      (registry.entries.map (·.label.typeName)).Nodup ∧
      (NamesDeclare types → ∀ schema ∈ registry.entries, ∀ type ∈ types,
        type.name = schema.label.typeName → schema = .declaredBy type) ∧
      registry.Steady ∧
      builder.Completes registrations ∧
      registry.builder = builder ∧
      (∀ registration, ∃ next : Registry,
        (Registry.perform registration).run registry = (builder.answer registration, next) ∧
          next.builder = builder.perform registration) ∧
      registry.build = builder.build.map (fun model =>
        { registry with entries := model.schemas, ignored := [] }) ∧
      ∀ complete, registry.build = .ok complete →
        Indexes complete.byType (·.label.typeName) complete.entries ∧
          Indexes complete.byLabel (·.label.label) complete.entries := by
  intro registry builder types
  obtain ⟨hconsistent, hbuilder⟩ := Registry.consistent_after (List.Subset.refl types)
  have hbuild := hconsistent.build_eq
  refine ⟨hconsistent, hconsistent.byLabel.nodup, hconsistent.byType.nodup,
    fun hnames schema hschema type htype hname => hconsistent.eq_declaredBy hnames hschema htype hname,
    .of_consistent hconsistent, ModelBuilder.completes_after registrations, hbuilder, ?_, ?_, ?_⟩
  · intro registration
    have hmore := hconsistent.mono (List.subset_append_right registration.types types)
    obtain ⟨next, hrun, hnext, -⟩ := hmore.perform (List.subset_append_left registration.types types)
    rw [hbuilder] at hrun hnext
    exact ⟨next, hrun, hnext⟩
  · rw [hbuild, hbuilder]
  · intro complete hcomplete
    rw [hbuild, hbuilder] at hcomplete
    obtain ⟨model, hmodel, rfl⟩ := exists_of_map_eq_ok hcomplete
    obtain ⟨-, rfl⟩ := build_after_eq_ok_iff.mp hmodel
    dsimp only [GraphModel.marking]
    rw [← hbuilder]
    exact ⟨hconsistent.byType.map fun _ => rfl, hconsistent.byLabel.map fun _ => rfl⟩

end PropertyGraph
