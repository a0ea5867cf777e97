import PropertyGraph.Schema.ElementType
import PropertyGraph.Error
import PropertyGraph.Text.Case

/-!
# The graph model

A model maps domain types to labels and properties. Types are registered one by one; the model is
complete when the properties to be left out of updates have been checked, and does not change after
that.
-/

namespace PropertyGraph

/-- The identity of a registered type. -/
structure LabelDescriptor where
  label : String
  kind : ElementKind
  typeName : String
deriving DecidableEq, Repr

def LabelDescriptor.ofType (type : ElementType) : LabelDescriptor :=
  ⟨type.label, type.kind, type.name⟩

structure PropertyDescriptor where
  name : String
  ignoreOnUpdate : Bool
deriving DecidableEq, Repr

structure ElementSchema where
  label : LabelDescriptor
  properties : List PropertyDescriptor
deriving DecidableEq, Repr

namespace ElementSchema

def declares (schema : ElementSchema) (property : String) : Bool :=
  schema.properties.any (·.name == property)

/-- The properties of update payloads, in order of declaration. -/
def updateProperties (schema : ElementSchema) : List PropertyDescriptor :=
  schema.properties.filter (!·.ignoreOnUpdate)

def ignoring (schema : ElementSchema) (property : String) : ElementSchema :=
  { schema with
    properties := schema.properties.map fun p =>
      if p.name == property then { p with ignoreOnUpdate := true } else p }

end ElementSchema

/-- Registered types in order of registration. -/
structure GraphModel where
  schemas : List ElementSchema
deriving DecidableEq, Repr

namespace GraphModel

def empty : GraphModel := ⟨[]⟩

def schemaOf? (model : GraphModel) (typeName : String) : Option ElementSchema :=
  model.schemas.find? (·.label.typeName == typeName)

def schemaForLabel? (model : GraphModel) (label : String) : Option ElementSchema :=
  model.schemas.find? (·.label.label == label)

def schemaOf (model : GraphModel) (type : ElementType) : Except SchemaError ElementSchema :=
  match model.schemaOf? type.name with
  | some schema => .ok schema
  | none => .error (.notRegistered type.name)

def labelOf (model : GraphModel) (type : ElementType) : Except SchemaError LabelDescriptor :=
  (model.schemaOf type).map (·.label)

def labels (model : GraphModel) (kind : ElementKind) : List String :=
  (model.schemas.filter (·.label.kind == kind)).map (·.label.label)

def contains (model : GraphModel) (type : ElementType) : Bool :=
  (model.schemaOf? type.name).isSome

end GraphModel

/-- A model in the making, with the properties to be left out of updates. -/
structure ModelBuilder where
  model : GraphModel
  ignored : List (String × String)
deriving DecidableEq, Repr

namespace ModelBuilder

def empty : ModelBuilder := ⟨.empty, []⟩

/-- Names that elements use for themselves. -/
def isReserved (name : String) : Bool := name == idKey || name == labelKey

/-- Descriptors for properties whose names are not reserved and do not repeat. -/
def describe (typeName : String) : List String → List PropertyDescriptor →
    Except SchemaError (List PropertyDescriptor)
  | [], described => .ok described
  | name :: rest, described =>
    if isReserved name then .error (.reservedName typeName name)
    else if described.any (·.name == name) then .error (.duplicateProperty typeName name)
    else describe typeName rest (described ++ [⟨name, false⟩])

/-- The schema of a type that is not registered yet. -/
def schemaFor (model : GraphModel) (type : ElementType) : Except SchemaError ElementSchema := do
  if Text.isAllBlank type.label then throw (.emptyLabel type.name)
  if isReserved type.label then throw (.reservedName type.name type.label)
  if let some schema := model.schemaForLabel? type.label then
    throw (.duplicateLabel type.label schema.label.typeName type.name)
  return ⟨.ofType type, ← describe type.name type.properties []⟩

/-- Registers a type. A type that is registered already keeps its registration. -/
def register (builder : ModelBuilder) (type : ElementType) :
    Except SchemaError (LabelDescriptor × ModelBuilder) :=
  match builder.model.schemaOf? type.name with
  | some schema => .ok (schema.label, builder)
  | none => do
    let schema ← schemaFor builder.model type
    return (schema.label, { builder with model := ⟨builder.model.schemas ++ [schema]⟩ })

def registerAs (builder : ModelBuilder) (type : ElementType) (kind : ElementKind) :
    Except SchemaError (LabelDescriptor × ModelBuilder) :=
  if type.kind ≠ kind then .error (.unrecognizedKind type.name kind.text type.kind.text)
  else builder.register type

/-- Registers types as a kind up to the first that fails. The builder keeps those before it. -/
def registerAll (kind : ElementKind) : ModelBuilder → List ElementType →
    Except SchemaError (List LabelDescriptor) × ModelBuilder
  | builder, [] => (.ok [], builder)
  | builder, type :: rest =>
    match builder.registerAs type kind with
    | .error error => (.error error, builder)
    | .ok (label, builder) =>
      let (labels, builder) := registerAll kind builder rest
      (labels.map (label :: ·), builder)

/-- Registers the vertex and edge types of a registry, each in the slot it is listed in. -/
def fromBaseTypes (builder : ModelBuilder) (vertices edges : List ElementType) :
    Except SchemaError (List LabelDescriptor) × ModelBuilder :=
  match registerAll .vertex builder vertices with
  | (.error error, builder) => (.error error, builder)
  | (.ok labels, builder) =>
    let (more, builder) := registerAll .edge builder edges
    (more.map (labels ++ ·), builder)

/-- Leaves a property of a type out of updates. It is checked when the model is complete. -/
def ignoreOnUpdate (builder : ModelBuilder) (type : ElementType) (property : String) :
    ModelBuilder :=
  { builder with ignored := builder.ignored ++ [(type.name, property)] }

def applyIgnore (model : GraphModel) (typeName property : String) :
    Except SchemaError GraphModel :=
  match model.schemaOf? typeName with
  | none => .error (.notRegistered typeName)
  | some schema =>
    if schema.declares property then
      .ok ⟨model.schemas.map fun s =>
        if s.label.typeName == typeName then s.ignoring property else s⟩
    else .error (.unknownPropertyConfig typeName property)

def build (builder : ModelBuilder) : Except SchemaError GraphModel :=
  builder.ignored.foldlM (fun model (typeName, property) => applyIgnore model typeName property)
    builder.model

end ModelBuilder

/-! ### Payloads

A payload lists the declared properties of a value that are not null, in order of declaration. The
identifier is never part of it, and a field that is not declared is an error. -/

/-- The fields of a serialised value; null stands for a value without fields. -/
def fieldsOf (typeName : String) : Json → Except SchemaError Members
  | .obj members => .ok members
  | .null => .ok []
  | _ => .error (.notAnObject typeName)

/-- A declared property as it stands in a payload. -/
def payloadProperty? (fields : Members) (descriptor : PropertyDescriptor) : Option Property :=
  match fields.find? descriptor.name with
  | none | some .null => none
  | some value => some ⟨descriptor.name, value⟩

/-- The payload with the properties that `included` admits. -/
def encodePayload (schema : ElementSchema) (type : ElementType) (value : Json)
    (included : PropertyDescriptor → Bool) : Except SchemaError (List Property) := do
  let fields ← fieldsOf type.name value
  let left := fields.keys.filter fun key => key != idKey && !schema.declares key
  match left with
  | key :: _ => throw (.undeclaredProperty type.name key)
  | [] => return (schema.properties.filter included).filterMap (payloadProperty? fields)

namespace GraphModel

def creationPayload (model : GraphModel) (type : ElementType) (value : Json) :
    Except SchemaError (List Property) := do
  encodePayload (← model.schemaOf type) type value fun _ => true

def updatePayload (model : GraphModel) (type : ElementType) (value : Json) :
    Except SchemaError (List Property) := do
  encodePayload (← model.schemaOf type) type value (!·.ignoreOnUpdate)

end GraphModel

end PropertyGraph
