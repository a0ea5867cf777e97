import PropertyGraph.Element

/-!
# Domain types

A domain type is a vertex or an edge type with a label and properties. Its values are records of
declared fields, or free JSON values. A value of a domain type is held in its serialised form;
`ElementType.read` accepts what stands for a value and gives that form.
-/

namespace PropertyGraph

inductive ValueType where
  | any
  | string
  | boolean
  | integer (type : Text.IntegerType)
  | number
  | id
  | list (item : ValueType)
  | optional (item : ValueType)
deriving DecidableEq, Repr

namespace ValueType

/-- Reads a value and gives its serialised form. Whole numbers become floating point ones where those
are wanted. -/
def read (m : Medium) : ValueType → Document → Except DecodeError Json
  | any, d => Reading.free m d
  | string, d => (Reading.string d).map .str
  | boolean, d => (Reading.boolean d).map .bool
  | integer type, d => (Reading.integer type d).map .int
  | number, d => (Reading.number d).map .float
  | id, d => (ElementId.read d).map ElementId.toJson
  | list item, d => (Reading.list (read m item) d).map .arr
  | optional item, d => (Reading.optional (read m item) d).map (·.getD .null)

end ValueType

structure RecordField where
  name : String
  type : ValueType
  /-- The value of an absent field; none for a field that has to be there. -/
  default : Option Json
  omitNull : Bool
deriving Repr

/-- A domain type. Its name stands in messages and identifies it. -/
structure ElementType where
  name : String
  kind : ElementKind
  label : String
  properties : List String
  /-- The fields of its values; none for free values. -/
  fields : Option (List RecordField)
deriving Repr, Inhabited

namespace ElementType

/-- The serialised record with the given fields. -/
def serialise (fields : List RecordField) (record : List (String × Json)) : Json :=
  .obj (Members.ofList (fields.filterMap fun field =>
    match (record.lookup field.name).or field.default with
    | some .null => if field.omitNull then none else some (field.name, .null)
    | some value => some (field.name, value)
    | none => none))

/-- Reads a value and gives its serialised form. -/
def read (type : ElementType) (m : Medium) (d : Document) : Except DecodeError Json :=
  match type.fields with
  | none => Reading.free m d
  | some fields => do
    let record ← Reading.record m type.label
      (fields.map fun field => ⟨field.name, field.default.isSome⟩) ([] : List (String × Json))
      (fun name d =>
        match fields.find? (·.name == name) with
        | some field => do
          let value ← field.type.read m d
          return fun record => (name, value) :: record
        | none => return id) d
    for field in fields do
      if field.default.isNone && (record.lookup field.name).isNone then
        throw (.missingField field.name)
    return serialise fields record

end ElementType

end PropertyGraph
