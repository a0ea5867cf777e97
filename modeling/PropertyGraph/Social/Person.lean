import PropertyGraph.Schema.Model

/-!
# The social model

People know each other. A person is created in a partition, which later updates leave alone.
-/

namespace PropertyGraph.Social

structure Person where
  id : Option ElementId
  name : String
  age : UInt32
  zipCode : String
  phoneNumbers : Option (List String)
  partitionKey : String
deriving DecidableEq, Repr

namespace Person

/-- The partition of every person of the sample. -/
def homePartition : String := "people"

def new (name : String) (age : UInt32) (zipCode : String) : Person :=
  ⟨none, name, age, zipCode, none, homePartition⟩

def withPhoneNumbers (phoneNumbers : List String) (p : Person) : Person :=
  { p with phoneNumbers := some phoneNumbers }

/-- The serialised form. What a person does not have is left out. -/
def toJson (p : Person) : Json :=
  .obj (Members.ofList ((p.id.map fun id => ("id", id.toJson)).toList ++
    [("name", .str p.name), ("age", .int p.age.toNat), ("zip_code", .str p.zipCode)] ++
    (p.phoneNumbers.map fun ns => ("phone_numbers", Json.arr (ns.map .str))).toList ++
    [("partition_key", .str p.partitionKey)]))

def elementType : ElementType where
  name := "Person"
  kind := .vertex
  label := "Person"
  properties := ["name", "age", "zip_code", "phone_numbers", "partition_key"]
  fields := some [
    ⟨"id", .optional .id, some .null, true⟩,
    ⟨"name", .string, none, false⟩,
    ⟨"age", .integer ⟨false, 32⟩, none, false⟩,
    ⟨"zip_code", .string, none, false⟩,
    ⟨"phone_numbers", .optional (.list .string), some .null, true⟩,
    ⟨"partition_key", .string, some (.str ""), false⟩]

def idOfJson? : Json → Option ElementId
  | .int i => some (.int (Int64.ofInt i))
  | .str s => some (.str s)
  | _ => none

def phoneNumbersOfJson? : Json → Option (List String)
  | .arr items => items.mapM Json.toStr?
  | _ => none

def ofJson? (value : Json) : Option Person := do
  let name ← (value.member? "name").bind Json.toStr?
  let age ← (value.member? "age").bind Json.toInt64?
  let zipCode ← (value.member? "zip_code").bind Json.toStr?
  let partitionKey ← (value.member? "partition_key").bind Json.toStr?
  return {
    id := (value.member? "id").bind idOfJson?
    name
    age := UInt32.ofInt age
    zipCode
    phoneNumbers := (value.member? "phone_numbers").bind phoneNumbersOfJson?
    partitionKey }

end Person

/-- The edge from a person to one they know. -/
def knows : ElementType where
  name := "Knows"
  kind := .edge
  label := "Knows"
  properties := []
  fields := some [⟨"id", .optional .id, some .null, true⟩]

/-- The value of an edge that is not created yet. -/
def newKnows : Json := .obj []

/-- People and who knows whom; updates leave the partition alone. -/
def model : Except SchemaError GraphModel := do
  let (_, builder) ← ModelBuilder.empty.registerAs Person.elementType .vertex
  let (_, builder) ← builder.registerAs knows .edge
  (builder.ignoreOnUpdate Person.elementType "partition_key").build

end PropertyGraph.Social
