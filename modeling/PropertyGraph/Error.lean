import PropertyGraph.Json.Reading

/-!
# Errors of the schema and of traversals

Errors of the schema tell why a type is not registered or a value is not serialised. Of the errors of
traversals the first five arise while a traversal is built, before anything is sent. The others come
from the channel, from the engine, from decoding its answers, or from the settings.
-/

namespace PropertyGraph

inductive SchemaError where
  | emptyLabel (typeName : String)
  | duplicateLabel (label first second : String)
  /-- A type is registered as the other kind of element. -/
  | unrecognizedKind (typeName expected found : String)
  | reservedName (typeName name : String)
  | duplicateProperty (typeName property : String)
  /-- A value has a field that its type does not declare. -/
  | undeclaredProperty (typeName property : String)
  | notAnObject (typeName : String)
  /-- A property is configured that its type does not declare. -/
  | unknownPropertyConfig (typeName property : String)
  | notRegistered (typeName : String)
deriving DecidableEq, Repr

namespace SchemaError

def message : SchemaError → String
  | emptyLabel type => s!"Type '{type}' declares an empty label"
  | duplicateLabel label first second =>
    s!"Label '{label}' is ambiguous: declared by both '{first}' and '{second}'"
  | unrecognizedKind type expected found =>
    s!"Type '{type}' is a {found} kind but was registered as a {expected}"
  | reservedName type name => s!"Type '{type}' uses reserved name '{name}'"
  | duplicateProperty type property =>
    s!"Type '{type}' declares property '{property}' more than once"
  | undeclaredProperty type property =>
    s!"Type '{type}' serialises undeclared property '{property}'"
  | notAnObject type => s!"Type '{type}' does not serialise to a property map"
  | unknownPropertyConfig type property =>
    s!"Cannot configure unknown property '{property}' on '{type}'"
  | notRegistered type => s!"Type '{type}' is not registered in the graph model"

end SchemaError

inductive TraversalError where
  | schema (error : SchemaError)
  /-- Elements are narrowed to a label that they cannot have. -/
  | typeMismatch (source target : String)
  | unknownProperty (shape property : String)
  | unboundReference (name : String)
  /-- A selector does not choose exactly one vertex. -/
  | cardinality (reason : String)
  | transport (reason : String)
  | server (code : UInt16) (reason : String)
  | decoding (reason : String)
  /-- Strict projection found an element of another label. -/
  | typeFilterMismatch (expected found : String)
  | cancelled
  | serialization (error : DecodeError)
  | configuration (reason : String)
deriving DecidableEq, Repr

namespace TraversalError

def message : TraversalError → String
  | schema error => s!"Schema error: {error.message}"
  | typeMismatch source target => s!"Type mismatch: cannot narrow {source} to {target}"
  | unknownProperty shape property => s!"Unknown property '{property}' on {shape}"
  | unboundReference name => s!"Unbound reference '{name}'"
  | cardinality reason => s!"Cardinality error: {reason}"
  | transport reason => s!"Transport error: {reason}"
  | server code reason => s!"Server error {code.toNat}: {reason}"
  | decoding reason => s!"Decoding error: {reason}"
  | typeFilterMismatch expected found =>
    s!"Type filter mismatch: expected '{expected}', found '{found}'"
  | cancelled => "Traversal cancelled"
  | serialization error => s!"Serialization error: {error.summary}"
  | configuration reason => s!"Configuration error: {reason}"

/-- Whether the error arises while a traversal is built. -/
def isConstruction : TraversalError → Bool
  | schema _ | typeMismatch _ _ | unknownProperty _ _ | unboundReference _ | cardinality _ => true
  | _ => false

end TraversalError

end PropertyGraph
