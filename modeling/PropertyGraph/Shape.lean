import PropertyGraph.Schema.Model
import PropertyGraph.Error

/-!
# Shapes

A shape says what a traversal is positioned on while it is built. `ResultType` is the declared type of
its results, which decides how they are decoded. `Shape` is what the builder knows about labels.
-/

namespace PropertyGraph

/-- The declared type of the results of a traversal. -/
inductive ResultType where
  /-- Nothing is selected yet. -/
  | start
  | anyVertex
  | anyEdge
  | element (type : ElementType)
  | value (type : ValueType)
  /-- All results of a type in one list. -/
  | folded (inner : ResultType)
deriving Repr, Inhabited

namespace ResultType

def elementKind? : ResultType → Option ElementKind
  | anyVertex => some .vertex
  | anyEdge => some .edge
  | element type => some type.kind
  | _ => none

end ResultType

inductive Shape where
  | start
  /-- Elements of a kind; without label, of any label. -/
  | elements (kind : ElementKind) (label : Option String)
  | value
  | folded (inner : Shape)
deriving DecidableEq, Repr, Inhabited

namespace Shape

def describe : Shape → String
  | start => "start"
  | elements kind none => s!"any {kind.text}"
  | elements _ (some label) => s!"[{label}]"
  | value => "value"
  | folded inner => s!"folded {inner.describe}"

/-- Narrows elements of a kind to a label that they can have. -/
def narrow (shape : Shape) (kind : ElementKind) (label : String) : Except TraversalError Shape :=
  let mismatch := .error (.typeMismatch shape.describe label)
  match shape with
  | elements current known =>
    if current = kind ∧ known.all (· == label) then .ok (elements kind (some label)) else mismatch
  | _ => mismatch

def declares (model : GraphModel) (key : String) : Shape → Bool
  | elements kind label =>
    ModelBuilder.isReserved key ||
      ((label.elim (model.labels kind) ([·])).filterMap model.schemaForLabel?).any (·.declares key)
  | _ => false

def checkProperty (model : GraphModel) (shape : Shape) (key : String) :
    Except TraversalError Unit :=
  if shape.declares model key then .ok ()
  else .error (.unknownProperty shape.describe key)

end Shape

end PropertyGraph
