import PropertyGraph.Graph.Table
import PropertyGraph.Step.Basic

/-!
# The graph

Vertices and edges are numbered from one counter, so a number is given to one element only and never
again. Removing a vertex removes its edges, and an edge keeps the numbers of its two endpoints.
-/

namespace PropertyGraph

structure VertexRecord where
  label : String
  properties : Members
deriving Repr

/-- An edge runs from its source to its target. -/
structure EdgeRecord where
  label : String
  properties : Members
  source : Nat
  target : Nat
deriving Repr

namespace EdgeRecord

/-- The endpoint of an edge that a walk from a vertex lands on. -/
def farEnd (e : EdgeRecord) (vertex : Nat) : Direction → Nat
  | .outgoing => e.target
  | .incoming => e.source
  | .both => if e.source = vertex then e.target else e.source

/-- The endpoints of an edge, source first. -/
def ends (e : EdgeRecord) : Direction → List Nat
  | .outgoing => [e.source]
  | .incoming => [e.target]
  | .both => [e.source, e.target]

end EdgeRecord

structure Graph where
  /-- The number given to the element created last. -/
  counter : Nat
  vertices : Table VertexRecord
  edges : Table EdgeRecord
  vertices_le : ∀ id ∈ vertices.keys, id ≤ counter
  edges_le : ∀ id ∈ edges.keys, id ≤ counter

namespace Graph

def empty : Graph := ⟨0, .empty, .empty, (fun _ h => nomatch h), fun _ h => nomatch h⟩

instance : Inhabited Graph := ⟨empty⟩

def ids (g : Graph) : ElementKind → List Nat
  | .vertex => g.vertices.keys
  | .edge => g.edges.keys

def contains (g : Graph) : ElementKind → Nat → Bool
  | .vertex, id => g.vertices.contains id
  | .edge, id => g.edges.contains id

/-- The present element of a kind that an identifier names. Texts name no element. -/
def find? (g : Graph) (kind : ElementKind) : ElementId → Option Nat
  | .int i => if 0 ≤ i.toInt ∧ g.contains kind i.toInt.toNat then some i.toInt.toNat else none
  | .str _ => none

def label? (g : Graph) : ElementKind → Nat → Option String
  | .vertex, id => (g.vertices.get? id).map (·.label)
  | .edge, id => (g.edges.get? id).map (·.label)

def properties? (g : Graph) : ElementKind → Nat → Option Members
  | .vertex, id => (g.vertices.get? id).map (·.properties)
  | .edge, id => (g.edges.get? id).map (·.properties)

/-- The identifier of a numbered element. -/
def elementId (id : Nat) : ElementId := .int (Int64.ofNat id)

def raw? (g : Graph) : ElementKind → Nat → Option RawElement
  | .vertex, id => (g.vertices.get? id).map fun v =>
    ⟨elementId id, v.label, .vertex, v.properties, none, none⟩
  | .edge, id => (g.edges.get? id).map fun e =>
    ⟨elementId id, e.label, .edge, e.properties, some (elementId e.source),
      some (elementId e.target)⟩

/-- The edges that satisfy a condition and have one of the labels, or any label when there are none. -/
def edgesWhere (g : Graph) (labels : List String) (condition : EdgeRecord → Bool) : List Nat :=
  (g.edges.rows.filter fun (_, e) =>
    condition e && (labels.isEmpty || labels.contains e.label)).map (·.1)

/-- The edges at a vertex, outgoing before incoming. A loop is both. -/
def incident (g : Graph) (vertex : Nat) (direction : Direction) (labels : List String) : List Nat :=
  let outgoing := g.edgesWhere labels (·.source == vertex)
  let incoming := g.edgesWhere labels (·.target == vertex)
  match direction with
  | .outgoing => outgoing
  | .incoming => incoming
  | .both => outgoing ++ incoming

def elements (g : Graph) (kind : ElementKind) : List RawElement :=
  (g.ids kind).filterMap (g.raw? kind)

/-! ### Changing -/

/-- Sets properties in turn, so that the last of a key stays. -/
def setAll (properties : List Property) (members : Members) : Members :=
  members.insertAll (properties.map fun p => (p.key, p.value))

theorem lt_counter_succ {keys : List Nat} {counter : Nat} (h : ∀ id ∈ keys, id ≤ counter) :
    ∀ id ∈ keys, id < counter + 1 :=
  fun id hid => Nat.lt_succ_of_le (h id hid)

theorem le_of_mem_push {t : Table α} {counter : Nat} {record : α}
    (h : ∀ id ∈ t.keys, id ≤ counter) :
    ∀ id ∈ (t.push (counter + 1) record (lt_counter_succ h)).keys, id ≤ counter + 1 := by
  intro id hid
  rw [Table.keys_push, List.mem_append, List.mem_singleton] at hid
  rcases hid with hid | rfl
  · exact Nat.le_succ_of_le (h id hid)
  · exact Nat.le_refl _

def addVertex (label : String) (properties : List Property) (g : Graph) : Nat × Graph :=
  (g.counter + 1,
    { counter := g.counter + 1
      vertices := g.vertices.push (g.counter + 1) ⟨label, setAll properties []⟩
        (lt_counter_succ g.vertices_le)
      edges := g.edges
      vertices_le := le_of_mem_push g.vertices_le
      edges_le := fun id h => Nat.le_succ_of_le (g.edges_le id h) })

/-- Adds an edge and gives its number. The endpoints are not checked. -/
def addEdge (label : String) (properties : List Property) (source target : Nat) (g : Graph) :
    Nat × Graph :=
  (g.counter + 1,
    { counter := g.counter + 1
      vertices := g.vertices
      edges := g.edges.push (g.counter + 1) ⟨label, setAll properties [], source, target⟩
        (lt_counter_succ g.edges_le)
      vertices_le := fun id h => Nat.le_succ_of_le (g.vertices_le id h)
      edges_le := le_of_mem_push g.edges_le })

/-- Overwrites properties of an element, if it is present. -/
def update (kind : ElementKind) (id : Nat) (properties : List Property) (g : Graph) : Graph :=
  match kind with
  | .vertex =>
    { g with
      vertices := g.vertices.modify id fun v =>
        { v with properties := setAll properties v.properties }
      vertices_le := by rw [Table.keys_modify]; exact g.vertices_le }
  | .edge =>
    { g with
      edges := g.edges.modify id fun e => { e with properties := setAll properties e.properties }
      edges_le := by rw [Table.keys_modify]; exact g.edges_le }

def filterEdges (keep : Nat → EdgeRecord → Bool) (g : Graph) : Graph :=
  { g with
    edges := g.edges.filter keep
    edges_le := fun id h => g.edges_le id (g.edges.keys_filter_subset keep id h) }

/-- Removes an element. A present vertex takes its edges along. -/
def remove (kind : ElementKind) (id : Nat) (g : Graph) : Graph :=
  match kind with
  | .vertex =>
    if g.vertices.contains id then
      { g.filterEdges fun _ e => e.source != id && e.target != id with
        vertices := g.vertices.erase id
        vertices_le := fun k h =>
          g.vertices_le k (g.vertices.keys_filter_subset (fun k _ => k != id) k h) }
    else g
  | .edge => g.filterEdges fun k _ => k != id

/-- Removes all elements. Their numbers are not given again. -/
def clear (g : Graph) : Graph :=
  ⟨g.counter, .empty, .empty, (fun _ h => nomatch h), fun _ h => nomatch h⟩

end Graph

end PropertyGraph
