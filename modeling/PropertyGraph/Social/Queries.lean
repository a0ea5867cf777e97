import PropertyGraph.Environment
import PropertyGraph.Social.Person

/-!
# Queries on the social model

Marko and four others are created, with two edges between them. The queries ask whom Marko knows, who
of them lives nearby, and who lives nearby without being known. Each is a traversal of its own, so the
engine does the work.
-/

namespace PropertyGraph.Social

open Person (elementType)

/-- The zip codes that are nearby, unless others are given. -/
def nearbyZipCodes : List String := ["10001", "10199", "10121", "10122", "10123"]

/-- Work on an environment. What has been sent stays sent when a later part fails. -/
abbrev Work := ExceptT TraversalError (StateM Environment)

namespace Work

def build (f : GraphModel → Except TraversalError Traversal) : Work Traversal := do
  match f (← get).model with
  | .ok t => return t
  | .error e => throw e

/-- The outcome of a run. One that stays open is given up. -/
def settle (r : RunResult α × Environment) : Work α := do
  set r.2
  match r.1 with
  | some (.ok a) => return a
  | some (.error e) => throw e
  | none => throw .cancelled

def toList (t : Traversal) : Work (List Output) := do settle ((← get).toList t)

def first (t : Traversal) : Work (Option Output) := do settle ((← get).first t)

end Work

def personOf (output : Output) : Work Person :=
  match output with
  | .value v =>
    match Person.ofJson? v with
    | some p => return p
    | none => throw (.decoding "not a person")
  | _ => throw (.decoding "not a person")

def peopleOf (outputs : List Output) : Work (List Person) := outputs.mapM personOf

structure People where
  marko : Person
  vadas : Person
  josh : Person
  peter : Person
  daniel : Person
deriving Repr

def People.toList (people : People) : List Person :=
  [people.marko, people.vadas, people.josh, people.peter, people.daniel]

def idOf (p : Person) : Except TraversalError ElementId :=
  match p.id with
  | some id => .ok id
  | none => .error (.decoding s!"{p.name} came back without an identifier")

def creation (p : Person) (model : GraphModel) : Except TraversalError Traversal :=
  Traversal.source.addVertex model elementType p.toJson

def add (p : Person) : Work Person := do
  match ← Work.first (← Work.build (creation p)) with
  | some output => personOf output
  | none => throw (.decoding s!"creating {p.name} returned nothing")

/-- An edge from one person to another, each given by identifier. -/
def acquaintance (source target : ElementId) (model : GraphModel) :
    Except TraversalError Traversal := do
  let t ← Traversal.source.vertexOf model elementType source
  let draft ← Traversal.draftEdge model knows newKnows
  let chosen ← t.anonymous.vertexOf model elementType target
  t.addEdge draft .target chosen.steps

def addKnows (source target : Person) : Work Unit := do
  let target ← idOf target
  let source ← idOf source
  let _ ← Work.toList (← Work.build (acquaintance source target))

def seed : Work People := do
  let _ ← Work.toList Traversal.source.vertices.drop
  let marko ← add (.new "Marko" 29 "10001")
  let vadas ← add (.new "Vadas" 27 "10199")
  let josh ← add (.new "Josh" 32 "89002")
  let peter ← add (.new "Peter" 35 "10122")
  let daniel ← add ((Person.new "Daniel" 37 "88905").withPhoneNumbers ["+491234567", "+492345678"])
  addKnows marko vadas
  addKnows marko josh
  return ⟨marko, vadas, josh, peter, daniel⟩

/-- The people joined with one by an edge, in either direction. -/
def known (person : ElementId) (model : GraphModel) (t : Traversal) :
    Except TraversalError Traversal := do
  let t ← t.vertexOf model elementType person
  let t ← t.walk model .both knows
  t.ofType model elementType

/-- Binds a list of zip codes for a continuation. -/
def withZipCodes (zipCodes : List String)
    (continuation : Traversal → Reference → Except TraversalError Traversal) :
    Except TraversalError Traversal :=
  (Traversal.source.inject (zipCodes.map .str)).fold.bind 1 continuation

/-- A test for a member of a bound list. -/
def within (list : Reference) : Test Reference := ⟨.within, .bound list⟩

def nearbyFriendsOf (person : ElementId) (nearby : List String) (model : GraphModel) :
    Except TraversalError Traversal :=
  withZipCodes nearby fun t zipCodes => do
    let t ← known person model t
    t.filter model (.has "zip_code" (within zipCodes))

def nearbyStrangersOf (person : ElementId) (name : String) (nearby : List String)
    (model : GraphModel) : Except TraversalError Traversal :=
  withZipCodes nearby fun t zipCodes => do
    let t ← known person model t
    t.fold.bind 2 fun t acquaintances => do
      let t ← t.verticesOf model elementType
      t.filter model
        (((Predicate.is (within acquaintances)).not.and (.has "zip_code" (within zipCodes))).and
          (.has "name" ⟨.neq, .constant (.str name)⟩))

def birthdayOf (person : ElementId) (older : Person) (model : GraphModel) :
    Except TraversalError Traversal := do
  let t ← Traversal.source.vertexOf model elementType person
  t.update model elementType older.toJson

/-- Everyone Marko knows, in either direction. -/
def whoDoesMarkoKnow (people : People) : Work (List Person) := do
  let marko ← idOf people.marko
  peopleOf (← Work.toList (← Work.build fun model => known marko model .source))

/-- Whom Marko knows that lives in one of the zip codes. -/
def nearbyFriends (people : People) (nearby : List String) : Work (List Person) := do
  let marko ← idOf people.marko
  peopleOf (← Work.toList (← Work.build (nearbyFriendsOf marko nearby)))

/-- The people in one of the zip codes whom Marko does not know yet. -/
def nearbyStrangers (people : People) (nearby : List String) : Work (List Person) := do
  let marko ← idOf people.marko
  peopleOf (← Work.toList (← Work.build (nearbyStrangersOf marko people.marko.name nearby)))

/-- Makes Marko a year older. The partition sent along is not taken over. -/
def birthday (people : People) : Work (Option Person) := do
  let older := { people.marko with age := people.marko.age + 1, partitionKey := "" }
  let marko ← idOf people.marko
  match ← Work.first (← Work.build (birthdayOf marko older)) with
  | some output => return some (← personOf output)
  | none => return none

end PropertyGraph.Social
