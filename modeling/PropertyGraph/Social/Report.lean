import PropertyGraph.Social.Queries

/-!
# The report on the social sample

The sample is created, each question is answered with the people in the order of their names, and at
last Marko has his birthday.
-/

namespace PropertyGraph.Social

def Person.line (p : Person) : String := s!"  {p.name} ({p.age}, {p.zipCode})"

/-- The lines of a question, with a blank line before it. -/
def answerLines (question : String) (people : List Person) : List String :=
  let ordered := people.mergeSort fun a b => a.name ≤ b.name
  ["", question] ++ if ordered.isEmpty then ["  nobody"] else ordered.map Person.line

def birthdayLines : Option Person → List String
  | some marko => ["", s!"Marko turned {marko.age} (partition '{marko.partitionKey}')"]
  | none => []

def report : Work (List String) := do
  let people ← seed
  let known ← whoDoesMarkoKnow people
  let friends ← nearbyFriends people nearbyZipCodes
  let strangers ← nearbyStrangers people nearbyZipCodes
  let older ← birthday people
  return answerLines "Who does Marko know?" known ++
    answerLines "Which of Marko's friends live nearby?" friends ++
    answerLines "Who lives nearby that Marko does not know yet?" strangers ++
    birthdayLines older

/-- The report on a graph of its own. -/
def reportInMemory : Except TraversalError (List String) := do
  let graphModel ← model.mapError .schema
  let environment ← Environment.build graphModel (some (.memory .empty)) .default
  (report.run environment).1

end PropertyGraph.Social
