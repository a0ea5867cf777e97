import PropertyGraph.Engine.Evaluate

/-!
# Channels to an engine

A channel takes a traversal and answers with a stream of raw results. It may refuse the traversal, or
never answer. Failures of the engine travel inside the stream. `Script` is a channel with prepared
answers, `Channel.memory` the engine itself.
-/

namespace PropertyGraph

/-- A raw result, or the failure that stands in its place. -/
abbrev StreamItem := Except TraversalError RawResult

inductive Submission where
  | refused (error : TraversalError)
  /-- No answer, ever. -/
  | stalled
  /-- A stream of items that ends after them, or that brings nothing more and does not end. -/
  | accepted (items : List StreamItem) (ends : Bool)

inductive Script where
  | refuse (reason : String)
  | respond (items : List StreamItem)
  /-- The items are followed by nothing. -/
  | hang (items : List StreamItem)
  | stall
  /-- The items for each traversal in turn, and empty streams after them. -/
  | queue (answers : List (List StreamItem))

namespace Script

def submit : Script → Submission × Script
  | refuse reason => (.refused (.transport reason), refuse reason)
  | respond items => (.accepted items true, respond items)
  | hang items => (.accepted items false, hang items)
  | stall => (.stalled, stall)
  | queue [] => (.accepted [] true, queue [])
  | queue (items :: rest) => (.accepted items true, queue rest)

end Script

/-- The stream of an evaluation, which is complete before its first item is read. -/
def evaluationItems : Except EngineError (List RawResult) → List StreamItem
  | .ok results => results.map .ok
  | .error e => [.error e.toTraversalError]

inductive Channel where
  | memory (graph : Graph)
  | scripted (script : Script)

namespace Channel

def submit (traversal : CompiledTraversal) : Channel → Submission × Channel
  | memory graph =>
    let (results, graph) := graph.evaluate traversal
    (.accepted (evaluationItems results) true, memory graph)
  | scripted script =>
    let (submission, script) := script.submit
    (submission, scripted script)

end Channel

end PropertyGraph
