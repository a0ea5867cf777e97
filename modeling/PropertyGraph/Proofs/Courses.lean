import Mathlib.Data.List.ReduceOption
import PropertyGraph.Execution

/-!
# Courses of an execution

The consumer of an execution polls it, cancels it and drops it, and the channel answers its submission and
then supplies one part of the stream after the other, in any order and for any time. A course is an execution
with all that its consumer has seen and all that has been logged. Reading a stream brings the results of a
prefix that are not left out, and it breaks at the first failure.
-/

namespace PropertyGraph

namespace Submission

def items : Submission → List StreamItem
  | accepted items _ => items
  | _ => []

/-- More of an open stream, and perhaps its end. -/
def supply (more : List StreamItem) (ends : Bool) : Submission → Submission
  | accepted items false => accepted (items ++ more) ends
  | answer => answer

@[simp] theorem supply_nil (answer : Submission) : answer.supply [] false = answer := by
  match answer with
  | accepted items false => simp [supply]
  | accepted _ true | refused _ | stalled => rfl

end Submission

namespace Polled

def item? : Polled → Option (Except TraversalError Output)
  | yielded item => some item
  | _ => none

def output? : Polled → Option Output
  | yielded (.ok output) => some output
  | _ => none

def error? : Polled → Option TraversalError
  | yielded (.error error) => some error
  | _ => none

/-- An error or the end. -/
def closes : Polled → Bool
  | ended | yielded (.error _) => true
  | _ => false

/-- What a consumer gathers who polls up to the end or to the first error. -/
def gathered : List Polled → Option (Except TraversalError (List Output))
  | [] => none
  | pending :: rest => gathered rest
  | ended :: _ => some (.ok [])
  | yielded (.error error) :: _ => some (.error error)
  | yielded (.ok output) :: rest => (gathered rest).map (Except.map (output :: ·))

end Polled

namespace Execution

/-- Whether the next poll waits for the answer to the submission. -/
def asks (e : Execution) : Bool :=
  match e.phase with
  | .unsent | .sending => !e.cancelled
  | _ => false

/-- A poll at a time when the channel has answered the submission so, if it is asked at all. -/
def pollWith (decode : Decoder) (answer : Submission) (e : Execution) : Turn :=
  if e.asks then (e.submitted answer).advance decode else e.advance decode

def supply (more : List StreamItem) (ends : Bool) (e : Execution) : Execution :=
  { e with
    phase := match e.phase with
      | .receiving items false => .receiving (items ++ more) ends
      | phase => phase }

@[simp] theorem phase_finish (state : TraversalState) (e : Execution) :
    (e.finish state).phase = e.phase := by
  rw [finish]
  split <;> rfl

@[simp] theorem traversal_finish (state : TraversalState) (e : Execution) :
    (e.finish state).traversal = e.traversal := by
  rw [finish]
  split <;> rfl

@[simp] theorem emitted_finish (state : TraversalState) (e : Execution) :
    (e.finish state).emitted = e.emitted := by
  rw [finish]
  split <;> rfl

@[simp] theorem cancelled_finish (state : TraversalState) (e : Execution) :
    (e.finish state).cancelled = e.cancelled := by
  rw [finish]
  split <;> rfl

theorem finish_of_executing {e : Execution} (h : e.state = .executing) (state : TraversalState) :
    (e.finish state).state = state := by
  rw [finish, if_pos h]

theorem finish_of_not_executing {e : Execution} (h : e.state ≠ .executing)
    (state : TraversalState) : e.finish state = e := if_neg h

/-- What stays as it is from one moment of an execution to a later one. -/
structure Follows (e after : Execution) : Prop where
  traversal : after.traversal = e.traversal
  cancelled : e.cancelled = true → after.cancelled = true
  state : e.state ≠ .executing → after.state = e.state

theorem Follows.refl (e : Execution) : e.Follows e := ⟨rfl, id, fun _ => rfl⟩

theorem Follows.trans {e later last : Execution} (h : e.Follows later) (hlast : later.Follows last) :
    e.Follows last where
  traversal := hlast.traversal.trans h.traversal
  cancelled := hlast.cancelled ∘ h.cancelled
  state hstate := by
    have hlater := h.state hstate
    exact (hlast.state (by rwa [hlater])).trans hlater

theorem follows_finish (state : TraversalState) (phase : Phase) (e : Execution) :
    e.Follows ({ e with phase }.finish state) where
  traversal := traversal_finish ..
  cancelled h := (cancelled_finish ..).trans h
  state h := by rw [finish_of_not_executing (e := { e with phase }) h]

theorem follows_receive (decode : Decoder) (ends : Bool) (e : Execution) (items : List StreamItem) :
    e.Follows (e.receive decode ends items).2.1 := by
  induction items with
  | nil =>
      rw [receive]
      split
      · exact follows_finish ..
      · exact ⟨rfl, id, fun _ => rfl⟩
  | cons item rest ih =>
      cases item with
      | error error => exact follows_finish ..
      | ok raw =>
          rw [receive]
          split
          · exact follows_finish ..
          · exact ih
          · exact ⟨rfl, id, fun _ => rfl⟩

theorem follows_advance (decode : Decoder) (e : Execution) :
    e.Follows (e.advance decode).2.1 := by
  rw [advance]
  split
  · exact .refl e
  · exact follows_finish ..
  · split
    · exact follows_finish ..
    · exact .refl e
  · split
    · exact follows_finish ..
    · exact .refl e
  · split
    · exact follows_finish ..
    · exact follows_receive ..

theorem follows_pollWith (decode : Decoder) (answer : Submission) (e : Execution) :
    e.Follows (e.pollWith decode answer).2.1 := by
  have hsubmitted : e.Follows (e.submitted answer) := ⟨rfl, id, fun _ => rfl⟩
  rw [pollWith]
  split
  · exact hsubmitted.trans (follows_advance ..)
  · exact follows_advance ..

/-- A poll submits at once what it has to submit. -/
theorem poll_eq_pollWith (decode : Decoder) (e : Execution) (channel : Channel) :
    (e.poll decode channel).1
      = e.pollWith decode (if e.submits then (channel.submit e.traversal).1 else .stalled) := by
  obtain ⟨traversal, phase, emitted, state, cancelled⟩ := e
  cases phase <;> cases cancelled <;> rfl

end Execution

/-- An execution with all that its consumer has seen of it. -/
structure Course where
  execution : Execution
  /-- The execution has not been dropped. -/
  held : Bool
  /-- The answer of the channel, as far as it has come. -/
  answer : Submission
  polls : List Polled
  entries : List QueryLogEntry

namespace Course

inductive Event where
  /-- If the submission has not been answered before, then this is the answer to it now. -/
  | poll (answer : Submission)
  /-- These items arrive. -/
  | supply (items : List StreamItem) (ends : Bool)
  | cancel
  | drop

/-- Whether the consumer polls or drops the execution. -/
def Event.touches : Event → Bool
  | .poll _ | .drop => true
  | _ => false

def start (traversal : CompiledTraversal) : Course := ⟨.start traversal, true, .stalled, [], []⟩

def state (c : Course) : TraversalState := c.execution.state

def outputs (c : Course) : List Output := c.polls.filterMap Polled.output?

def errors (c : Course) : List TraversalError := c.polls.filterMap Polled.error?

def yields (c : Course) : List (Except TraversalError Output) := c.polls.filterMap Polled.item?

/-- What a poll leaves behind. -/
def record (answer : Submission) (turn : Execution.Turn) (c : Course) : Course :=
  { c with
    execution := turn.2.1
    answer := if c.execution.asks then answer else c.answer
    polls := c.polls ++ [turn.1]
    entries := c.entries ++ turn.2.2.toList }

/-- A dropped execution is not polled any more. -/
def perform (decode : Decoder) (c : Course) : Event → Course
  | .poll answer => if c.held then c.record answer (c.execution.pollWith decode answer) else c
  | .supply items ends =>
    { c with execution := c.execution.supply items ends, answer := c.answer.supply items ends }
  | .cancel => { c with execution := c.execution.cancel }
  | .drop => { c with execution := c.execution.drop, held := false }

def run (decode : Decoder) (c : Course) (events : List Event) : Course :=
  events.foldl (perform decode) c

end Course

section Reading

variable {decode : Decoder} {items left : List StreamItem} {outputs : List Output}

/-- All items before these have been read, and these outputs have come of them. -/
def Reads (decode : Decoder) (items left : List StreamItem) (outputs : List Output) : Prop :=
  ∃ (raws : List RawResult) (results : List (Option Output)), items = raws.map .ok ++ left ∧
    raws.map decode = results.map .ok ∧ outputs = results.reduceOption

theorem Reads.start (decode : Decoder) (items : List StreamItem) : Reads decode items items [] :=
  ⟨[], [], rfl, rfl, rfl⟩

theorem Reads.next {raw : RawResult} {result : Option Output}
    (h : Reads decode items (.ok raw :: left) outputs) (hraw : decode raw = .ok result) :
    Reads decode items left (outputs ++ result.toList) := by
  obtain ⟨raws, results, hitems, hresults, rfl⟩ := h
  refine ⟨raws ++ [raw], results ++ [result], ?_, ?_, ?_⟩
  · rw [hitems, List.map_append, List.append_assoc]
    rfl
  · rw [List.map_append, List.map_append, hresults]
    simp [hraw]
  · cases result <;> simp [List.reduceOption_append]

theorem Reads.more (h : Reads decode items left outputs) (more : List StreamItem) :
    Reads decode (items ++ more) (left ++ more) outputs := by
  obtain ⟨raws, results, hitems, hresults⟩ := h
  exact ⟨raws, results, by rw [hitems, List.append_assoc], hresults⟩

/-- The next item is an error, or its decoding is one. -/
inductive Breaks (decode : Decoder) : List StreamItem → TraversalError → Prop
  | engine (error : TraversalError) (rest : List StreamItem) :
      Breaks decode (.error error :: rest) error
  | decoding {raw : RawResult} {error : TraversalError} (rest : List StreamItem)
      (h : decode raw = .error error) : Breaks decode (.ok raw :: rest) error

theorem Breaks.more {error : TraversalError} (h : Breaks decode left error)
    (more : List StreamItem) : Breaks decode (left ++ more) error := by
  cases h with
  | engine _ rest => exact .engine error (rest ++ more)
  | decoding rest h => exact .decoding (rest ++ more) h

/-- What a poll brings that reads the stream. -/
inductive Receives (decode : Decoder) (items : List StreamItem) (ends : Bool)
    (outputs : List Output) (e : Execution) : Execution.Turn → Prop
  | yields (output : Output) (left : List StreamItem)
      (h : Reads decode items left (outputs ++ [output])) :
      Receives decode items ends outputs e (.yielded (.ok output),
        { e with phase := .receiving left ends, emitted := e.emitted + 1 }, none)
  | waits (hends : ends = false) (h : Reads decode items [] outputs) :
      Receives decode items ends outputs e (.pending, { e with phase := .receiving [] ends }, none)
  | completes (hends : ends = true) (h : Reads decode items [] outputs) :
      Receives decode items ends outputs e e.complete
  | fails (left : List StreamItem) (error : TraversalError) (h : Reads decode items left outputs)
      (hbreaks : Breaks decode left error) : Receives decode items ends outputs e (e.fail error)

/-- The phase before the poll does not show after it. -/
theorem Receives.of_phase {ends : Bool} {e : Execution} {phase : Phase} {turn : Execution.Turn}
    (h : Receives decode items ends outputs { e with phase } turn) :
    Receives decode items ends outputs e turn := by
  cases h with
  | yields output left h => exact .yields output left h
  | waits hends h => exact .waits hends h
  | completes hends h => exact .completes hends h
  | fails left error h hbreaks => exact .fails left error h hbreaks

theorem receives_receive (ends : Bool) (e : Execution)
    (h : Reads decode items left outputs) :
    Receives decode items ends outputs e (e.receive decode ends left) := by
  induction left with
  | nil =>
      cases ends with
      | true => exact .completes rfl h
      | false => exact .waits rfl h
  | cons item rest ih =>
      cases item with
      | error error => exact .fails _ error h (.engine error rest)
      | ok raw =>
          rw [Execution.receive]
          cases hraw : decode raw with
          | error error => exact .fails _ error h (.decoding rest hraw)
          | ok result =>
              have hnext := h.next hraw
              cases result with
              | none => exact ih (by simpa using hnext)
              | some output => exact .yields output rest hnext

end Reading

end PropertyGraph
