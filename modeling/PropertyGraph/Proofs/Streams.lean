import PropertyGraph.Proofs.Lookup
import PropertyGraph.Remote.Client

/-!
# Result streams

A stream holds results in order and ends with the first failure. Responses and the loss of the connection
add to a stream only as long as it is connected, and reading takes from its front.
-/

namespace PropertyGraph

/-- Results in order, and the failure that ends them if there is one. -/
def streamOf (results : List RawResult) (failure : Option TraversalError) : List StreamItem :=
  results.map .ok ++ (failure.map .error).toList

theorem streamOf_append (first results : List RawResult) (failure : Option TraversalError) :
    first.map .ok ++ streamOf results failure = streamOf (first ++ results) failure := by
  simp [streamOf]

theorem of_ok_cons_eq_streamOf {raw : RawResult} {rest : List StreamItem}
    {results : List RawResult} {failure : Option TraversalError}
    (h : .ok raw :: rest = streamOf results failure) : ∃ later, rest = streamOf later failure := by
  cases results with
  | nil => cases failure <;> cases h
  | cons result later => exact ⟨later, (List.cons.inj h).2⟩

/-- Nothing follows a failure. -/
theorem of_error_cons_eq_streamOf {e : TraversalError} {rest : List StreamItem}
    {results : List RawResult} {failure : Option TraversalError}
    (h : .error e :: rest = streamOf results failure) : failure = some e ∧ rest = [] := by
  cases results with
  | nil =>
      cases failure with
      | none => cases h
      | some e' =>
          cases h
          exact ⟨rfl, rfl⟩
  | cons result later => cases h

/-- Only the last response of a request can bring a failure. -/
theorem itemsOf_eq_streamOf (response : ResponseMessage) :
    ∃ results failure, Client.itemsOf response = streamOf results failure ∧
      (response.isTerminal = false → failure = none) := by
  unfold Client.itemsOf
  by_cases herror : response.isError = true
  · rw [if_pos herror]
    refine ⟨[], some _, rfl, fun hterminal => ?_⟩
    have hcode : response.status.code = Status.incomplete := by
      simpa [ResponseMessage.isTerminal] using hterminal
    simp [ResponseMessage.isError, hcode] at herror
  · rw [if_neg herror]
    exact ⟨response.result, none, (List.append_nil _).symm, fun _ => rfl⟩

namespace ResultStream

/-- What waits in a stream ends with the first failure, nothing waits in a stream that has been read to
its end, and a stream to which more can arrive has not failed. -/
structure Steady (clock : Nat) (s : ResultStream) : Prop where
  unread : ∃ results failure, s.unread = streamOf results failure ∧
    (s.connected = true → failure = none)
  phase : s.connected = true → s.phase = .open
  read : s.phase ≠ .open → s.unread = []
  deadline : ∀ d ∈ s.deadline, clock < d

/-- What a response does to a stream. -/
def answer (response : ResponseMessage) (s : ResultStream) : ResultStream :=
  if response.requestId = some s.requestId ∧ s.connected = true then
    let s := s.deliver (Client.itemsOf response)
    if response.isTerminal then s.disconnect else s
  else s

/-- What the loss of the connection does to a stream. -/
def cutOff (s : ResultStream) : ResultStream :=
  if s.connected = true then
    (s.deliver [.error ConnectionError.closed.toTraversalError]).disconnect
  else s

variable {s : ResultStream} {clock : Nat}

@[simp] theorem deliver_requestId (items : List StreamItem) :
    (s.deliver items).requestId = s.requestId := rfl

@[simp] theorem deliver_connected (items : List StreamItem) :
    (s.deliver items).connected = s.connected := rfl

@[simp] theorem disconnect_requestId : s.disconnect.requestId = s.requestId := rfl

@[simp] theorem disconnect_connected : s.disconnect.connected = false := rfl

theorem disconnect_eq_self (h : s.connected = false) : s.disconnect = s := by
  obtain ⟨requestId, unread, connected, deadline, phase⟩ := s
  cases h
  rfl

@[simp] theorem answer_requestId (response : ResponseMessage) :
    (s.answer response).requestId = s.requestId := by
  unfold answer
  split
  · split <;> rfl
  · rfl

theorem answer_of_not {response : ResponseMessage}
    (h : ¬(response.requestId = some s.requestId ∧ s.connected = true)) : s.answer response = s :=
  if_neg h

theorem answer_of_terminal {response : ResponseMessage} (hid : response.requestId = some s.requestId)
    (hconnected : s.connected = true) (hterminal : response.isTerminal = true) :
    s.answer response = (s.deliver (Client.itemsOf response)).disconnect := by
  unfold answer
  rw [if_pos ⟨hid, hconnected⟩, if_pos hterminal]

theorem answer_of_not_terminal {response : ResponseMessage}
    (hid : response.requestId = some s.requestId) (hconnected : s.connected = true)
    (hterminal : response.isTerminal = false) :
    s.answer response = s.deliver (Client.itemsOf response) := by
  unfold answer
  rw [if_pos ⟨hid, hconnected⟩, hterminal]
  rfl

namespace Steady

theorem disconnect (h : s.Steady clock) : s.disconnect.Steady clock where
  unread :=
    have ⟨results, failure, hunread, _⟩ := h.unread
    ⟨results, failure, hunread, fun hconnected => nomatch hconnected⟩
  phase hconnected := nomatch hconnected
  read := h.read
  deadline := h.deadline

theorem deliver (h : s.Steady clock) (hconnected : s.connected = true)
    (results : List RawResult) : (s.deliver (streamOf results none)).Steady clock where
  unread := by
    obtain ⟨earlier, failure, hunread, hnone⟩ := h.unread
    cases hnone hconnected
    refine ⟨earlier ++ results, none, ?_, fun _ => rfl⟩
    simp [ResultStream.deliver, hunread, streamOf]
  phase := h.phase
  read hphase := absurd (h.phase hconnected) hphase
  deadline := h.deadline

/-- What is delivered last may fail. -/
theorem finish (h : s.Steady clock) (hconnected : s.connected = true)
    (results : List RawResult) (failure : Option TraversalError) :
    (s.deliver (streamOf results failure)).disconnect.Steady clock where
  unread := by
    obtain ⟨earlier, none', hunread, hnone⟩ := h.unread
    cases hnone hconnected
    refine ⟨earlier ++ results, failure, ?_, fun hconnected => nomatch hconnected⟩
    simp [ResultStream.deliver, ResultStream.disconnect, hunread, streamOf]
  phase hconnected := nomatch hconnected
  read hphase := absurd (h.phase hconnected) hphase
  deadline := h.deadline

theorem cutOff (h : s.Steady clock) : s.cutOff.Steady clock := by
  unfold ResultStream.cutOff
  split
  · next hconnected => exact h.finish hconnected [] (some _)
  · exact h

theorem answer (h : s.Steady clock) (response : ResponseMessage) :
    (s.answer response).Steady clock := by
  by_cases hits : response.requestId = some s.requestId ∧ s.connected = true
  · obtain ⟨hid, hconnected⟩ := hits
    obtain ⟨results, failure, hitems, hnone⟩ := itemsOf_eq_streamOf response
    cases hterminal : response.isTerminal with
    | true =>
        rw [answer_of_terminal hid hconnected hterminal, hitems]
        exact h.finish hconnected results failure
    | false =>
        rw [answer_of_not_terminal hid hconnected hterminal, hitems, hnone hterminal]
        exact h.deliver hconnected results
  · rw [answer_of_not hits]
    exact h

/-! Reading from a stream -/

theorem takeResult {raw : RawResult} {rest : List StreamItem} (h : s.Steady clock)
    (hopen : s.phase = .open) (hunread : s.unread = .ok raw :: rest) :
    Steady clock { s with unread := rest, deadline := none } where
  unread := by
    obtain ⟨results, failure, hstream, hnone⟩ := h.unread
    obtain ⟨later, hrest⟩ := of_ok_cons_eq_streamOf (hunread.symm.trans hstream)
    exact ⟨later, failure, hrest, hnone⟩
  phase _ := hopen
  read hphase := absurd hopen hphase
  deadline _ hd := nomatch hd

theorem takeFailure {e : TraversalError} {rest : List StreamItem} (h : s.Steady clock)
    (hunread : s.unread = .error e :: rest) :
    Steady clock { s with unread := rest, deadline := none, phase := .failed } := by
  obtain ⟨results, failure, hstream, hnone⟩ := h.unread
  obtain ⟨hfailure, hrest⟩ := of_error_cons_eq_streamOf (hunread.symm.trans hstream)
  exact
    { unread := ⟨[], none, hrest, fun _ => rfl⟩
      phase := fun hconnected => by
        rw [hnone hconnected] at hfailure
        cases hfailure
      read := fun _ => hrest
      deadline := fun _ hd => nomatch hd }

theorem wait {d : Nat} (h : s.Steady clock) (hd : clock < d) :
    Steady clock { s with deadline := some d } where
  unread := h.unread
  phase := h.phase
  read := h.read
  deadline _ hd' := by
    cases hd'
    exact hd

theorem ended (h : s.Steady clock) (hunread : s.unread = []) (hconnected : s.connected = false) :
    Steady clock { s with phase := .ended } where
  unread := ⟨[], none, hunread, fun _ => rfl⟩
  phase hopen := nomatch hconnected.symm.trans hopen
  read _ := hunread
  deadline := h.deadline

end Steady

end ResultStream

end PropertyGraph
