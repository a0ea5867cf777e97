import PropertyGraph.Proofs.Framing

/-!
# Which failures are reported

The server ends a failed request with one response that has the status of the failure. The client tells
from the status of a response whether it is the last one and whether it is a failure, and three statuses
mean something else. An engine that fails with one of these is not heard: its failure passes for the end of
the results, or for a batch without results, and then the request waits on. Every other failure reaches the
stream of its request.
-/

namespace PropertyGraph

namespace Server

/-- The channel fails after these results, at once or within its stream. -/
inductive FailsAfter : Submission → List RawResult → TraversalError → Prop
  | refused (e : TraversalError) : FailsAfter (.refused e) [] e
  | stream (results : List RawResult) (e : TraversalError) (rest : List StreamItem) (ends : Bool) :
      FailsAfter (.accepted (results.map .ok ++ .error e :: rest) ends) results e

variable {id : RequestId} {e : TraversalError}

theorem requestId_failure (id : RequestId) (e : TraversalError) :
    (failure id e).requestId = some id := by
  cases e <;> rfl

theorem isError_failure_iff (id : RequestId) : (failure id e).isError = true ↔ Reportable e := by
  cases e with
  | server code reason =>
      simp [failure, ResponseMessage.error, ResponseMessage.isError, Reportable]
  | schema _ | typeMismatch _ _ | unknownProperty _ _ | unboundReference _ | cardinality _
  | transport _ | decoding _ | typeFilterMismatch _ _ | cancelled | serialization _
  | configuration _ => exact iff_of_true rfl True.intro

theorem isTerminal_failure (h : (failure id e).status.code ≠ Status.incomplete) :
    (failure id e).isTerminal = true := bne_iff_ne.mpr h

theorem status_failure_of_reportable (h : Reportable e) :
    (failure id e).status.code ≠ Status.incomplete := by
  intro hcode
  have herror := (isError_failure_iff id).mpr h
  rw [ResponseMessage.isError, hcode] at herror
  cases herror

theorem itemsOf_failure (h : Reportable e) :
    Client.itemsOf (failure id e)
      = [.error (.server (failure id e).status.code (failure id e).status.message)] := by
  rw [Client.itemsOf, if_pos ((isError_failure_iff id).mpr h)]

theorem itemsOf_failure_of_not (h : ¬Reportable e) : Client.itemsOf (failure id e) = [] := by
  rw [Client.itemsOf, if_neg ((isError_failure_iff id).not.mpr h)]
  cases e <;> rfl

/-- The statuses that are not reported belong to failures of an engine. -/
theorem not_reportable
    (h : (failure id e).status.code ∈ [Status.success, Status.noContent, Status.incomplete]) :
    ¬Reportable e := by
  rw [← isError_failure_iff id, ResponseMessage.isError, Bool.not_eq_true',
    Bool.not_eq_false, List.contains_iff_mem]
  exact h

/-- Responses with more to follow that carry these items. -/
structure Batches (id : RequestId) (items : List StreamItem) (frames : List ResponseMessage) :
    Prop where
  own : ∀ frame ∈ frames, frame.requestId = some id
  more : ∀ frame ∈ frames, frame.isTerminal = false ∧ frame.isError = false
  items : frames.flatMap Client.itemsOf = items

theorem Batches.nil : Batches id [] [] where
  own _ h := nomatch h
  more _ h := nomatch h
  items := rfl

theorem Batches.cons {items : List StreamItem} {frames : List ResponseMessage}
    (h : Batches id items frames) (results : List RawResult) :
    Batches id (results.map .ok ++ items) (.batch id results :: frames) where
  own := List.forall_mem_cons.mpr ⟨rfl, h.own⟩
  more := List.forall_mem_cons.mpr ⟨⟨rfl, rfl⟩, h.more⟩
  items := by
    rw [List.flatMap_cons, h.items]
    rfl

/-- All results before a failure are sent in batches, and the failure is sent last. -/
theorem respondTo_of_failing (id : RequestId) (ends : Bool) (results : List RawResult)
    (e : TraversalError) (rest : List StreamItem) (filling : List RawResult) :
    ∃ batches, respondTo id ends filling (results.map .ok ++ .error e :: rest)
        = batches ++ [failure id e] ∧
      Batches id ((filling.reverse ++ results).map .ok) batches := by
  induction results generalizing filling with
  | nil =>
      rw [List.append_nil]
      cases filling with
      | nil => exact ⟨[], rfl, .nil⟩
      | cons result filling =>
          refine ⟨[.batch id (result :: filling).reverse], rfl, ?_⟩
          have hbatch : Batches id _ _ := Batches.nil.cons (result :: filling).reverse
          rwa [List.append_nil] at hbatch
  | cons result results ih =>
      rw [List.map_cons, List.cons_append, respondTo]
      split
      · obtain ⟨batches, hbatches, hspec⟩ := ih []
        refine ⟨.batch id (result :: filling).reverse :: batches, by rw [hbatches]; rfl, ?_⟩
        simpa using hspec.cons (result :: filling).reverse
      · obtain ⟨batches, hbatches, hspec⟩ := ih (result :: filling)
        exact ⟨batches, hbatches, by simpa using hspec⟩

theorem responses_of_failing {submission : Submission} {results : List RawResult}
    (h : FailsAfter submission results e) (id : RequestId) :
    ∃ batches, responses id submission = batches ++ [failure id e] ∧
      Batches id (results.map .ok) batches := by
  cases h with
  | refused => exact ⟨[], rfl, .nil⟩
  | stream _ _ rest ends => exact respondTo_of_failing id ends results e rest []

end Server

/-! ### What arrives -/

namespace ResultStream

variable {s : ResultStream}

theorem deliver_nil : s.deliver [] = s := by simp [deliver]

theorem answerAll_of_batches {items : List StreamItem} {batches : List ResponseMessage}
    (h : Server.Batches s.requestId items batches) (hconnected : s.connected = true) :
    s.answerAll batches = s.deliver items := by
  have hmore := fun batch hbatch => (h.more batch hbatch).1
  rw [answerAll_of_not_terminal h.own hmore hconnected, h.items]

end ResultStream

section Failing

variable {c : Client} {id : RequestId} {number : Nat} {s : ResultStream} {submission : Submission}
  {results : List RawResult} {e : TraversalError}

theorem stream?_failing (h : c.Sound) (hs : c.stream? number = some s) (hid : s.requestId = id)
    (hconnected : s.connected = true) (hfails : Server.FailsAfter submission results e) :
    (c.routeAll (Server.responses id submission)).stream? number
      = some ((s.deliver (results.map .ok)).answer (Server.failure id e)) := by
  obtain ⟨batches, hframes, hbatches⟩ := Server.responses_of_failing hfails id
  subst hid
  have hall : s.answerAll (batches ++ [Server.failure s.requestId e])
      = (s.answerAll batches).answer (Server.failure s.requestId e) := List.foldl_concat ..
  rw [(h.routeAll _).2, hs, Option.map_some, hframes, hall,
    ResultStream.answerAll_of_batches hbatches hconnected]

/-- A failure that is the last response closes its stream, and brings its items before. -/
theorem stream?_failing_last (h : c.Sound) (hs : c.stream? number = some s) (hid : s.requestId = id)
    (hconnected : s.connected = true) (hfails : Server.FailsAfter submission results e)
    (hcode : (Server.failure id e).status.code ≠ Status.incomplete) :
    (c.routeAll (Server.responses id submission)).stream? number
        = some ((s.deliver (results.map .ok ++ Client.itemsOf (Server.failure id e))).disconnect) ∧
      id ∉ (c.routeAll (Server.responses id submission)).pending.map Prod.fst := by
  have hnumber := (h.lookup_iff id number).mpr ⟨s, hs, hid, hconnected⟩
  have hstream := stream?_failing h hs hid hconnected hfails
  have howner : (Server.failure id e).requestId = some s.requestId :=
    (Server.requestId_failure id e).trans (congrArg some hid.symm)
  have hanswer := ResultStream.answer_of_terminal (s := s.deliver (results.map .ok)) howner
    hconnected (Server.isTerminal_failure hcode)
  rw [hanswer, ResultStream.deliver_deliver] at hstream
  refine ⟨hstream, (h.mem_pending_routeAll hnumber _).not.mpr ?_⟩
  rintro ⟨s', hs', hconnected'⟩
  cases hstream.symm.trans hs'
  cases hconnected'

/-- A failure with the status of a batch leaves its stream open. -/
theorem stream?_failing_batch (h : c.Sound) (hs : c.stream? number = some s)
    (hid : s.requestId = id) (hconnected : s.connected = true)
    (hfails : Server.FailsAfter submission results e)
    (hcode : (Server.failure id e).status.code = Status.incomplete) :
    (c.routeAll (Server.responses id submission)).stream? number
        = some (s.deliver (results.map .ok)) ∧
      id ∈ (c.routeAll (Server.responses id submission)).pending.map Prod.fst := by
  have hnumber := (h.lookup_iff id number).mpr ⟨s, hs, hid, hconnected⟩
  have hstream := stream?_failing h hs hid hconnected hfails
  have howner : (Server.failure id e).requestId = some s.requestId :=
    (Server.requestId_failure id e).trans (congrArg some hid.symm)
  have hnot : ¬Server.Reportable e := Server.not_reportable (by
    rw [hcode]
    decide)
  have hmore : (Server.failure id e).isTerminal = false := by
    rw [ResponseMessage.isTerminal, hcode]
    rfl
  have hanswer := ResultStream.answer_of_not_terminal (s := s.deliver (results.map .ok)) howner
    hconnected hmore
  rw [hanswer, Server.itemsOf_failure_of_not hnot, ResultStream.deliver_nil] at hstream
  exact ⟨hstream, (h.mem_pending_routeAll hnumber _).mpr ⟨_, hstream, hconnected⟩⟩

end Failing

/-- A failure is told from everything else if and only if its status is none of the three that mean
something else. Then its request is not pending any more, and its stream yields the results before it, the
failure with its status and text, and the end. With the status of a success the stream ends as if nothing
had failed, and with the status of a batch the request goes on waiting. -/
theorem failure_reported_iff {config : ConnectionConfig} {start : Client}
    {history : List Client.Event} {id : RequestId} {submission : Submission}
    {results : List RawResult} {e : TraversalError}
    (hstart : Client.connect config = .ok start)
    (hpending : id ∈ (start.run history).pending.map Prod.fst)
    (hfails : Server.FailsAfter submission results e) :
    let c := start.run history
    let frames := Server.responses id submission
    let last := Server.failure id e
    let after := c.routeAll frames
    (∃ batches, frames = batches ++ [last] ∧
      ∀ batch ∈ batches, batch.isTerminal = false ∧ batch.isError = false) ∧
    (last.isTerminal = true ∧ last.isError = true ↔ Server.Reportable e) ∧
    (∃ number s, c.pending.lookup id = some number ∧ c.stream? number = some s ∧
      let arrived := s.unread ++ results.map .ok
      (Server.Reportable e →
        id ∉ after.pending.map Prod.fst ∧
        after.polls number (arrived.length + 2) = arrived.map .item
          ++ [.item (.error (.server last.status.code last.status.message)), .ended]) ∧
      (last.status.code ∈ [Status.success, Status.noContent] →
        id ∉ after.pending.map Prod.fst ∧
        after.polls number (arrived.length + 1) = arrived.map .item ++ [.ended]) ∧
      (last.status.code = Status.incomplete →
        id ∈ after.pending.map Prod.fst ∧
        after.polls number (arrived.length + 1) = arrived.map .item ++ [.pending])) ∧
    ∀ texts : List String, c.closed = false →
      texts.map (WireForm.ofText ResponseMessage) = frames.map .ok →
        c.run (texts.map .frame) = after := by
  intro c frames last after
  have hsound : c.Sound := (Client.sound_of_connect hstart).1.run history
  have hafter : after.Sound := (hsound.routeAll frames).1
  obtain ⟨batches, hframes, hbatches⟩ := Server.responses_of_failing hfails id
  obtain ⟨number, hnumber⟩ := mem_keys_iff_lookup.mp hpending
  obtain ⟨s, hs, hid, hconnected⟩ := (hsound.lookup_iff id number).mp hnumber
  refine ⟨⟨batches, hframes, hbatches.more⟩, ⟨fun h => (Server.isError_failure_iff id).mp h.2,
    fun h => ⟨Server.isTerminal_failure (Server.status_failure_of_reportable h),
      (Server.isError_failure_iff id).mpr h⟩⟩, ⟨number, s, hnumber, hs, ?_, ?_, ?_⟩, ?_⟩
  · intro hreportable
    obtain ⟨hend, hreleased⟩ := stream?_failing_last hsound hs hid hconnected hfails
      (Server.status_failure_of_reportable hreportable)
    rw [Server.itemsOf_failure hreportable] at hend
    refine ⟨hreleased, ?_⟩
    have hpolls := hafter.polls_eq hend rfl
    simpa [ResultStream.deliver, ResultStream.disconnect, Nat.add_assoc] using hpolls
  · intro hcode
    have hnot : ¬Server.Reportable e := Server.not_reportable
      (List.mem_of_mem_take (i := 2) hcode)
    have hne : last.status.code ≠ Status.incomplete := by
      intro heq
      rw [heq] at hcode
      exact absurd hcode (by decide)
    obtain ⟨hend, hreleased⟩ := stream?_failing_last hsound hs hid hconnected hfails hne
    rw [Server.itemsOf_failure_of_not hnot] at hend
    refine ⟨hreleased, ?_⟩
    have hpolls := hafter.polls_eq hend rfl
    simpa [ResultStream.deliver, ResultStream.disconnect] using hpolls
  · intro hcode
    obtain ⟨hstream, hstill⟩ := stream?_failing_batch hsound hs hid hconnected hfails hcode
    refine ⟨hstill, ?_⟩
    have hpolls := hafter.polls_unread hstream
    simpa [ResultStream.deliver, Client.nextOf, hconnected] using hpolls
  · intro texts hopen htexts
    exact Client.run_frames hopen htexts

/-- A failure with the status of a batch leaves its request pending. -/
theorem failure_taken_for_batch :
    let id : RequestId := ⟨List.replicate 32 1, rfl⟩
    let start : Client := ⟨.default, 0, false, [], [], 0⟩
    let c := start.run [.send ⟨id, ⟨[]⟩⟩]
    let last := Server.failure id (.server 206 "lost")
    let after := c.routeAll (Server.responses id (.refused (.server 206 "lost")))
    Client.connect .default = .ok start ∧ Server.responses id (.refused (.server 206 "lost")) = [last] ∧
      last.isTerminal = false ∧ last.isError = false ∧ id ∈ after.pending.map Prod.fst ∧
      (after.poll 0).1 = .pending := by
  intro id start c last after
  exact ⟨Client.connect_default, rfl, rfl, rfl, by decide +kernel, rfl⟩

/-- The failure of an engine arrives after the result before it. -/
theorem engine_failure_arrives :
    let id : RequestId := ⟨List.replicate 32 1, rfl⟩
    let start : Client := ⟨.default, 0, false, [], [], 0⟩
    let found : RawResult := .value (.bool true)
    let failed : TraversalError := .server 597 "boom"
    let c := start.run [.send ⟨id, ⟨[]⟩⟩]
    let after := c.routeAll (Server.responses id (.accepted [.ok found, .error failed] true))
    Client.connect .default = .ok start ∧ id ∈ c.pending.map Prod.fst ∧
      Server.FailsAfter (.accepted [.ok found, .error failed] true) [found] failed ∧
      id ∉ after.pending.map Prod.fst ∧
      after.polls 0 3 = [.item (.ok found), .item (.error (.server 597 "boom")), .ended] := by
  intro id start found failed c after
  have hpending : id ∈ c.pending.map Prod.fst := by decide +kernel
  have hfails : Server.FailsAfter (.accepted [.ok found, .error failed] true) [found] failed :=
    .stream [found] failed [] true
  obtain ⟨-, -, ⟨number, s, hnumber, hs, hreported, -⟩, -⟩ :=
    failure_reported_iff Client.connect_default hpending hfails
  have hreportable : Server.Reportable failed := by
    unfold failed Server.Reportable
    decide
  cases hnumber
  cases hs
  obtain ⟨hreleased, hpolls⟩ := hreported hreportable
  exact ⟨Client.connect_default, hpending, hfails, hreleased, hpolls⟩

end PropertyGraph
