import PropertyGraph.Proofs.Courses

/-!
# How far a course has come

The invariant says how far the stream has been read at each moment: the results of a prefix have been handed
out, nothing has been logged before the poll that closes the execution, and that poll fixes its state. It is
kept by every event.
-/

namespace PropertyGraph

namespace Course

variable {decode : Decoder} {c : Course}

/-- Why an execution has failed. -/
inductive Cause (decode : Decoder) (c : Course) : TraversalError → Prop
  | cancelled (h : c.execution.cancelled = true) : Cause decode c .cancelled
  | refused {error : TraversalError} (h : c.answer = .refused error) : Cause decode c error
  | broken {error : TraversalError} {left : List StreamItem}
      (h : Reads decode c.answer.items left c.outputs) (hbreaks : Breaks decode left error) :
      Cause decode c error

/-- Neither the end nor an error has been seen. -/
structure Open (c : Course) : Prop where
  polls : ∀ p ∈ c.polls, p.closes = false
  emitted : c.execution.emitted = c.outputs.length
  entries : c.entries = []
  state : c.state = if c.held then .executing else .failed

/-- The end or an error has been seen, and since then nothing but the end. -/
structure Closed (c : Course) (last : Polled) : Prop where
  phase : c.execution.phase = .ended
  polls : ∃ before count, c.polls = before ++ last :: List.replicate count .ended ∧
    ∀ p ∈ before, p.closes = false

/-- How far a course has come. -/
inductive Stage (decode : Decoder) (c : Course) : Prop
  | waiting (isOpen : c.Open)
      (phase : c.execution.phase = .unsent ∨ c.execution.phase = .sending)
      (answer : c.answer = .stalled) (outputs : c.outputs = [])
  | receiving {items left : List StreamItem} {ends : Bool} (isOpen : c.Open)
      (phase : c.execution.phase = .receiving left ends) (answer : c.answer = .accepted items ends)
      (reads : Reads decode items left c.outputs)
  | completed {items : List StreamItem} (closed : c.Closed .ended) (state : c.state = .completed)
      (answer : c.answer = .accepted items true) (reads : Reads decode items [] c.outputs)
      (entries : c.entries = [⟨c.execution.traversal, .completed c.outputs.length⟩])
  | failed {error : TraversalError} {left : List StreamItem}
      (closed : c.Closed (.yielded (.error error))) (state : c.state = .failed)
      (reads : Reads decode c.answer.items left c.outputs) (cause : Cause decode c error)
      (entries : c.entries = [⟨c.execution.traversal, error.outcome⟩])

theorem open_start (traversal : CompiledTraversal) : (start traversal).Open where
  polls _ h := nomatch h
  emitted := rfl
  entries := rfl
  state := rfl

theorem stage_start (decode : Decoder) (traversal : CompiledTraversal) :
    Stage decode (start traversal) := .waiting (open_start traversal) (.inl rfl) rfl rfl

section Poll

variable {answer : Submission} {turn : Execution.Turn} {items left : List StreamItem} {ends : Bool}
  {error : TraversalError}

theorem outputs_record : (c.record answer turn).outputs = c.outputs ++ turn.1.output?.toList := by
  have hlast : [turn.1].filterMap Polled.output? = turn.1.output?.toList := by
    cases h : turn.1.output? <;> simp [h]
  rw [outputs, record, List.filterMap_append, hlast, outputs]

theorem outputs_record_of_none (h : turn.1.output? = none) :
    (c.record answer turn).outputs = c.outputs := by
  rw [outputs_record, h]
  exact List.append_nil _

theorem Open.executing (h : c.Open) (hheld : c.held = true) : c.execution.state = .executing := by
  have hstate := h.state
  rw [hheld] at hstate
  exact hstate

theorem Open.held (h : c.Open) (hstate : c.state = .executing) : c.held = true := by
  cases hheld : c.held with
  | true => rfl
  | false =>
      have hfailed := h.state
      rw [hheld, hstate] at hfailed
      cases hfailed

/-- A poll that brings an output or nothing. -/
theorem Open.record (h : c.Open) (hcloses : turn.1.closes = false) (hentry : turn.2.2 = none)
    (hstate : turn.2.1.state = c.execution.state)
    (hemitted : turn.2.1.emitted = c.execution.emitted + turn.1.output?.toList.length) :
    (c.record answer turn).Open where
  polls p hp := by
    rcases List.mem_append.mp hp with hp | hp
    · exact h.polls p hp
    · rw [List.mem_singleton.mp hp, hcloses]
  emitted := by
    rw [outputs_record, List.length_append, ← h.emitted]
    exact hemitted
  entries := by
    rw [Course.record, h.entries, hentry]
    rfl
  state := hstate.trans h.state

/-- A poll that brings the end or an error. -/
theorem Open.closed (h : c.Open) (hphase : turn.2.1.phase = .ended) :
    (c.record answer turn).Closed turn.1 where
  phase := hphase
  polls := ⟨c.polls, 0, rfl, h.polls⟩

theorem Open.complete (h : c.Open) (hheld : c.held = true)
    (hanswer : (c.record answer c.execution.complete).answer = .accepted items true)
    (hreads : Reads decode items [] c.outputs) :
    Stage decode (c.record answer c.execution.complete) := by
  have houtputs : (c.record answer c.execution.complete).outputs = c.outputs :=
    outputs_record_of_none rfl
  have hstate := Execution.finish_of_executing (e := { c.execution with phase := .ended })
    (h.executing hheld) .completed
  refine .completed (h.closed (Execution.phase_finish ..)) hstate hanswer (by rwa [houtputs]) ?_
  rw [houtputs, ← h.emitted, Course.record, h.entries]
  simp [Execution.complete]

theorem Open.fail (h : c.Open) (hheld : c.held = true)
    (hreads : Reads decode (c.record answer (c.execution.fail error)).answer.items left c.outputs)
    (hcause : Cause decode (c.record answer (c.execution.fail error)) error) :
    Stage decode (c.record answer (c.execution.fail error)) := by
  have houtputs : (c.record answer (c.execution.fail error)).outputs = c.outputs :=
    outputs_record_of_none rfl
  have hstate := Execution.finish_of_executing (e := { c.execution with phase := .ended })
    (h.executing hheld) .failed
  refine .failed (h.closed (Execution.phase_finish ..)) hstate (by rwa [houtputs]) hcause ?_
  rw [Course.record, h.entries]
  simp [Execution.fail]

theorem Open.receives (h : c.Open) (hheld : c.held = true)
    (hanswer : (c.record answer turn).answer = .accepted items ends)
    (hturn : Receives decode items ends c.outputs c.execution turn) :
    Stage decode (c.record answer turn) := by
  cases hturn with
  | yields output left hreads =>
      refine .receiving (h.record rfl rfl rfl rfl) rfl hanswer ?_
      rw [outputs_record]
      exact hreads
  | waits hends hreads =>
      refine .receiving (h.record rfl rfl rfl rfl) rfl hanswer ?_
      rwa [outputs_record_of_none rfl]
  | completes hends hreads =>
      subst hends
      exact h.complete hheld hanswer hreads
  | fails left error hreads hbreaks =>
      have hitems : (c.record answer (c.execution.fail error)).answer.items = items := by
        rw [hanswer]
        rfl
      have hbroken : Reads decode (c.record answer (c.execution.fail error)).answer.items left
          (c.record answer (c.execution.fail error)).outputs := by
        rwa [hitems, outputs_record_of_none rfl]
      exact h.fail hheld (by rwa [hitems]) (.broken hbroken hbreaks)

theorem Closed.pollWith {last : Polled} (h : c.Closed last) (decode : Decoder)
    (answer : Submission) :
    c.execution.asks = false ∧ c.execution.pollWith decode answer = (.ended, c.execution, none) := by
  simp [Execution.pollWith, Execution.asks, Execution.advance, h.phase]

end Poll

/-- What may still happen to a course that is closed. -/
structure Settles (c d : Course) : Prop where
  phase : d.execution.phase = c.execution.phase
  traversal : d.execution.traversal = c.execution.traversal
  state : d.state = c.state
  cancelled : c.execution.cancelled = true → d.execution.cancelled = true
  answer : ∃ more ends, d.answer = c.answer.supply more ends
  polls : ∃ count, d.polls = c.polls ++ List.replicate count .ended
  entries : d.entries = c.entries

section Settles

variable {d : Course} {error : TraversalError} {left : List StreamItem}

theorem Settles.outputs (h : c.Settles d) : d.outputs = c.outputs := by
  obtain ⟨count, hpolls⟩ := h.polls
  have hends : (List.replicate count Polled.ended).filterMap Polled.output? = [] :=
    List.filterMap_replicate_of_none rfl
  rw [Course.outputs, hpolls, List.filterMap_append, hends, List.append_nil, Course.outputs]

theorem Settles.closed {last : Polled} (h : c.Settles d) (hclosed : c.Closed last) :
    d.Closed last where
  phase := h.phase.trans hclosed.phase
  polls := by
    obtain ⟨before, count, hbefore, hopen⟩ := hclosed.polls
    obtain ⟨more, hpolls⟩ := h.polls
    refine ⟨before, count + more, ?_, hopen⟩
    rw [hpolls, hbefore, List.append_assoc, List.cons_append, List.replicate_append_replicate]

theorem Settles.reads (h : c.Settles d) (hreads : Reads decode c.answer.items left c.outputs) :
    ∃ more, Reads decode d.answer.items (left ++ more) d.outputs := by
  obtain ⟨more, ends, hanswer⟩ := h.answer
  rw [hanswer, h.outputs]
  match hbefore : c.answer with
  | .accepted items false =>
      rw [hbefore] at hreads
      exact ⟨more, hreads.more more⟩
  | .accepted items true | .refused _ | .stalled =>
      rw [hbefore] at hreads
      exact ⟨[], by simpa [Submission.supply] using hreads⟩

theorem Settles.cause (h : c.Settles d) (hcause : Cause decode c error) :
    Cause decode d error := by
  cases hcause with
  | cancelled hcancelled => exact .cancelled (h.cancelled hcancelled)
  | refused hrefused =>
      obtain ⟨more, ends, hanswer⟩ := h.answer
      rw [hrefused] at hanswer
      exact .refused hanswer
  | broken hreads hbreaks =>
      obtain ⟨more, hlater⟩ := h.reads hreads
      exact .broken hlater (hbreaks.more more)

theorem Settles.completed {items : List StreamItem} (h : c.Settles d) (closed : c.Closed .ended)
    (state : c.state = .completed) (answer : c.answer = .accepted items true)
    (reads : Reads decode items [] c.outputs)
    (entries : c.entries = [⟨c.execution.traversal, .completed c.outputs.length⟩]) :
    Stage decode d := by
  obtain ⟨more, ends, hanswer⟩ := h.answer
  rw [answer] at hanswer
  refine .completed (h.closed closed) (h.state.trans state) hanswer (by rwa [h.outputs]) ?_
  rw [h.entries, entries, h.traversal, h.outputs]

theorem Settles.failed (h : c.Settles d) (closed : c.Closed (.yielded (.error error)))
    (state : c.state = .failed) (reads : Reads decode c.answer.items left c.outputs)
    (cause : Cause decode c error)
    (entries : c.entries = [⟨c.execution.traversal, error.outcome⟩]) :
    Stage decode d := by
  obtain ⟨more, hreads⟩ := h.reads reads
  refine .failed (h.closed closed) (h.state.trans state) hreads (h.cause cause) ?_
  rw [h.entries, entries, h.traversal]

theorem Closed.settles_poll {last : Polled} (h : c.Closed last) (decode : Decoder)
    (answer : Submission) :
    c.Settles (c.record answer (c.execution.pollWith decode answer)) := by
  obtain ⟨hasks, hturn⟩ := h.pollWith decode answer
  rw [hturn]
  exact {
    phase := rfl
    traversal := rfl
    state := rfl
    cancelled := id
    answer := ⟨[], false, by simp [record, hasks]⟩
    polls := ⟨1, rfl⟩
    entries := List.append_nil _ }

end Settles

section Poll

variable {answer : Submission}

theorem Stage.open_of_executing (h : Stage decode c) (hstate : c.state = .executing) :
    c.Open ∧ ∃ left, Reads decode c.answer.items left c.outputs := by
  cases h with
  | waiting isOpen phase answered outputs =>
      refine ⟨isOpen, [], ?_⟩
      rw [answered, outputs]
      exact .start decode []
  | @receiving items left ends isOpen phase answered reads =>
      exact ⟨isOpen, left, by rwa [answered]⟩
  | completed closed state | failed closed state => simp [state] at hstate

/-- A cancelled execution fails at its next poll, which does not ask the channel. -/
theorem Stage.pollWith_of_cancelled (h : Stage decode c) (hstate : c.state = .executing)
    (hcancelled : c.execution.cancelled = true) (answer : Submission) :
    c.execution.asks = false ∧
      c.execution.pollWith decode answer = c.execution.fail .cancelled := by
  cases h with
  | waiting isOpen phase =>
      rcases phase with phase | phase <;>
        simp [Execution.pollWith, Execution.asks, Execution.advance, phase, hcancelled]
  | receiving isOpen phase =>
      simp [Execution.pollWith, Execution.asks, Execution.advance, phase, hcancelled]
  | completed closed state | failed closed state => simp [state] at hstate

theorem Stage.poll_cancelled (h : Stage decode c) (hheld : c.held = true)
    (hstate : c.state = .executing) (hcancelled : c.execution.cancelled = true)
    (answer : Submission) :
    Stage decode (c.record answer (c.execution.pollWith decode answer)) := by
  obtain ⟨isOpen, left, hreads⟩ := h.open_of_executing hstate
  obtain ⟨hasks, hturn⟩ := h.pollWith_of_cancelled hstate hcancelled answer
  have hanswer : (c.record answer (c.execution.fail .cancelled)).answer = c.answer := by
    simp [record, hasks]
  rw [hturn]
  refine isOpen.fail hheld (by rwa [hanswer]) (.cancelled ?_)
  simpa [record, Execution.fail] using hcancelled

/-- As long as the submission has not been answered, a poll brings what the answer brings. -/
theorem Open.poll_unanswered (h : c.Open) (hheld : c.held = true)
    (hphase : c.execution.phase = .unsent ∨ c.execution.phase = .sending)
    (houtputs : c.outputs = []) (hcancelled : c.execution.cancelled = false) :
    Stage decode (c.record answer (c.execution.pollWith decode answer)) := by
  have hasks : c.execution.asks = true := by
    rcases hphase with hphase | hphase <;> simp [Execution.asks, hphase, hcancelled]
  have hanswer (turn : Execution.Turn) : (c.record answer turn).answer = answer := by
    simp [Course.record, hasks]
  have hreads (items : List StreamItem) : Reads decode items items c.outputs := by
    rw [houtputs]
    exact .start decode items
  rw [Execution.pollWith, if_pos hasks]
  cases answer with
  | refused error =>
      have hnothing := hreads []
      exact h.fail hheld (by rwa [hanswer]) (.refused (hanswer _))
  | stalled =>
      have hturn : (c.execution.submitted .stalled).advance decode
          = (.pending, { c.execution with phase := .sending }, none) := by
        simp [Execution.advance, Execution.submitted, hcancelled]
      rw [hturn]
      refine .waiting (h.record rfl rfl rfl rfl) (.inr rfl) (hanswer _) ?_
      rw [outputs_record, houtputs]
      rfl
  | accepted items ends =>
      have hturn : (c.execution.submitted (.accepted items ends)).advance decode
          = (c.execution.submitted (.accepted items ends)).receive decode ends items := by
        simp [Execution.advance, Execution.submitted, hcancelled]
      rw [hturn]
      exact h.receives hheld (hanswer _) (receives_receive ends _ (hreads items)).of_phase

theorem Open.poll_answered {items left : List StreamItem} {ends : Bool} (h : c.Open)
    (hheld : c.held = true) (hphase : c.execution.phase = .receiving left ends)
    (hanswered : c.answer = .accepted items ends) (hreads : Reads decode items left c.outputs)
    (hcancelled : c.execution.cancelled = false) :
    Stage decode (c.record answer (c.execution.pollWith decode answer)) := by
  have hasks : c.execution.asks = false := by simp [Execution.asks, hphase]
  have hturn : c.execution.pollWith decode answer = c.execution.receive decode ends left := by
    simp [Execution.pollWith, hasks, Execution.advance, hphase, hcancelled]
  rw [hturn]
  refine h.receives hheld ?_ (receives_receive ends _ hreads)
  simp [Course.record, hasks, hanswered]

end Poll

/-- A poll keeps the invariant. -/
theorem Stage.poll (h : Stage decode c) (hheld : c.held = true) (answer : Submission) :
    Stage decode (c.record answer (c.execution.pollWith decode answer)) := by
  have hcancels (hstate : c.state = .executing) (hcancelled : c.execution.cancelled = true) :=
    h.poll_cancelled hheld hstate hcancelled answer
  cases h with
  | waiting isOpen phase answered outputs =>
      cases hcancelled : c.execution.cancelled with
      | true => exact hcancels (isOpen.executing hheld) hcancelled
      | false => exact isOpen.poll_unanswered hheld phase outputs hcancelled
  | receiving isOpen phase answered reads =>
      cases hcancelled : c.execution.cancelled with
      | true => exact hcancels (isOpen.executing hheld) hcancelled
      | false => exact isOpen.poll_answered hheld phase answered reads hcancelled
  | completed closed state answered reads entries =>
      exact (closed.settles_poll decode answer).completed closed state answered reads entries
  | failed closed state reads cause entries =>
      exact (closed.settles_poll decode answer).failed closed state reads cause entries

theorem Stage.supply (h : Stage decode c) (more : List StreamItem) (ends : Bool) :
    Stage decode (c.perform decode (.supply more ends)) := by
  have hsettles (hphase : c.execution.phase = .ended) :
      c.Settles (c.perform decode (.supply more ends)) := {
    phase := by simp [perform, Execution.supply, hphase]
    traversal := rfl
    state := rfl
    cancelled := id
    answer := ⟨more, ends, rfl⟩
    polls := ⟨0, (List.append_nil _).symm⟩
    entries := rfl }
  cases h with
  | waiting isOpen phase answer outputs =>
      refine .waiting ⟨isOpen.polls, isOpen.emitted, isOpen.entries, isOpen.state⟩ ?_ ?_ outputs
      · rcases phase with phase | phase <;> simp [perform, Execution.supply, phase]
      · simp [perform, answer, Submission.supply]
  | @receiving items left before isOpen phase answer reads =>
      have hopen : (c.perform decode (.supply more ends)).Open :=
        ⟨isOpen.polls, isOpen.emitted, isOpen.entries, isOpen.state⟩
      have hphase : (c.perform decode (.supply more ends)).execution.phase
          = bif before then .receiving left true else .receiving (left ++ more) ends := by
        cases before <;> simp [perform, Execution.supply, phase]
      have hanswer : (c.perform decode (.supply more ends)).answer
          = (Submission.accepted items before).supply more ends := by
        rw [← answer]
        rfl
      cases before with
      | false => exact .receiving hopen hphase hanswer (reads.more more)
      | true => exact .receiving hopen hphase hanswer reads
  | completed closed state answer reads entries =>
      exact (hsettles closed.phase).completed closed state answer reads entries
  | failed closed state reads cause entries =>
      exact (hsettles closed.phase).failed closed state reads cause entries

theorem Stage.cancel (h : Stage decode c) : Stage decode (c.perform decode .cancel) := by
  have hsettles : c.Settles (c.perform decode .cancel) := {
    phase := rfl
    traversal := rfl
    state := rfl
    cancelled := fun _ => rfl
    answer := ⟨[], false, by simp [perform]⟩
    polls := ⟨0, (List.append_nil _).symm⟩
    entries := rfl }
  cases h with
  | waiting isOpen phase answer outputs =>
      exact .waiting ⟨isOpen.polls, isOpen.emitted, isOpen.entries, isOpen.state⟩ phase answer
        outputs
  | receiving isOpen phase answer reads =>
      exact .receiving ⟨isOpen.polls, isOpen.emitted, isOpen.entries, isOpen.state⟩ phase answer
        reads
  | completed closed state answer reads entries =>
      exact hsettles.completed closed state answer reads entries
  | failed closed state reads cause entries =>
      exact hsettles.failed closed state reads cause entries

theorem Open.drop (h : c.Open) (decode : Decoder) : (c.perform decode .drop).Open where
  polls := h.polls
  emitted := by
    simp only [perform, Execution.drop, Execution.emitted_finish]
    exact h.emitted
  entries := h.entries
  state := by
    have hstate : c.execution.state = if c.held then .executing else .failed := h.state
    by_cases hexecuting : c.execution.state = .executing
    · exact Execution.finish_of_executing hexecuting _
    · have hfailed : c.execution.state = .failed := by
        cases hheld : c.held with
        | true => exact absurd (h.executing hheld) hexecuting
        | false => rwa [hheld] at hstate
      have hsame := Execution.finish_of_not_executing hexecuting .failed
      exact (congrArg Execution.state hsame).trans hfailed

theorem Stage.drop (h : Stage decode c) : Stage decode (c.perform decode .drop) := by
  have hsettles (hstate : c.state ≠ .executing) : c.Settles (c.perform decode .drop) := {
    phase := Execution.phase_finish ..
    traversal := Execution.traversal_finish ..
    state := congrArg Execution.state (Execution.finish_of_not_executing hstate _)
    cancelled := by simp [perform, Execution.drop]
    answer := ⟨[], false, by simp [perform]⟩
    polls := ⟨0, (List.append_nil _).symm⟩
    entries := rfl }
  cases h with
  | waiting isOpen phase answer outputs =>
      refine .waiting (isOpen.drop decode) ?_ answer outputs
      simpa [perform, Execution.drop] using phase
  | receiving isOpen phase answer reads =>
      refine .receiving (isOpen.drop decode) ?_ answer reads
      simpa [perform, Execution.drop] using phase
  | completed closed state answer reads entries =>
      exact (hsettles (by simp [state])).completed closed state answer reads entries
  | failed closed state reads cause entries =>
      exact (hsettles (by simp [state])).failed closed state reads cause entries

theorem Stage.perform (h : Stage decode c) (event : Event) :
    Stage decode (c.perform decode event) := by
  cases event with
  | poll answer =>
      cases hheld : c.held with
      | true =>
          rw [Course.perform, if_pos hheld]
          exact h.poll hheld answer
      | false => rwa [Course.perform, if_neg (by simp [hheld])]
  | supply items ends => exact h.supply items ends
  | cancel => exact h.cancel
  | drop => exact h.drop

theorem Stage.run (h : Stage decode c) (events : List Event) : Stage decode (c.run decode events) := by
  induction events generalizing c with
  | nil => exact h
  | cons event rest ih => exact ih (h.perform event)

end Course

end PropertyGraph
