import PropertyGraph.Proofs.Accounts

/-!
# The lifecycle of an execution

A consumer may gather all that is left of an execution into a list, by polling it to the end or to the first
error. The polls that this takes are polls of a course, so the list is told by the course that follows, and
what holds of all courses holds of it.
-/

namespace PropertyGraph

namespace Course

variable {decode : Decoder} {c : Course}

/-- The poll that closes a course is the first one of these that does. -/
theorem Closed.recent {d : Course} {last : Polled} {recent : List Polled} (h : d.Closed last)
    (hlast : last.closes = true) (hopen : ∀ p ∈ c.polls, p.closes = false)
    (hrecent : d.polls = c.polls ++ recent) :
    ∃ before count, recent = before ++ last :: List.replicate count .ended ∧
      ∀ p ∈ before, p.closes = false := by
  obtain ⟨before, count, hpolls, hbefore⟩ := h.polls
  rcases List.append_eq_append_iff.mp (hrecent.symm.trans hpolls) with
    ⟨more, rfl, hmore⟩ | ⟨more, hmore, hsplit⟩
  · exact ⟨more, count, hmore, fun p hp => hbefore p (List.mem_append_right _ hp)⟩
  · cases more with
    | nil => exact ⟨[], count, hsplit.symm, fun _ hp => nomatch hp⟩
    | cons p more =>
        have hp : p = last := (List.cons.inj hsplit).1.symm
        have hnot := hopen p (by simp [hmore])
        rw [hp, hlast] at hnot
        cases hnot

theorem outputs_append {d : Course} {recent : List Polled} (h : d.polls = c.polls ++ recent) :
    d.outputs = c.outputs ++ recent.filterMap Polled.output? := by
  rw [outputs, h, List.filterMap_append, outputs]

theorem gathered_ended (count : Nat) (before : List Polled)
    (h : ∀ p ∈ before, p.closes = false) :
    Polled.gathered (before ++ .ended :: List.replicate count .ended)
      = some (.ok ((before ++ Polled.ended :: List.replicate count .ended).filterMap Polled.output?)) := by
  rw [gathered_of_open h]
  simp [Polled.gathered, Except.map, Polled.output?, List.filterMap_cons, List.filterMap_replicate]

theorem gathered_error (error : TraversalError) (before rest : List Polled)
    (h : ∀ p ∈ before, p.closes = false) :
    Polled.gathered (before ++ .yielded (.error error) :: rest) = some (.error error) := by
  rw [gathered_of_open h]
  rfl

section Gathered

variable {d : Course} {recent : List Polled} {result : Except TraversalError (List Output)}

/-- After the end or an error there is nothing left to gather. -/
theorem Closed.gathered {last : Polled} (closed : c.Closed last) (hlast : last.closes = true)
    (h : Stage decode d) (hrecent : d.polls = c.polls ++ recent)
    (hresult : Polled.gathered recent = some result) : result = .ok [] := by
  obtain ⟨left, haccounts⟩ := h.accounts
  have hclosing := haccounts.closing
  rw [hrecent] at hclosing
  cases recent with
  | nil => cases hresult
  | cons p rest =>
      have hended : p = .ended :=
        (List.pairwise_append.mp hclosing).2.2 last closed.mem p List.mem_cons_self hlast
      rw [hended] at hresult
      cases hresult
      rfl

theorem Open.gathered (isOpen : c.Open) (h : Stage decode d)
    (hrecent : d.polls = c.polls ++ recent) (hresult : Polled.gathered recent = some result) :
    (result.isOk = true ↔ d.state = .completed) ∧
      ∀ outputs, result = .ok outputs → d.outputs = c.outputs ++ outputs := by
  have hnever (isOpen' : d.Open) : False := by
    have hrecentOpen : ∀ p ∈ recent, p.closes = false := fun p hp =>
      isOpen'.polls p (by simp [hrecent, hp])
    have hnothing := (shown_of_open hrecentOpen).2.2
    rw [hnothing] at hresult
    cases hresult
  have houtputs := outputs_append hrecent
  cases h with
  | waiting isOpen' | receiving isOpen' => exact (hnever isOpen').elim
  | completed closed state =>
      obtain ⟨before, count, rfl, hbefore⟩ := closed.recent rfl isOpen.polls hrecent
      rw [gathered_ended count before hbefore] at hresult
      cases hresult
      refine ⟨iff_of_true rfl state, fun outputs hok => ?_⟩
      cases hok
      exact houtputs
  | @failed error left closed state =>
      obtain ⟨before, count, rfl, hbefore⟩ := closed.recent rfl isOpen.polls hrecent
      rw [gathered_error error before _ hbefore] at hresult
      cases hresult
      refine ⟨iff_of_false (by simp [Except.isOk, Except.toBool]) ?_, fun _ hok => nomatch hok⟩
      simp [state]

/-- Who polls up to the end or to the first error gathers all outputs if and only if the execution is
completed, or the error had been seen before. -/
theorem Stage.gathered (h : Stage decode c) (events : List Event)
    (hrecent : (c.run decode events).polls = c.polls ++ recent)
    (hresult : Polled.gathered recent = some result) :
    (result.isOk = true ↔ (c.run decode events).state = .completed ∨ c.errors ≠ []) ∧
      ∀ outputs, result = .ok outputs → (c.run decode events).outputs = c.outputs ++ outputs := by
  have hlater := h.run events
  have hopen (isOpen : c.Open) :
      (result.isOk = true ↔ (c.run decode events).state = .completed ∨ c.errors ≠ []) ∧
        ∀ outputs, result = .ok outputs →
          (c.run decode events).outputs = c.outputs ++ outputs := by
    have hnone : c.errors = [] := (shown_of_open isOpen.polls).2.1
    simpa [hnone] using isOpen.gathered hlater hrecent hresult
  have hclosed (hstate : c.state ≠ .executing) (hreason : c.state = .completed ∨ c.errors ≠ [])
      (hnothing : result = .ok []) :
      (result.isOk = true ↔ (c.run decode events).state = .completed ∨ c.errors ≠ []) ∧
        ∀ outputs, result = .ok outputs →
          (c.run decode events).outputs = c.outputs ++ outputs := by
    have hsame := (follows_run decode c events).state hstate
    refine ⟨iff_of_true (by rw [hnothing]; rfl) (hreason.imp_left hsame.trans),
      fun outputs houtputs => ?_⟩
    cases hnothing.symm.trans houtputs
    rw [(h.final_run hstate events).1, List.append_nil]
  cases h with
  | waiting isOpen | receiving isOpen => exact hopen isOpen
  | completed closed state =>
      exact hclosed (by simp [state]) (.inl state) (closed.gathered rfl hlater hrecent hresult)
  | failed closed state =>
      refine hclosed (by simp [state]) (.inr ?_) (closed.gathered rfl hlater hrecent hresult)
      simp [(closed.shown rfl).2.1, Polled.error?]

end Gathered

theorem completed_drop_iff (decode : Decoder) (c : Course) :
    (c.perform decode .drop).state = .completed ↔ c.state = .completed := by
  by_cases hstate : c.execution.state = .executing
  · have hdropped : (c.perform decode .drop).state = .failed :=
      Execution.finish_of_executing hstate _
    have hbefore : c.state = .executing := hstate
    simp [hdropped, hbefore]
  · have hdropped : (c.perform decode .drop).execution = c.execution :=
      Execution.finish_of_not_executing hstate _
    rw [state, hdropped, state]

/-- An execution that has brought an output has been answered. -/
theorem asks_of_output {e after : Execution} {output : Output} {entry : Option QueryLogEntry}
    (h : e.advance decode = (.yielded (.ok output), after, entry)) : after.asks = false := by
  rw [Execution.advance] at h
  split at h
  · cases h
  · cases h
  · split at h <;> cases h
  · split at h <;> cases h
  · rename_i items ends _
    split at h
    · cases h
    · have hreceives := receives_receive ends e (.start decode items)
      rw [h] at hreceives
      cases hreceives
      rfl

theorem asks_of_polled_output {e after : Execution} {answer : Submission} {output : Output}
    {entry : Option QueryLogEntry}
    (h : e.pollWith decode answer = (.yielded (.ok output), after, entry)) :
    after.asks = false := by
  rw [Execution.pollWith] at h
  split at h <;> exact asks_of_output h

theorem polls_poll {answer : Submission} (hheld : c.held = true) :
    c.perform decode (.poll answer) = c.record answer (c.execution.pollWith decode answer) :=
  if_pos hheld

/-- Gathering is polling, again and again. -/
theorem gather_eq {e : Execution} {answer : Submission} {fuel : Nat} {outputs : List Output}
    {result : Except TraversalError (List Output)} (hheld : c.held = true)
    (hfirst : e.advance decode = c.execution.pollWith decode answer)
    (hresult : (e.gather decode fuel outputs).1 = some result) :
    ∃ count recent gathered,
      (c.run decode (List.replicate count (.poll answer))).polls = c.polls ++ recent ∧
      Polled.gathered recent = some gathered ∧ result = gathered.map (outputs.reverse ++ ·) ∧
      (e.gather decode fuel outputs).2.1
        = (c.run decode (List.replicate count (.poll answer))).execution := by
  induction fuel generalizing c e outputs with
  | zero => cases hresult
  | succ fuel ih =>
      have hpoll : c.perform decode (.poll answer)
          = c.record answer (c.execution.pollWith decode answer) := polls_poll hheld
      rw [Execution.gather, hfirst] at hresult ⊢
      match hturn : c.execution.pollWith decode answer with
      | (.pending, after, entry) =>
          rw [hturn] at hresult
          cases hresult
      | (.ended, after, entry) =>
          rw [hturn] at hresult hpoll
          cases hresult
          refine ⟨1, [.ended], .ok [], ?_, rfl, ?_, ?_⟩
          · exact congrArg Course.polls hpoll
          · simp [Except.map]
          · exact (congrArg Course.execution hpoll).symm
      | (.yielded (.error error), after, entry) =>
          rw [hturn] at hresult hpoll
          cases hresult
          exact ⟨1, [.yielded (.error error)], .error error, congrArg Course.polls hpoll, rfl, rfl,
            (congrArg Course.execution hpoll).symm⟩
      | (.yielded (.ok output), after, entry) =>
          rw [hturn] at hresult hpoll
          have hnext : after.advance decode
              = (c.perform decode (.poll answer)).execution.pollWith decode answer := by
            have hasks := asks_of_polled_output hturn
            rw [hpoll]
            simp [record, Execution.pollWith, hasks]
          have hheld' : (c.perform decode (.poll answer)).held = true := by
            rw [hpoll]
            exact hheld
          obtain ⟨count, recent, gathered, hpolls, hgathered, hmap, hexecution⟩ :=
            ih hheld' hnext hresult
          refine ⟨count + 1, .yielded (.ok output) :: recent, gathered.map (output :: ·), ?_, ?_,
            ?_, hexecution⟩
          · refine hpolls.trans ?_
            rw [hpoll, record, List.append_assoc]
            rfl
          · rw [Polled.gathered, hgathered]
            rfl
          · rw [hmap]
            cases gathered <;> simp [Except.map]

/-- The list of all results gathers what a consumer gathers who polls, and then drops the execution. -/
theorem toList_eq {channel : Channel} {result : Except TraversalError (List Output)}
    (hheld : c.held = true) (hresult : (c.execution.toList decode channel).1.1 = some result) :
    ∃ events recent, (c.run decode events).polls = c.polls ++ recent ∧
      Polled.gathered recent = some result ∧
      (c.execution.toList decode channel).1.2.1
        = ((c.run decode events).perform decode .drop).execution := by
  obtain ⟨e, answer, hfirst, htoList⟩ : ∃ (e : Execution) (answer : Submission),
      e.advance decode = c.execution.pollWith decode answer ∧
      (c.execution.toList decode channel).1
        = ((e.gather decode (e.remaining + 1) []).1,
            (e.gather decode (e.remaining + 1) []).2.1.drop,
            (e.gather decode (e.remaining + 1) []).2.2) := by
    have hpoll := Execution.poll_eq_pollWith decode c.execution channel
    cases hsubmits : c.execution.submits with
    | true =>
        rw [hsubmits, if_pos rfl, Execution.poll, if_pos hsubmits] at hpoll
        refine ⟨c.execution.submitted (channel.submit c.execution.traversal).1, _, hpoll, ?_⟩
        rw [Execution.toList, if_pos hsubmits]
    | false =>
        have hsubmits' : ¬c.execution.submits = true := by simp [hsubmits]
        rw [Execution.poll, if_neg hsubmits'] at hpoll
        refine ⟨c.execution, _, hpoll, ?_⟩
        rw [Execution.toList, if_neg hsubmits']
  rw [htoList] at hresult ⊢
  obtain ⟨count, recent, gathered, hpolls, hgathered, hmap, hexecution⟩ :=
    gather_eq hheld hfirst hresult
  refine ⟨_, recent, hpolls, ?_, congrArg Execution.drop hexecution⟩
  have hsame : result = gathered := by
    rw [hmap]
    cases gathered <;> rfl
  rw [hgathered, hsame]

end Course

/-- The course of an execution, whatever its channel answers and its consumer does. What it yields is the
decoded, not left out results of a prefix of the stream, and then at most one error; after the error or the
end it brings nothing but the end. Its state is left once and for all. Cancelled while it is executing, it
brings nothing more and fails as soon as it is polled or dropped; dropped while it is executing, it has
failed. The log has one entry if the end or an error has been seen, with how the execution ended, and none
otherwise. Who asks for the list of results gets it if and only if the execution is completed, or the error
had been handed out before. -/
theorem execution_lifecycle (decode : Decoder) (traversal : CompiledTraversal)
    (events : List Course.Event) :
    let c := (Course.start traversal).run decode events
    (∃ (raws : List RawResult) (results : List (Option Output)) (left : List StreamItem),
      c.answer.items = raws.map .ok ++ left ∧ raws.map decode = results.map .ok ∧
      c.yields = results.reduceOption.map .ok ++ c.errors.map .error ∧
      c.errors.length ≤ 1 ∧ (∀ error ∈ c.errors, c.Cause decode error) ∧
      (c.state = .completed → left = [] ∧ ∃ items, c.answer = .accepted items true) ∧
      c.entries = if c.state = .completed then [⟨traversal, .completed results.reduceOption.length⟩]
        else c.errors.map fun error => ⟨traversal, error.outcome⟩) ∧
    c.polls.Pairwise (fun earlier later => earlier.closes = true → later = .ended) ∧
    (c.entries.length = 1 ↔ ∃ p ∈ c.polls, p.closes = true) ∧
    (c.state ≠ .executing → ∀ more, (c.run decode more).state = c.state) ∧
    (c.state = .executing → ∀ more,
      let cancelled := c.run decode (.cancel :: more)
      let dropped := c.run decode (.drop :: more)
      (cancelled.outputs = c.outputs ∧
        cancelled.state = if more.any Course.Event.touches then .failed else .executing) ∧
      dropped.state = .failed ∧ dropped.entries = []) ∧
    (∀ more recent result, (c.run decode more).polls = c.polls ++ recent →
      Polled.gathered recent = some result →
        let final := (c.run decode more).perform decode .drop
        (result.isOk = true ↔ final.state = .completed ∨ c.errors ≠ []) ∧
        ∀ outputs, result = .ok outputs → final.outputs = c.outputs ++ outputs) ∧
    ∀ channel result, c.held = true → (c.execution.toList decode channel).1.1 = some result →
      (result.isOk = true ↔
        (c.execution.toList decode channel).1.2.1.state = .completed ∨ c.errors ≠ []) := by
  intro c
  have hstage : c.Stage decode := (Course.stage_start decode traversal).run events
  obtain ⟨left, haccounts⟩ := hstage.accounts
  have htraversal : c.execution.traversal = traversal :=
    (Course.follows_run decode (.start traversal) events).traversal
  have hgathered (more : List Course.Event) (recent : List Polled)
      (result : Except TraversalError (List Output))
      (hrecent : (c.run decode more).polls = c.polls ++ recent)
      (hresult : Polled.gathered recent = some result) :
      let final := (c.run decode more).perform decode .drop
      (result.isOk = true ↔ final.state = .completed ∨ c.errors ≠ []) ∧
        ∀ outputs, result = .ok outputs → final.outputs = c.outputs ++ outputs := by
    obtain ⟨hok, houtputs⟩ := hstage.gathered more hrecent hresult
    exact ⟨by rwa [Course.completed_drop_iff], houtputs⟩
  refine ⟨?_, haccounts.closing, haccounts.logged, fun hstate more => ?_, fun hstate more => ?_,
    hgathered, fun channel result hheld hresult => ?_⟩
  · obtain ⟨raws, results, hitems, hresults, houtputs⟩ := haccounts.reads
    have hyields := haccounts.yields
    have hentries := haccounts.entries
    rw [houtputs] at hyields hentries
    rw [htraversal] at hentries
    exact ⟨raws, results, left, hitems, hresults, hyields, haccounts.errors, haccounts.causes,
      haccounts.ends, hentries⟩
  · exact (Course.follows_run decode c more).state hstate
  · refine ⟨(hstage.perform .cancel).cancelled_run hstate rfl more, ?_⟩
    have hdropped : (c.perform decode .drop).state = .failed :=
      Execution.finish_of_executing hstate .failed
    have hfinal : (c.perform decode .drop).state ≠ .executing := by simp [hdropped]
    have hentries : c.entries = [] := (hstage.open_of_executing hstate).1.entries
    have hrest := (hstage.perform .drop).final_run hfinal more
    exact ⟨((Course.follows_run decode _ more).state hfinal).trans hdropped,
      hrest.2.trans hentries⟩
  · obtain ⟨more, recent, hrecent, hrecentResult, hfinal⟩ := Course.toList_eq hheld hresult
    rw [hfinal]
    exact (hgathered more recent result hrecent hrecentResult).1

/-- Two results, and a consumer who has taken one of them. If the execution is cancelled or dropped now, the
other one is lost; otherwise the list of the rest holds it. -/
theorem lifecycle_between_results :
    let decode : Decoder := fun raw => .ok (some (.raw raw))
    let found : RawResult := .value (.bool true)
    let c := (Course.start ⟨[]⟩).run decode [.poll (.accepted [.ok found, .ok found] true)]
    let channel : Channel := .scripted .stall
    c.state = .executing ∧ c.held = true ∧
      ((c.run decode [.cancel, .poll .stalled]).outputs = c.outputs ∧
        (c.run decode [.cancel, .poll .stalled]).state = .failed) ∧
      ((c.run decode [.drop]).state = .failed ∧ (c.run decode [.drop]).entries = []) ∧
      (c.execution.toList decode channel).1.1 = some (.ok [.raw found]) ∧
      (c.execution.toList decode channel).1.2.1.state = .completed := by
  intro decode found c channel
  obtain ⟨-, -, -, -, hexecuting, -, hlist⟩ :=
    execution_lifecycle decode ⟨[]⟩ [.poll (.accepted [.ok found, .ok found] true)]
  have hstate : c.state = .executing := rfl
  have hresult : (c.execution.toList decode channel).1.1 = some (.ok [.raw found]) := rfl
  have hcompleted := (hlist channel _ rfl hresult).mp rfl
  exact ⟨hstate, rfl, (hexecuting hstate [.poll .stalled]).1, (hexecuting hstate []).2, hresult,
    hcompleted.resolve_right (not_not.mpr rfl)⟩

/-- A list that is asked for after the error is not an error, although the execution has failed. -/
theorem list_after_error :
    let decode : Decoder := fun raw => .ok (some (.raw raw))
    let c := (Course.start ⟨[]⟩).run decode [.poll (.refused (.transport "connection refused"))]
    let asked := (c.execution.toList decode (.scripted (.refuse "connection refused"))).1
    c.errors = [.transport "connection refused"] ∧ asked.1 = some (.ok []) ∧
      asked.2.1.state = .failed := ⟨rfl, rfl, rfl⟩

end PropertyGraph
