import PropertyGraph.Proofs.Stages

/-!
# What a course accounts for

Whatever stage a course has come to, what its consumer has seen is a prefix of the stream and then at most
one error, and the log says how the execution ended if it has. A state that is final stays, and once an
execution is cancelled the next poll or the drop makes it fail.
-/

namespace PropertyGraph

namespace Course

variable {decode : Decoder} {c : Course}

section Shown

variable {last : Polled}

theorem shown_of_open {polls : List Polled} (h : ∀ p ∈ polls, p.closes = false) :
    polls.filterMap Polled.item? = (polls.filterMap Polled.output?).map .ok ∧
      polls.filterMap Polled.error? = [] ∧ Polled.gathered polls = none := by
  induction polls with
  | nil => exact ⟨rfl, rfl, rfl⟩
  | cons p rest ih =>
      obtain ⟨hp, hrest⟩ := List.forall_mem_cons.mp h
      obtain ⟨hitems, herrors, hgathered⟩ := ih hrest
      cases p with
      | pending => exact ⟨hitems, herrors, hgathered⟩
      | ended => cases hp
      | yielded item =>
          cases item with
          | error error => cases hp
          | ok output =>
              refine ⟨congrArg (Except.ok output :: ·) hitems, herrors, ?_⟩
              rw [Polled.gathered, hgathered]
              rfl

theorem gathered_of_open {before : List Polled} (h : ∀ p ∈ before, p.closes = false)
    (rest : List Polled) :
    Polled.gathered (before ++ rest)
      = (Polled.gathered rest).map (Except.map (before.filterMap Polled.output? ++ ·)) := by
  induction before with
  | nil =>
      rw [List.nil_append]
      cases Polled.gathered rest with
      | none => rfl
      | some result => cases result <;> rfl
  | cons p before ih =>
      obtain ⟨hp, hbefore⟩ := List.forall_mem_cons.mp h
      have hrest := ih hbefore
      cases p with
      | pending => exact hrest
      | ended => cases hp
      | yielded item =>
          cases item with
          | error error => cases hp
          | ok output =>
              rw [List.cons_append, Polled.gathered, hrest]
              cases Polled.gathered rest with
              | none => rfl
              | some result => cases result <;> rfl

theorem pairwise_of_open {polls : List Polled} (h : ∀ p ∈ polls, p.closes = false) :
    polls.Pairwise (fun earlier later => earlier.closes = true → later = .ended) :=
  List.pairwise_of_forall_mem_list fun p hp _ _ hcloses => by simp [h p hp] at hcloses

/-- What is seen of a course once it is closed. -/
theorem Closed.shown (h : c.Closed last) (hlast : last.closes = true) :
    c.yields = c.outputs.map .ok ++ c.errors.map .error ∧ c.errors = last.error?.toList ∧
      c.polls.Pairwise (fun earlier later => earlier.closes = true → later = .ended) := by
  obtain ⟨before, count, hpolls, hbefore⟩ := h.polls
  obtain ⟨hitems, herrors, -⟩ := shown_of_open hbefore
  have hpairwise : (before ++ last :: List.replicate count Polled.ended).Pairwise
      (fun earlier later => earlier.closes = true → later = .ended) := by
    refine List.pairwise_append.mpr ⟨pairwise_of_open hbefore, ?_, ?_⟩
    · refine List.pairwise_cons.mpr ⟨fun p hp _ => List.eq_of_mem_replicate hp, ?_⟩
      exact List.pairwise_replicate.mpr (.inr fun _ => rfl)
    · intro p hp _ _ hcloses
      rw [hbefore p hp] at hcloses
      cases hcloses
  rw [yields, errors, outputs, hpolls]
  refine ⟨?_, ?_, hpairwise⟩ <;> cases last with
  | pending => cases hlast
  | ended => simp [hitems, herrors, Polled.item?, Polled.output?, Polled.error?,
      List.filterMap_cons, List.filterMap_replicate]
  | yielded item =>
      cases item with
      | ok output => cases hlast
      | error error => simp [hitems, herrors, Polled.item?, Polled.output?, Polled.error?,
          List.filterMap_cons, List.filterMap_replicate]

/-- A course that has read the stream up to here accounts for all that its consumer has seen. -/
structure Accounts (decode : Decoder) (c : Course) (left : List StreamItem) : Prop where
  reads : Reads decode c.answer.items left c.outputs
  yields : c.yields = c.outputs.map .ok ++ c.errors.map .error
  errors : c.errors.length ≤ 1
  causes : ∀ error ∈ c.errors, c.Cause decode error
  ends : c.state = .completed → left = [] ∧ ∃ items, c.answer = .accepted items true
  entries : c.entries = if c.state = .completed
    then [⟨c.execution.traversal, .completed c.outputs.length⟩]
    else c.errors.map fun error => ⟨c.execution.traversal, error.outcome⟩
  closing : c.polls.Pairwise fun earlier later => earlier.closes = true → later = .ended
  logged : c.entries.length = 1 ↔ ∃ p ∈ c.polls, p.closes = true

theorem Open.accounts {left : List StreamItem} (h : c.Open)
    (hreads : Reads decode c.answer.items left c.outputs) : Accounts decode c left := by
  obtain ⟨hitems, herrors, -⟩ := shown_of_open h.polls
  have hnone : c.errors = [] := herrors
  have hstate : c.state ≠ .completed := by
    rw [h.state]
    split <;> simp
  refine ⟨hreads, ?_, ?_, ?_, fun h => absurd h hstate, ?_, pairwise_of_open h.polls, ?_⟩
  · rw [hnone]
    exact hitems.trans (List.append_nil _).symm
  · simp [hnone]
  · simp [hnone]
  · rw [if_neg hstate, hnone, h.entries]
    rfl
  · rw [h.entries]
    refine iff_of_false (by simp) ?_
    rintro ⟨p, hp, hcloses⟩
    simp [h.polls p hp] at hcloses

theorem Closed.mem (h : c.Closed last) : last ∈ c.polls := by
  obtain ⟨before, count, hpolls, -⟩ := h.polls
  simp [hpolls]

theorem Stage.accounts (h : Stage decode c) : ∃ left, Accounts decode c left := by
  cases h with
  | waiting isOpen phase answer outputs =>
      refine ⟨[], isOpen.accounts ?_⟩
      rw [answer, outputs]
      exact .start decode []
  | @receiving items left ends isOpen phase answer reads =>
      exact ⟨left, isOpen.accounts (by rwa [answer])⟩
  | @completed items closed state answer reads entries =>
      obtain ⟨hyields, herrors, hclosing⟩ := closed.shown rfl
      refine ⟨[], by rwa [answer], hyields, by simp [herrors, Polled.error?],
        by simp [herrors, Polled.error?], fun _ => ⟨rfl, items, answer⟩, ?_, hclosing, ?_⟩
      · rw [if_pos state, entries]
      · exact iff_of_true (by simp [entries]) ⟨_, closed.mem, rfl⟩
  | @failed error left closed state reads cause entries =>
      obtain ⟨hyields, herrors, hclosing⟩ := closed.shown rfl
      have hstate : c.state ≠ .completed := by simp [state]
      refine ⟨left, reads, hyields, by simp [herrors, Polled.error?], ?_,
        fun h => absurd h hstate, ?_, hclosing, ?_⟩
      · simpa [herrors, Polled.error?] using cause
      · rw [if_neg hstate, entries, herrors]
        rfl
      · exact iff_of_true (by simp [entries]) ⟨_, closed.mem, rfl⟩

end Shown

theorem follows_perform (decode : Decoder) (c : Course) (event : Event) :
    c.execution.Follows (c.perform decode event).execution := by
  cases event with
  | poll answer =>
      rw [perform]
      split
      · exact Execution.follows_pollWith decode answer c.execution
      · exact .refl _
  | supply => exact ⟨rfl, id, fun _ => rfl⟩
  | cancel => exact ⟨rfl, fun _ => rfl, fun _ => rfl⟩
  | drop => exact Execution.follows_finish .failed c.execution.phase c.execution

theorem follows_run (decode : Decoder) (c : Course) (events : List Event) :
    c.execution.Follows (c.run decode events).execution := by
  induction events generalizing c with
  | nil => exact .refl _
  | cons event rest ih => exact (follows_perform decode c event).trans (ih _)

/-- Once its state is final, a course brings no further output and logs nothing. -/
theorem Stage.final (h : Stage decode c) (hstate : c.state ≠ .executing) (event : Event) :
    (c.perform decode event).outputs = c.outputs ∧ (c.perform decode event).entries = c.entries := by
  cases event with
  | supply | cancel | drop => exact ⟨rfl, rfl⟩
  | poll answer =>
      rw [Course.perform]
      split
      · rename_i hheld
        have hnever (isOpen : c.Open) : False := hstate (isOpen.executing hheld)
        cases h with
        | waiting isOpen | receiving isOpen => exact (hnever isOpen).elim
        | completed closed | failed closed =>
            have hsettles := closed.settles_poll decode answer
            exact ⟨hsettles.outputs, hsettles.entries⟩
      · exact ⟨rfl, rfl⟩

theorem Stage.final_run (h : Stage decode c) (hstate : c.state ≠ .executing)
    (events : List Event) :
    (c.run decode events).outputs = c.outputs ∧ (c.run decode events).entries = c.entries := by
  induction events generalizing c with
  | nil => exact ⟨rfl, rfl⟩
  | cons event rest ih =>
      obtain ⟨houtputs, hentries⟩ := h.final hstate event
      have hnext := (follows_perform decode c event).state hstate
      obtain ⟨houtputs', hentries'⟩ := ih (h.perform event) (hnext.trans_ne hstate)
      exact ⟨houtputs'.trans houtputs, hentries'.trans hentries⟩

/-- A cancelled execution fails when it is polled or dropped, and before that nothing happens. -/
theorem Stage.cancelled (h : Stage decode c) (hstate : c.state = .executing)
    (hcancelled : c.execution.cancelled = true) (event : Event) :
    (c.perform decode event).outputs = c.outputs ∧
      (c.perform decode event).state = if event.touches then .failed else .executing := by
  cases event with
  | supply | cancel => exact ⟨rfl, hstate⟩
  | drop => exact ⟨rfl, Execution.finish_of_executing hstate .failed⟩
  | poll answer =>
      have hheld : c.held = true := (h.open_of_executing hstate).1.held hstate
      have hturn := (h.pollWith_of_cancelled hstate hcancelled answer).2
      rw [Course.perform, if_pos hheld, hturn]
      exact ⟨outputs_record_of_none rfl,
        Execution.finish_of_executing (e := { c.execution with phase := .ended }) hstate .failed⟩

theorem Stage.cancelled_run (h : Stage decode c) (hstate : c.state = .executing)
    (hcancelled : c.execution.cancelled = true) (events : List Event) :
    (c.run decode events).outputs = c.outputs ∧
      (c.run decode events).state = if events.any Event.touches then .failed else .executing := by
  induction events generalizing c with
  | nil => exact ⟨rfl, hstate⟩
  | cons event rest ih =>
      obtain ⟨houtputs, hnext⟩ := h.cancelled hstate hcancelled event
      cases htouches : event.touches with
      | false =>
          rw [htouches] at hnext
          obtain ⟨houtputs', hrest⟩ := ih (h.perform event) hnext
            ((follows_perform decode c event).cancelled hcancelled)
          refine ⟨houtputs'.trans houtputs, hrest.trans ?_⟩
          rw [List.any_cons, htouches, Bool.false_or]
      | true =>
          have hfailed : (c.perform decode event).state = .failed := by rw [hnext, htouches]; rfl
          have hfinal : (c.perform decode event).state ≠ .executing := by simp [hfailed]
          obtain ⟨houtputs', -⟩ := (h.perform event).final_run hfinal rest
          refine ⟨houtputs'.trans houtputs, ?_⟩
          rw [List.any_cons, htouches]
          exact ((follows_run decode _ rest).state hfinal).trans hfailed

end Course

end PropertyGraph
