import PropertyGraph.Proofs.Pending

/-!
# Reading from a stream

The operations of a client keep the table and the streams in step, and each stream steady. A poll then
depends on its stream alone: it brings what comes first in the stream, or waits as long as the stream is
connected, or ends it. As no time passes, no wait comes to its end.
-/

namespace PropertyGraph

namespace Client

variable {c : Client}

/-- A client as it comes about, with the table and the streams in step. -/
structure Sound (c : Client) : Prop extends Consistent c where
  steady : ∀ n s, c.stream? n = some s → s.Steady c.clock
  timeout : 0 < c.config.requestTimeout.milliseconds

namespace Sound

/-- What an operation has to keep. -/
theorem of_streams {c' : Client} {f : Nat → ResultStream → ResultStream} (h : c.Sound)
    (hkeeps : Keeps c c') (hconsistent : c'.Consistent)
    (hstreams : ∀ n, c'.stream? n = (c.stream? n).map (f n))
    (hsteady : ∀ n s, c.stream? n = some s → (f n s).Steady c.clock) : c'.Sound where
  toConsistent := hconsistent
  steady n s' hs' := by
    rw [hstreams] at hs'
    obtain ⟨s, hs, rfl⟩ := Option.map_eq_some_iff.mp hs'
    rw [hkeeps.clock]
    exact hsteady n s hs
  timeout := by
    rw [hkeeps.config]
    exact h.timeout

theorem mapStream (h : c.Sound) (number : Nat) {f : ResultStream → ResultStream}
    (hf : ∀ s, (f s).requestId = s.requestId ∧ (f s).connected = s.connected)
    (hsteady : ∀ s, c.stream? number = some s → (f s).Steady c.clock) :
    (c.mapStream number f).Sound := by
  refine h.of_streams (keeps_mapStream number f) (h.toConsistent.mapStream number hf)
    (stream?_mapStream number · f) fun n s hs => ?_
  by_cases hn : n = number
  · subst hn
    rw [if_pos rfl]
    exact hsteady s hs
  · rw [if_neg hn]
    exact h.steady n s hs

theorem forget (h : c.Sound) (id : RequestId) : (c.forget id).Sound := by
  refine h.of_streams (keeps_forget id) (h.toConsistent.forget id) (h.stream?_forget id)
    fun n s hs => ?_
  split
  · exact (h.steady n s hs).disconnect
  · exact h.steady n s hs

theorem erase (h : c.Sound) {number : Nat}
    (hnumber : ∀ s, c.stream? number = some s → s.connected = false) : (c.erase number).Sound where
  toConsistent := h.toConsistent.erase hnumber
  steady n s hs := by
    rw [stream?_erase] at hs
    split at hs
    · cases hs
    · exact h.steady n s hs
  timeout := h.timeout

theorem route (h : c.Sound) (response : ResponseMessage) : (c.route response).Sound :=
  h.of_streams (keeps_route response) (h.toConsistent.route response)
    (fun n => h.stream?_route response n) fun n s hs => (h.steady n s hs).answer response

theorem register (h : c.Sound) (id : RequestId) : (c.register id).2.Sound where
  toConsistent := h.toConsistent.register id
  steady n s' hs' := by
    have hclock : (c.register id).2.clock = c.clock := (keeps_forget id).clock
    rw [h.stream?_register] at hs'
    rw [hclock]
    split at hs'
    · cases hs'
      exact ⟨⟨[], none, rfl, fun _ => rfl⟩, fun _ => rfl, fun _ => rfl, fun _ hd => nomatch hd⟩
    · obtain ⟨s, hs, rfl⟩ := Option.map_eq_some_iff.mp hs'
      split
      · exact (h.steady n s hs).disconnect
      · exact h.steady n s hs
  timeout := by
    have hconfig : (c.register id).2.config = c.config := (keeps_forget id).config
    rw [hconfig]
    exact h.timeout

theorem lose (h : c.Sound) : c.lose.Sound where
  toConsistent := h.toConsistent.lose
  steady n s' hs' := by
    rw [h.stream?_lose] at hs'
    obtain ⟨s, hs, rfl⟩ := Option.map_eq_some_iff.mp hs'
    rw [h.keeps_lose.clock]
    exact (h.steady n s hs).cutOff
  timeout := by
    rw [h.keeps_lose.config]
    exact h.timeout

theorem connected_of_not_open (h : c.Sound) {number : Nat} {s : ResultStream}
    (hs : c.stream? number = some s) (hphase : s.phase ≠ .open) : s.connected = false := by
  cases hconnected : s.connected with
  | true => exact absurd ((h.steady number s hs).phase hconnected) hphase
  | false => rfl

theorem release (h : c.Sound) (number : Nat) : (c.release number).Sound := by
  cases hs : c.stream? number with
  | none =>
      unfold Client.release
      rwa [hs]
  | some s =>
      rw [release_eq hs]
      split
      · next hended =>
          refine h.erase fun s' hs' => ?_
          cases hs.symm.trans hs'
          apply h.connected_of_not_open hs
          rw [hended]
          exact fun heq => nomatch heq
      · refine (h.forget s.requestId).erase fun s' hs' => ?_
        rw [h.stream?_forget, hs] at hs'
        cases hs'
        simp

end Sound

/-- Reading takes away what comes first in a stream, if there is something, and no other request
notices. -/
structure ReadsFrom (c : Client) (number : Nat) (s : ResultStream) (c' : Client) : Prop where
  sound : c'.Sound
  keeps : Keeps c c'
  stream : ∃ s', c'.stream? number = some s' ∧ s'.requestId = s.requestId ∧
    s'.connected = s.connected ∧ s'.unread = s.unread.tail
  others : ∀ n s', n ≠ number → c.stream? n = some s' → s'.requestId ≠ s.requestId →
    c'.stream? n = some s'
  absent : ∀ n, c.stream? n = none → c'.stream? n = none

namespace ReadsFrom

variable {number : Nat} {s : ResultStream}

theorem mapStream (h : c.Sound) (hs : c.stream? number = some s) {f : ResultStream → ResultStream}
    (hf : ∀ s, (f s).requestId = s.requestId ∧ (f s).connected = s.connected)
    (hunread : (f s).unread = s.unread.tail) (hsteady : (f s).Steady c.clock) :
    ReadsFrom c number s (c.mapStream number f) where
  sound := by
    refine h.mapStream number hf fun s' hs' => ?_
    cases hs.symm.trans hs'
    exact hsteady
  keeps := keeps_mapStream number f
  stream := by
    refine ⟨f s, ?_, (hf s).1, (hf s).2, hunread⟩
    rw [stream?_mapStream, hs, Option.map_some, if_pos rfl]
  others n s' hn hs' _ := by rw [stream?_mapStream, hs', Option.map_some, if_neg hn]
  absent n hn := by rw [stream?_mapStream, hn, Option.map_none]

/-- A stream ends when nothing is left in it and nothing more can arrive. -/
theorem endStream (h : c.Sound) (hs : c.stream? number = some s) (hunread : s.unread = [])
    (hconnected : s.connected = false) : ReadsFrom c number s (c.endStream number s) := by
  have hmarked : ReadsFrom c number s (c.mapStream number ({ · with phase := .ended })) := by
    refine .mapStream h hs (fun _ => ⟨rfl, rfl⟩) (by rw [hunread]; rfl) ?_
    exact (h.steady number s hs).ended hunread hconnected
  have hstreams := hmarked.sound.stream?_forget s.requestId
  obtain ⟨s', hs', hid', hconnected', hunread'⟩ := hmarked.stream
  exact
    { sound := hmarked.sound.forget s.requestId
      keeps := hmarked.keeps.trans (keeps_forget _)
      stream := by
        refine ⟨s'.disconnect, ?_, hid', hconnected.symm, hunread'⟩
        refine (hstreams number).trans ?_
        rw [hs', Option.map_some, if_pos hid']
      others := fun n s'' hn hs'' hid => by
        refine (hstreams n).trans ?_
        rw [hmarked.others n s'' hn hs'' hid, Option.map_some, if_neg hid]
      absent := fun n hn => by
        refine (hstreams n).trans ?_
        rw [hmarked.absent n hn, Option.map_none] }

theorem unchanged (h : c.Sound) (hs : c.stream? number = some s) (hunread : s.unread = []) :
    ReadsFrom c number s c where
  sound := h
  keeps := .refl c
  stream := ⟨s, hs, rfl, rfl, by rw [hunread]; rfl⟩
  others _ _ _ hs' _ := hs'
  absent _ hn := hn

end ReadsFrom

/-- What the next poll of a stream brings. -/
def nextOf (unread : List StreamItem) (more : Bool) : StreamPoll :=
  match unread.head? with
  | some item => .item item
  | none => if more then .pending else .ended

/-- A poll never waits in vain for what is there, and never times out as long as no time passes. -/
theorem Sound.poll (h : c.Sound) {number : Nat} {s : ResultStream}
    (hs : c.stream? number = some s) :
    (c.poll number).1 = nextOf s.unread s.connected ∧ ReadsFrom c number s (c.poll number).2 := by
  have hsteady := h.steady number s hs
  unfold Client.poll
  rw [hs]
  dsimp only
  split
  · next hended =>
      have hphase : s.phase ≠ .open := by rw [hended]; exact fun heq => nomatch heq
      have hunread := hsteady.read hphase
      have hconnected := h.connected_of_not_open hs hphase
      rw [hunread, hconnected]
      exact ⟨rfl, .unchanged h hs hunread⟩
  · next hfailed =>
      have hphase : s.phase ≠ .open := by rw [hfailed]; exact fun heq => nomatch heq
      have hunread := hsteady.read hphase
      have hconnected := h.connected_of_not_open hs hphase
      refine ⟨?_, .endStream h hs hunread hconnected⟩
      rw [hunread, hconnected]
      rfl
  · next raw rest hopen hunread =>
      refine ⟨by rw [hunread]; rfl, ?_⟩
      dsimp only
      apply ReadsFrom.mapStream h hs
      · exact fun _ => ⟨rfl, rfl⟩
      · rw [hunread, List.tail_cons]
      · exact hsteady.takeResult hopen hunread
  · next e rest hopen hunread =>
      refine ⟨by rw [hunread]; rfl, ?_⟩
      dsimp only
      apply ReadsFrom.mapStream h hs
      · exact fun _ => ⟨rfl, rfl⟩
      · rw [hunread, List.tail_cons]
      · exact hsteady.takeFailure hunread
  · next hopen hunread =>
      rw [hunread]
      cases hconnected : s.connected with
      | false => exact ⟨rfl, .endStream h hs hunread hconnected⟩
      | true =>
          have hlater : c.clock < s.deadline.getD (c.clock + c.config.requestTimeout.milliseconds) := by
            cases hdeadline : s.deadline with
            | none => exact Nat.lt_add_of_pos_right h.timeout
            | some d => exact hsteady.deadline d hdeadline
          simp only [Bool.not_true, Bool.false_eq_true, if_false, if_neg (Nat.not_le.mpr hlater)]
          refine ⟨rfl, ?_⟩
          apply ReadsFrom.mapStream h hs
          · exact fun _ => ⟨rfl, rfl⟩
          · rw [hunread, List.tail_nil]
          · exact hsteady.wait hlater

end Client

end PropertyGraph
