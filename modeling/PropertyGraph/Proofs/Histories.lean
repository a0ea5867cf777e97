import PropertyGraph.Proofs.Polling

/-!
# What a client lives through

A client sends requests, takes in texts, reads from its streams, gives them up and may lose the
connection, in any order. Each event does one thing to each stream: it brings items, takes the first one
away, ends the stream, or does nothing. Streams of different requests are different, as long as no
identifier is sent twice.
-/

namespace PropertyGraph

namespace Client

variable {c : Client}

inductive Event where
  | send (request : TraversalRequest)
  /-- A text arrives. -/
  | frame (text : String)
  | poll (number : Nat)
  | release (number : Nat)
  /-- The connection is lost. -/
  | lose

namespace Event

def sent? : Event → Option RequestId
  | send request => some request.requestId
  | _ => none

def isLoss : Event → Bool
  | lose => true
  | _ => false

/-- The response to a request that a text holds. -/
def reply? (id : RequestId) : Event → Option ResponseMessage
  | frame text =>
    match WireForm.ofText ResponseMessage text with
    | .ok response => if response.requestId = some id then some response else none
    | .error _ => none
  | _ => none

/-- Nothing comes for the request after this event. -/
def isLastFor (id : RequestId) (event : Event) : Bool :=
  event.isLoss || (event.reply? id).any (·.isTerminal)

/-- What the event brings for a request that waits. -/
def itemsFor (id : RequestId) (event : Event) : List StreamItem :=
  match event.reply? id with
  | some response => itemsOf response
  | none => if event.isLoss then [.error ConnectionError.closed.toTraversalError] else []

end Event

def perform (c : Client) : Event → Client
  | .send request => (c.send request).2
  | .frame text => c.receive text
  | .poll number => (c.poll number).2
  | .release number => c.release number
  | .lose => c.lose

def run (c : Client) (events : List Event) : Client := events.foldl perform c

theorem sound_of_connect {config : ConnectionConfig} {start : Client}
    (h : connect config = .ok start) :
    start.Sound ∧ start.closed = false ∧ start.nextStream = 0 := by
  unfold connect at h
  split at h
  · next hvalid =>
      cases h
      have htimeout : 0 < config.requestTimeout.milliseconds := by
        unfold ConnectionConfig.validate at hvalid
        split at hvalid
        · cases hvalid
        · split at hvalid
          · cases hvalid
          · exact Nat.pos_of_ne_zero ‹_›
      refine ⟨⟨⟨List.nodup_nil, fun id n => ?_, fun _ _ => rfl⟩, fun _ _ hs => (nomatch hs), htimeout⟩,
        rfl, rfl⟩
      constructor
      · exact fun hlookup => nomatch hlookup
      · rintro ⟨s, hs, -⟩
        cases hs
  · cases h

theorem connect_default :
    connect .default = .ok ⟨.default, 0, false, [], [], 0⟩ := by
  have hvalid : ConnectionConfig.default.validate.isOk = true := by decide +kernel
  unfold connect
  cases hresult : ConnectionConfig.default.validate with
  | ok _ => rfl
  | error e =>
      rw [hresult] at hvalid
      cases hvalid

/-- A request that is sent has a stream of its own, unless the connection is gone. -/
theorem Sound.send (h : c.Sound) (request : TraversalRequest) :
    (c.send request).2.Sound ∧ (c.send request).2.closed = c.closed ∧
      (c.send request).2.nextStream = c.nextStream + 1 ∧
      ∀ n, (c.send request).2.stream? n
        = if n = c.nextStream then if c.closed then none else some (freshStream request.requestId)
          else (c.stream? n).map fun s =>
            if s.requestId = request.requestId then s.disconnect else s := by
  have hregistered := h.register request.requestId
  have hstreams := h.stream?_register request.requestId
  have hclosed : (c.register request.requestId).2.closed = c.closed :=
    (keeps_forget request.requestId).closed
  have hnext : (c.register request.requestId).2.nextStream = c.nextStream + 1 :=
    congrArg (· + 1) (keeps_forget request.requestId).nextStream
  cases hc : c.closed with
  | false =>
      rw [hc] at hclosed
      have hsend : (c.send request).2 = (c.register request.requestId).2 := by
        unfold Client.send
        simp [hclosed]
      rw [hsend]
      refine ⟨hregistered, hclosed, hnext, fun n => ?_⟩
      simpa using hstreams n
  | true =>
      -- The request is entered into the table all the same, and its stream given up at once.
      rw [hc] at hclosed
      have hfresh : (c.register request.requestId).2.stream? c.nextStream
          = some (freshStream request.requestId) := by rw [hstreams, if_pos rfl]
      have hsend : (c.send request).2
          = (c.register request.requestId).2.release c.nextStream := by
        have hnumber : (c.register request.requestId).1 = c.nextStream :=
          (keeps_forget request.requestId).nextStream
        unfold Client.send
        simp [hclosed, hnumber]
      rw [hsend]
      have hkeeps := keeps_release (c := (c.register request.requestId).2) c.nextStream
      refine ⟨hregistered.release _, hkeeps.closed.trans hclosed, hkeeps.nextStream.trans hnext,
        fun n => ?_⟩
      have hopen : (freshStream request.requestId).phase ≠ .ended := fun heq => nomatch heq
      rw [release_eq hfresh, if_neg hopen, stream?_erase, hregistered.stream?_forget, hstreams]
      by_cases hn : n = c.nextStream
      · simp [hn]
      · rw [if_neg hn, if_neg hn, if_neg hn, Option.map_map]
        refine Option.map_congr fun s _ => ?_
        by_cases hid : s.requestId = request.requestId
        · simp [hid, freshStream, ResultStream.disconnect]
        · simp [hid, freshStream]

theorem receive_cases (c : Client) (text : String) :
    c.receive text = c ∨ ∃ response, c.receive text = c.route response := by
  unfold receive
  split
  · exact .inl rfl
  · split
    · exact .inr ⟨_, rfl⟩
    · exact .inl rfl

theorem poll_of_none {number : Nat} (hs : c.stream? number = none) :
    c.poll number = (.ended, c) := by
  unfold Client.poll
  rw [hs]

theorem release_of_none {number : Nat} (hs : c.stream? number = none) : c.release number = c := by
  unfold Client.release
  rw [hs]

theorem Sound.perform (h : c.Sound) (event : Event) : (c.perform event).Sound := by
  cases event with
  | send request => exact (h.send request).1
  | frame text =>
      rw [Client.perform]
      rcases c.receive_cases text with hsame | ⟨response, hroute⟩
      · rwa [hsame]
      · rw [hroute]
        exact h.route response
  | poll number =>
      cases hs : c.stream? number with
      | none => rwa [Client.perform, poll_of_none hs]
      | some s => exact (h.poll hs).2.sound
  | release number => exact h.release number
  | lose => exact h.lose

theorem Sound.run (h : c.Sound) (events : List Event) : (c.run events).Sound := by
  induction events generalizing c with
  | nil => exact h
  | cons event rest ih => exact ih (h.perform event)

/-- The identifiers of the requests that are sent, in order. -/
def sent (events : List Event) : List RequestId := events.filterMap Event.sent?

theorem sent_cons (event : Event) (rest : List Event) :
    sent (event :: rest) = event.sent?.toList ++ sent rest := by
  unfold sent
  cases hevent : event.sent? <;> simp [hevent]

theorem sent_append (events later : List Event) :
    sent (events ++ later) = sent events ++ sent later := List.filterMap_append

/-- The client at a moment when requests of these identifiers have been sent. -/
structure HasSent (ids : List RequestId) (c : Client) : Prop where
  sound : c.Sound
  nextStream : c.nextStream = ids.length
  owner : ∀ n s, c.stream? n = some s → ids[n]? = some s.requestId
  cut : c.closed = true → ∀ n s, c.stream? n = some s → s.connected = false

namespace HasSent

variable {ids : List RequestId}

theorem lt_length (h : HasSent ids c) {n : Nat} {s : ResultStream} (hs : c.stream? n = some s) :
    n < ids.length := by
  by_contra hn
  rw [h.sound.unused n (by rw [h.nextStream]; omega)] at hs
  cases hs

theorem requestId_ne (h : HasSent ids c) (hnodup : ids.Nodup) {m n : Nat} {s s' : ResultStream}
    (hm : c.stream? m = some s) (hn : c.stream? n = some s') (hne : m ≠ n) :
    s.requestId ≠ s'.requestId := by
  intro heq
  have hs := h.owner m s hm
  have hs' := h.owner n s' hn
  rw [heq] at hs
  exact hne ((List.getElem?_inj (h.lt_length hm) hnodup).mp (hs.trans hs'.symm))

theorem requestId_ne_of_send (h : HasSent ids c) {request : TraversalRequest}
    (hnodup : (ids ++ [request.requestId]).Nodup) {n : Nat} {s : ResultStream}
    (hs : c.stream? n = some s) : s.requestId ≠ request.requestId := by
  intro heq
  have hmem : s.requestId ∈ ids := List.mem_of_getElem? (h.owner n s hs)
  rw [heq] at hmem
  exact (List.nodup_append.mp hnodup).2.2 _ hmem _ (by simp) rfl

end HasSent

/-! ### One event

There is one lemma for each thing that is told of the client after an event, with a case for each kind of
event. Frames that name no pending request do nothing. -/

theorem Sound.closed_perform (h : c.Sound) (event : Event) :
    (c.perform event).closed = (c.closed || event.isLoss) := by
  cases event with
  | send request => exact (h.send request).2.1.trans (Bool.or_false _).symm
  | frame text =>
      refine Eq.trans ?_ (Bool.or_false _).symm
      rw [Client.perform]
      rcases c.receive_cases text with hsame | ⟨response, hroute⟩
      · rw [hsame]
      · rw [hroute, (keeps_route response).closed]
  | poll number =>
      refine Eq.trans ?_ (Bool.or_false _).symm
      cases hs : c.stream? number with
      | none => rw [Client.perform, poll_of_none hs]
      | some s => exact (h.poll hs).2.keeps.closed
  | release number => exact (keeps_release number).closed.trans (Bool.or_false _).symm
  | lose => exact h.keeps_lose.closed.trans (Bool.or_true _).symm

theorem Sound.nextStream_perform (h : c.Sound) (event : Event) :
    (c.perform event).nextStream = c.nextStream + event.sent?.toList.length := by
  cases event with
  | send request => exact (h.send request).2.2.1
  | frame text =>
      rw [Client.perform]
      rcases c.receive_cases text with hsame | ⟨response, hroute⟩
      · rw [hsame]
        rfl
      · rw [hroute, (keeps_route response).nextStream]
        rfl
  | poll number =>
      cases hs : c.stream? number with
      | none =>
          rw [Client.perform, poll_of_none hs]
          rfl
      | some s => exact (h.poll hs).2.keeps.nextStream
  | release number => exact (keeps_release number).nextStream
  | lose => exact h.keeps_lose.nextStream

theorem Sound.absent_perform (h : c.Sound) (event : Event) {n : Nat} (hn : n < c.nextStream)
    (hs : c.stream? n = none) : (c.perform event).stream? n = none := by
  cases event with
  | send request =>
      refine ((h.send request).2.2.2 n).trans ?_
      rw [if_neg (Nat.ne_of_lt hn), hs, Option.map_none]
  | frame text =>
      rw [Client.perform]
      rcases c.receive_cases text with hsame | ⟨response, hroute⟩
      · rw [hsame, hs]
      · rw [hroute, h.stream?_route, hs, Option.map_none]
  | poll number =>
      cases hnumber : c.stream? number with
      | none => rwa [Client.perform, poll_of_none hnumber]
      | some s => exact (h.poll hnumber).2.absent n hs
  | release number =>
      cases hnumber : c.stream? number with
      | none => rwa [Client.perform, release_of_none hnumber]
      | some s =>
          rw [Client.perform, release_eq hnumber]
          split
          · rw [stream?_erase, hs, ite_self]
          · rw [stream?_erase, h.stream?_forget, hs, Option.map_none, ite_self]
  | lose => rw [Client.perform, h.stream?_lose, hs, Option.map_none]

theorem stream?_released (c : Client) (number : Nat) :
    (c.release number).stream? number = none := by
  cases hs : c.stream? number with
  | none => rwa [release_of_none hs]
  | some s =>
      rw [release_eq hs]
      split <;> rw [stream?_erase, if_pos rfl]

/-- What an event takes from a stream. -/
def takenBy (number : Nat) (c : Client) : Event → List StreamItem
  | .poll n =>
    if n = number then
      match (c.poll n).1 with
      | .item item => [item]
      | _ => []
    else []
  | _ => []

/-- What an event does to a stream: it brings what it holds for the request, as long as the stream is
connected, and takes from the front. -/
structure Moves (event : Event) (taken : List StreamItem) (s s' : ResultStream) : Prop where
  requestId : s'.requestId = s.requestId
  connected : s'.connected = (s.connected && !event.isLastFor s.requestId)
  unread : taken ++ s'.unread
    = s.unread ++ if s.connected then event.itemsFor s.requestId else []

theorem Moves.refl {event : Event} (s : ResultStream)
    (hlast : event.isLastFor s.requestId = false) (hitems : event.itemsFor s.requestId = []) :
    Moves event [] s s where
  requestId := rfl
  connected := by simp [hlast]
  unread := by simp [hitems]

theorem Moves.of_disconnected {event : Event} {s : ResultStream} (h : s.connected = false) :
    Moves event [] s s where
  requestId := rfl
  connected := by simp [h]
  unread := by simp [h]

theorem moves_answer {text : String} {response : ResponseMessage}
    (htext : WireForm.ofText ResponseMessage text = .ok response) (s : ResultStream) :
    Moves (.frame text) [] s (s.answer response) := by
  by_cases hid : response.requestId = some s.requestId
  · have hreply : (Event.frame text).reply? s.requestId = some response := by
      simp only [Event.reply?, htext, if_pos hid]
    have hlast : (Event.frame text).isLastFor s.requestId = response.isTerminal := by
      simp [Event.isLastFor, Event.isLoss, hreply]
    have hitems : (Event.frame text).itemsFor s.requestId = itemsOf response := by
      simp [Event.itemsFor, hreply]
    cases hconnected : s.connected with
    | false =>
        rw [ResultStream.answer_of_not fun hhit => nomatch hconnected.symm.trans hhit.2]
        exact .of_disconnected hconnected
    | true =>
        cases hterminal : response.isTerminal with
        | true =>
            rw [ResultStream.answer_of_terminal hid hconnected hterminal]
            refine ⟨rfl, ?_, ?_⟩
            · simp [hlast, hterminal]
            · simp [hconnected, hitems, ResultStream.deliver, ResultStream.disconnect]
        | false =>
            rw [ResultStream.answer_of_not_terminal hid hconnected hterminal]
            refine ⟨rfl, ?_, ?_⟩
            · simp [hlast, hterminal]
            · simp [hconnected, hitems, ResultStream.deliver]
  · have hreply : (Event.frame text).reply? s.requestId = none := by
      simp only [Event.reply?, htext, if_neg hid]
    rw [ResultStream.answer_of_not fun hhit => hid hhit.1]
    refine .refl s ?_ ?_
    · simp [Event.isLastFor, Event.isLoss, hreply]
    · simp [Event.itemsFor, Event.isLoss, hreply]

theorem moves_cutOff (s : ResultStream) : Moves .lose [] s s.cutOff := by
  cases hconnected : s.connected with
  | false =>
      have hsame : s.cutOff = s := by simp [ResultStream.cutOff, hconnected]
      rw [hsame]
      exact .of_disconnected hconnected
  | true =>
      have hcut : s.cutOff
          = (s.deliver [.error ConnectionError.closed.toTraversalError]).disconnect := by
        simp [ResultStream.cutOff, hconnected]
      rw [hcut]
      refine ⟨rfl, ?_, ?_⟩
      · simp [Event.isLastFor, Event.isLoss]
      · simp [hconnected, Event.itemsFor, Event.reply?, Event.isLoss, ResultStream.deliver,
          ResultStream.disconnect]

theorem takenBy_poll {number : Nat} {unread : List StreamItem} {more : Bool}
    (h : (c.poll number).1 = nextOf unread more) :
    takenBy number c (.poll number) ++ unread.tail = unread := by
  rw [takenBy, if_pos rfl, h]
  cases unread with
  | nil => cases more <;> rfl
  | cons item rest => rfl

namespace HasSent

variable {ids : List RequestId} {event : Event}

theorem moves (h : HasSent ids c) (hnodup : (ids ++ event.sent?.toList).Nodup) {n : Nat}
    {s : ResultStream} (hs : c.stream? n = some s) (hrelease : event ≠ .release n) :
    ∃ s', (c.perform event).stream? n = some s' ∧ Moves event (takenBy n c event) s s' := by
  have hids : ids.Nodup := (List.nodup_append.mp hnodup).1
  cases event with
  | send request =>
      have hne := h.requestId_ne_of_send hnodup hs
      have hn : n ≠ c.nextStream := by
        rw [h.nextStream]
        exact Nat.ne_of_lt (h.lt_length hs)
      refine ⟨s, ((h.sound.send request).2.2.2 n).trans ?_, .refl s rfl rfl⟩
      rw [if_neg hn, hs, Option.map_some, if_neg hne]
  | frame text =>
      cases hclosed : c.closed with
      | true =>
          refine ⟨s, ?_, .of_disconnected (h.cut hclosed n s hs)⟩
          rw [Client.perform, Client.receive, if_pos hclosed, hs]
      | false =>
          cases htext : WireForm.ofText ResponseMessage text with
          | error e =>
              have hreply : (Event.frame text).reply? s.requestId = none := by
                simp only [Event.reply?, htext]
              refine ⟨s, ?_, .refl s ?_ ?_⟩
              · simp only [Client.perform, Client.receive, hclosed, htext]
                exact hs
              · simp [Event.isLastFor, Event.isLoss, hreply]
              · simp [Event.itemsFor, Event.isLoss, hreply]
          | ok response =>
              refine ⟨s.answer response, ?_, moves_answer htext s⟩
              simp only [Client.perform, Client.receive, hclosed, htext]
              refine (h.sound.stream?_route response n).trans ?_
              rw [hs, Option.map_some]
  | poll number =>
      by_cases hne : number = n
      · subst hne
        obtain ⟨hpoll, hreads⟩ := h.sound.poll hs
        obtain ⟨s', hs', hid, hconnected, hunread⟩ := hreads.stream
        refine ⟨s', hs', hid, ?_, ?_⟩
        · simpa [Event.isLastFor, Event.isLoss, Event.reply?] using hconnected
        · rw [hunread, takenBy_poll hpoll]
          simp [Event.itemsFor, Event.isLoss, Event.reply?]
      · have htaken : takenBy n c (.poll number) = [] := if_neg hne
        rw [htaken]
        -- A stream that is read to its end takes its request out of the table, which is another one.
        refine ⟨s, ?_, .refl s rfl rfl⟩
        cases hnumber : c.stream? number with
        | none => rwa [Client.perform, poll_of_none hnumber]
        | some other =>
            have hother := h.requestId_ne hids hs hnumber (Ne.symm hne)
            exact (h.sound.poll hnumber).2.others n s (Ne.symm hne) hs hother
  | release number =>
      have hne : number ≠ n := fun heq => hrelease (heq ▸ rfl)
      refine ⟨s, ?_, .refl s rfl rfl⟩
      cases hnumber : c.stream? number with
      | none => rwa [Client.perform, release_of_none hnumber]
      | some other =>
          have hother := h.requestId_ne hids hs hnumber hne.symm
          rw [Client.perform, release_eq hnumber]
          split
          · rw [stream?_erase, if_neg hne.symm, hs]
          · rw [stream?_erase, if_neg hne.symm, h.sound.stream?_forget, hs, Option.map_some,
              if_neg hother]
  | lose =>
      refine ⟨s.cutOff, ?_, moves_cutOff s⟩
      rw [Client.perform, h.sound.stream?_lose, hs, Option.map_some]

/-- A stream that is there after an event was there before it, or belongs to the request just sent. -/
theorem stream_before (h : HasSent ids c) (hnodup : (ids ++ event.sent?.toList).Nodup) {n : Nat}
    {s' : ResultStream} (hs' : (c.perform event).stream? n = some s') :
    (∃ s, c.stream? n = some s ∧ Moves event (takenBy n c event) s s') ∨
      (n = ids.length ∧ c.closed = false ∧
        ∃ request, event = .send request ∧ s' = freshStream request.requestId) := by
  by_cases hn : n < ids.length
  · left
    cases hs : c.stream? n with
    | none =>
        rw [h.sound.absent_perform event (h.nextStream ▸ hn) hs] at hs'
        cases hs'
    | some s =>
        have hrelease : event ≠ .release n := by
          rintro rfl
          rw [Client.perform, stream?_released] at hs'
          cases hs'
        obtain ⟨s'', hs'', hmoves⟩ := h.moves hnodup hs hrelease
        cases hs''.symm.trans hs'
        exact ⟨s, rfl, hmoves⟩
  · right
    have hused : n < ids.length + event.sent?.toList.length := by
      by_contra hunused
      have hnext := h.sound.nextStream_perform event
      rw [h.nextStream] at hnext
      rw [(h.sound.perform event).unused n (by omega)] at hs'
      cases hs'
    cases event with
    | send request =>
        have hlength : (Event.send request).sent?.toList.length = 1 := rfl
        have hlast : n = ids.length := by omega
        have hstream := (h.sound.send request).2.2.2 n
        rw [if_pos (hlast.trans h.nextStream.symm)] at hstream
        rw [Client.perform, hstream] at hs'
        split at hs'
        · cases hs'
        · next hopen =>
            cases hs'
            exact ⟨hlast, by simpa using hopen, request, rfl, rfl⟩
    | frame _ | poll _ | release _ | lose =>
        exact absurd hused hn

theorem perform (h : HasSent ids c) (hnodup : (ids ++ event.sent?.toList).Nodup) :
    HasSent (ids ++ event.sent?.toList) (c.perform event) where
  sound := h.sound.perform event
  nextStream := by rw [h.sound.nextStream_perform, h.nextStream, List.length_append]
  owner n s' hs' := by
    rcases h.stream_before hnodup hs' with ⟨s, hs, hmoves⟩ | ⟨rfl, -, request, rfl, rfl⟩
    · rw [hmoves.requestId, List.getElem?_append_left (h.lt_length hs)]
      exact h.owner n s hs
    · rw [List.getElem?_append_right (Nat.le_refl _), Nat.sub_self]
      rfl
  cut hclosed n s' hs' := by
    rw [h.sound.closed_perform] at hclosed
    rcases h.stream_before hnodup hs' with ⟨s, hs, hmoves⟩ | ⟨-, hopen, request, rfl, -⟩
    · rw [hmoves.connected]
      rcases Bool.or_eq_true_iff.mp hclosed with hclosed | hloss
      · rw [h.cut hclosed n s hs, Bool.false_and]
      · simp [Event.isLastFor, hloss]
    · rw [hopen] at hclosed
      cases hclosed

theorem run (h : HasSent ids c) {events : List Event} (hnodup : (ids ++ sent events).Nodup) :
    HasSent (ids ++ sent events) (c.run events) := by
  induction events generalizing c ids with
  | nil =>
      rw [sent, List.filterMap_nil, List.append_nil]
      exact h
  | cons event rest ih =>
      rw [sent_cons, ← List.append_assoc] at hnodup ⊢
      exact ih (h.perform (List.nodup_append.mp hnodup).1) hnodup

end HasSent

theorem hasSent_of_connect {config : ConnectionConfig} {start : Client}
    (h : connect config = .ok start) : HasSent [] start := by
  obtain ⟨hsound, hopen, hnext⟩ := sound_of_connect h
  have hnone : ∀ n, start.stream? n = none := fun n => hsound.unused n (by omega)
  exact
    { sound := hsound
      nextStream := hnext
      owner := fun n s hs => by rw [hnone] at hs; cases hs
      cut := fun hclosed => by rw [hopen] at hclosed; cases hclosed }

/-! ### Open connections

The table of pending requests is emptied when the connection is lost, and nothing enters it again.
-/

theorem pending_endStream_subset (number : Nat) (s : ResultStream) (c : Client) :
    (c.endStream number s).pending ⊆ c.pending := by
  rw [endStream, pending_forget]
  exact List.filter_subset_self _

theorem pending_poll_subset (number : Nat) (c : Client) : (c.poll number).2.pending ⊆ c.pending := by
  unfold poll
  split
  · exact List.Subset.refl _
  · next s _ =>
      split
      · exact List.Subset.refl _
      · exact pending_endStream_subset number s c
      · exact List.Subset.refl _
      · exact List.Subset.refl _
      · split
        · exact pending_endStream_subset number s c
        · dsimp only
          split <;> exact List.Subset.refl _

theorem pending_release_subset (number : Nat) (c : Client) : (c.release number).pending ⊆ c.pending := by
  unfold release
  split
  · exact List.Subset.refl _
  · dsimp only
    split
    · exact List.Subset.refl _
    · rw [pending_forget]
      exact List.filter_subset_self _

/-- The table is empty where no stream is connected. -/
theorem Consistent.pending_eq_nil (h : c.Consistent)
    (hgone : ∀ n s, c.stream? n = some s → s.connected = false) : c.pending = [] := by
  refine List.eq_nil_iff_forall_not_mem.mpr fun p hp => ?_
  obtain ⟨n, hn⟩ := mem_keys_iff_lookup.mp (List.mem_map_of_mem hp)
  obtain ⟨s, hs, -, hconnected⟩ := (h.lookup_iff _ n).mp hn
  cases hconnected.symm.trans (hgone n s hs)

theorem Sound.pending_perform (h : c.Sound) (hcut : c.closed = true → c.pending = []) (event : Event)
    (hclosed : (c.perform event).closed = true) : (c.perform event).pending = [] := by
  rw [h.closed_perform] at hclosed
  cases event with
  | send request =>
      have hclosed : c.closed = true := (Bool.or_false _).symm.trans hclosed
      obtain ⟨hsound, -, -, hstreams⟩ := h.send request
      refine hsound.pending_eq_nil fun n s hs => ?_
      rw [hstreams, hclosed] at hs
      split at hs
      · cases hs
      · obtain ⟨s₀, hs₀, rfl⟩ := Option.map_eq_some_iff.mp hs
        have hgone : s₀.connected = false := by
          cases hconnected : s₀.connected with
          | false => rfl
          | true =>
              have hpending := (h.lookup_iff s₀.requestId n).mpr ⟨s₀, hs₀, rfl, hconnected⟩
              rw [hcut hclosed] at hpending
              cases hpending
        split
        · rfl
        · exact hgone
  | frame text =>
      have hclosed : c.closed = true := (Bool.or_false _).symm.trans hclosed
      have hsame : c.receive text = c := if_pos hclosed
      rw [Client.perform, hsame, hcut hclosed]
  | poll number =>
      have hclosed : c.closed = true := (Bool.or_false _).symm.trans hclosed
      have hsubset := pending_poll_subset number c
      rw [hcut hclosed] at hsubset
      exact List.subset_nil.mp hsubset
  | release number =>
      have hclosed : c.closed = true := (Bool.or_false _).symm.trans hclosed
      have hsubset := pending_release_subset number c
      rw [hcut hclosed] at hsubset
      exact List.subset_nil.mp hsubset
  | lose =>
      refine h.lose.pending_eq_nil fun n s hs => ?_
      rw [h.stream?_lose] at hs
      obtain ⟨s₀, -, rfl⟩ := Option.map_eq_some_iff.mp hs
      cases hconnected : s₀.connected with
      | true => simp [ResultStream.cutOff, hconnected]
      | false => simp [ResultStream.cutOff, hconnected]

/-- A request is pending on an open connection only. -/
theorem open_of_mem_pending {config : ConnectionConfig} {start : Client} (history : List Event)
    {id : RequestId} (hstart : connect config = .ok start)
    (hpending : id ∈ (start.run history).pending.map Prod.fst) :
    (start.run history).closed = false := by
  have hcut : ∀ (events : List Event) (c : Client), c.Sound → (c.closed = true → c.pending = []) →
      (c.run events).closed = true → (c.run events).pending = [] := by
    intro events
    induction events with
    | nil => exact fun c _ hcut => hcut
    | cons event rest ih =>
        intro c hsound hcut
        exact ih (c.perform event) (hsound.perform event) (hsound.pending_perform hcut event)
  obtain ⟨hsound, hopen, -⟩ := sound_of_connect hstart
  cases hclosed : (start.run history).closed with
  | false => rfl
  | true =>
      have hopened : start.closed = true → start.pending = [] := by
        intro hclosed
        cases hopen.symm.trans hclosed
      rw [hcut history start hsound hopened hclosed] at hpending
      cases hpending

end Client

end PropertyGraph
