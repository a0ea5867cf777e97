import PropertyGraph.Proofs.Histories

/-!
# Requests do not disturb each other

What a stream yields depends on the events since its request was sent, and of these only on the texts that
hold a response with its identifier and on the loss of the connection. The items that are due are told from
the events alone. By induction on the events, what has been taken from a stream and what is still unread in
it make up what is due, and the stream is connected as long as nothing has been the last for its request.
-/

namespace PropertyGraph

namespace Client

def lost (events : List Event) : Bool := events.any Event.isLoss

/-- Whether a request has seen its last response, or the loss of the connection. -/
def finished (id : RequestId) (events : List Event) : Bool := events.any (Event.isLastFor id)

/-- What is due to a request: the items of its responses as they arrive, up to the last one. A loss of the
connection before that is an error of its own. -/
def due (id : RequestId) : List Event → List StreamItem
  | [] => []
  | event :: rest => event.itemsFor id ++ if event.isLastFor id then [] else due id rest

/-- What the polls of a stream have brought. -/
def taken (number : Nat) : Client → List Event → List StreamItem
  | _, [] => []
  | c, event :: rest => takenBy number c event ++ taken number (c.perform event) rest

variable {c : Client} {ids : List RequestId}

theorem taken_append (number : Nat) (events later : List Event) :
    taken number c (events ++ later)
      = taken number c events ++ taken number (c.run events) later := by
  induction events generalizing c with
  | nil => rfl
  | cons event rest ih =>
      rw [List.cons_append, taken, taken, ih, List.append_assoc]
      rfl

theorem Sound.absent_run (h : c.Sound) (events : List Event) {n : Nat} (hn : n < c.nextStream)
    (hs : c.stream? n = none) : (c.run events).stream? n = none := by
  induction events generalizing c with
  | nil => exact hs
  | cons event rest ih =>
      have hlater : n < (c.perform event).nextStream := by
        rw [h.nextStream_perform]
        omega
      exact ih (h.perform event) hlater (h.absent_perform event hn hs)

theorem Sound.closed_run (h : c.Sound) (events : List Event) :
    (c.run events).closed = (c.closed || lost events) := by
  induction events generalizing c with
  | nil => exact (Bool.or_false _).symm
  | cons event rest ih =>
      have hrest : (c.run (event :: rest)).closed = _ := ih (h.perform event)
      rw [hrest, h.closed_perform, lost, lost, List.any_cons, Bool.or_assoc]

/-- A stream that is given up is gone for good. -/
theorem Sound.absent_of_release (h : c.Sound) {events : List Event} {n : Nat}
    (hn : n < c.nextStream) (hrelease : .release n ∈ events) : (c.run events).stream? n = none := by
  induction events generalizing c with
  | nil => cases hrelease
  | cons event rest ih =>
      have hlater : n < (c.perform event).nextStream := by
        rw [h.nextStream_perform]
        omega
      rcases List.mem_cons.mp hrelease with heq | hrest
      · subst heq
        exact (h.perform _).absent_run rest hlater (stream?_released c n)
      · exact ih (h.perform event) hlater hrest

namespace HasSent

/-- A stream that is not given up yields what is due, and is connected as long as more may come. -/
theorem moves_run (h : HasSent ids c) {events : List Event}
    (hnodup : (ids ++ sent events).Nodup) {n : Nat} {s : ResultStream}
    (hs : c.stream? n = some s) (hkept : .release n ∉ events) :
    ∃ s', (c.run events).stream? n = some s' ∧ s'.requestId = s.requestId ∧
      s'.connected = (s.connected && !finished s.requestId events) ∧
      taken n c events ++ s'.unread
        = s.unread ++ if s.connected then due s.requestId events else [] := by
  -- The identifiers grow along the events, so that the next request is new among them.
  induction events generalizing c ids s with
  | nil => exact ⟨s, hs, rfl, by simp [finished], by simp [taken, due]⟩
  | cons event rest ih =>
      rw [sent_cons, ← List.append_assoc] at hnodup
      have hnodup' := (List.nodup_append.mp hnodup).1
      obtain ⟨hrelease, hkept⟩ := not_or.mp (List.mem_cons.not.mp hkept)
      obtain ⟨s', hs', hmoves⟩ := h.moves hnodup' hs (Ne.symm hrelease)
      obtain ⟨s'', hs'', hid, hconnected, hunread⟩ :=
        ih (h.perform hnodup') hnodup hs' hkept
      refine ⟨s'', hs'', hid.trans hmoves.requestId, ?_, ?_⟩
      · rw [hconnected, hmoves.connected, hmoves.requestId, finished, finished, List.any_cons,
          Bool.not_or, Bool.and_assoc]
      · calc taken n c (event :: rest) ++ s''.unread
            = takenBy n c event ++ (taken n (c.perform event) rest ++ s''.unread) :=
              List.append_assoc _ _ _
          _ = (takenBy n c event ++ s'.unread)
                ++ if s'.connected then due s'.requestId rest else [] := by
              rw [hunread, List.append_assoc]
          _ = s.unread ++ if s.connected then due s.requestId (event :: rest) else [] := by
              rw [hmoves.unread, hmoves.connected, hmoves.requestId, due]
              cases s.connected <;> cases event.isLastFor s.requestId <;> simp

/-- There is nothing to take from a stream before its request is sent. -/
theorem taken_eq_nil (h : HasSent ids c) {events : List Event}
    (hnodup : (ids ++ sent events).Nodup) {n : Nat} (hn : (ids ++ sent events).length ≤ n) :
    taken n c events = [] := by
  induction events generalizing c ids with
  | nil => rfl
  | cons event rest ih =>
      rw [sent_cons, ← List.append_assoc] at hnodup hn
      have hnodup' := (List.nodup_append.mp hnodup).1
      have hunused : c.stream? n = none := by
        apply h.sound.unused
        rw [h.nextStream]
        simp only [List.length_append] at hn
        omega
      have hnone : takenBy n c event = [] := by
        cases event with
        | poll number =>
            rw [takenBy]
            split
            · next heq => rw [heq, poll_of_none hunused]
            · rfl
        | send _ | frame _ | release _ | lose => rfl
      rw [taken, hnone, ih (h.perform hnodup') hnodup hn]
      rfl

end HasSent

section History

variable {config : ConnectionConfig} {start : Client} {events before after : List Event}
  {request : TraversalRequest}

theorem split_at_send (hstart : connect config = .ok start)
    (hevents : events = before ++ .send request :: after) (hdistinct : (sent events).Nodup) :
    HasSent (sent before) (start.run before) ∧
      HasSent (sent before ++ [request.requestId])
        ((start.run before).perform (.send request)) ∧
      (sent before ++ [request.requestId] ++ sent after).Nodup ∧
      start.run events = ((start.run before).perform (.send request)).run after := by
  have hsplit : sent events = sent before ++ [request.requestId] ++ sent after := by
    rw [hevents, sent_append, sent_cons, ← List.append_assoc]
    rfl
  rw [hsplit] at hdistinct
  have hupto := (List.nodup_append.mp hdistinct).1
  have hbefore : HasSent (sent before) (start.run before) :=
    (hasSent_of_connect hstart).run (List.nodup_append.mp hupto).1
  have hlater : HasSent (sent before ++ (Event.send request).sent?.toList)
      ((start.run before).perform (.send request)) := hbefore.perform hupto
  refine ⟨hbefore, hlater, hdistinct, ?_⟩
  rw [hevents, run, List.foldl_append]
  rfl

theorem lost_before (hevents : events = before ++ .send request :: after)
    (hup : lost events = false) : lost before = false := by
  rw [hevents, lost, List.any_append, Bool.or_eq_false_iff] at hup
  exact hup.1

theorem closed_of_connect (hstart : connect config = .ok start) (events : List Event) :
    (start.run events).closed = lost events := by
  obtain ⟨hsound, hclosed, -⟩ := sound_of_connect hstart
  rw [hsound.closed_run, hclosed, Bool.false_or]

/-- The stream of a request, at any later moment. -/
theorem stream_of_send (hstart : connect config = .ok start)
    (hevents : events = before ++ .send request :: after) (hdistinct : (sent events).Nodup)
    (hup : lost before = false) (hkept : .release (sent before).length ∉ after) :
    ∃ s, (start.run events).stream? (sent before).length = some s ∧
      s.requestId = request.requestId ∧ s.connected = !finished request.requestId after ∧
      taken (sent before).length start events ++ s.unread = due request.requestId after := by
  obtain ⟨hbefore, hlater, hnodup, hrun⟩ := split_at_send hstart hevents hdistinct
  have hopen : (start.run before).closed = false := (closed_of_connect hstart before).trans hup
  have hfresh : ((start.run before).perform (.send request)).stream? (sent before).length
      = some (freshStream request.requestId) := by
    rw [perform, (hbefore.sound.send request).2.2.2, hbefore.nextStream, if_pos rfl, hopen]
    rfl
  have hnone : taken (sent before).length start before = [] := by
    have hids := (List.nodup_append.mp (List.nodup_append.mp hnodup).1).1
    exact (hasSent_of_connect hstart).taken_eq_nil hids (Nat.le_refl _)
  obtain ⟨s, hs, hid, hconnected, hunread⟩ := hlater.moves_run hnodup hfresh hkept
  refine ⟨s, hrun ▸ hs, hid, hconnected, ?_⟩
  rw [hevents, taken_append, hnone]
  exact hunread

theorem absent_of_released (hstart : connect config = .ok start)
    (hevents : events = before ++ .send request :: after) (hdistinct : (sent events).Nodup)
    (hrelease : .release (sent before).length ∈ after) :
    (start.run events).stream? (sent before).length = none := by
  obtain ⟨-, hlater, -, hrun⟩ := split_at_send hstart hevents hdistinct
  rw [hrun]
  refine hlater.sound.absent_of_release ?_ hrelease
  rw [hlater.nextStream, List.length_append]
  exact Nat.lt_succ_self _

theorem exists_send {n : Nat} {id : RequestId} (h : (sent events)[n]? = some id) :
    ∃ before request after, events = before ++ .send request :: after ∧
      request.requestId = id ∧ (sent before).length = n := by
  induction events generalizing n with
  | nil => cases h
  | cons event rest ih =>
      rw [sent_cons] at h
      cases event with
      | send request =>
          cases n with
          | zero => exact ⟨[], request, rest, rfl, Option.some.inj h, rfl⟩
          | succ n =>
              obtain ⟨before, later, after, rfl, hid, hlength⟩ := ih h
              refine ⟨.send request :: before, later, after, rfl, hid, ?_⟩
              rw [sent_cons, List.length_append, hlength]
              exact Nat.add_comm 1 n
      | frame _ | poll _ | release _ | lose =>
          obtain ⟨before, request, after, rfl, hid, hlength⟩ := ih h
          exact ⟨_ :: before, request, after, rfl, hid, hlength⟩

/-- The table has the requests that are still waiting. -/
theorem mem_pending_iff (hstart : connect config = .ok start) (hdistinct : (sent events).Nodup)
    {id : RequestId} :
    id ∈ (start.run events).pending.map Prod.fst ↔
      ∃ before request after, events = before ++ .send request :: after ∧
        request.requestId = id ∧ .release (sent before).length ∉ after ∧
        lost events = false ∧ finished id after = false := by
  have hsent : HasSent (sent events) (start.run events) :=
    (hasSent_of_connect hstart).run hdistinct
  constructor
  · intro hpending
    obtain ⟨n, hlookup⟩ := mem_keys_iff_lookup.mp hpending
    obtain ⟨s, hs, hid, hconnected⟩ := (hsent.sound.lookup_iff id n).mp hlookup
    -- The number of the stream tells when its request was sent.
    have howner := hsent.owner n s hs
    rw [hid] at howner
    obtain ⟨before, request, after, hevents, rfl, rfl⟩ := exists_send howner
    have hup : lost events = false := by
      cases hlost : lost events with
      | false => rfl
      | true =>
          have hclosed := (closed_of_connect hstart events).trans hlost
          rw [hsent.cut hclosed _ s hs] at hconnected
          cases hconnected
    have hkept : .release (sent before).length ∉ after := by
      intro hrelease
      rw [absent_of_released hstart hevents hdistinct hrelease] at hs
      cases hs
    obtain ⟨s', hs', -, hwaits, -⟩ :=
      stream_of_send hstart hevents hdistinct (lost_before hevents hup) hkept
    cases hs.symm.trans hs'
    refine ⟨before, request, after, hevents, rfl, hkept, hup, ?_⟩
    simpa [hconnected] using hwaits
  · rintro ⟨before, request, after, hevents, rfl, hkept, hup, hwaits⟩
    obtain ⟨s, hs, hid, hconnected, -⟩ :=
      stream_of_send hstart hevents hdistinct (lost_before hevents hup) hkept
    rw [hwaits] at hconnected
    exact mem_keys_iff_lookup.mpr ⟨_, (hsent.sound.lookup_iff _ _).mpr ⟨s, hs, hid, hconnected⟩⟩

end History

theorem send_of_open (hopen : c.closed = false) (request : TraversalRequest) :
    ∃ text, (c.send request).1 = .ok (c.nextStream, text) := by
  have hclosed : (c.register request.requestId).2.closed = false :=
    (keeps_forget request.requestId).closed.trans hopen
  have hnumber : (c.register request.requestId).1 = c.nextStream :=
    (keeps_forget request.requestId).nextStream
  unfold send
  simp [hclosed, hnumber]

/-! ### Other frames -/

theorem lookup_pending_route {response : ResponseMessage} {id : RequestId}
    (h : response.requestId ≠ some id) :
    (c.route response).pending.lookup id = c.pending.lookup id := by
  unfold route
  split
  · rfl
  · next other hother =>
      have hne : id ≠ other := fun heq => h (heq ▸ hother)
      split
      · rfl
      · split
        · rw [lookup_pending_forget, if_neg hne]
          rfl
        · rfl

theorem Consistent.receive_of_no_reply (h : c.Consistent) {id : RequestId} {text : String}
    (hreply : (Event.frame text).reply? id = none) :
    (c.receive text).pending.lookup id = c.pending.lookup id ∧
      ∀ n s, c.stream? n = some s → s.requestId = id → (c.receive text).stream? n = some s := by
  unfold receive
  split
  · exact ⟨rfl, fun _ _ hs _ => hs⟩
  · split
    · next response htext =>
        have hne : response.requestId ≠ some id := by
          intro heq
          simp [Event.reply?, htext, heq] at hreply
        refine ⟨lookup_pending_route hne, fun n s hs hid => ?_⟩
        subst hid
        rw [h.stream?_route, hs, Option.map_some, ResultStream.answer_of_not fun hhit => hne hhit.1]
    · exact ⟨rfl, fun _ _ hs _ => hs⟩

/-- Whatever arrives and in whatever order, the polls of a stream that is not given up bring what is due
to its request, item by item, and the end after that. Texts without a response to the request change
neither its stream nor its place in the table, and the table has the requests that are still waiting. -/
theorem requests_isolated {config : ConnectionConfig} {start : Client} {events : List Event}
    (hstart : connect config = .ok start) (hdistinct : (sent events).Nodup) :
    (∀ before request after, events = before ++ .send request :: after → lost before = false →
      (∃ text, ((start.run before).send request).1 = .ok ((sent before).length, text)) ∧
      (.release (sent before).length ∉ after →
        taken (sent before).length start events <+: due request.requestId after ∧
        ((start.run events).poll (sent before).length).1
          = nextOf
              ((due request.requestId after).drop
                (taken (sent before).length start events).length)
              (!finished request.requestId after) ∧
        ∀ text, (Event.frame text).reply? request.requestId = none →
          ((start.run events).receive text).pending.lookup request.requestId
              = (start.run events).pending.lookup request.requestId ∧
            ((start.run events).receive text).stream? (sent before).length
              = (start.run events).stream? (sent before).length)) ∧
    ((start.run events).pending.map Prod.fst).Nodup ∧
    ∀ id, id ∈ (start.run events).pending.map Prod.fst ↔
      ∃ before request after, events = before ++ .send request :: after ∧
        request.requestId = id ∧ .release (sent before).length ∉ after ∧
        lost events = false ∧ finished id after = false := by
  have hsent : HasSent (sent events) (start.run events) :=
    (hasSent_of_connect hstart).run hdistinct
  refine ⟨fun before request after hevents hup => ⟨?_, fun hkept => ?_⟩, hsent.sound.nodup,
    fun id => mem_pending_iff hstart hdistinct⟩
  · obtain ⟨hbefore, -, -, -⟩ := split_at_send hstart hevents hdistinct
    rw [← hbefore.nextStream]
    exact send_of_open ((closed_of_connect hstart before).trans hup) request
  · obtain ⟨s, hs, hid, hconnected, hunread⟩ :=
      stream_of_send hstart hevents hdistinct hup hkept
    refine ⟨⟨s.unread, hunread⟩, ?_, fun text htext => ?_⟩
    · rw [(hsent.sound.poll hs).1, ← hunread, List.drop_left, hconnected]
    · obtain ⟨hlookup, hstreams⟩ := hsent.sound.receive_of_no_reply htext
      exact ⟨hlookup, (hstreams _ s hs hid).trans hs.symm⟩

/-- Of two requests the first is answered, which the second does not notice. -/
theorem second_request_waits :
    let first : RequestId := ⟨List.replicate 32 1, rfl⟩
    let second : RequestId := ⟨List.replicate 32 2, rfl⟩
    let start : Client := ⟨.default, 0, false, [], [], 0⟩
    let answer : String :=
      "\x7b\"requestId\":\"11111111111111111111111111111111\",\"status\":\x7b\"code\":204\x7d\x7d"
    let events : List Event := [.send ⟨first, ⟨[]⟩⟩, .send ⟨second, ⟨[]⟩⟩, .frame "?", .frame answer]
    connect .default = .ok start ∧ (sent events).Nodup ∧
      ((start.run events).poll 0).1 = .ended ∧
      second ∈ (start.run events).pending.map Prod.fst := by
  intro first second start answer events
  have hdistinct : (sent events).Nodup := by decide +kernel
  obtain ⟨hstreams, -, hpending⟩ := requests_isolated connect_default hdistinct
  have hdue : (due first events.tail).length = 0 := by decide +kernel
  have hfinished : finished first events.tail = true := by decide +kernel
  have hwaits : finished second (events.drop 2) = false := by decide +kernel
  obtain ⟨-, hfirst⟩ := hstreams [] ⟨first, ⟨[]⟩⟩ events.tail rfl rfl
  refine ⟨connect_default, hdistinct, ?_, ?_⟩
  · refine (hfirst (by simp [events])).2.1.trans ?_
    rw [List.eq_nil_of_length_eq_zero hdue, List.drop_nil, hfinished]
    rfl
  · exact (hpending second).mpr
      ⟨[.send ⟨first, ⟨[]⟩⟩], ⟨second, ⟨[]⟩⟩, events.drop 2, rfl, rfl, by simp [events], rfl, hwaits⟩

end Client

end PropertyGraph
