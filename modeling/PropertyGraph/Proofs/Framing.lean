import PropertyGraph.Proofs.Hearing
import PropertyGraph.Proofs.Histories
import PropertyGraph.Remote.Server

/-!
# From the engine to the stream of a request

The server cuts the results of a request into batches and marks the last one, the client puts them together
again. A response keeps within the size of a batch, belongs to its request, and is terminal only at the
end. The responses to several requests may come in any order in which those to each request are in order.
The client takes out of this the responses to each request, so what has been cut apart arrives whole.
-/

namespace PropertyGraph

/-- The whole takes the first element of any part in turn, until all parts are used up. -/
inductive Interleaves {α : Type} : List (List α) → List α → Prop
  | done {parts : List (List α)} : (∀ part ∈ parts, part = []) → Interleaves parts []
  | next {parts : List (List α)} {i : Nat} {x : α} {part rest : List α} :
      parts[i]? = some (x :: part) → Interleaves (parts.set i part) rest →
      Interleaves parts (x :: rest)

namespace Interleaves

variable {α : Type} {parts : List (List α)} {whole : List α}

/-- A part that can be told from the others by its elements comes out of the whole again. -/
theorem filter_eq (h : Interleaves parts whole) {P : α → Bool} {i : Nat} {part : List α}
    (hpart : parts[i]? = some part)
    (hown : ∀ j other, parts[j]? = some other → ∀ x ∈ other, (P x = true ↔ j = i)) :
    whole.filter P = part := by
  induction h generalizing part with
  | done hempty => exact (hempty part (List.mem_of_getElem? hpart)).symm
  | @next parts j x taken rest hx _ ih =>
      -- What is left of the parts can still be told apart.
      have hset : ∀ k other, (parts.set j taken)[k]? = some other →
          ∀ y ∈ other, (P y = true ↔ k = i) := by
        intro k other hother y hy
        by_cases hk : j = k
        · subst hk
          have hlt : j < parts.length := (List.getElem?_eq_some_iff.mp hx).1
          rw [List.getElem?_set_self hlt] at hother
          cases hother
          exact hown j _ hx y (List.mem_cons_of_mem x hy)
        · rw [List.getElem?_set_ne hk] at hother
          exact hown k other hother y hy
      have hmine : P x = true ↔ j = i := hown j _ hx x List.mem_cons_self
      by_cases hj : j = i
      · subst hj
        have hlt : j < parts.length := (List.getElem?_eq_some_iff.mp hx).1
        rw [hx] at hpart
        cases hpart
        rw [List.filter_cons_of_pos (hmine.mpr rfl),
          ih (List.getElem?_set_self hlt) hset]
      · have hnot : ¬P x = true := fun hP => hj (hmine.mp hP)
        rw [List.filter_cons_of_neg hnot]
        apply ih _ hset
        rwa [List.getElem?_set_ne hj]

theorem exists_part (h : Interleaves parts whole) {x : α} (hx : x ∈ whole) :
    ∃ part ∈ parts, x ∈ part := by
  induction h with
  | done => cases hx
  | @next parts i y taken rest hy _ ih =>
      have hmem := List.mem_of_getElem? hy
      rcases List.mem_cons.mp hx with rfl | hx
      · exact ⟨_, hmem, List.mem_cons_self⟩
      · obtain ⟨part, hpart, hxpart⟩ := ih hx
        rcases List.mem_or_eq_of_mem_set hpart with hpart | rfl
        · exact ⟨part, hpart, hxpart⟩
        · exact ⟨_, hmem, List.mem_cons_of_mem y hxpart⟩

end Interleaves

/-! ### Framing -/

namespace Server

/-- A failure that the client can tell from a success. -/
def Reportable : TraversalError → Prop
  | .server code _ => code ∉ [Status.success, Status.noContent, Status.incomplete]
  | _ => True

/-- What the client makes of a failure. -/
def reported : TraversalError → TraversalError
  | .server code reason => .server code reason
  | e => .server Status.serverError e.message

/-- The responses to a request carry these items, and only the last one says that it is the last. -/
structure Frames (id : RequestId) (items : List StreamItem) (frames : List ResponseMessage) :
    Prop where
  own : ∀ frame ∈ frames, frame.requestId = some id
  small : ∀ frame ∈ frames, frame.result.length ≤ batchSize
  last : ∃ earlier final, frames = earlier ++ [final] ∧
    (∀ frame ∈ earlier, frame.isTerminal = false) ∧ final.isTerminal = true
  results : ∀ frame ∈ frames, ∀ result ∈ frame.result, .ok result ∈ items
  items : frames.flatMap Client.itemsOf = items

namespace Frames

variable {id : RequestId} {items : List StreamItem} {frames : List ResponseMessage}

theorem success {results : List RawResult} (h : results.length ≤ batchSize) :
    Frames id (results.map .ok) [.success id results] where
  own := by simp [ResponseMessage.success]
  small := by simpa [ResponseMessage.success] using h
  last := ⟨[], _, rfl, fun _ h => (nomatch h), by
    cases results <;> rfl⟩
  items := by cases results <;> simp [Client.itemsOf, ResponseMessage.success,
    ResponseMessage.isError]
  results := by simp [ResponseMessage.success]

theorem error {code : UInt16} {reason : String}
    (h : code ∉ [Status.success, Status.noContent, Status.incomplete]) :
    Frames id [.error (.server code reason)] [.error (some id) code reason] where
  own := by simp [ResponseMessage.error]
  small := by simp [ResponseMessage.error]
  last := by
    refine ⟨[], _, rfl, fun _ h => (nomatch h), ?_⟩
    simp only [List.mem_cons, not_or] at h
    simpa [ResponseMessage.error, ResponseMessage.isTerminal] using h.2.2.1
  items := by
    have herror : (ResponseMessage.error (some id) code reason).isError = true := by
      simpa [ResponseMessage.error, ResponseMessage.isError] using h
    rw [List.flatMap_singleton, Client.itemsOf, if_pos herror]
    rfl
  results := by simp [ResponseMessage.error]

theorem failure {e : TraversalError} (h : Reportable e) :
    Frames id [.error (reported e)] [Server.failure id e] := by
  have hunnamed : Status.serverError ∉ [Status.success, Status.noContent, Status.incomplete] := by
    decide
  cases e with
  | server code reason => exact .error h
  | schema _ | typeMismatch _ _ | unknownProperty _ _ | unboundReference _ | cardinality _
  | transport _ | decoding _ | typeFilterMismatch _ _ | cancelled | serialization _
  | configuration _ => exact .error hunnamed

theorem batch {results : List RawResult} (hsmall : results.length ≤ batchSize)
    (h : Frames id items frames) :
    Frames id (results.map .ok ++ items) (.batch id results :: frames) where
  own := List.forall_mem_cons.mpr ⟨rfl, h.own⟩
  small := List.forall_mem_cons.mpr ⟨hsmall, h.small⟩
  last := by
    obtain ⟨earlier, final, hframes, hearlier, hfinal⟩ := h.last
    refine ⟨.batch id results :: earlier, final, by rw [hframes]; rfl, ?_, hfinal⟩
    exact List.forall_mem_cons.mpr ⟨rfl, hearlier⟩
  items := by
    rw [List.flatMap_cons, h.items]
    rfl
  results := List.forall_mem_cons.mpr
    ⟨fun _ hresult => List.mem_append_left _ (List.mem_map_of_mem hresult),
      fun frame hframe result hresult => List.mem_append_right _ (h.results frame hframe result hresult)⟩

end Frames

theorem frames_respondTo {id : RequestId} {failure : Option TraversalError}
    (hreportable : ∀ e ∈ failure, Reportable e) (results filling : List RawResult)
    (hfilling : filling.length < batchSize) :
    Frames id (streamOf (filling.reverse ++ results) (failure.map reported))
      (respondTo id true filling (streamOf results failure)) := by
  -- The batch that is being filled, last result first, is part of what the responses carry.
  induction results generalizing filling with
  | nil =>
      have hsmall : filling.reverse.length ≤ batchSize := by
        rw [List.length_reverse]
        exact Nat.le_of_lt hfilling
      rw [List.append_nil]
      cases failure with
      | none =>
          have hframes : Frames id (filling.reverse.map .ok) [.success id filling.reverse] :=
            .success hsmall
          simpa [streamOf, respondTo] using hframes
      | some e =>
          have hfailed : Frames id [.error (reported e)] [Server.failure id e] :=
            .failure (hreportable e rfl)
          cases filling with
          | nil => exact hfailed
          | cons result filling => exact .batch hsmall hfailed
  | cons result results ih =>
      have hitems : streamOf (result :: results) failure
          = .ok result :: streamOf results failure := rfl
      rw [hitems, respondTo]
      split
      -- The batch is full with this result and goes out, and an empty one is begun.
      · next hfull =>
          have hrest := ih [] (by decide)
          have hlength : (result :: filling).reverse.length = batchSize := by
            rw [List.length_reverse, List.length_cons, hfull]
          have hframes := Frames.batch (Nat.le_of_eq hlength) hrest
          rw [List.reverse_nil, List.nil_append, streamOf_append] at hframes
          simpa using hframes
      · next hroom =>
          have hrest := ih (result :: filling) (by
            rw [List.length_cons]
            omega)
          simpa using hrest

end Server

/-! ### Routing

A stream only ever sees what is answered to its own request, and nothing after the last response. So what
becomes of it can be computed from the responses of its request alone, wherever others stand among them. -/

namespace ResultStream

/-- What responses in order do to a stream. -/
def answerAll (frames : List ResponseMessage) (s : ResultStream) : ResultStream :=
  frames.foldl (fun s frame => s.answer frame) s

variable {s : ResultStream} {frames : List ResponseMessage}

theorem answerAll_requestId : (s.answerAll frames).requestId = s.requestId := by
  induction frames generalizing s with
  | nil => rfl
  | cons frame rest ih => exact ih.trans (answer_requestId frame)

theorem answerAll_of_disconnected (h : s.connected = false) : s.answerAll frames = s := by
  induction frames with
  | nil => rfl
  | cons frame rest ih =>
      have hmiss : s.answer frame = s := answer_of_not fun hhit => nomatch h.symm.trans hhit.2
      rw [answerAll, List.foldl_cons, hmiss]
      exact ih

/-- Only the responses to its own request matter to a stream. -/
theorem answerAll_filter :
    s.answerAll (frames.filter (·.requestId == some s.requestId)) = s.answerAll frames := by
  induction frames generalizing s with
  | nil => rfl
  | cons frame rest ih =>
      by_cases hid : frame.requestId = some s.requestId
      · rw [List.filter_cons_of_pos (by simpa using hid), answerAll, answerAll, List.foldl_cons,
          List.foldl_cons]
        rw [← answer_requestId frame]
        exact ih
      · have hmiss : s.answer frame = s := answer_of_not fun hhit => hid hhit.1
        rw [List.filter_cons_of_neg (by simpa using hid), ih, answerAll, answerAll,
          List.foldl_cons, hmiss]

theorem deliver_deliver (first items : List StreamItem) :
    (s.deliver first).deliver items = s.deliver (first ++ items) := by
  simp [deliver]

theorem answerAll_append (earlier later : List ResponseMessage) :
    s.answerAll (earlier ++ later) = (s.answerAll earlier).answerAll later := List.foldl_append

theorem answerAll_of_not_terminal (hown : ∀ frame ∈ frames, frame.requestId = some s.requestId)
    (hmore : ∀ frame ∈ frames, frame.isTerminal = false) (hconnected : s.connected = true) :
    s.answerAll frames = s.deliver (frames.flatMap Client.itemsOf) := by
  induction frames generalizing s with
  | nil => simp [answerAll, deliver]
  | cons frame rest ih =>
      obtain ⟨hframe, hown⟩ := List.forall_mem_cons.mp hown
      obtain ⟨hfirst, hmore⟩ := List.forall_mem_cons.mp hmore
      have hanswer := answer_of_not_terminal hframe hconnected hfirst
      calc s.answerAll (frame :: rest)
          = (s.answer frame).answerAll rest := rfl
        _ = (s.deliver (Client.itemsOf frame)).deliver (rest.flatMap Client.itemsOf) := by
            rw [hanswer]
            exact ih hown hmore hconnected
        _ = s.deliver ((frame :: rest).flatMap Client.itemsOf) := by
            rw [deliver_deliver, List.flatMap_cons]

/-- Of the responses to a request a stream gets what is heard of them, and it ends if the last one is
heard. -/
theorem answerAll_heard {earlier : List ResponseMessage} {final : ResponseMessage}
    (hown : ∀ frame ∈ earlier ++ [final], frame.requestId = some s.requestId)
    (hearlier : ∀ frame ∈ earlier, frame.isTerminal = false) (hfinal : final.isTerminal = true)
    (hconnected : s.connected = true) :
    s.answerAll ((earlier ++ [final]).filterMap (·.heard?))
      = { s with
          unread := s.unread ++ ((earlier ++ [final]).filterMap (·.heard?)).flatMap Client.itemsOf
          connected := final.heard?.isNone } := by
  have hheard : ∀ heard ∈ earlier.filterMap (·.heard?),
      heard.requestId = some s.requestId ∧ heard.isTerminal = false := by
    intro heard hmem
    obtain ⟨frame, hframe, hheard⟩ := List.mem_filterMap.mp hmem
    obtain ⟨hid, hstatus⟩ := ResponseMessage.heard_spec hheard
    refine ⟨hid.trans (hown frame (List.mem_append_left _ hframe)), ?_⟩
    rw [ResponseMessage.isTerminal, hstatus]
    exact hearlier frame hframe
  have hbatches := answerAll_of_not_terminal (fun heard hmem => (hheard heard hmem).1)
    (fun heard hmem => (hheard heard hmem).2) hconnected
  rw [List.filterMap_append, answerAll_append, hbatches, List.flatMap_append]
  cases hlast : final.heard? with
  | none => simp [hlast, answerAll, deliver, hconnected]
  | some heard =>
      obtain ⟨hid, hstatus⟩ := ResponseMessage.heard_spec hlast
      have hlastOwn : heard.requestId = some s.requestId := hid.trans (hown final (by simp))
      have hterminal : heard.isTerminal = true := by
        rw [ResponseMessage.isTerminal, hstatus]
        exact hfinal
      have hsingle : [final].filterMap (·.heard?) = [heard] := by simp [hlast]
      have hanswer := answer_of_terminal
        (s := s.deliver ((earlier.filterMap (·.heard?)).flatMap Client.itemsOf)) hlastOwn hconnected
        hterminal
      rw [hsingle, answerAll, List.foldl_cons, List.foldl_nil, hanswer, deliver_deliver,
        List.flatMap_singleton]
      rfl

end ResultStream

/-- Nothing is heard under another identifier. -/
theorem ResponseMessage.filter_heard (id : RequestId) (frames : List ResponseMessage) :
    (frames.filterMap (·.heard?)).filter (·.requestId == some id)
      = (frames.filter (·.requestId == some id)).filterMap (·.heard?) := by
  rw [List.filter_filterMap, List.filterMap_filter]
  refine List.filterMap_congr fun frame _ => ?_
  cases hheard : frame.heard? with
  | none => simp
  | some heard => simp [Option.filter, (heard_spec hheard).1]

namespace Client

variable {c : Client}

def routeAll (frames : List ResponseMessage) (c : Client) : Client :=
  frames.foldl (fun c frame => c.route frame) c

/-- What a number of polls of a stream brings. -/
def polls (number : Nat) : Nat → Client → List StreamPoll
  | 0, _ => []
  | count + 1, c => (c.poll number).1 :: polls number count (c.poll number).2

theorem Sound.routeAll (h : c.Sound) (frames : List ResponseMessage) :
    (c.routeAll frames).Sound ∧
      ∀ n, (c.routeAll frames).stream? n = (c.stream? n).map (·.answerAll frames) := by
  induction frames generalizing c with
  | nil => exact ⟨h, fun n => Option.map_id'.symm⟩
  | cons frame rest ih =>
      obtain ⟨hsound, hstreams⟩ := ih (h.route frame)
      refine ⟨hsound, fun n => ?_⟩
      have hrest : (c.routeAll (frame :: rest)).stream? n = _ := hstreams n
      rw [hrest, h.stream?_route, Option.map_map]
      rfl

/-- Reading a stream brings what is in it, and then the end if nothing more can reach it. -/
theorem Sound.polls_unread (h : c.Sound) {number : Nat} {s : ResultStream}
    (hs : c.stream? number = some s) :
    polls number (s.unread.length + 1) c = s.unread.map .item ++ [nextOf [] s.connected] := by
  generalize hunread : s.unread = unread
  induction unread generalizing c s with
  | nil =>
      have hpoll := (h.poll hs).1
      rw [hunread] at hpoll
      simp [polls, hpoll]
  | cons item rest ih =>
      obtain ⟨hpoll, hreads⟩ := h.poll hs
      obtain ⟨s', hs', -, hconnected', hunread'⟩ := hreads.stream
      rw [hunread] at hpoll hunread'
      have hrest := ih hreads.sound hs' hunread'
      rw [List.length_cons, polls, hpoll, hrest, hconnected']
      rfl

theorem Sound.polls_eq (h : c.Sound) {number : Nat} {s : ResultStream}
    (hs : c.stream? number = some s) (hconnected : s.connected = false) :
    polls number (s.unread.length + 1) c = s.unread.map .item ++ [.ended] := by
  rw [h.polls_unread hs, hconnected]
  rfl

/-- A request stays pending as long as its stream stays connected. -/
theorem Sound.mem_pending_routeAll (h : c.Sound) {id : RequestId} {number : Nat}
    (hnumber : c.pending.lookup id = some number) (frames : List ResponseMessage) :
    id ∈ (c.routeAll frames).pending.map Prod.fst ↔
      ∃ s, (c.routeAll frames).stream? number = some s ∧ s.connected = true := by
  obtain ⟨hafter, hstreams⟩ := h.routeAll frames
  obtain ⟨s, hs, hid, -⟩ := (h.lookup_iff id number).mp hnumber
  constructor
  · intro hpending
    obtain ⟨later, hlater⟩ := mem_keys_iff_lookup.mp hpending
    obtain ⟨s', hs', hid', hconnected'⟩ := (hafter.lookup_iff id later).mp hlater
    -- The stream was connected before, so it is the one that the table led to.
    have hbefore := hstreams later
    rw [hs'] at hbefore
    obtain ⟨s₀, hs₀, heq⟩ := Option.map_eq_some_iff.mp hbefore.symm
    rw [← heq, ResultStream.answerAll_requestId] at hid'
    have hconnected₀ : s₀.connected = true := by
      cases hcase : s₀.connected with
      | true => rfl
      | false =>
          rw [← heq, ResultStream.answerAll_of_disconnected hcase, hcase] at hconnected'
          cases hconnected'
    have hsame := (h.lookup_iff id later).mpr ⟨s₀, hs₀, hid', hconnected₀⟩
    cases hnumber.symm.trans hsame
    exact ⟨s', hs', hconnected'⟩
  · rintro ⟨s', hs', hconnected'⟩
    have hid' : s'.requestId = id := by
      have hbefore := hstreams number
      rw [hs', hs] at hbefore
      cases hbefore
      rw [ResultStream.answerAll_requestId, hid]
    exact mem_keys_iff_lookup.mpr
      ⟨number, (hafter.lookup_iff id number).mpr ⟨s', hs', hid', hconnected'⟩⟩

/-- Texts from the server do what the responses do that are read from them. -/
theorem run_texts (hopen : c.closed = false) (texts : List String) :
    c.run (texts.map .frame)
      = c.routeAll (texts.filterMap fun text => (WireForm.ofText ResponseMessage text).toOption) := by
  induction texts generalizing c with
  | nil => rfl
  | cons text texts ih =>
      have hrun : c.run ((text :: texts).map .frame) = (c.receive text).run (texts.map .frame) := rfl
      have hopen' : (c.receive text).closed = false := by
        rcases c.receive_cases text with hsame | ⟨response, hroute⟩
        · rw [hsame, hopen]
        · rw [hroute, (keeps_route response).closed, hopen]
      rw [hrun, ih hopen', List.filterMap_cons, receive, if_neg (by simp [hopen])]
      cases WireForm.ofText ResponseMessage text <;> rfl

theorem run_frames (hopen : c.closed = false) {texts : List String}
    {frames : List ResponseMessage}
    (htexts : texts.map (WireForm.ofText ResponseMessage) = frames.map .ok) :
    c.run (texts.map .frame) = c.routeAll frames := by
  have hframes : (texts.map (WireForm.ofText ResponseMessage)).filterMap Except.toOption = frames := by
    rw [htexts, List.filterMap_map]
    exact List.filterMap_some
  rw [run_texts hopen, ← hframes, List.filterMap_map]
  rfl

/-- The client routes what it hears of the responses that the server sends. -/
theorem run_responses (hopen : c.closed = false) (frames : List ResponseMessage) :
    c.run (frames.map fun frame => .frame frame.toJson.compact)
      = c.routeAll (frames.filterMap (·.heard?)) := by
  have hrun := run_texts hopen (frames.map fun frame => frame.toJson.compact)
  rw [List.map_map, List.filterMap_map] at hrun
  exact hrun

end Client

/-! ### Both together

What is routed is text. A frame is heard as a whole or not at all, and one that is too deep for the reader is
not. If none is, the client hears exactly what the server has sent. -/

/-- What an engine answers to a request: results, and then the end or a failure. -/
structure Answer where
  requestId : RequestId
  results : List RawResult
  failure : Option TraversalError

namespace Answer

def frames (a : Answer) : List ResponseMessage :=
  Server.responses a.requestId (.accepted (streamOf a.results a.failure) true)

/-- What the client is to receive. -/
def received (a : Answer) : List StreamItem :=
  streamOf a.results (a.failure.map Server.reported)

/-- The values in the results hold their members by ascending key, and their numbers are told by their text. -/
def Legible (a : Answer) : Prop :=
  ∀ v ∈ RawResult.constantsOfAll a.results, v.Ordered ∧ v.Legible

theorem frames_spec {a : Answer} (h : ∀ e ∈ a.failure, Server.Reportable e) :
    Server.Frames a.requestId a.received a.frames :=
  Server.frames_respondTo h a.results [] (by decide)

theorem readable_of_mem_frames {a : Answer} (h : ∀ e ∈ a.failure, Server.Reportable e)
    (hlegible : a.Legible) {frame : ResponseMessage} (hframe : frame ∈ a.frames) :
    frame.Readable := by
  intro v hv
  obtain ⟨result, hresult, hv⟩ := RawResult.exists_of_mem_constantsOfAll hv
  have hitem := (frames_spec h).results frame hframe result hresult
  have hmem : result ∈ a.results := by simpa [received, streamOf] using hitem
  exact hlegible v (RawResult.mem_constantsOfAll hmem hv)

/-- If all responses to a request can be read, they are heard as they were sent. -/
theorem filterMap_heard {a : Answer} (h : ∀ e ∈ a.failure, Server.Reportable e)
    (hlegible : a.Legible) (hnesting : ∀ frame ∈ a.frames, frame.toJson.nesting ≤ 127) :
    a.frames.filterMap (·.heard?) = a.frames := by
  have hheard : ∀ frame ∈ a.frames, frame.heard? = some frame := fun frame hframe =>
    ResponseMessage.heard?_eq_some (readable_of_mem_frames h hlegible hframe) (hnesting frame hframe)
  rw [List.filterMap_congr hheard]
  exact List.filterMap_some

section Routed

variable {c : Client} {answers : List Answer} {frames : List ResponseMessage}
  (hdistinct : (answers.map requestId).Nodup)
  (hreportable : ∀ a ∈ answers, ∀ e ∈ a.failure, Server.Reportable e)
  (hframes : Interleaves (answers.map Answer.frames) frames)

include hreportable hframes

theorem exists_answer {frame : ResponseMessage} (hframe : frame ∈ frames) :
    ∃ a ∈ answers, frame.requestId = some a.requestId ∧
      frame.result.length ≤ Server.batchSize := by
  obtain ⟨part, hpart, hframe⟩ := hframes.exists_part hframe
  obtain ⟨a, ha, rfl⟩ := List.mem_map.mp hpart
  have hspec := frames_spec (hreportable a ha)
  exact ⟨a, ha, hspec.own frame hframe, hspec.small frame hframe⟩

theorem stream?_not_answered (h : c.Sound) {n : Nat} {s : ResultStream} (hs : c.stream? n = some s)
    (hother : s.requestId ∉ answers.map requestId) :
    (c.routeAll (frames.filterMap (·.heard?))).stream? n = some s := by
  have hnone : frames.filter (·.requestId == some s.requestId) = [] := by
    refine List.filter_eq_nil_iff.mpr fun frame hframe heq => ?_
    obtain ⟨a, ha, hid, -⟩ := exists_answer hreportable hframes hframe
    rw [hid, beq_iff_eq, Option.some.injEq] at heq
    exact hother (heq ▸ List.mem_map_of_mem ha)
  rw [(h.routeAll _).2, hs, Option.map_some, ← ResultStream.answerAll_filter,
    ResponseMessage.filter_heard, hnone]
  rfl

include hdistinct

theorem filter_frames {a : Answer} (ha : a ∈ answers) :
    frames.filter (·.requestId == some a.requestId) = a.frames := by
  obtain ⟨i, hi⟩ := List.mem_iff_getElem?.mp ha
  have hpart : (answers.map Answer.frames)[i]? = some a.frames := by
    rw [List.getElem?_map, hi, Option.map_some]
  refine hframes.filter_eq hpart fun j part hpart frame hframe => ?_
  rw [List.getElem?_map] at hpart
  obtain ⟨b, hb, rfl⟩ := Option.map_eq_some_iff.mp hpart
  have howner := (frames_spec (hreportable b (List.mem_of_getElem? hb))).own frame hframe
  rw [howner, beq_iff_eq, Option.some.injEq]
  constructor
  · intro heq
    have hj : (answers.map requestId)[j]? = some b.requestId := by
      rw [List.getElem?_map, hb, Option.map_some]
    have hi' : (answers.map requestId)[i]? = some b.requestId := by
      rw [List.getElem?_map, hi, Option.map_some, heq]
    exact (List.getElem?_inj (List.getElem?_eq_some_iff.mp hj).1 hdistinct).mp (hj.trans hi'.symm)
  · rintro rfl
    cases hb.symm.trans hi
    rfl

/-- A stream that waits for an answer gets what is heard of it, however much is heard of the others. -/
theorem stream?_answered (h : c.Sound) {a : Answer} (ha : a ∈ answers) {n : Nat} {s : ResultStream}
    (hs : c.stream? n = some s) (hid : s.requestId = a.requestId) (hconnected : s.connected = true)
    {earlier : List ResponseMessage} {final : ResponseMessage} (hlast : a.frames = earlier ++ [final])
    (hearlier : ∀ frame ∈ earlier, frame.isTerminal = false) (hfinal : final.isTerminal = true) :
    (c.routeAll (frames.filterMap (·.heard?))).stream? n = some { s with
      unread := s.unread ++ (a.frames.filterMap (·.heard?)).flatMap Client.itemsOf
      connected := final.heard?.isNone } := by
  have hown : ∀ frame ∈ earlier ++ [final], frame.requestId = some s.requestId := by
    rw [← hlast, hid]
    exact (frames_spec (hreportable a ha)).own
  have hmine : frames.filter (·.requestId == some s.requestId) = a.frames := by
    rw [hid]
    exact filter_frames hdistinct hreportable hframes ha
  rw [(h.routeAll _).2, hs, Option.map_some, ← ResultStream.answerAll_filter,
    ResponseMessage.filter_heard, hmine, hlast,
    ResultStream.answerAll_heard hown hearlier hfinal hconnected]

end Routed

end Answer

/-- However the responses to several requests are interleaved, the stream of each request gets what is heard
of the responses to it, and ends if the last one is heard; otherwise the request stays pending. To each request
the last response is the only one that says so, and no response holds more than a batch. If the numbers in the
results of a request are told by their text, the responses of at most 127 levels are heard and the others are
not. If all responses have at most so many levels, the stream receives the results of its engine stream in order
and then the end, or the failure as the client tells it, and the request is not pending any more. -/
theorem routed_frames_restore_streams {config : ConnectionConfig} {start : Client}
    {history : List Client.Event} {answers : List Answer} {frames : List ResponseMessage}
    (hstart : Client.connect config = .ok start)
    (hdistinct : (answers.map Answer.requestId).Nodup)
    (hpending : ∀ a ∈ answers, a.requestId ∈ (start.run history).pending.map Prod.fst)
    (hreportable : ∀ a ∈ answers, ∀ e ∈ a.failure, Server.Reportable e)
    (hframes : Interleaves (answers.map Answer.frames) frames) :
    let c := start.run history
    let after := c.run (frames.map fun frame => .frame frame.toJson.compact)
    (∀ a ∈ answers, ∃ number s earlier final,
      c.pending.lookup a.requestId = some number ∧ c.stream? number = some s ∧
      (a.frames = earlier ++ [final] ∧ (∀ frame ∈ earlier, frame.isTerminal = false) ∧
        final.isTerminal = true) ∧
      after.stream? number = some { s with
        unread := s.unread ++ (a.frames.filterMap (·.heard?)).flatMap Client.itemsOf
        connected := final.heard?.isNone } ∧
      (a.requestId ∈ after.pending.map Prod.fst ↔ final.heard? = none) ∧
      (a.Legible →
        (∀ frame ∈ a.frames, frame.heard? = if frame.toJson.nesting ≤ 127 then some frame else none) ∧
        ((∀ frame ∈ a.frames, frame.toJson.nesting ≤ 127) →
          after.stream? number
            = some { s with unread := s.unread ++ a.received, connected := false } ∧
          after.polls number ((s.unread ++ a.received).length + 1)
            = (s.unread ++ a.received).map .item ++ [.ended] ∧
          a.requestId ∉ after.pending.map Prod.fst))) ∧
    (∀ frame ∈ frames, frame.result.length ≤ Server.batchSize) ∧
    ∀ n s, c.stream? n = some s → s.requestId ∉ answers.map Answer.requestId →
      after.stream? n = some s := by
  intro c after
  have hsound : c.Sound := (Client.sound_of_connect hstart).1.run history
  have hrun : after = c.routeAll (frames.filterMap (·.heard?)) := by
    cases frames with
    | nil => rfl
    | cons frame rest =>
        obtain ⟨a, ha, -⟩ := Answer.exists_answer hreportable hframes List.mem_cons_self
        exact Client.run_responses (Client.open_of_mem_pending history hstart (hpending a ha)) _
  have hafter : after.Sound := hrun ▸ (hsound.routeAll _).1
  refine ⟨fun a ha => ?_, fun frame hframe => ?_, fun n s hs hother => ?_⟩
  · obtain ⟨number, hnumber⟩ := mem_keys_iff_lookup.mp (hpending a ha)
    obtain ⟨s, hs, hid, hconnected⟩ := (hsound.lookup_iff _ _).mp hnumber
    have hspec := Answer.frames_spec (hreportable a ha)
    obtain ⟨earlier, final, hlast, hearlier, hfinal⟩ := hspec.last
    have hstream : after.stream? number = some { s with
        unread := s.unread ++ (a.frames.filterMap (·.heard?)).flatMap Client.itemsOf
        connected := final.heard?.isNone } :=
      hrun ▸ Answer.stream?_answered hdistinct hreportable hframes hsound ha hs hid hconnected hlast
        hearlier hfinal
    have hstill : a.requestId ∈ after.pending.map Prod.fst ↔ final.heard? = none := by
      rw [hrun, hsound.mem_pending_routeAll hnumber, ← hrun, hstream]
      simp
    refine ⟨number, s, earlier, final, hnumber, hs, ⟨hlast, hearlier, hfinal⟩, hstream, hstill,
      fun hlegible => ⟨fun frame hframe => ?_, fun hnesting => ?_⟩⟩
    · exact ResponseMessage.heard?_eq
        (Answer.readable_of_mem_frames (hreportable a ha) hlegible hframe)
    · have hmem : final ∈ a.frames := by simp [hlast]
      have hheard : final.heard? = some final := ResponseMessage.heard?_eq_some
        (Answer.readable_of_mem_frames (hreportable a ha) hlegible hmem) (hnesting final hmem)
      rw [Answer.filterMap_heard (hreportable a ha) hlegible hnesting, hspec.items, hheard] at hstream
      refine ⟨hstream, hafter.polls_eq hstream rfl, ?_⟩
      rw [hstill, hheard]
      exact Option.some_ne_none final
  · obtain ⟨_, _, _, hsmall⟩ := Answer.exists_answer hreportable hframes hframe
    exact hsmall
  · exact hrun ▸ Answer.stream?_not_answered hreportable hframes hsound hs hother

/-- One request has a result and the other one fails first. -/
theorem results_and_failure_arrive :
    let first : RequestId := ⟨List.replicate 32 1, rfl⟩
    let second : RequestId := ⟨List.replicate 32 2, rfl⟩
    let start : Client := ⟨.default, 0, false, [], [], 0⟩
    let history : List Client.Event := [.send ⟨first, ⟨[]⟩⟩, .send ⟨second, ⟨[]⟩⟩]
    let found : RawResult := .value (.bool true)
    let answers : List Answer := [⟨first, [found], none⟩, ⟨second, [], some .cancelled⟩]
    let frames := [Server.failure second .cancelled, .success first [found]]
    let after := (start.run history).run (frames.map fun frame => .frame frame.toJson.compact)
    Client.connect .default = .ok start ∧ (answers.map Answer.requestId).Nodup ∧
      Interleaves (answers.map Answer.frames) frames ∧
      after.polls 0 2 = [.item (.ok found), .ended] ∧
      after.polls 1 2 = [.item (.error (.server 500 "Traversal cancelled")), .ended] := by
  intro first second start history found answers frames after
  have hdistinct : (answers.map Answer.requestId).Nodup := by decide +kernel
  have hpending : ∀ a ∈ answers, a.requestId ∈ (start.run history).pending.map Prod.fst := by
    decide +kernel
  have hreportable : ∀ a ∈ answers, ∀ e ∈ a.failure, Server.Reportable e := by
    intro a ha e he
    rcases List.mem_pair.mp ha with rfl | rfl
    · cases he
    · cases he
      trivial
  have hframes : Interleaves (answers.map Answer.frames) frames :=
    .next (i := 1) rfl (.next (i := 0) rfl (.done (by decide)))
  obtain ⟨hanswers, -⟩ := routed_frames_restore_streams Client.connect_default hdistinct hpending
    hreportable hframes
  refine ⟨Client.connect_default, hdistinct, hframes, ?_, ?_⟩
  · obtain ⟨number, s, earlier, final, hnumber, hs, -, -, -, harrive⟩ :=
      hanswers ⟨first, [found], none⟩ (by simp [answers])
    have hlegible : Answer.Legible ⟨first, [found], none⟩ := by
      intro v hv
      cases List.mem_singleton.mp hv
      exact ⟨trivial, trivial⟩
    obtain ⟨-, hpolls, -⟩ := (harrive hlegible).2 (by decide)
    cases hnumber
    cases hs
    exact hpolls
  · obtain ⟨number, s, earlier, final, hnumber, hs, -, -, -, harrive⟩ :=
      hanswers ⟨second, [], some .cancelled⟩ (by simp [answers])
    obtain ⟨-, hpolls, -⟩ := (harrive nofun).2 (by decide)
    cases hnumber
    cases hs
    exact hpolls

set_option maxRecDepth 8000 in
/-- The engine puts 63 lists within one another, its only response to them nests 128 levels, and the client
that takes it in goes on waiting. A number whose text is read as another one arrives as the other one. -/
theorem deep_result_leaves_request_pending :
    let id : RequestId := ⟨List.replicate 32 1, rfl⟩
    let request : TraversalRequest := ⟨id, ⟨.selectAll .vertex :: List.replicate 63 .fold⟩⟩
    let start : Client := ⟨.default, 0, false, [], [], 0⟩
    let c := start.run [.send request]
    let lists : List RawResult := (List.range 63).foldl (fun inner _ => [.list inner]) []
    let answer : Answer := ⟨id, lists, none⟩
    let after := c.run (answer.frames.map fun frame => .frame frame.toJson.compact)
    let number : RawResult := .value (.float ⟨false, 0x3B282DB34012B251⟩)
    Client.connect .default = .ok start ∧
    (Server.receive (RequestMessage.ofRequest request).toJson.compact (.memory .empty)).1
      = answer.frames ∧
    (∀ frame ∈ answer.frames, frame.toJson.nesting = 128) ∧
    id ∈ after.pending.map Prod.fst ∧ (after.poll 0).1 = .pending ∧
    ∃ heard, (ResponseMessage.success id [number]).heard? = some heard ∧ heard.result ≠ [number] := by
  intro id request start c lists answer after number
  have hreceived : (Server.receive (RequestMessage.ofRequest request).toJson.compact
      (.memory .empty)).1 = answer.frames := by
    have hrequest : Server.parseRequest (RequestMessage.ofRequest request).toJson.compact = .ok request :=
      Server.parseRequest_frame (by decide +kernel) nofun (by decide +kernel)
    rw [Server.receive, hrequest]
    rfl
  have hframes : answer.frames = [.success id lists] := rfl
  have hdeep : (ResponseMessage.success id lists).toJson.nesting = 128 := by decide +kernel
  have hunheard : (ResponseMessage.success id lists).heard? = none :=
    ResponseMessage.heard?_eq_none nofun (by rw [hdeep]; decide)
  have hafter : after = c := by
    have hrun := Client.run_responses (c := c) rfl answer.frames
    rwa [hframes, List.filterMap_cons_none hunheard] at hrun
  refine ⟨Client.connect_default, hreceived, ?_, ?_, ?_, ResponseMessage.heard_of_inexact_number⟩
  · rw [hframes]
    exact fun frame hframe => List.mem_singleton.mp hframe ▸ hdeep
  · rw [hafter]
    decide +kernel
  · rw [hafter]
    rfl

end PropertyGraph
