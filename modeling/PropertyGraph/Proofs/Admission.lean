import PropertyGraph.Proofs.Isolation
import PropertyGraph.Proofs.Reporting
import PropertyGraph.Proofs.Requests

/-!
# Which requests are admitted

The server looks for an identifier in the value of a text before it reads the value as a request, so a
rejection can name its request whatever else is wrong. A text has a value if it is JSON with numbers in range,
whole surrogate pairs and at most 127 levels of nesting. No identifier is told by any other text.
-/

namespace PropertyGraph

/-- What tells the identifier of a request that is rejected: the member of its name in an object, or the
first item of an array that is a request but for its operation. It is told by the value of the text. A text
that nests deeper than 127 levels, or holds a number out of range or half of a surrogate pair, has no value
even if it is well-formed, and tells no identifier. -/
inductive Identifies (text : String) (id : RequestId) : Prop
  | object {members : Members} {idText : String} : Json.ofText? text = some (.obj members) →
      members.find? "requestId" = some (.str idText) → RequestId.ofText? idText = some id →
      Identifies text id
  | array {items : List Json} {op : String} {steps : List Step} :
      Json.ofText? text = some (.arr items) → IsRequest (.arr items) id op steps →
      Identifies text id

namespace Server

variable {text : String} {value : Json} {id : RequestId} {rejection : ResponseMessage}

theorem requestId?_eq_some_iff : requestId? value = some id ↔
    ∃ (members : Members) (idText : String), value = .obj members ∧
      members.find? "requestId" = some (.str idText) ∧ RequestId.ofText? idText = some id := by
  simp only [requestId?, Option.bind_eq_some_iff]
  constructor
  · rintro ⟨idText, ⟨member, hmember, htext⟩, hid⟩
    cases value with
    | obj members =>
        cases member with
        | str text =>
            cases htext
            exact ⟨members, idText, rfl, hmember, hid⟩
        | null | bool _ | int _ | float _ | arr _ | obj _ => cases htext
    | null | bool _ | int _ | float _ | str _ | arr _ => cases hmember
  · rintro ⟨members, idText, rfl, hmember, hid⟩
    exact ⟨idText, ⟨.str idText, hmember, rfl⟩, hid⟩

theorem parseRequest_eq_ok_iff {request : TraversalRequest} : parseRequest text = .ok request ↔
    ∃ value, Json.ofText? text = some value ∧
      IsRequest value request.requestId traversalOperation request.traversal.steps := by
  constructor
  · intro h
    unfold parseRequest at h
    split at h
    · cases h
    · next value hvalue =>
        split at h
        · cases h
        · next message hmessage =>
            split at h
            · next hop =>
                cases h
                exact ⟨value, hvalue, hop ▸ (RequestMessage.ofJson_eq_ok_iff hvalue).mp hmessage⟩
            · cases h
  · rintro ⟨value, hvalue, hrequest⟩
    have hmessage : WireForm.ofJson RequestMessage value = .ok (.ofRequest request) :=
      (RequestMessage.ofJson_eq_ok_iff hvalue).mpr hrequest
    rw [parseRequest, hvalue]
    dsimp only
    rw [hmessage]
    rfl

theorem eq_malformed_of_rejected (h : parseRequest text = .error rejection) :
    ∃ reason, rejection = malformed rejection.requestId reason := by
  unfold parseRequest at h
  split at h
  · cases h
    exact ⟨_, rfl⟩
  · split at h
    · cases h
      exact ⟨_, rfl⟩
    · split at h
      · cases h
      · cases h
        exact ⟨_, rfl⟩

/-- A request in an object has the identifier that is told by its member. -/
theorem requestId_of_isRequest {members : Members} {idText op : String} {steps : List Step}
    (hrequest : IsRequest (.obj members) id op steps)
    (hmember : members.find? "requestId" = some (.str idText)) :
    RequestId.ofText? idText = some id := by
  obtain ⟨text, traversal, hparts, htext, -⟩ := hrequest.parts
  cases hparts with
  | object hid _ _ =>
      cases hid.symm.trans hmember
      exact htext

theorem requestId_of_rejected (h : parseRequest text = .error rejection) (id : RequestId) :
    rejection.requestId = some id ↔ Identifies text id := by
  unfold parseRequest at h
  split at h
  · next hnone =>
      cases h
      constructor
      · intro hid
        cases hid
      · rintro (⟨hvalue, -, -⟩ | ⟨hvalue, -⟩)
        · cases hnone.symm.trans hvalue
        · cases hnone.symm.trans hvalue
  · next value hvalue =>
      split at h
      · next e hfails =>
          cases h
          have hrequestId : (malformed (requestId? value) e.summary).requestId = some id ↔
              requestId? value = some id := Iff.rfl
          rw [hrequestId, requestId?_eq_some_iff]
          constructor
          · rintro ⟨members, idText, rfl, hmember, hid⟩
            exact .object hvalue hmember hid
          · rintro (⟨hobject, hmember, hid⟩ | @⟨items, op, steps, harray, hrequest⟩)
            · cases hvalue.symm.trans hobject
              exact ⟨_, _, rfl, hmember, hid⟩
            · cases hvalue.symm.trans harray
              have hread : WireForm.ofJson RequestMessage (.arr items) = .ok ⟨id, op, ⟨steps⟩⟩ :=
                (RequestMessage.ofJson_eq_ok_iff hvalue).mpr hrequest
              cases hfails.symm.trans hread
      · next message hmessage =>
          split at h
          · cases h
          · cases h
            have hrequest := (RequestMessage.ofJson_eq_ok_iff hvalue).mp hmessage
            constructor
            · intro hid
              cases hid
              obtain ⟨idText, traversal, hparts, htext, -⟩ := hrequest.parts
              cases hparts with
              | object hmember _ _ => exact .object hvalue hmember htext
              | array => exact .array hvalue hrequest
            · rintro (⟨hobject, hmember, hid⟩ | @⟨items, op, steps, harray, hother⟩)
              · cases hvalue.symm.trans hobject
                exact (requestId_of_isRequest hrequest hmember).symm.trans hid
              · cases hvalue.symm.trans harray
                have hread : WireForm.ofJson RequestMessage (.arr items) = .ok ⟨id, op, ⟨steps⟩⟩ :=
                  (RequestMessage.ofJson_eq_ok_iff hvalue).mpr hother
                cases hmessage.symm.trans hread
                rfl

/-- A rejection is heard as it was sent. -/
theorem heard?_malformed (id : Option RequestId) (reason : String) :
    (malformed id reason).heard? = some (malformed id reason) := by
  have hnesting : (malformed id reason).toJson.nesting = 2 := by cases id <;> rfl
  exact ResponseMessage.heard?_eq_some nofun (hnesting ▸ by decide)

end Server

namespace Client

variable {c : Client}

/-- A rejection with its identifier takes a pending request out of the table, and its stream yields the
rejection after what is still unread, and then the end. -/
theorem released_by_rejection {config : ConnectionConfig} {start : Client} (history : List Event)
    {id : RequestId} (hstart : connect config = .ok start)
    (hpending : id ∈ (start.run history).pending.map Prod.fst) (reason : String) :
    let c := start.run history
    let after := c.receive (Server.malformed (some id) reason).toJson.compact
    id ∉ after.pending.map Prod.fst ∧
    ∃ number s, c.pending.lookup id = some number ∧ c.stream? number = some s ∧
      after.polls number (s.unread.length + 2) = s.unread.map .item
        ++ [.item (.error (.server Status.malformedRequest reason)), .ended] := by
  intro c after
  have hsound : c.Sound := (sound_of_connect hstart).1.run history
  obtain ⟨number, hnumber⟩ := mem_keys_iff_lookup.mp hpending
  obtain ⟨s, hs, hid, hconnected⟩ := (hsound.lookup_iff id number).mp hnumber
  let failed : TraversalError := .server Status.malformedRequest reason
  have hafter : after = c.routeAll (Server.responses id (.refused failed)) := by
    have hrun := run_responses (open_of_mem_pending history hstart hpending)
      [Server.malformed (some id) reason]
    rwa [List.filterMap_cons_some (Server.heard?_malformed (some id) reason)] at hrun
  have hreportable : Server.Reportable failed := by
    change Status.malformedRequest ∉ [Status.success, Status.noContent, Status.incomplete]
    decide
  obtain ⟨hend, hreleased⟩ := stream?_failing_last hsound hs hid hconnected (.refused failed)
    (Server.status_failure_of_reportable hreportable)
  rw [Server.itemsOf_failure hreportable] at hend
  rw [hafter]
  refine ⟨hreleased, number, s, hnumber, hs, ?_⟩
  have hpolls := ((hsound.routeAll _).1).polls_eq hend rfl
  simpa [ResultStream.deliver, ResultStream.disconnect, Server.failure, ResponseMessage.error, failed]
    using hpolls

end Client

/-- A text is admitted as a request with an identifier and steps exactly if it has a value and this is such
a request of the operation for traversals. Every other text gets one response, which changes nothing, ends
its request and is an error. It has the identifier that the value tells, also where something else is wrong,
and so a client that waits for the request is told and waits no longer. A text of more than 127 levels, with
a number out of range or with half of a surrogate pair has no value, and its rejection names no request. -/
theorem request_admitted_or_rejected (text : String) :
    (∀ request, Server.parseRequest text = .ok request ↔ ∃ value, Json.ofText? text = some value ∧
      IsRequest value request.requestId traversalOperation request.traversal.steps) ∧
    ∀ rejection, Server.parseRequest text = .error rejection →
      (∀ channel, Server.receive text channel = ([rejection], channel)) ∧
      (rejection.status.code = 498 ∧ rejection.isTerminal = true ∧ rejection.isError = true ∧
        rejection.result = []) ∧
      (∀ id, rejection.requestId = some id ↔ Identifies text id) ∧
      ∀ (config : ConnectionConfig) (start : Client) (history : List Client.Event) (id : RequestId),
        Client.connect config = .ok start → id ∈ (start.run history).pending.map Prod.fst →
        Identifies text id →
        let c := start.run history
        let after := c.receive rejection.toJson.compact
        id ∉ after.pending.map Prod.fst ∧
        ∃ number s, c.pending.lookup id = some number ∧ c.stream? number = some s ∧
          after.polls number (s.unread.length + 2) = s.unread.map .item
            ++ [.item (.error (.server 498 rejection.status.message)), .ended] := by
  refine ⟨fun request => Server.parseRequest_eq_ok_iff, fun rejection hrejected => ?_⟩
  have hid := Server.requestId_of_rejected hrejected
  obtain ⟨reason, hreason⟩ := Server.eq_malformed_of_rejected hrejected
  refine ⟨fun channel => ?_, ?_, hid, fun config start history id hstart hpending hidentifies => ?_⟩
  · rw [Server.receive, hrejected]
  · rw [hreason]
    exact ⟨rfl, rfl, rfl, rfl⟩
  · rw [(hid id).mpr hidentifies] at hreason
    rw [hreason]
    exact Client.released_by_rejection history hstart hpending reason

/-- A request without an operation is rejected with its identifier, and it is no longer pending then. -/
theorem request_without_operation_released :
    let idText := "0123456789abcdef0123456789ABCDEF"
    let members : Members :=
      [("requestId", .str idText), ("traversal", .arr [.obj [("step", .str "nope")]])]
    let text := (Json.obj members).compact
    let digits : List (Fin 16) := [0, 1, 2, 3, 4, 5, 6, 7, 8, 9, 10, 11, 12, 13, 14, 15]
    let id : RequestId := ⟨digits ++ digits, rfl⟩
    let start : Client := ⟨.default, 0, false, [], [], 0⟩
    let c := start.run [.send ⟨id, ⟨[]⟩⟩]
    ∃ rejection, Server.parseRequest text = .error rejection ∧ Identifies text id ∧
      Client.connect .default = .ok start ∧ id ∈ c.pending.map Prod.fst ∧
      rejection.requestId = some id ∧
      id ∉ (c.receive rejection.toJson.compact).pending.map Prod.fst := by
  intro idText members text digits id start c
  have hordered : (Json.obj members).Ordered := by
    refine ⟨.of_keys ["requestId", "traversal"] (by decide) rfl, trivial, ?_, trivial⟩
    exact ⟨⟨.of_keys ["step"] (by decide) rfl, trivial, trivial⟩, trivial⟩
  have hlegible : (Json.obj members).Legible :=
    ⟨trivial, ⟨⟨trivial, trivial⟩, trivial⟩, trivial⟩
  have hvalue : Json.ofText? text = some (.obj members) := by
    rw [Json.ofText?_compact hlegible (by decide), hordered.sorted_eq]
  have hidText : RequestId.ofText? idText = some id := by decide +kernel
  have hidentifies : Identifies text id := .object hvalue rfl hidText
  obtain ⟨hadmitted, hrejections⟩ := request_admitted_or_rejected text
  obtain ⟨rejection, hrejected⟩ : ∃ rejection, Server.parseRequest text = .error rejection := by
    cases hparse : Server.parseRequest text with
    | error rejection => exact ⟨rejection, rfl⟩
    | ok request =>
        obtain ⟨value, hother, hrequest⟩ := (hadmitted request).mp hparse
        cases hvalue.symm.trans hother
        obtain ⟨_, _, hparts, -⟩ := hrequest.parts
        cases hparts with
        | object _ hop _ => cases hop
  have hpending : id ∈ c.pending.map Prod.fst := by decide +kernel
  obtain ⟨-, -, hid, hreleased⟩ := hrejections rejection hrejected
  refine ⟨rejection, hrejected, hidentifies, Client.connect_default, hpending,
    (hid id).mpr hidentifies, ?_⟩
  exact (hreleased .default start _ id Client.connect_default hpending hidentifies).1

/-- A client sends a request with a value of 124 arrays within one another, 128 levels in all. The server does
not make out its identifier, and so the client goes on waiting. -/
theorem deep_request_rejected_without_id :
    let id : RequestId := ⟨List.replicate 32 1, rfl⟩
    let nested : Json := (List.range 124).foldl (fun inner _ => .arr [inner]) .null
    let request : TraversalRequest := ⟨id, ⟨[.inject [nested]]⟩⟩
    let text := (RequestMessage.ofRequest request).toJson.compact
    let start : Client := ⟨.default, 0, false, [], [], 0⟩
    let c := (start.send request).2
    Client.connect .default = .ok start ∧ (start.send request).1 = .ok (0, text) ∧
      id ∈ c.pending.map Prod.fst ∧ (RequestMessage.ofRequest request).toJson.nesting = 128 ∧
      ∃ rejection, Server.parseRequest text = .error rejection ∧ rejection.requestId = none ∧
        id ∈ (c.receive rejection.toJson.compact).pending.map Prod.fst := by
  intro id nested request text start c
  have harrays : ∀ (levels : List Nat) (v : Json), v.Legible →
      (levels.foldl (fun inner _ => .arr [inner]) v).Legible := by
    intro levels
    induction levels with
    | nil => exact fun _ h => h
    | cons level rest ih => exact fun v h => ih (.arr [v]) ⟨h, trivial⟩
  have hdeep : (RequestMessage.ofRequest request).toJson.nesting = 128 := by decide +kernel
  have hlegible : (RequestMessage.ofRequest request).toJson.Legible := by
    refine RequestMessage.legible_toJson fun v hv => ?_
    cases List.mem_singleton.mp hv
    exact harrays _ .null trivial
  have hnone : Json.ofText? text = none :=
    Json.ofText?_compact_eq_none hlegible (by rw [hdeep]; decide)
  have hrejected : Server.parseRequest text
      = .error (Server.malformed none DecodeError.malformed.summary) := by
    rw [Server.parseRequest, hnone]
  have hafter : c.receive (Server.malformed none DecodeError.malformed.summary).toJson.compact = c := by
    have hrun := Client.run_responses (c := c) rfl [Server.malformed none DecodeError.malformed.summary]
    rwa [List.filterMap_cons_some (Server.heard?_malformed none _)] at hrun
  refine ⟨Client.connect_default, rfl, by decide +kernel, hdeep, _, hrejected, rfl, ?_⟩
  rw [hafter]
  decide +kernel

end PropertyGraph
