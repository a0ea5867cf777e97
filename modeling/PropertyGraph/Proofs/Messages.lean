import PropertyGraph.Proofs.Printing
import PropertyGraph.Proofs.RoundTrip
import PropertyGraph.Remote.Server

/-!
# Messages are read back

Results, responses and requests are records and variants like steps, and their free values are the only
place where it matters how members are arranged. An element leaves out the endpoints it does not have,
and a response without an identifier has a null for it. An identifier of a request is read back from its
digits and the hyphens between their groups.
-/

namespace PropertyGraph

open Document (ofJson ofItems ofMembers)

namespace RequestId

theorem digit?_digitText : ∀ d : Fin 16, digit? (digitText d) = some d := by decide

theorem mapM_digit? (digits : List (Fin 16)) :
    (digits.map digitText).mapM digit? = some digits := by
  induction digits with
  | nil => rfl
  | cons d digits ih => rw [List.map_cons, List.mapM_cons, digit?_digitText, ih]; rfl

theorem length_hyphenated (sizes : List Nat) : ∀ {cs : List Char},
    sizes.foldr (· + ·) 0 ≤ cs.length →
    (hyphenated sizes cs).length = cs.length + sizes.length := by
  induction sizes with
  | nil => intro cs _; rfl
  | cons size sizes ih =>
      intro cs h
      rw [List.foldr_cons] at h
      have hrest : (hyphenated sizes (cs.drop size)).length
          = (cs.drop size).length + sizes.length :=
        ih (by rw [List.length_drop]; omega)
      rw [hyphenated, List.length_append, List.length_cons, List.length_take, hrest,
        List.length_drop, List.length_cons]
      omega

theorem joined?_hyphenated (sizes : List Nat) : ∀ {cs : List Char},
    sizes.foldr (· + ·) 0 ≤ cs.length →
    joined? sizes (hyphenated sizes cs) = some cs := by
  induction sizes with
  | nil => intro cs _; rfl
  | cons size sizes ih =>
      intro cs h
      rw [List.foldr_cons] at h
      have hsize : (cs.take size).length = size := by
        rw [List.length_take]
        omega
      have hrest : joined? sizes (hyphenated sizes (cs.drop size)) = some (cs.drop size) :=
        ih (by rw [List.length_drop]; omega)
      rw [hyphenated, joined?, List.drop_left' hsize, List.take_left' hsize]
      simp only [hrest, Option.map_some, List.take_append_drop]

theorem ofText?_text (id : RequestId) : ofText? id.text = some id := by
  have hlength : (id.digits.map digitText).length = 32 := by rw [List.length_map, id.length_eq]
  have hgroups : groups.foldr (· + ·) 0 ≤ (id.digits.map digitText).length := by
    rw [hlength]
    decide
  have htext : (hyphenated groups (id.digits.map digitText)).length = 36 := by
    rw [length_hyphenated groups hgroups, hlength]
    rfl
  have hplain : unwrapped (hyphenated groups (id.digits.map digitText))
      = hyphenated groups (id.digits.map digitText) := by
    rw [unwrapped, if_neg (by simp [htext]), if_neg (by simp [htext])]
  have hdigits : ofDigits? (id.digits.map digitText) = some id := by
    rw [ofDigits?, mapM_digit?, Option.bind_some, dif_pos id.length_eq]
  rw [ofText?, text, String.toList_ofList, if_neg (by simp [htext]), hplain,
    joined?_hyphenated groups hgroups, Option.bind_some, hdigits]

theorem read_toJson (o : Arrangement) (id : RequestId) :
    read (ofJson (id.toJson.arranged o)) = .ok id := by
  rw [toJson, Json.arranged_str, ofJson, read, ofText?_text]

end RequestId

variable {m : Medium} {o : Arrangement}

namespace Reading

section Records

variable {σ : Type} {fields : List Field} {seen : List String} {record : σ}
  {read : String → Document → Except DecodeError (σ → σ)}

/-- The members of a record with their readings as fields. -/
def recordPieces (read : String → Document → Except DecodeError (σ → σ))
    (members : List (String × Json)) : List (String × Piece σ) :=
  members.map fun p => (p.1, ⟨Document.ofJson p.2, fun name => read name (Document.ofJson p.2)⟩)

theorem recordPieces_append (before after : List (String × Json)) :
    recordPieces read (before ++ after) = recordPieces read before ++ recordPieces read after :=
  List.map_append

/-- A record is filled from its members as they are arranged. -/
theorem record_ofJson {expected : String} {empty : σ} {members : List (String × Json)}
    (h : fillMembers m fields [] (recordPieces read (Members.arranged members o)) empty
      = .ok record) :
    Reading.record m expected fields empty read (Document.ofJson ((Json.obj members).arranged o))
      = .ok record := by
  rw [Json.arranged_obj, Document.ofJson, ofMembers_eq_map, Reading.record]
  apply fill_members_eq_ok
  rw [List.map_map]
  exact h

theorem fill_field {β : Type} {key : String} {value : Json} {rest : List (String × Json)}
    {reading : Except DecodeError β} {b : β} {set : β → σ → σ}
    (hfield : fields.any (·.name == key) = true) (hseen : seen.contains key = false)
    (hread : read key (Document.ofJson value) = reading >>= fun b => .ok (set b))
    (hreading : reading = .ok b) :
    fillMembers m fields seen (recordPieces read ((key, value) :: rest)) record
      = fillMembers m fields (key :: seen) (recordPieces read rest) (set b record) :=
  fillMembers_field hfield hseen hread hreading

end Records

end Reading

/-! ### Results -/

namespace RawElement

/-- The member of an endpoint, or none, in an arrangement. -/
def arrangedEndpoint (o : Arrangement) (key : String) (id : Option ElementId) :
    List (String × Json) :=
  (endpointMember key id).map fun p => (p.1, p.2.arranged o)

theorem arranged_element (o : Arrangement) (id label kind properties : Json)
    (source target : Option ElementId) :
    Members.arranged ([("id", id), ("label", label), ("kind", kind), ("properties", properties)]
        ++ endpointMember "outV" source ++ endpointMember "inV" target) o
      = match o with
        | .written => [("id", id.arranged o), ("label", label.arranged o), ("kind", kind.arranged o),
            ("properties", properties.arranged o)]
          ++ (arrangedEndpoint o "outV" source ++ arrangedEndpoint o "inV" target)
        | .sorted => ("id", id.arranged o) :: (arrangedEndpoint o "inV" target
          ++ ("kind", kind.arranged o) :: ("label", label.arranged o)
          :: (arrangedEndpoint o "outV" source ++ [("properties", properties.arranged o)])) := by
  cases o with
  | written =>
      simp only [Members.arranged, arrangedEndpoint, Json.arranged, List.map_id', List.append_assoc]
  | sorted =>
      refine Members.ofList_eq ?_ ?_
      · cases source with
        | none =>
            cases target with
            | none => exact .of_keys ["id", "kind", "label", "properties"] (by decide) rfl
            | some _ => exact .of_keys ["id", "inV", "kind", "label", "properties"] (by decide) rfl
        | some _ =>
            cases target with
            | none => exact .of_keys ["id", "kind", "label", "outV", "properties"] (by decide) rfl
            | some _ =>
                exact .of_keys ["id", "inV", "kind", "label", "outV", "properties"] (by decide) rfl
      · rw [Json.sortedMembers_eq_map, List.map_append, List.map_append]
        -- the target moves behind the rest, the kind and the label change places, and the source
        -- moves behind the properties
        refine .cons _ (List.perm_append_comm.trans (.trans (.swap _ _ _) (.cons _ (.cons _ ?_))))
        exact (List.perm_append_singleton _ _).append_right _

theorem key_of_mem_arrangedEndpoint {key : String} {id : Option ElementId} {p : String × Json}
    (hp : p ∈ arrangedEndpoint o key id) : p.1 = key := by
  cases id with
  | none => cases hp
  | some id =>
      cases List.mem_singleton.mp hp
      rfl

theorem optional_read_toJson (o : Arrangement) (id : ElementId) :
    Reading.optional ElementId.read (ofJson (id.toJson.arranged o)) = .ok (some id) := by
  have hid := ElementId.read_toJson o id
  have hoptional : Reading.optional ElementId.read (ofJson (id.toJson.arranged o))
      = (ElementId.read (ofJson (id.toJson.arranged o))).map some := by
    cases id <;> cases o <;> rfl
  rw [hoptional, hid]
  rfl

theorem fill_endpoint (key : String) {id : Option ElementId} {seen : List String}
    {set : Option ElementId → Draft → Draft} {rest : List (String × Json)} {draft : Draft}
    (hfield : fields.any (·.name == key) = true) (hseen : seen.contains key = false)
    (hrest : ∀ p ∈ rest, p.1 ≠ key) (hempty : set none draft = draft)
    (hread : ∀ d, readField m key d
      = (Reading.optional ElementId.read d >>= fun id => .ok (set id))) :
    Reading.fillMembers m fields seen
        (Reading.recordPieces (readField m) (arrangedEndpoint o key id ++ rest)) draft
      = Reading.fillMembers m fields (key :: seen) (Reading.recordPieces (readField m) rest)
          (set id draft) := by
  have hkeys : ∀ p ∈ Reading.recordPieces (readField m) rest, p.1 ≠ key := by
    intro p hp
    obtain ⟨q, hq, rfl⟩ := List.mem_map.mp hp
    exact hrest q hq
  rw [Reading.recordPieces_append]
  cases id with
  | none => exact Reading.fillMembers_optional (.ok none) hfield hseen hkeys (.inl ⟨rfl, hempty⟩)
  | some id =>
      have hid := optional_read_toJson o id
      exact Reading.fillMembers_optional _ hfield hseen hkeys (.inr ⟨_, rfl, hread _, hid⟩)

theorem readProperties_ofJson {properties : Members} (h : Reading.Keeps m o (.obj properties)) :
    readProperties m (ofJson ((Json.obj properties).arranged o)) = .ok properties := by
  rw [Reading.Keeps] at h
  rw [Json.arranged_obj] at h ⊢
  rw [ofJson] at h ⊢
  rw [readProperties, h]
  rfl

theorem read_toJson {e : RawElement} (h : Reading.Keeps m o (.obj e.properties)) :
    read m (ofJson (e.toJson.arranged o)) = .ok e := by
  have hid := ElementId.read_toJson o e.id
  have hlabel := Reading.string_ofJson o e.label
  have hkind := ElementKind.read_toJson m o e.kind
  have hproperties := readProperties_ofJson h
  have hnil : ∀ p ∈ ([] : List (String × Json)), p.1 ≠ "inV" := nofun
  have hin : ∀ p ∈ arrangedEndpoint o "inV" e.inV ++ [], p.1 ≠ "outV" := by
    intro p hp
    rw [List.append_nil] at hp
    rw [key_of_mem_arrangedEndpoint hp]
    decide
  have hfill : Reading.fillMembers m fields []
      (Reading.recordPieces (readField m) (Members.arranged ([("id", e.id.toJson),
        ("label", .str e.label), ("kind", e.kind.toJson), ("properties", .obj e.properties)]
        ++ endpointMember "outV" e.outV ++ endpointMember "inV" e.inV) o))
      ⟨none, none, none, [], none, none⟩
      = .ok ⟨some e.id, some e.label, some e.kind, e.properties, e.outV, e.inV⟩ := by
    rw [arranged_element]
    cases o with
    | written =>
        rw [← List.append_nil (arrangedEndpoint _ "inV" e.inV)]
        simp only [List.cons_append, List.nil_append]
        rw [Reading.fill_field rfl rfl rfl hid, Reading.fill_field rfl rfl rfl hlabel,
          Reading.fill_field rfl rfl rfl hkind, Reading.fill_field rfl rfl rfl hproperties,
          fill_endpoint "outV" rfl rfl hin rfl (fun _ => rfl),
          fill_endpoint "inV" rfl rfl hnil rfl (fun _ => rfl)]
        rfl
    | sorted =>
        have hlater : ∀ p ∈ ("kind", e.kind.toJson.arranged .sorted)
            :: ("label", (Json.str e.label).arranged .sorted)
            :: (arrangedEndpoint .sorted "outV" e.outV
              ++ [("properties", (Json.obj e.properties).arranged .sorted)]), p.1 ≠ "inV" := by
          intro p hp
          simp only [List.mem_cons, List.mem_append, List.not_mem_nil, or_false] at hp
          rcases hp with rfl | rfl | hp | rfl
          · simp
          · simp
          · rw [key_of_mem_arrangedEndpoint hp]
            decide
          · simp
        have hlast : ∀ p ∈ [("properties", (Json.obj e.properties).arranged .sorted)],
            p.1 ≠ "outV" := by
          simp
        rw [Reading.fill_field rfl rfl rfl hid,
          fill_endpoint "inV" rfl rfl hlater rfl (fun _ => rfl),
          Reading.fill_field rfl rfl rfl hkind, Reading.fill_field rfl rfl rfl hlabel,
          fill_endpoint "outV" rfl rfl hlast rfl (fun _ => rfl),
          Reading.fill_field rfl rfl rfl hproperties]
        rfl
  rw [read, toJson, Reading.record_ofJson hfill]
  rfl

end RawElement

namespace RawResult

mutual
/-- The free values of a result; the properties of an element are one object. -/
def constants : RawResult → List Json
  | .element e => [.obj e.properties]
  | .value v => [v]
  | .list items => constantsOfAll items
termination_by structural result => result
def constantsOfAll : List RawResult → List Json
  | [] => []
  | item :: rest => constants item ++ constantsOfAll rest
termination_by structural items => items
end

theorem read_typed {tag : Tag} {value : Json} {result : RawResult}
    (h : readContent (ofJson (value.arranged o)) m tag = .ok result) :
    read (ofJson ((Json.obj [("type", .str tag.text), ("value", value)]).arranged o)) m
      = .ok result := by
  have htag : Reading.choice m tags (.str tag.text) = .ok tag := by cases tag <;> rfl
  rw [Json.arranged_obj, Members.arranged_of_keys ["type", "value"] (by decide) (by rfl)]
  simp only [List.map_cons, List.map_nil, Json.arranged_str]
  rw [ofJson, read]
  exact Reading.besideMembers_tag_first (by decide) htag h

mutual
theorem read_toJson {m : Medium} : ∀ result : RawResult,
    (∀ value ∈ result.constants, Reading.Keeps m o value) →
    read (ofJson (result.toJson.arranged o)) m = .ok result
  | .element e, h => by
      have helement := RawElement.read_toJson (m := m) (o := o) (e := e) (h _ (by simp [constants]))
      have hcontent : readContent (ofJson (e.toJson.arranged o)) m .element = .ok (.element e) := by
        rw [readContent, helement]
        rfl
      exact read_typed hcontent
  | .value v, h => by
      have hvalue : Reading.free m (ofJson (v.arranged o)) = .ok v := h v (by simp [constants])
      have hcontent : readContent (ofJson (v.arranged o)) m .value = .ok (.value v) := by
        rw [readContent, hvalue]
        rfl
      exact read_typed hcontent
  | .list items, h => by
      have hitems := readItems_ofItems (m := m) items h
      have hcontent : readContent (ofJson ((Json.arr (itemsToJson items)).arranged o)) m .list
          = .ok (.list items) := by
        rw [Json.arranged_arr, ofJson, readContent, hitems]
        rfl
      exact read_typed hcontent
termination_by structural result => result
theorem readItems_ofItems {m : Medium} : ∀ results : List RawResult,
    (∀ value ∈ constantsOfAll results, Reading.Keeps m o value) →
    readItems (ofItems ((itemsToJson results).map (·.arranged o))) m = .ok results
  | [], _ => rfl
  | result :: rest, h => by
      have hresult := read_toJson (m := m) result fun value hvalue =>
        h value (List.mem_append_left _ hvalue)
      have hrest := readItems_ofItems (m := m) rest fun value hvalue =>
        h value (List.mem_append_right _ hvalue)
      rw [itemsToJson, List.map_cons, ofItems, readItems, hresult, ok_bind, hrest]
      rfl
termination_by structural results => results
end

theorem mem_constantsOfAll {results : List RawResult} {result : RawResult} (h : result ∈ results)
    {value : Json} (hvalue : value ∈ result.constants) : value ∈ constantsOfAll results := by
  induction results with
  | nil => cases h
  | cons first rest ih =>
      rcases List.mem_cons.mp h with rfl | h
      · exact List.mem_append_left _ hvalue
      · exact List.mem_append_right _ (ih h)

theorem exists_of_mem_constantsOfAll {results : List RawResult} {value : Json}
    (h : value ∈ constantsOfAll results) : ∃ result ∈ results, value ∈ result.constants := by
  induction results with
  | nil => cases h
  | cons first rest ih =>
      rcases List.mem_append.mp h with h | h
      · exact ⟨first, List.mem_cons_self, h⟩
      · obtain ⟨result, hresult, hvalue⟩ := ih h
        exact ⟨result, List.mem_cons_of_mem first hresult, hvalue⟩

end RawResult

namespace ResponseStatus

theorem read_toJson (s : ResponseStatus) : read m (ofJson (s.toJson.arranged o)) = .ok s := by
  have hcode : Reading.natural 16 (ofJson ((Json.int s.code.toNat).arranged o))
      = .ok s.code.toNat := by
    have hmax : (s.code.toNat : Int) ≤ 65535 := by
      have hlt := s.code.toNat_lt
      omega
    have hcontains : (⟨false, 16⟩ : Text.IntegerType).contains s.code.toNat = true :=
      Bool.and_eq_true_iff.mpr ⟨decide_eq_true (Int.natCast_nonneg _), decide_eq_true hmax⟩
    rw [Json.arranged_int, ofJson, Reading.natural, Reading.integer, if_pos hcontains]
    rfl
  have hmessage := Reading.string_ofJson o s.message
  rw [toJson, Json.arranged_obj, Members.arranged_of_keys ["code", "message"] (by decide) (by rfl)]
  simp only [read, ofJson, ofMembers, Reading.record, List.map_cons, List.map_nil,
    Reading.Layout.fill]
  rw [Reading.fillMembers_field rfl rfl rfl hcode, Reading.fillMembers_field rfl rfl rfl hmessage,
    UInt16.ofNat_toNat]
  rfl

end ResponseStatus

namespace ResponseMessage

/-- The free values of a response. -/
def constants (r : ResponseMessage) : List Json := RawResult.constantsOfAll r.result

theorem optional_requestId (o : Arrangement) (id : Option RequestId) :
    Reading.optional RequestId.read (ofJson (((id.map RequestId.toJson).getD .null).arranged o))
      = .ok id := by
  cases id with
  | none => cases o <;> rfl
  | some id =>
      have hid := RequestId.read_toJson o id
      have hoptional : Reading.optional RequestId.read (ofJson (id.toJson.arranged o))
          = (RequestId.read (ofJson (id.toJson.arranged o))).map some := by
        cases o <;> rfl
      rw [Option.map_some, Option.getD_some, hoptional, hid]
      rfl

theorem arranged_response (id status result : Json) :
    Members.arranged [("requestId", id), ("status", status), ("result", result)] .sorted
      = [("requestId", id.arranged .sorted), ("result", result.arranged .sorted),
        ("status", status.arranged .sorted)] :=
  Members.ofList_eq (.of_keys ["requestId", "result", "status"] (by decide) rfl)
    ((List.Perm.swap _ _ []).cons _)

theorem read_toJson {r : ResponseMessage} (h : ∀ value ∈ r.constants, Reading.Keeps m o value) :
    read m (ofJson (r.toJson.arranged o)) = .ok r := by
  have hid := optional_requestId o r.requestId
  have hstatus := ResponseStatus.read_toJson (m := m) (o := o) r.status
  have hresult : Reading.list (RawResult.read · m)
      (ofJson ((Json.arr (r.result.map RawResult.toJson)).arranged o)) = .ok r.result :=
    Reading.list_ofJson fun result hresult => RawResult.read_toJson result fun value hvalue =>
      h value (RawResult.mem_constantsOfAll hresult hvalue)
  have hfill : Reading.fillMembers m [Reading.defaulted "requestId", Reading.required "status",
        Reading.defaulted "result"] []
      (Reading.recordPieces (readField m) (Members.arranged
        [("requestId", (r.requestId.map RequestId.toJson).getD .null), ("status", r.status.toJson),
          ("result", .arr (r.result.map RawResult.toJson))] o)) ⟨none, none, []⟩
      = .ok ⟨r.requestId, some r.status, r.result⟩ := by
    cases o with
    | written =>
        rw [Members.arranged, Reading.fill_field rfl rfl rfl hid,
          Reading.fill_field rfl rfl rfl hstatus, Reading.fill_field rfl rfl rfl hresult]
        rfl
    | sorted =>
        rw [arranged_response, Reading.fill_field rfl rfl rfl hid,
          Reading.fill_field rfl rfl rfl hresult, Reading.fill_field rfl rfl rfl hstatus]
        rfl
  rw [toJson, read, Reading.record_ofJson hfill]
  rfl

end ResponseMessage

namespace RequestMessage

theorem arranged_request (id op traversal : Json) :
    Members.arranged [("requestId", id), ("op", op), ("traversal", traversal)] .sorted
      = [("op", op.arranged .sorted), ("requestId", id.arranged .sorted),
        ("traversal", traversal.arranged .sorted)] :=
  Members.ofList_eq (.of_keys ["op", "requestId", "traversal"] (by decide) rfl) (.swap _ _ _)

theorem read_toJson {r : RequestMessage} (hnames : Step.unboundIn? [] r.traversal.steps = none)
    (h : ∀ value ∈ Step.constantsIn r.traversal.steps, Reading.Keeps m o value) :
    read m (ofJson (r.toJson.arranged o)) = .ok r := by
  have hid := RequestId.read_toJson o r.requestId
  have hop := Reading.string_ofJson o r.op
  have htraversal := CompiledTraversal.read_toJson (m := m) h
  rw [hnames] at htraversal
  have hfill : Reading.fillMembers m [Reading.required "requestId", Reading.required "op",
        Reading.required "traversal"] []
      (Reading.recordPieces (readField m) (Members.arranged [("requestId", r.requestId.toJson),
        ("op", .str r.op), ("traversal", r.traversal.toJson)] o)) ⟨none, none, none⟩
      = .ok ⟨some r.requestId, some r.op, some r.traversal⟩ := by
    cases o with
    | written =>
        rw [Members.arranged, Reading.fill_field rfl rfl rfl hid, Reading.fill_field rfl rfl rfl hop,
          Reading.fill_field rfl rfl rfl htraversal]
        rfl
    | sorted =>
        rw [arranged_request, Reading.fill_field rfl rfl rfl hop, Reading.fill_field rfl rfl rfl hid,
          Reading.fill_field rfl rfl rfl htraversal]
        rfl
  rw [toJson, read, Reading.record_ofJson hfill]
  rfl

end RequestMessage

end PropertyGraph
