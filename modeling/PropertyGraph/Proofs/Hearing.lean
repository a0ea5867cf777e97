import PropertyGraph.Proofs.Exchange
import PropertyGraph.Proofs.Looking

/-!
# What is heard of a response

The server prints a response however deeply its results nest, and a client reads no text with more than 127
levels. So a response is heard as it was sent, or nothing is heard of it, which is told by its nesting. This
takes that the numbers in the results are told by their text. Where they are not, the results may be heard as
other ones, but a response that is heard at all has the identifier and the status that were sent, since these
are printed first.
-/

namespace PropertyGraph

open Document (ofJson cut cutItems cutMembers maxDepth)

/-! ### Readers take nothing that is too deep

A piece that stands too deep has no value. Readers may skip such a piece in a member that they do not
know, but all members of a wire form are fields, and each field of a record is read.
-/

namespace Reading

variable {σ α : Type} {m : Medium} {fields : List Field} {depth : Nat}

/-- Each member that is a field has been read. -/
theorem exists_fill_of_mem {seen : List String} {pieces : List (String × Piece σ)}
    {record record' : σ} (h : fillMembers m fields seen pieces record = .ok record')
    {p : String × Piece σ} (hp : p ∈ pieces) (hfield : fields.any (·.name == p.1) = true) :
    ∃ set, p.2.fill p.1 = .ok set := by
  induction pieces generalizing seen record with
  | nil => cases hp
  | cons q rest ih =>
      rw [fillMembers] at h
      split at h
      · split at h
        · cases h
        · obtain ⟨set, hset, h⟩ := exists_of_bind_eq_ok h
          rcases List.mem_cons.mp hp with rfl | hp
          · exact ⟨set, hset⟩
          · exact ih h hp
      · next hother =>
          obtain ⟨-, -, h⟩ := exists_of_bind_eq_ok h
          rcases List.mem_cons.mp hp with rfl | hp
          · exact absurd hfield hother
          · exact ih h hp

/-- A record all of whose members are fields is as deep as the limit allows if each of them is. -/
theorem nesting_le_of_record {expected : String} {empty record : σ}
    {read : String → Document → Except DecodeError (σ → σ)} {members : List (String × Json)}
    (h : Reading.record m expected fields empty read (cut depth (.obj members)) = .ok record)
    (hfields : ∀ p ∈ members, fields.any (·.name == p.1) = true)
    (hmembers : ∀ p ∈ members, depth < maxDepth → ∀ set, read p.1 (cut (depth + 1) p.2) = .ok set →
      depth + 1 + p.2.nesting ≤ maxDepth) :
    depth + (Json.obj members).nesting ≤ maxDepth := by
  rw [cut] at h
  split at h
  · next hdepth =>
      obtain ⟨record', hfill, -⟩ := exists_of_bind_eq_ok h
      have hbound : Json.nestingOfMembers members ≤ maxDepth - (depth + 1) := by
        refine Json.nestingOfMembers_le fun p hp => ?_
        have hpiece : (p.1, cut (depth + 1) p.2) ∈ cutMembers (depth + 1) members := by
          rw [Document.cutMembers_eq_map]
          exact List.mem_map_of_mem hp
        obtain ⟨set, hset⟩ := exists_fill_of_mem hfill (List.mem_map_of_mem hpiece) (hfields p hp)
        have hmember := hmembers p hp hdepth set hset
        omega
      rw [Json.nesting]
      omega
  · cases h

theorem nesting_le_of_list {read : Document → Except DecodeError α} {toJson : α → Json} {xs ys : List α}
    (h : list read (cut depth (.arr (xs.map toJson))) = .ok ys)
    (hitems : ∀ x ∈ xs, depth < maxDepth → ∀ y, read (cut (depth + 1) (toJson x)) = .ok y →
      depth + 1 + (toJson x).nesting ≤ maxDepth) :
    depth + (Json.arr (xs.map toJson)).nesting ≤ maxDepth := by
  rw [cut] at h
  split at h
  · next hdepth =>
      obtain ⟨values, hvalues, -⟩ := exists_of_bind_eq_ok h
      rw [Document.cutItems_eq_map, List.map_map] at hvalues
      have hbound : Json.nestingOfItems (xs.map toJson) ≤ maxDepth - (depth + 1) := by
        refine Json.nestingOfItems_le fun item hitem => ?_
        obtain ⟨x, hx, rfl⟩ := List.mem_map.mp hitem
        obtain ⟨y, hy⟩ := exists_of_mapM_eq_ok hvalues (List.mem_map_of_mem hx)
        have hfirst := hitems x hx hdepth y hy
        omega
      rw [Json.nesting]
      omega
  · cases h

theorem nesting_le_of_free {value read : Json} (hdepth : depth ≤ maxDepth)
    (h : free .text (cut depth value) = .ok read) : depth + value.nesting ≤ maxDepth := by
  unfold free at h
  split at h
  · next hread => exact Document.nesting_le_of_toJson? value hdepth hread
  · cases h

end Reading

variable {depth : Nat}

theorem ElementId.nesting_toJson (id : ElementId) : id.toJson.nesting = 0 := by
  cases id <;> rfl

namespace RawElement

theorem eq_of_mem_endpointMember {key : String} {id : Option ElementId} {p : String × Json}
    (hp : p ∈ endpointMember key id) : p.1 = key ∧ p.2.nesting = 0 := by
  cases id with
  | none => cases hp
  | some id =>
      cases List.mem_singleton.mp hp
      exact ⟨rfl, id.nesting_toJson⟩

theorem nesting_le_of_readProperties {properties read : Members}
    (h : readProperties .text (cut depth (.obj properties)) = .ok read) (hdepth : depth ≤ maxDepth) :
    depth + (Json.obj properties).nesting ≤ maxDepth := by
  rw [cut] at h
  split at h
  · next hlt =>
      obtain ⟨value, hvalue, -⟩ := exists_of_bind_eq_ok h
      have hcut : cut depth (.obj properties) = .obj (cutMembers (depth + 1) properties) true := by
        rw [cut, if_pos hlt]
      exact Reading.nesting_le_of_free hdepth (hcut ▸ hvalue)
  · cases h

/-- All members of an element are its fields, and only its properties have a nesting. -/
theorem nesting_le_of_read {e read : RawElement}
    (h : RawElement.read .text (cut depth e.toJson) = .ok read) :
    depth + e.toJson.nesting ≤ maxDepth := by
  obtain ⟨draft, hdraft, -⟩ := exists_of_bind_eq_ok h
  refine Reading.nesting_le_of_record hdraft (fun p hp => ?_) fun p hp hdepth set hset => ?_
  all_goals
    simp only [List.mem_append, List.mem_cons, List.not_mem_nil, or_false] at hp
  · rcases hp with ((rfl | rfl | rfl | rfl) | hp) | hp
    · rfl
    · rfl
    · rfl
    · rfl
    · rw [(eq_of_mem_endpointMember hp).1]
      rfl
    · rw [(eq_of_mem_endpointMember hp).1]
      rfl
  · rcases hp with ((rfl | rfl | rfl | rfl) | hp) | hp
    · rw [e.id.nesting_toJson]
      exact hdepth
    · exact hdepth
    · exact hdepth
    · obtain ⟨properties, hproperties, -⟩ := exists_of_bind_eq_ok hset
      exact nesting_le_of_readProperties hproperties hdepth
    · rw [(eq_of_mem_endpointMember hp).2]
      exact hdepth
    · rw [(eq_of_mem_endpointMember hp).2]
      exact hdepth

end RawElement

namespace RawResult

theorem exists_of_read_typed {m : Medium} {tag : String} {value : Json} {read : RawResult}
    (h : RawResult.read (cut depth (.obj [("type", .str tag), ("value", value)])) m = .ok read) :
    depth < maxDepth ∧ ∃ t content, Reading.choice m tags (.str tag) = .ok t ∧
      readContent (cut (depth + 1) value) m t = .ok content := by
  rw [cut] at h
  split at h
  · next hdepth =>
      refine ⟨hdepth, ?_⟩
      rw [RawResult.read, Reading.besideMembers] at h
      obtain ⟨relevant, hrelevant, h⟩ := exists_of_bind_eq_ok h
      cases hrelevant
      obtain ⟨t, ht, h⟩ := exists_of_bind_eq_ok h
      obtain ⟨relevant, hrelevant, h⟩ := exists_of_bind_eq_ok h
      cases hrelevant
      obtain ⟨content, hcontent, -⟩ := exists_of_bind_eq_ok h
      exact ⟨t, content, ht, hcontent⟩
  · cases h

theorem nesting_typed (tag : String) (value : Json) :
    (Json.obj [("type", .str tag), ("value", value)]).nesting = value.nesting + 1 := by
  simp [Json.nesting, Json.nestingOfMembers]

mutual
theorem nesting_le_of_read : ∀ (result : RawResult) {depth : Nat} {read : RawResult},
    RawResult.read (cut depth result.toJson) .text = .ok read →
    depth + result.toJson.nesting ≤ maxDepth
  | .element e, depth, read, h => by
      obtain ⟨-, tag, content, htag, hcontent⟩ := exists_of_read_typed h
      cases htag
      rw [readContent] at hcontent
      obtain ⟨element, helement, -⟩ := exists_of_map_eq_ok hcontent
      have he := RawElement.nesting_le_of_read helement
      rw [toJson, nesting_typed]
      omega
  | .value v, depth, read, h => by
      obtain ⟨hdepth, tag, content, htag, hcontent⟩ := exists_of_read_typed h
      cases htag
      rw [readContent] at hcontent
      obtain ⟨value, hvalue, -⟩ := exists_of_map_eq_ok hcontent
      have hv := Reading.nesting_le_of_free hdepth hvalue
      rw [toJson, nesting_typed]
      omega
  | .list items, depth, read, h => by
      obtain ⟨-, tag, content, htag, hcontent⟩ := exists_of_read_typed h
      cases htag
      rw [cut] at hcontent
      split at hcontent
      · next hdepth =>
          obtain ⟨values, hvalues, -⟩ := exists_of_bind_eq_ok hcontent
          have hitems := nesting_le_of_readItems items hdepth hvalues
          rw [toJson, nesting_typed, Json.nesting]
          omega
      · cases hcontent
termination_by structural result => result
theorem nesting_le_of_readItems : ∀ (results : List RawResult) {depth : Nat}
    {read : List RawResult}, depth ≤ maxDepth →
    readItems (cutItems depth (itemsToJson results)) .text = .ok read →
    depth + Json.nestingOfItems (itemsToJson results) ≤ maxDepth
  | [], _, _, hdepth, _ => hdepth
  | result :: rest, depth, read, hdepth, h => by
      obtain ⟨first, hfirst, h⟩ := exists_of_bind_eq_ok h
      obtain ⟨others, hothers, -⟩ := exists_of_bind_eq_ok h
      have hresult := nesting_le_of_read result hfirst
      have hrest := nesting_le_of_readItems rest hdepth hothers
      rw [itemsToJson, Json.nestingOfItems]
      omega
termination_by structural results => results
end

end RawResult

namespace ResponseMessage

theorem nesting_le_of_read {r read : ResponseMessage}
    (h : ResponseMessage.read .text (cut depth r.toJson) = .ok read) :
    depth + r.toJson.nesting ≤ maxDepth := by
  obtain ⟨draft, hdraft, -⟩ := exists_of_bind_eq_ok h
  refine Reading.nesting_le_of_record hdraft (fun p hp => ?_) fun p hp hdepth set hset => ?_
  all_goals
    simp only [List.mem_cons, List.not_mem_nil, or_false] at hp
    rcases hp with rfl | rfl | rfl
  · rfl
  · rfl
  · rfl
  · cases r.requestId <;> exact hdepth
  · obtain ⟨status, hstatus, -⟩ := exists_of_bind_eq_ok hset
    obtain ⟨draft, hdraft, -⟩ := exists_of_bind_eq_ok hstatus
    refine Reading.nesting_le_of_record hdraft (fun p hp => ?_) fun p hp hdepth set hset => ?_
    all_goals
      simp only [List.mem_cons, List.not_mem_nil, or_false] at hp
      rcases hp with rfl | rfl
    · rfl
    · rfl
    · exact hdepth
    · exact hdepth
  · obtain ⟨results, hresults, -⟩ := exists_of_bind_eq_ok hset
    refine Reading.nesting_le_of_list hresults fun result _ _ read hread => ?_
    exact RawResult.nesting_le_of_read result hread

end ResponseMessage

namespace Document

/-- The members of an object are read one behind the other, and none is lost again. -/
theorem readMembers_eq_obj (fuel : Nat) (depth : Nat) (before : List (String × Document))
    (cs : List Char) : ∃ more closed rest,
    readMembers fuel depth before cs = (obj (before.reverse ++ more) closed, rest) := by
  induction fuel generalizing before cs with
  | zero => exact ⟨[], false, none, by rw [List.append_nil, readMembers.eq_def]⟩
  | succ fuel ih =>
      rw [readMembers.eq_def]
      split
      · next hfuel _ =>
          cases hfuel
          split
          · next key _ _ =>
              split
              · split
                · next value _ => exact ⟨[(key, value)], false, none, by simp⟩
                · next value _ _ =>
                    split
                    · next rest _ => exact ⟨[(key, value)], true, some rest, by simp⟩
                    · next rest _ =>
                        obtain ⟨more, closed, rest', hmore⟩ := ih ((key, value) :: before) rest
                        exact ⟨(key, value) :: more, closed, rest', by simpa using hmore⟩
                    · exact ⟨[(key, value)], false, none, by simp⟩
              · exact ⟨[(key, broken)], false, none, by simp⟩
          · exact ⟨[], false, none, by simp⟩
      · exact ⟨[], false, none, by simp⟩

theorem fst_ofText (text : String) :
    (ofText text).1 = (readValue (2 * text.toList.length + 2) 0 text.toList).1 := by
  rw [ofText]
  generalize readValue (2 * text.toList.length + 2) 0 text.toList = reading
  obtain ⟨value, rest⟩ := reading
  cases rest <;> rfl

theorem readMembers_compact_next {key : String} {value : Json} (hlegible : value.Legible)
    {fuel depth : Nat} {before : List (String × Document)} {rest : List Char}
    (hfuel : (Json.quote key).toList.length + value.compact.toList.length ≤ fuel) :
    readMembers (fuel + 1) depth before
        ((Json.quote key).toList ++ ':' :: (value.compact.toList ++ ',' :: rest))
      = readMembers fuel depth ((key, cut depth value) :: before) rest := by
  have hvalue : readValue fuel depth (value.compact.toList ++ ',' :: rest)
      = (cut depth value, some (',' :: rest)) :=
    readValue_compact value hlegible (by omega) (delimited_cons (.inl rfl))
  exact readMembers_next (by omega) hvalue

/-- Members that are printed first are read first, whatever is printed behind them. -/
theorem ofText_compact_first (key key' : String) {value value' : Json} (hvalue : value.Legible)
    (hvalue' : value'.Legible) (next : String × Json) (members : List (String × Json)) :
    ∃ more closed, (ofText (Json.obj ((key, value) :: (key', value') :: next :: members)).compact).1
      = obj ((key, cut 1 value) :: (key', cut 1 value') :: more) closed := by
  generalize htail : (Json.compactMembers (next :: members)).toList ++ ['\x7d'] = tail
  have htext : (Json.obj ((key, value) :: (key', value') :: next :: members)).compact.toList
      = '\x7b' :: ((Json.quote key).toList ++ ':' :: (value.compact.toList ++ ',' ::
        ((Json.quote key').toList ++ ':' :: (value'.compact.toList ++ ',' :: tail)))) := by
    rw [toList_compact_obj, toList_compactMembers_cons, toList_compactMembers_cons, ← htail]
    simp only [List.append_assoc, List.cons_append]
  have hlength := congrArg List.length htext
  simp only [List.length_cons, List.length_append] at hlength
  generalize (Json.obj ((key, value) :: (key', value') :: next :: members)).compact = text
    at htext hlength
  obtain ⟨fuel, hfuel⟩ : ∃ fuel, 2 * text.toList.length + 2 = fuel + 3 :=
    ⟨2 * text.toList.length - 1, by omega⟩
  obtain ⟨more, closed, rest, hmore⟩ :=
    readMembers_eq_obj fuel 1 [(key', cut 1 value'), (key, cut 1 value)] tail
  refine ⟨more, closed, ?_⟩
  rw [fst_ofText, hfuel, htext, readValue_brace ((opens_quote key).append _),
    readMembers_compact_next hvalue (by omega), readMembers_compact_next hvalue' (by omega), hmore]
  rfl

end Document

namespace Reading

/-- What has been set by a field stays. -/
theorem place_of_fillMembers {σ β : Type} {m : Medium} {fields : List Field} {seen : List String}
    {members : List (String × Document)} {record record' : σ}
    (read : String → Document → Except DecodeError (σ → σ)) (place : σ → β) (key : String)
    (hplace : ∀ k d set, k ≠ key → read k d = .ok set → ∀ record, place (set record) = place record)
    (h : fillMembers m fields seen (members.map fun p => (p.1, ⟨p.2, fun name => read name p.2⟩)) record
      = .ok record') (hseen : key ∈ seen) : place record' = place record := by
  induction members generalizing seen record with
  | nil =>
      cases h
      rfl
  | cons p rest ih =>
      rw [List.map_cons, fillMembers] at h
      split at h
      · split at h
        · cases h
        · next hunseen =>
            obtain ⟨set, hset, h⟩ := exists_of_bind_eq_ok h
            have hne : p.1 ≠ key := by
              rintro rfl
              exact hunseen (List.contains_iff_mem.mpr hseen)
            rw [ih h (List.mem_cons_of_mem _ hseen), hplace p.1 p.2 set hne hset]
      · obtain ⟨-, -, h⟩ := exists_of_bind_eq_ok h
        exact ih h hseen

end Reading

namespace ResponseMessage

variable {r heard : ResponseMessage}

/-- What a client hears of the text of a response. -/
def heard? (r : ResponseMessage) : Option ResponseMessage :=
  (WireForm.ofText ResponseMessage r.toJson.compact).toOption

theorem heard?_eq_some_iff :
    r.heard? = some heard ↔ WireForm.ofText ResponseMessage r.toJson.compact = .ok heard := by
  rw [heard?]
  cases WireForm.ofText ResponseMessage r.toJson.compact <;> simp [Except.toOption]

theorem read_of_heard (h : r.heard? = some heard) :
    ResponseMessage.read .text (Document.ofText r.toJson.compact).1 = .ok heard := by
  obtain ⟨message, hread, h⟩ := exists_of_bind_eq_ok (heard?_eq_some_iff.mp h)
  obtain ⟨-, -, h⟩ := exists_of_bind_eq_ok h
  cases h
  exact hread

/-- A field sets its own place of the draft and keeps the others. -/
theorem kept_of_readField {m : Medium} {k : String} {d : Document} {set : Draft → Draft}
    (h : readField m k d = .ok set) (draft : Draft) :
    (k ≠ "requestId" → (set draft).requestId = draft.requestId) ∧
      (k ≠ "status" → (set draft).status = draft.status) := by
  unfold readField at h
  split at h
  · obtain ⟨id, -, h⟩ := exists_of_bind_eq_ok h
    cases h
    exact ⟨fun hne => absurd rfl hne, fun _ => rfl⟩
  · obtain ⟨status, -, h⟩ := exists_of_bind_eq_ok h
    cases h
    exact ⟨fun _ => rfl, fun hne => absurd rfl hne⟩
  · obtain ⟨result, -, h⟩ := exists_of_bind_eq_ok h
    cases h
    exact ⟨fun _ => rfl, fun _ => rfl⟩

/-- A response keeps its identifier and its status on the way, whatever becomes of its results. -/
theorem heard_spec (h : r.heard? = some heard) :
    heard.requestId = r.requestId ∧ heard.status = r.status := by
  obtain ⟨more, closed, hdocument⟩ := Document.ofText_compact_first "requestId" "status"
    (RequestId.legible_optional r.requestId) r.status.legible_toJson
    ("result", .arr (r.result.map RawResult.toJson)) []
  have hread := read_of_heard h
  have hid : Reading.optional RequestId.read
      (cut 1 ((r.requestId.map RequestId.toJson).getD .null)) = .ok r.requestId := by
    have hcut : cut 1 ((r.requestId.map RequestId.toJson).getD .null)
        = ofJson ((r.requestId.map RequestId.toJson).getD .null) := by
      cases r.requestId <;> rfl
    rw [hcut]
    exact optional_requestId .written r.requestId
  have hstatus : ResponseStatus.read .text (cut 1 r.status.toJson) = .ok r.status :=
    ResponseStatus.read_toJson (o := .written) r.status
  rw [toJson, hdocument] at hread
  obtain ⟨draft, hdraft, hread⟩ := exists_of_bind_eq_ok hread
  obtain ⟨status, hneed, hread⟩ := exists_of_bind_eq_ok hread
  obtain ⟨draft', hfill, hdraft⟩ := exists_of_bind_eq_ok hdraft
  obtain ⟨-, -, hdraft⟩ := exists_of_bind_eq_ok hdraft
  cases hread
  cases hdraft
  -- The first two members have been read, and none behind them is read as the same field again.
  rw [List.map_cons, List.map_cons, Reading.fillMembers_field rfl rfl rfl hid,
    Reading.fillMembers_field rfl rfl rfl hstatus] at hfill
  have hothers : Reading.fillMembers .text [Reading.defaulted "requestId", Reading.required "status",
        Reading.defaulted "result"] ["status", "requestId"]
      (more.map fun p => (p.1, ⟨p.2, fun name => readField .text name p.2⟩))
      ⟨r.requestId, some r.status, []⟩ = .ok draft := hfill
  have hkeptId := Reading.place_of_fillMembers (readField .text) Draft.requestId "requestId"
    (fun _ _ _ hne hset draft => (kept_of_readField hset draft).1 hne) hothers
    (List.mem_cons_of_mem _ List.mem_cons_self)
  have hkeptStatus := Reading.place_of_fillMembers (readField .text) Draft.status "status"
    (fun _ _ _ hne hset draft => (kept_of_readField hset draft).2 hne) hothers List.mem_cons_self
  rw [hkeptStatus] at hneed
  cases hneed
  exact ⟨hkeptId, rfl⟩

/-- Every free value in the results has its members in order, and its numbers are told by their text. -/
def Readable (r : ResponseMessage) : Prop := ∀ value ∈ r.constants, value.Ordered ∧ value.Legible

theorem heard?_eq_some (h : r.Readable) (hnesting : r.toJson.nesting ≤ 127) : r.heard? = some r := by
  have hround : RoundTrips r.constants r :=
    roundTrips_of_read (fun m o => ResponseMessage.read_toJson) ResponseMessage.legible_toJson
  exact heard?_eq_some_iff.mpr (hround.ofText h hnesting .written)

theorem heard?_eq_none (h : r.Readable) (hnesting : 127 < r.toJson.nesting) : r.heard? = none := by
  rw [Option.eq_none_iff_forall_not_mem]
  intro heard hheard
  have htext := Document.ofText_compact_cut (legible_toJson fun value hvalue => (h value hvalue).2)
  have hread : ResponseMessage.read .text (cut 0 r.toJson) = .ok heard := by
    rw [← read_of_heard hheard, htext]
  have hle := nesting_le_of_read hread
  have hmax : maxDepth = 127 := rfl
  omega

/-- A response is heard as it was sent if it nests no deeper than 127 levels, and not at all otherwise. -/
theorem heard?_eq (h : r.Readable) : r.heard? = if r.toJson.nesting ≤ 127 then some r else none := by
  split
  · next hnesting => exact heard?_eq_some h hnesting
  · next hnesting => exact heard?_eq_none h (Nat.lt_of_not_le hnesting)

/-- A number whose text is read as another number is heard as the other one. -/
theorem heard_of_inexact_number :
    let id : RequestId := ⟨List.replicate 32 1, rfl⟩
    let number : RawResult := .value (.float ⟨false, 0x3B282DB34012B251⟩)
    ∃ heard, (ResponseMessage.success id [number]).heard? = some heard ∧ heard.result ≠ [number] := by
  intro id number
  have hquote : ∀ s : String, Json.quote s
      = String.ofList ('"' :: s.toList.flatMap (fun c => (Json.escapeChar c).toList) ++ ['"']) := by
    intro s
    rw [← Document.toList_quote, String.ofList_toList]
  have hheard : ((ResponseMessage.success id [number]).heard?.map (·.result == [number]))
      = some false := by
    simp only [ResponseMessage.heard?, ResponseMessage.toJson, ResponseMessage.success, Option.map_some,
      Option.getD_some, RequestId.toJson, ResponseStatus.toJson, List.map_cons, List.map_nil,
      RawResult.toJson, Json.compact, Json.compactMembers, Json.compactItems, Json.scalarText, hquote,
      id, number]
    decide +kernel
  obtain ⟨heard, hheard, hother⟩ := Option.map_eq_some_iff.mp hheard
  refine ⟨heard, hheard, fun heq => ?_⟩
  rw [heq] at hother
  exact absurd hother (by decide +kernel)

end ResponseMessage

end PropertyGraph
