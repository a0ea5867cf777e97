import PropertyGraph.Proofs.Exchange
import PropertyGraph.Proofs.Fields
import PropertyGraph.Proofs.SelfContained

/-!
# Values that are requests

A request is told by its three parts, wherever they stand among the members of an object, and by the binds
around its references. The decoder goes through members in the order written and fails at the first fault; a
value that it accepts is a request all the same, and every request is accepted.
-/

namespace PropertyGraph

open Document (ofJson ofItems ofMembers)

/-- Each reference in steps, at any depth, stands inside of a bind of its name. -/
def Step.Enclosed (steps : List Step) : Prop :=
  ∀ names predicate rest, Encloses steps names (.filter predicate :: rest) →
    ∀ name ∈ predicate.references, name ∈ names

/-- A name leaves steps by a reference at some depth that no bind around it gives. -/
def Step.Escapes (steps : List Step) (name : String) : Prop :=
  ∃ names predicate rest, Encloses steps names (.filter predicate :: rest) ∧
    name ∈ predicate.references ∧ name ∉ names

section Scoping

variable {steps : List Step} {name : String}

theorem escapes_of_mem_freeNames (steps : List Step) (name : String) :
    Step.Induction
      (fun step => ∀ names rest, Encloses steps names (step :: rest) →
        name ∈ Step.freeNames step → name ∉ names → Step.Escapes steps name)
      (fun inner => ∀ names, Encloses steps names inner →
        name ∈ Step.freeNamesIn inner → name ∉ names → Step.Escapes steps name) where
  look step hlooks names rest hinside hfree hnames := by
    cases step with
    | filter predicate => exact ⟨names, predicate, rest, hinside, hfree, hnames⟩
    | addVertex _ _ | addEdge _ _ _ _ | update _ | bind _ _ | drop => cases hlooks
    | selectAll _ | selectById _ _ | typeFilter _ | traverse _ _ _ | edgeVertex _ | inject _ | fold
    | project _ | limit _ => cases hfree
  addVertex _ _ _ _ _ hfree := nomatch hfree
  addEdge label properties source target hsource htarget names rest hinside hfree hnames := by
    rcases List.mem_append.mp hfree with hfree | hfree
    · cases source with
      | none => cases hfree
      | some selector => exact hsource selector rfl names (.selector hinside (.inl rfl)) hfree hnames
    · cases target with
      | none => cases hfree
      | some selector => exact htarget selector rfl names (.selector hinside (.inr rfl)) hfree hnames
  update _ _ _ _ hfree := nomatch hfree
  bind bound continuation hcontinuation names rest hinside hfree hnames := by
    obtain ⟨hfree, hne⟩ := List.mem_filter.mp hfree
    refine hcontinuation (bound :: names) (.continuation hinside) hfree ?_
    exact List.not_mem_cons_of_ne_of_not_mem (bne_iff_ne.mp hne) hnames
  drop _ _ _ hfree := nomatch hfree
  nil _ _ hfree := nomatch hfree
  cons step rest hstep hrest names hinside hfree hnames := by
    rcases List.mem_append.mp hfree with hfree | hfree
    · exact hstep names rest hinside hfree hnames
    · exact hrest names (.rest hinside) hfree hnames

/-- The check of references passes exactly for steps in which each one stands inside of a bind. -/
theorem unboundIn?_eq_none_iff : Step.unboundIn? [] steps = none ↔ Step.Enclosed steps := by
  rw [Step.unboundIn?_nil, List.head?_eq_none_iff]
  constructor
  · intro hnone names predicate rest hinside name hname
    by_contra hnames
    have hfree := mem_freeNamesIn_of_encloses hinside (List.mem_append_left _ hname) hnames
    rw [hnone] at hfree
    cases hfree
  · intro henclosed
    refine List.eq_nil_iff_forall_not_mem.mpr fun name hfree => ?_
    obtain ⟨names, predicate, rest, hinside, hname, hnames⟩ :=
      (escapes_of_mem_freeNames steps name).holdsOfAll steps [] .here hfree List.not_mem_nil
    exact hnames (henclosed names predicate rest hinside name hname)

end Scoping

/-! ### Records in complete values

In a complete value no name of a member repeats, so each place of a record is settled by the one member of its
name, in whatever order the members are read. -/

namespace Reading

section Records

variable {σ α : Type} {m : Medium} {fields : List Field} {seen : List String}
  {members : List (String × Json)} {record record' : σ}
  {read : String → Document → Except DecodeError (σ → σ)}

/-- A place of a record after it has been filled: with what is read from a member, if there is one. -/
def Settled (reading : Document → Except DecodeError α) (value? : Option Json)
    (before after : Option α) : Prop :=
  match value? with
  | some value => ∃ a, reading (Document.ofJson value) = .ok a ∧ after = some a
  | none => after = before

theorem checkSkipped_eq_ok (hm : m.streaming = false) (d : Document) : d.checkSkipped m = .ok () := by
  rw [Document.checkSkipped, hm]
  rfl

theorem settled_of_fillMembers {key : String} {place : σ → Option α}
    {reading : Document → Except DecodeError α} (hm : m.streaming = false)
    (hkey : fields.any (·.name == key) = true)
    (hplace : ∀ k d set, fields.any (·.name == k) = true → read k d = .ok set → ∀ record,
      (k = key → ∃ a, reading d = .ok a ∧ place (set record) = some a) ∧
        (k ≠ key → place (set record) = place record))
    (hnodup : (members.map (·.1)).Nodup)
    (h : fillMembers m fields seen (recordPieces read members) record = .ok record') :
    Settled reading (members.lookup key) (place record) (place record') := by
  induction members generalizing seen record with
  | nil =>
      cases h
      rfl
  | cons p rest ih =>
      obtain ⟨k, value⟩ := p
      obtain ⟨hfirst, hnodup⟩ := List.nodup_cons.mp hnodup
      have hpieces : recordPieces read ((k, value) :: rest)
          = (k, ⟨Document.ofJson value, fun name => read name (Document.ofJson value)⟩)
            :: recordPieces read rest := rfl
      rw [hpieces, fillMembers] at h
      rw [lookup_cons_eq]
      by_cases hfield : fields.any (·.name == k) = true
      · rw [if_pos hfield] at h
        split at h
        · cases h
        · obtain ⟨set, hset, h⟩ := exists_of_bind_eq_ok h
          have hrest := ih hnodup h
          by_cases hk : key = k
          · subst hk
            have hnone : rest.lookup key = none := by
              refine List.lookup_eq_none_iff.mpr fun q hq => ?_
              exact bne_iff_ne.mpr fun heq => hfirst (heq ▸ List.mem_map.mpr ⟨q, hq, rfl⟩)
            obtain ⟨a, ha, hset⟩ := (hplace _ _ set hfield hset record).1 rfl
            rw [hnone] at hrest
            rw [if_pos rfl]
            exact ⟨a, ha, hrest.trans hset⟩
          · rw [if_neg hk]
            rwa [(hplace k _ set hfield hset record).2 (Ne.symm hk)] at hrest
      · have hk : key ≠ k := fun heq => hfield (heq ▸ hkey)
        rw [if_neg hfield, checkSkipped_eq_ok hm] at h
        rw [if_neg hk]
        exact ih hnodup h

theorem exists_of_fillMembers (hm : m.streaming = false) (hnodup : (members.map (·.1)).Nodup)
    (hseen : ∀ p ∈ members, p.1 ∉ seen)
    (hread : ∀ p ∈ members, fields.any (·.name == p.1) = true →
      ∃ set, read p.1 (Document.ofJson p.2) = .ok set) (record : σ) :
    ∃ record', fillMembers m fields seen (recordPieces read members) record = .ok record' := by
  induction members generalizing seen record with
  | nil => exact ⟨record, rfl⟩
  | cons p rest ih =>
      obtain ⟨k, value⟩ := p
      obtain ⟨hfirst, hnodup⟩ := List.nodup_cons.mp hnodup
      obtain ⟨hunseen, hseen⟩ := List.forall_mem_cons.mp hseen
      obtain ⟨hvalue, hread⟩ := List.forall_mem_cons.mp hread
      have hpieces : recordPieces read ((k, value) :: rest)
          = (k, ⟨Document.ofJson value, fun name => read name (Document.ofJson value)⟩)
            :: recordPieces read rest := rfl
      rw [hpieces, fillMembers]
      by_cases hfield : fields.any (·.name == k) = true
      · obtain ⟨set, hset⟩ := hvalue hfield
        have hlater : ∀ q ∈ rest, q.1 ∉ k :: seen := by
          intro q hq hmem
          rcases List.mem_cons.mp hmem with rfl | hmem
          · exact hfirst (List.mem_map.mpr ⟨q, hq, rfl⟩)
          · exact hseen q hq hmem
        rw [if_pos hfield, if_neg (by simpa using hunseen)]
        dsimp only
        rw [hset]
        exact ih hnodup hlater hread (set record)
      · rw [if_neg hfield, checkSkipped_eq_ok hm]
        exact ih hnodup hseen hread record

theorem Settled.of_some {reading : Document → Except DecodeError α} {value? : Option Json} {a : α}
    {after : Option α} (h : Settled reading value? none after) (hafter : after = some a) :
    ∃ value, value? = some value ∧ reading (Document.ofJson value) = .ok a := by
  subst hafter
  cases value? with
  | none => cases h
  | some value =>
      obtain ⟨a', ha, hsome⟩ := h
      cases hsome
      exact ⟨value, rfl, ha⟩

theorem Settled.eq_some {reading : Document → Except DecodeError α} {value : Json} {a : α}
    {before after : Option α} (h : Settled reading (some value) before after)
    (ha : reading (Document.ofJson value) = .ok a) : after = some a := by
  obtain ⟨a', ha', rfl⟩ := h
  cases ha.symm.trans ha'
  rfl

theorem eq_some_of_need {name : String} {o : Option α} {a : α} (h : need name o = .ok a) :
    o = some a := by
  cases o with
  | none => cases h
  | some b =>
      cases h
      rfl

/-- An array without optional fields has one item for each field. -/
theorem length_of_fillItems {closed : Bool} {total position : Nat} {pieces : List (Piece σ)}
    (hrequired : ∀ field ∈ fields, field.optional = false)
    (h : fillItems m closed total position fields pieces record = .ok record') :
    pieces.length = fields.length := by
  induction fields generalizing position pieces record with
  | nil =>
      cases pieces with
      | nil => rfl
      | cons piece pieces => cases h
  | cons field fields ih =>
      obtain ⟨hfield, hrequired⟩ := List.forall_mem_cons.mp hrequired
      cases pieces with
      | nil =>
          obtain ⟨-, -, h⟩ := exists_of_bind_eq_ok h
          rw [hfield] at h
          cases h
      | cons piece pieces =>
          obtain ⟨set, -, h⟩ := exists_of_bind_eq_ok h
          exact congrArg (· + 1) (ih hrequired h)

end Records

end Reading

/-- The three parts of a request stand in an object under their names or in an array in order. -/
inductive RequestParts : Json → Json → Json → Json → Prop
  | object {members : Members} {id op traversal : Json} :
      members.find? "requestId" = some id → members.find? "op" = some op →
      members.find? "traversal" = some traversal → RequestParts (.obj members) id op traversal
  | array (id op traversal : Json) : RequestParts (.arr [id, op, traversal]) id op traversal

/-- A value is a request: its identifier is 32 digits in one of their forms, its operation is a text, and
each reference in its steps stands inside of a bind of its name. -/
structure IsRequest (value : Json) (id : RequestId) (op : String) (steps : List Step) : Prop where
  parts : ∃ text traversal, RequestParts value (.str text) (.str op) traversal ∧
    RequestId.ofText? text = some id ∧ WireForm.ofJson (List Step) traversal = .ok steps
  enclosed : Step.Enclosed steps

section Requests

variable {value : Json} {id : RequestId} {op : String} {steps : List Step}
  {message : RequestMessage}

theorem RequestId.read_eq_ok_iff :
    RequestId.read (ofJson value) = .ok id ↔ ∃ text, value = .str text ∧ ofText? text = some id := by
  cases value with
  | str text =>
      simp only [Json.str.injEq, exists_eq_left', ofJson, RequestId.read]
      cases ofText? text <;> simp
  | null | bool _ | int _ | float _ | arr _ | obj _ =>
      constructor
      · intro h
        cases h
      · rintro ⟨_, htext, -⟩
        cases htext

theorem Reading.string_eq_ok_iff :
    Reading.string (Document.ofJson value) = .ok op ↔ value = .str op := by
  cases value with
  | str text => simp [Document.ofJson, Reading.string]
  | null | bool _ | int _ | float _ | arr _ | obj _ =>
      constructor
      · intro h
        cases h
      · intro htext
        cases htext

theorem CompiledTraversal.read_eq_ok_iff {m : Medium} {d : Document} {c : CompiledTraversal} :
    CompiledTraversal.read m d = .ok c ↔
      Step.readSequence d m = .ok c.steps ∧ Step.Enclosed c.steps := by
  rw [← unboundIn?_eq_none_iff, CompiledTraversal.read]
  cases Step.readSequence d m with
  | error e =>
      constructor
      · intro h
        cases h
      · rintro ⟨h, -⟩
        cases h
  | ok steps =>
      rw [ok_bind]
      constructor
      · intro h
        split at h
        · cases h
        · next hbound =>
            cases h
            exact ⟨rfl, hbound⟩
      · rintro ⟨hsteps, hbound⟩
        cases hsteps
        rw [hbound]
        rfl

/-- The three parts of a request as they are read. -/
def ReadsParts (id op traversal : Json) (message : RequestMessage) : Prop :=
  RequestId.read (ofJson id) = .ok message.requestId ∧
    Reading.string (ofJson op) = .ok message.op ∧
    CompiledTraversal.read .value (ofJson traversal) = .ok message.traversal

namespace RequestMessage

def fields : List Reading.Field :=
  [Reading.required "requestId", Reading.required "op", Reading.required "traversal"]

theorem eq_of_any_fields {k : String} (h : fields.any (·.name == k) = true) :
    k = "requestId" ∨ k = "op" ∨ k = "traversal" := by
  obtain ⟨field, hmem, hname⟩ := List.any_eq_true.mp h
  have hk : field.name = k := beq_iff_eq.mp hname
  simp only [fields, List.mem_cons, List.not_mem_nil, or_false] at hmem
  rcases hmem with rfl | rfl | rfl
  · exact .inl hk.symm
  · exact .inr (.inl hk.symm)
  · exact .inr (.inr hk.symm)

/-- What a field of a request sets in the draft. -/
theorem set_of_readField {m : Medium} {k : String} {d : Document} {set : Draft → Draft}
    (hfield : fields.any (·.name == k) = true) (h : readField m k d = .ok set) :
    (k = "requestId" ∧ ∃ id, RequestId.read d = .ok id ∧ set = ({ · with requestId := some id })) ∨
    (k = "op" ∧ ∃ op, Reading.string d = .ok op ∧ set = ({ · with op := some op })) ∨
    (k = "traversal" ∧
      ∃ c, CompiledTraversal.read m d = .ok c ∧ set = ({ · with traversal := some c })) := by
  rcases eq_of_any_fields hfield with rfl | rfl | rfl
  · obtain ⟨id, hid, h⟩ := exists_of_bind_eq_ok h
    cases h
    exact .inl ⟨rfl, id, hid, rfl⟩
  · obtain ⟨op, hop, h⟩ := exists_of_bind_eq_ok h
    cases h
    exact .inr (.inl ⟨rfl, op, hop, rfl⟩)
  · obtain ⟨c, hc, h⟩ := exists_of_bind_eq_ok h
    cases h
    exact .inr (.inr ⟨rfl, c, hc, rfl⟩)

/-- Each place of a draft is filled from its own member. -/
theorem settled_of_fill {members : Members} {draft draft' : Draft}
    (hnodup : (members.map (·.1)).Nodup)
    (h : Reading.fillMembers .value fields [] (Reading.recordPieces (readField .value) members) draft
      = .ok draft') :
    Reading.Settled RequestId.read (members.find? "requestId") draft.requestId draft'.requestId ∧
      Reading.Settled Reading.string (members.find? "op") draft.op draft'.op ∧
      Reading.Settled (CompiledTraversal.read .value) (members.find? "traversal")
        draft.traversal draft'.traversal := by
  refine ⟨Reading.settled_of_fillMembers rfl rfl (fun k d set hfield hset draft => ?_) hnodup h,
    Reading.settled_of_fillMembers rfl rfl (fun k d set hfield hset draft => ?_) hnodup h,
    Reading.settled_of_fillMembers rfl rfl (fun k d set hfield hset draft => ?_) hnodup h⟩
  all_goals
    rcases set_of_readField hfield hset with ⟨rfl, a, ha, rfl⟩ | ⟨rfl, a, ha, rfl⟩ | ⟨rfl, a, ha, rfl⟩
    all_goals simp [ha]

theorem readsParts_iff {id op traversal : Json} : ReadsParts id op traversal message ↔
    ∃ text, id = .str text ∧ op = .str message.op ∧
      RequestId.ofText? text = some message.requestId ∧
      WireForm.ofJson (List Step) traversal = .ok message.traversal.steps ∧
      Step.Enclosed message.traversal.steps := by
  rw [ReadsParts, RequestId.read_eq_ok_iff, Reading.string_eq_ok_iff,
    CompiledTraversal.read_eq_ok_iff]
  constructor
  · rintro ⟨⟨text, hid, htext⟩, hop, htraversal⟩
    exact ⟨text, hid, hop, htext, htraversal⟩
  · rintro ⟨text, hid, hop, htext, htraversal⟩
    exact ⟨⟨text, hid, htext⟩, hop, htraversal⟩

/-- What the fields of a request set in the draft when they can be read. -/
theorem readField_of_readsParts {id op traversal : Json} (h : ReadsParts id op traversal message) :
    readField .value "requestId" (ofJson id) = .ok ({ · with requestId := some message.requestId }) ∧
    readField .value "op" (ofJson op) = .ok ({ · with op := some message.op }) ∧
    readField .value "traversal" (ofJson traversal)
      = .ok ({ · with traversal := some message.traversal }) := by
  obtain ⟨hid, hop, htraversal⟩ := h
  refine ⟨?_, ?_, ?_⟩
  · rw [readField, hid]
    rfl
  · rw [readField, hop]
    rfl
  · rw [readField, htraversal]
    · rfl
    · decide
    · decide

theorem read_eq (d : Document) : read .value d
    = (do
      let draft ← Reading.record .value "a request" fields ⟨none, none, none⟩ (readField .value) d
      return ⟨← Reading.need "requestId" draft.requestId, ← Reading.need "op" draft.op,
        ← Reading.need "traversal" draft.traversal⟩) := rfl

/-- A request in an object is read from the members of its names, whatever else the object holds. -/
theorem read_object_eq_ok_iff {members : Members} (hnodup : (members.map (·.1)).Nodup) :
    read .value (ofJson (.obj members)) = .ok message ↔ ∃ id op traversal,
      members.find? "requestId" = some id ∧ members.find? "op" = some op ∧
      members.find? "traversal" = some traversal ∧ ReadsParts id op traversal message := by
  have hrecord : Reading.record .value "a request" fields (⟨none, none, none⟩ : Draft)
      (readField .value) (ofJson (.obj members))
      = Reading.fillMembers .value fields [] (Reading.recordPieces (readField .value) members)
          ⟨none, none, none⟩ := by
    rw [ofJson, ofMembers_eq_map, Reading.record, List.map_map, Reading.Layout.fill]
    exact bind_pure _
  rw [read_eq, hrecord]
  constructor
  · intro h
    obtain ⟨draft, hdraft, h⟩ := exists_of_bind_eq_ok h
    obtain ⟨id, hid, h⟩ := exists_of_bind_eq_ok h
    obtain ⟨op, hop, h⟩ := exists_of_bind_eq_ok h
    obtain ⟨c, hc, h⟩ := exists_of_bind_eq_ok h
    cases h
    obtain ⟨hids, hops, hcs⟩ := settled_of_fill hnodup hdraft
    obtain ⟨idValue, hidValue, hid⟩ := hids.of_some (Reading.eq_some_of_need hid)
    obtain ⟨opValue, hopValue, hop⟩ := hops.of_some (Reading.eq_some_of_need hop)
    obtain ⟨cValue, hcValue, hc⟩ := hcs.of_some (Reading.eq_some_of_need hc)
    exact ⟨idValue, opValue, cValue, hidValue, hopValue, hcValue, hid, hop, hc⟩
  · rintro ⟨id, op, traversal, hidValue, hopValue, hcValue, hparts⟩
    have hreads := readField_of_readsParts hparts
    obtain ⟨hid, hop, hc⟩ := hparts
    have hread : ∀ p ∈ members, fields.any (·.name == p.1) = true →
        ∃ set, readField .value p.1 (ofJson p.2) = .ok set := by
      rintro ⟨k, value⟩ hmem hfield
      have hfind : members.find? k = some value := (lookup_eq_some_iff_mem hnodup).mpr hmem
      rcases eq_of_any_fields hfield with rfl | rfl | rfl
      · cases hidValue.symm.trans hfind
        exact ⟨_, hreads.1⟩
      · cases hopValue.symm.trans hfind
        exact ⟨_, hreads.2.1⟩
      · cases hcValue.symm.trans hfind
        exact ⟨_, hreads.2.2⟩
    have hcomplete : Medium.value.streaming = false := rfl
    obtain ⟨draft, hdraft⟩ := Reading.exists_of_fillMembers hcomplete hnodup
      (fun _ _ => List.not_mem_nil) hread ⟨none, none, none⟩
    obtain ⟨hids, hops, hcs⟩ := settled_of_fill hnodup hdraft
    rw [hidValue] at hids
    rw [hopValue] at hops
    rw [hcValue] at hcs
    rw [hdraft, ok_bind, hids.eq_some hid, hops.eq_some hop, hcs.eq_some hc]
    rfl

theorem read_array_eq_ok_iff {items : List Json} :
    read .value (ofJson (.arr items)) = .ok message ↔ ∃ id op traversal,
      items = [id, op, traversal] ∧ ReadsParts id op traversal message := by
  constructor
  · intro h
    obtain ⟨draft, hdraft, h⟩ := exists_of_bind_eq_ok h
    have hlength := Reading.length_of_fillItems (by decide) hdraft
    rw [ofItems_eq_map, List.length_map, List.length_map] at hlength
    obtain ⟨id, op, traversal, rfl⟩ := List.length_eq_three.mp hlength
    obtain ⟨setId, hsetId, hdraft⟩ := exists_of_bind_eq_ok hdraft
    obtain ⟨setOp, hsetOp, hdraft⟩ := exists_of_bind_eq_ok hdraft
    obtain ⟨setTraversal, hsetTraversal, hdraft⟩ := exists_of_bind_eq_ok hdraft
    obtain ⟨i, hi, hsetId⟩ := exists_of_bind_eq_ok hsetId
    obtain ⟨o, ho, hsetOp⟩ := exists_of_bind_eq_ok hsetOp
    obtain ⟨c, hc, hsetTraversal⟩ := exists_of_bind_eq_ok hsetTraversal
    cases hsetId
    cases hsetOp
    cases hsetTraversal
    cases hdraft
    cases h
    exact ⟨id, op, traversal, rfl, hi, ho, hc⟩
  · rintro ⟨id, op, traversal, rfl, hparts⟩
    obtain ⟨hid, hop, htraversal⟩ := readField_of_readsParts hparts
    have hrecord : Reading.record .value "a request" fields ⟨none, none, none⟩ (readField .value)
        (ofJson (.arr [id, op, traversal]))
        = .ok ⟨some message.requestId, some message.op, some message.traversal⟩ := by
      simp only [ofJson, ofItems, Reading.record, List.map_cons, List.map_nil, Reading.Layout.fill,
        fields, Reading.required, Reading.fillItems, hid, hop, htraversal, ok_bind]
      rfl
    rw [read_eq, hrecord]
    rfl

/-- The members of an object that has been read from a text have different names. -/
theorem nodup_of_ofText? {text : String} {members : Members}
    (h : Json.ofText? text = some (.obj members)) : (members.map (·.1)).Nodup := by
  unfold Json.ofText? at h
  split at h
  · next document _ =>
      cases document with
      | obj pieces closed =>
          rw [Document.toJson?] at h
          split at h
          · obtain ⟨written, -, hmembers⟩ := Option.map_eq_some_iff.mp h
            cases hmembers
            exact (Members.ascending_ofList written).nodup
          · cases h
      | arr items closed =>
          rw [Document.toJson?] at h
          split at h
          · obtain ⟨_, -, hitems⟩ := Option.map_eq_some_iff.mp h
            cases hitems
          · cases h
      | null | bool _ | int _ | float _ | str _ | valueless | broken => cases h
  · cases h

/-- What is read as a request is a request, and the other way round. -/
theorem ofJson_eq_ok_iff {text : String} (hvalue : Json.ofText? text = some value) :
    WireForm.ofJson RequestMessage value = .ok message ↔
      IsRequest value message.requestId message.op message.traversal.steps := by
  have hread : WireForm.ofJson RequestMessage value = read .value (ofJson value) := rfl
  rw [hread]
  cases value with
  | obj members =>
      rw [read_object_eq_ok_iff (nodup_of_ofText? hvalue)]
      simp only [readsParts_iff]
      constructor
      · rintro ⟨id, op, traversal, hid, hop, htraversal, idText, rfl, rfl, htext, hsteps, henclosed⟩
        exact ⟨⟨idText, traversal, .object hid hop htraversal, htext, hsteps⟩, henclosed⟩
      · rintro ⟨⟨idText, traversal, hparts, htext, hsteps⟩, henclosed⟩
        cases hparts with
        | object hid hop htraversal =>
            exact ⟨_, _, _, hid, hop, htraversal, idText, rfl, rfl, htext, hsteps, henclosed⟩
  | arr items =>
      rw [read_array_eq_ok_iff]
      simp only [readsParts_iff]
      constructor
      · rintro ⟨id, op, traversal, rfl, idText, rfl, rfl, htext, hsteps, henclosed⟩
        exact ⟨⟨idText, traversal, .array _ _ _, htext, hsteps⟩, henclosed⟩
      · rintro ⟨⟨idText, traversal, hparts, htext, hsteps⟩, henclosed⟩
        cases hparts with
        | array => exact ⟨_, _, _, rfl, idText, rfl, rfl, htext, hsteps, henclosed⟩
  | null | bool _ | int _ | float _ | str _ =>
      constructor
      · intro h
        cases h
      · rintro ⟨⟨_, _, hparts, -⟩, -⟩
        cases hparts

end RequestMessage

end Requests

end PropertyGraph
