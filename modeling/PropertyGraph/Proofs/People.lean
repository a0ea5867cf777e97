import PropertyGraph.Proofs.Payloads
import PropertyGraph.Social.Person

/-!
# Values of domain types

A domain type reads a value field by field, whatever the order of its members, and puts the serialised form
together again. So a value in which every field stands as its type writes it comes back, and a person is
told by its serialised form.
-/

namespace PropertyGraph

open Document (ofJson ofMembers)

section Records

variable {fields : List RecordField} {record members : List (String × Json)} {m : Medium}

/-- A member stands as the type of its field writes it. -/
def Written (m : Medium) (fields : List RecordField) (member : String × Json) : Prop :=
  ∃ field, fields.find? (·.name == member.1) = some field ∧
    field.type.read m (ofJson member.2) = .ok member.2

def readField (m : Medium) (fields : List RecordField) (name : String) (d : Document) :
    Except DecodeError (List (String × Json) → List (String × Json)) :=
  match fields.find? (·.name == name) with
  | some field => do
    let value ← field.type.read m d
    return fun record => (name, value) :: record
  | none => return id

theorem fillMembers_written {seen : List String} (hwritten : ∀ p ∈ members, Written m fields p)
    (hnodup : (members.map (·.1)).Nodup) (hseen : ∀ p ∈ members, p.1 ∉ seen) :
    Reading.fillMembers m (fields.map fun field => ⟨field.name, field.default.isSome⟩) seen
        ((ofMembers members).map fun p => (p.1, ⟨p.2, fun name => readField m fields name p.2⟩)) record
      = .ok (members.reverse ++ record) := by
  induction members generalizing seen record with
  | nil => rfl
  | cons p rest ih =>
      obtain ⟨field, hfield, hread⟩ := hwritten p List.mem_cons_self
      obtain ⟨hfirst, hrest⟩ := List.nodup_cons.mp hnodup
      have hname : (fields.map fun field => (⟨field.name, field.default.isSome⟩ : Reading.Field)).any
          (·.name == p.1) = true := by
        rw [List.any_map]
        exact List.any_eq_true.mpr ⟨field, List.mem_of_find?_eq_some hfield, List.find?_some hfield⟩
      have hunseen : seen.contains p.1 = false := by
        simpa using hseen p List.mem_cons_self
      have hreading : readField m fields p.1 (ofJson p.2) = .ok fun record => (p.1, p.2) :: record := by
        rw [readField, hfield]
        dsimp only
        rw [hread]
        rfl
      have hlater : ∀ q ∈ rest, q.1 ∉ p.1 :: seen := by
        intro q hq hmem
        rcases List.mem_cons.mp hmem with heq | hold
        · exact hfirst (List.mem_map.mpr ⟨q, hq, heq⟩)
        · exact hseen q (List.mem_cons_of_mem p hq) hold
      rw [ofMembers, List.map_cons, Reading.fillMembers, if_pos hname, hunseen]
      dsimp only
      rw [hreading]
      refine (ih (fun q hq => hwritten q (List.mem_cons_of_mem p hq)) hrest hlater).trans ?_
      rw [List.reverse_cons, List.append_assoc]
      rfl

theorem serialise_congr (h : ∀ key, record.lookup key = members.lookup key) :
    ElementType.serialise fields record = ElementType.serialise fields members := by
  simp only [ElementType.serialise, h]

theorem forIn_of_none_throws {ε α : Type} {refuses : α → Bool} {error : α → ε} {xs : List α}
    (h : ∀ x ∈ xs, refuses x = false) :
    (forIn xs PUnit.unit fun x _ =>
      if refuses x = true then do
        throw (error x)
        pure (ForInStep.yield PUnit.unit)
      else pure (ForInStep.yield PUnit.unit) : Except ε PUnit) = .ok PUnit.unit := by
  induction xs with
  | nil => rfl
  | cons x rest ih =>
      obtain ⟨hx, hrest⟩ := List.forall_mem_cons.mp h
      rw [List.forIn_cons, hx]
      exact ih hrest

/-- A record in which every field that has to be there is, and each stands as its type writes it, is read
as the value with these fields. -/
theorem ElementType.read_written {type : ElementType} (hfields : type.fields = some fields)
    (hwritten : ∀ p ∈ members, Written m fields p) (hnodup : (members.map (·.1)).Nodup)
    (hrequired : ∀ field ∈ fields, field.default = none → (members.lookup field.name).isSome) :
    type.read m (ofJson (.obj members)) = .ok (ElementType.serialise fields members) := by
  have hlookup : ∀ key, members.lookup key = members.reverse.lookup key :=
    lookup_eq_of_perm (List.reverse_perm members).symm hnodup
  have hfill : Reading.fillMembers m (fields.map fun field => ⟨field.name, field.default.isSome⟩) []
      ((ofMembers members).map fun p => (p.1, ⟨p.2, fun name => readField m fields name p.2⟩)) []
      = .ok members.reverse := by
    rw [fillMembers_written hwritten hnodup fun _ _ => List.not_mem_nil, List.append_nil]
  have hrecord : Reading.record m type.label
      (fields.map fun field => ⟨field.name, field.default.isSome⟩) [] (readField m fields)
      (ofJson (.obj members)) = .ok members.reverse := Reading.fill_members_eq_ok hfill
  have hpresent : ∀ field ∈ fields,
      (field.default.isNone && (members.reverse.lookup field.name).isNone) = false := by
    intro field hfield
    rw [← hlookup]
    cases hdefault : field.default with
    | some _ => rfl
    | none =>
        obtain ⟨value, hvalue⟩ := Option.isSome_iff_exists.mp (hrequired field hfield hdefault)
        rw [hvalue]
        rfl
  rw [ElementType.read, hfields]
  change (Reading.record m type.label _ [] (readField m fields) (ofJson (.obj members)) >>= _) = _
  rw [hrecord, ok_bind, forIn_of_none_throws hpresent, ok_bind, ← serialise_congr hlookup]
  rfl

end Records

namespace Social.Person

/-- The members of the serialised form, by ascending key. -/
def members (p : Person) : Members :=
  ("age", .int p.age.toNat) :: (p.id.map fun id => ("id", id.toJson)).toList ++
    [("name", .str p.name), ("partition_key", .str p.partitionKey)] ++
    (p.phoneNumbers.map fun ns => ("phone_numbers", Json.arr (ns.map .str))).toList ++
    [("zip_code", .str p.zipCode)]

variable (p : Person)

theorem toJson_eq : p.toJson = .obj p.members := by
  obtain ⟨id, name, age, zipCode, phoneNumbers, partitionKey⟩ := p
  cases id <;> cases phoneNumbers <;>
    simp (disch := decide) [toJson, members, Members.ofList, Members.insertAll, Members.insert_nil,
      Members.insert_before, Members.insert_after]

theorem of_mem_members {q : String × Json} (h : q ∈ p.members) :
    q = ("age", .int p.age.toNat) ∨ (∃ id, p.id = some id ∧ ("id", id.toJson) = q) ∨
      q = ("name", .str p.name) ∨ q = ("partition_key", .str p.partitionKey) ∨
      (∃ numbers, p.phoneNumbers = some numbers ∧ ("phone_numbers", .arr (numbers.map .str)) = q) ∨
      q = ("zip_code", .str p.zipCode) := by
  simpa only [members, List.mem_append, List.mem_cons, List.not_mem_nil, or_false, Option.mem_toList,
    Option.map_eq_some_iff, or_assoc] using h

theorem ascending_members : p.members.Ascending := by
  have hkeys : ["age", "id", "name", "partition_key", "phone_numbers", "zip_code"].Pairwise (· < ·) := by
    decide
  rw [Members.ascending_iff]
  refine hkeys.sublist ?_
  obtain ⟨id, name, age, zipCode, phoneNumbers, partitionKey⟩ := p
  cases id <;> cases phoneNumbers <;> simp [members]

theorem toNat_age_le (age : UInt32) : (age.toNat : Int) ≤ 4294967295 := by
  have hlt := age.toNat_lt
  omega

/-! The fields of a person are written as their types read them. -/

theorem read_age (age : UInt32) :
    (ValueType.integer ⟨false, 32⟩).read .value (ofJson (.int age.toNat)) = .ok (.int age.toNat) := by
  have hcontains : Text.IntegerType.contains ⟨false, 32⟩ age.toNat = true := by
    have hmin : (0 : Int) ≤ age.toNat := Int.natCast_nonneg _
    exact Bool.and_eq_true_iff.mpr ⟨decide_eq_true hmin, decide_eq_true (toNat_age_le age)⟩
  change (Reading.integer ⟨false, 32⟩ (.int age.toNat)).map Json.int = .ok (.int age.toNat)
  rw [Reading.integer, if_pos hcontains]
  rfl

theorem read_id (id : ElementId) :
    (ValueType.optional .id).read .value (ofJson id.toJson) = .ok id.toJson := by
  have hread : ElementId.read (ofJson id.toJson) = .ok id := ElementId.read_toJson .written id
  have hsome : (ValueType.optional .id).read .value (ofJson id.toJson)
      = (((ElementId.read (ofJson id.toJson)).map ElementId.toJson).map some).map (·.getD .null) := by
    cases id <;> rfl
  rw [hsome, hread]
  rfl

theorem read_phoneNumbers (numbers : List String) :
    (ValueType.optional (.list .string)).read .value (ofJson (.arr (numbers.map .str)))
      = .ok (.arr (numbers.map .str)) := by
  have hlist : Reading.list (ValueType.string.read .value) (ofJson (.arr (numbers.map .str)))
      = .ok (numbers.map .str) := by
    have hitems : ∀ item ∈ numbers.map Json.str,
        ValueType.string.read .value (ofJson ((item : Json).arranged .written)) = .ok item := by
      intro item hitem
      obtain ⟨number, -, rfl⟩ := List.mem_map.mp hitem
      rfl
    have hread := Reading.list_ofJson hitems
    rwa [List.map_id'] at hread
  change (((Reading.list (ValueType.string.read .value) _).map Json.arr).map some).map (·.getD .null) = _
  rw [hlist]
  rfl

def fields : List RecordField := elementType.fields.getD []

theorem written_members : ∀ q ∈ p.members, Written .value fields q := by
  intro q hq
  rcases p.of_mem_members hq with rfl | ⟨id, -, rfl⟩ | rfl | rfl | ⟨numbers, -, rfl⟩ | rfl
  · exact ⟨_, rfl, read_age p.age⟩
  · exact ⟨_, rfl, read_id id⟩
  · exact ⟨_, rfl, rfl⟩
  · exact ⟨_, rfl, rfl⟩
  · exact ⟨_, rfl, read_phoneNumbers numbers⟩
  · exact ⟨_, rfl, rfl⟩

theorem serialise_members : ElementType.serialise fields p.members = p.toJson := by
  refine congrArg (fun fields => Json.obj (Members.ofList fields)) ?_
  obtain ⟨id, name, age, zipCode, phoneNumbers, partitionKey⟩ := p
  rcases id with _ | (id | id) <;> cases phoneNumbers <;> rfl

theorem lookup_required : ∀ field ∈ fields, field.default = none →
    (p.members.lookup field.name).isSome := by
  obtain ⟨id, name, age, zipCode, phoneNumbers, partitionKey⟩ := p
  cases id <;> cases phoneNumbers <;> simp [fields, elementType, members, List.lookup_cons]

theorem read_toJson : elementType.read .value (ofJson p.toJson) = .ok p.toJson := by
  rw [toJson_eq, ElementType.read_written rfl p.written_members p.ascending_members.nodup p.lookup_required]
  exact congrArg Except.ok (p.serialise_members.trans p.toJson_eq)

theorem idOfJson?_toJson (id : ElementId) : idOfJson? id.toJson = some id := by
  cases id with
  | int i => exact congrArg (some ∘ ElementId.int) (Int64.ofInt_toInt i)
  | str s => rfl

theorem phoneNumbersOfJson?_map (numbers : List String) :
    phoneNumbersOfJson? (.arr (numbers.map .str)) = some numbers := by
  rw [phoneNumbersOfJson?]
  induction numbers with
  | nil => rfl
  | cons number rest ih =>
      rw [List.map_cons, List.mapM_cons, ih]
      rfl

theorem toInt64?_age (age : UInt32) : (Json.int age.toNat).toInt64? = some (age.toNat : Int) := by
  have hle := toNat_age_le age
  have hmin : (-9223372036854775808 : Int) ≤ age.toNat := by omega
  have hmax : (age.toNat : Int) ≤ 9223372036854775807 := by omega
  rw [Json.toInt64?, if_pos]
  exact Bool.and_eq_true_iff.mpr ⟨decide_eq_true hmin, decide_eq_true hmax⟩

theorem ofJson?_toJson : ofJson? p.toJson = some p := by
  obtain ⟨id, name, age, zipCode, phoneNumbers, partitionKey⟩ := p
  have hage : UInt32.ofInt age.toNat = age := by
    have hlt := age.toNat_lt
    have hmod : ((age.toNat : Int) % 2 ^ 32).toNat = age.toNat := by omega
    rw [UInt32.ofInt, hmod, UInt32.ofNat_toNat]
  rw [toJson_eq]
  cases id <;> cases phoneNumbers <;>
    simp [ofJson?, members, Json.member?, Members.find?, List.lookup_cons, Json.toStr?, toInt64?_age,
      idOfJson?_toJson, phoneNumbersOfJson?_map, hage]

/-- What the model knows about people. -/
def schema : ElementSchema where
  label := .ofType elementType
  properties := [⟨"name", false⟩, ⟨"age", false⟩, ⟨"zip_code", false⟩, ⟨"phone_numbers", false⟩,
    ⟨"partition_key", true⟩]

theorem exists_schemaOf :
    ∃ model, Social.model = .ok model ∧ model.schemaOf elementType = .ok schema := ⟨_, rfl, rfl⟩

theorem describes_schema : schema.Describes elementType where
  label := rfl
  names := rfl
  nodup := by decide
  unreserved := by decide

theorem declaredIn_members : p.members.DeclaredIn elementType.properties := by
  obtain ⟨id, name, age, zipCode, phoneNumbers, partitionKey⟩ := p
  cases id <;> cases phoneNumbers <;>
    simp [Members.DeclaredIn, Members.keys, members, elementType, idKey]

/-- No field of a person is null. -/
theorem filter_find?_members (key : String) :
    (p.members.find? key).filter (!·.isNull) = p.members.find? key := by
  cases hvalue : p.members.find? key with
  | none => rfl
  | some value =>
      have hmem : (key, value) ∈ p.members :=
        (lookup_eq_some_iff_mem p.ascending_members.nodup).mp hvalue
      have hnull : value.isNull = false := by
        rcases of_mem_members p hmem with h | ⟨id, -, h⟩ | h | h | ⟨numbers, -, h⟩ | h <;> cases h
        · rfl
        · cases id <;> rfl
        · rfl
        · rfl
        · rfl
        · rfl
      rw [Option.filter_some, hnull]
      rfl

theorem stored_members : p.members.stored = { p with id := none }.members := by
  obtain ⟨id, name, age, zipCode, phoneNumbers, partitionKey⟩ := p
  cases id <;> cases phoneNumbers <;> simp [Members.stored, members, Json.isNull, idKey]

theorem insert_id (id : ElementId) (h : p.id = none) :
    Members.insert idKey id.toJson p.members = { p with id := some id }.members := by
  obtain ⟨_, name, age, zipCode, phoneNumbers, partitionKey⟩ := p
  cases h
  cases phoneNumbers <;> rfl

end Social.Person

end PropertyGraph
