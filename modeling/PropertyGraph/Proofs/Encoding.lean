import Mathlib.Data.List.Perm.Subperm
import PropertyGraph.Proofs.Registry

/-!
# Exact payloads

What a payload lists is determined by the fields of the value and by what its type declares: the declared
fields that are not null, in order of declaration. There is none if the value has a field that is not
declared, and then the first such field is at fault. A payload may be made by taking the fields out of the
value one after the other; what is left in the end is at fault.
-/

namespace PropertyGraph

/-- A payload lists the declared fields of a value that are not null, in order of declaration. -/
structure Lists (payload : List Property) (members : Members) (properties : List String) : Prop where
  order : (payload.map (·.key)).Sublist properties
  nodup : (payload.map (·.key)).Nodup
  no_id : idKey ∉ payload.map (·.key)
  mem_iff : ∀ key value, ⟨key, value⟩ ∈ payload ↔
    key ∈ properties ∧ members.find? key = some value ∧ value ≠ .null

/-- The least key of a value that is neither that of its identifier nor declared. -/
structure FirstUndeclared (members : Members) (properties : List String) (key : String) : Prop where
  mem : key ∈ members.keys
  ne_id : key ≠ idKey
  undeclared : key ∉ properties
  least : ∀ other ∈ members.keys, other ≠ idKey → other ∉ properties → key ≤ other

section Listing

variable {payload payload' : List Property} {members : Members} {properties : List String}
  {descriptors : List PropertyDescriptor} {key : String}

theorem Json.isNull_eq_false_iff {value : Json} : value.isNull = false ↔ value ≠ .null := by
  cases value <;> simp [isNull]

theorem mem_payload_iff {value : Json} :
    (⟨key, value⟩ : Property) ∈ descriptors.filterMap (payloadProperty? members)
      ↔ key ∈ descriptors.map (·.name) ∧ members.find? key = some value ∧ value ≠ .null := by
  simp only [List.mem_filterMap, payloadProperty?_eq, Option.map_eq_some_iff, Option.filter_eq_some_iff,
    Property.mk.injEq, List.mem_map, Bool.not_eq_eq_eq_not, Bool.not_true, Json.isNull_eq_false_iff]
  constructor
  · rintro ⟨d, hd, v, ⟨hfind, hv⟩, rfl, rfl⟩
    exact ⟨⟨d, hd, rfl⟩, hfind, hv⟩
  · rintro ⟨⟨d, hd, rfl⟩, hfind, hv⟩
    exact ⟨d, hd, value, ⟨hfind, hv⟩, rfl, rfl⟩

theorem lists_payload (hnodup : (descriptors.map (·.name)).Nodup) (hid : idKey ∉ descriptors.map (·.name))
    (members : Members) :
    Lists (descriptors.filterMap (payloadProperty? members)) members (descriptors.map (·.name)) := by
  have horder := keys_payload_sublist members descriptors
  rw [entries, List.map_map] at horder
  exact ⟨horder, hnodup.sublist horder, fun hmem => hid (horder.subset hmem), fun _ _ => mem_payload_iff⟩

namespace Lists

theorem mem_keys_iff (h : Lists payload members properties) :
    key ∈ payload.map (·.key)
      ↔ key ∈ properties ∧ ∃ value, members.find? key = some value ∧ value ≠ .null := by
  rw [List.mem_map]
  constructor
  · rintro ⟨⟨_, value⟩, hp, rfl⟩
    obtain ⟨hkey, hvalue⟩ := (h.mem_iff _ value).mp hp
    exact ⟨hkey, value, hvalue⟩
  · rintro ⟨hkey, value, hvalue⟩
    exact ⟨⟨key, value⟩, (h.mem_iff key value).mpr ⟨hkey, hvalue⟩, rfl⟩

theorem eq_map_keys (h : Lists payload members properties) :
    payload = (payload.map (·.key)).map fun key => ⟨key, (members.find? key).getD .null⟩ := by
  rw [List.map_map]
  refine ((List.map_congr_left fun p hp => ?_).trans (List.map_id' payload)).symm
  obtain ⟨-, hfind, -⟩ := (h.mem_iff p.key p.value).mp hp
  rw [Function.comp_apply, hfind]
  rfl

/-- There is only one such payload. -/
theorem unique (h : Lists payload members properties) (h' : Lists payload' members properties)
    (hnodup : properties.Nodup) : payload = payload' := by
  have hkeys : payload.map (·.key) = payload'.map (·.key) := by
    refine (hnodup.perm_iff_eq_of_sublist h.order h'.order).mp ?_
    refine (List.perm_ext_iff_of_nodup h.nodup h'.nodup).mpr fun key => ?_
    rw [h.mem_keys_iff, h'.mem_keys_iff]
  rw [h.eq_map_keys, h'.eq_map_keys, hkeys]

end Lists

theorem head?_eq_some_iff_least {keys : List String} (h : keys.Pairwise (· < ·)) :
    keys.head? = some key ↔ key ∈ keys ∧ ∀ other ∈ keys, key ≤ other := by
  cases keys with
  | nil => exact ⟨fun h => (nomatch h), fun h => (nomatch h.1)⟩
  | cons first rest =>
      have hrest : ∀ other ∈ rest, first < other := fun _ => List.rel_of_pairwise_cons h
      rw [List.head?_cons, Option.some.injEq]
      constructor
      · rintro rfl
        refine ⟨List.mem_cons_self, List.forall_mem_cons.mpr ⟨String.le_refl _, fun other hother => ?_⟩⟩
        exact String.not_lt.mp (String.lt_asymm (hrest other hother))
      · rintro ⟨hmem, hleast⟩
        rcases List.mem_cons.mp hmem with rfl | hlater
        · rfl
        · exact absurd (hrest key hlater) (hleast first List.mem_cons_self)

/-- The keys of a value ascend, so the first that is left is the least. -/
theorem head?_undeclaredKeys_eq_some_iff (hascending : members.Ascending) :
    (undeclaredKeys members properties).head? = some key ↔ FirstUndeclared members properties key := by
  have hsorted : (undeclaredKeys members properties).Pairwise (· < ·) :=
    (Members.ascending_iff.mp hascending).filter _
  rw [head?_eq_some_iff_least hsorted]
  simp only [mem_undeclaredKeys_iff]
  constructor
  · rintro ⟨⟨hmem, hne, hundeclared⟩, hleast⟩
    exact ⟨hmem, hne, hundeclared, fun other h h' h'' => hleast other ⟨h, h', h''⟩⟩
  · rintro ⟨hmem, hne, hundeclared, hleast⟩
    exact ⟨⟨hmem, hne, hundeclared⟩, fun other ⟨h, h', h''⟩ => hleast other h h' h''⟩

end Listing

section Encoding

variable {schema : ElementSchema} {type : ElementType} {value : Json} {members : Members}
  {included : PropertyDescriptor → Bool}

theorem encodePayload_eq_error_iff (hvalue : fieldsOf type.name value = .ok members)
    (hascending : members.Ascending) {e : SchemaError} :
    encodePayload schema type value included = .error e ↔
      ∃ key, FirstUndeclared members (schema.properties.map (·.name)) key ∧
        e = .undeclaredProperty type.name key := by
  rw [encodePayload_eq hvalue, unlessFault_eq_error_iff, Option.map_eq_some_iff]
  simp only [head?_undeclaredKeys_eq_some_iff hascending, eq_comm]

/-- A payload without some of the properties is the whole payload with these removed. -/
theorem encodePayload_eq_map (keep : String → Bool)
    (hkeep : ∀ d ∈ schema.properties, included d = keep d.name) :
    encodePayload schema type value included
      = (encodePayload schema type value fun _ => true).map (·.filter (keep ·.key)) := by
  cases hvalue : fieldsOf type.name value with
  | error e =>
      rw [encodePayload, encodePayload, hvalue]
      rfl
  | ok members =>
      have hfilter : (schema.properties.filter included).filterMap (payloadProperty? members)
          = (schema.properties.filterMap (payloadProperty? members)).filter (keep ·.key) := by
        rw [List.filterMap_filter, List.filter_filterMap]
        refine List.filterMap_congr fun d hd => ?_
        rw [payloadProperty?_eq, hkeep d hd]
        cases (members.find? d.name).filter (!·.isNull) with
        | none => cases keep d.name <;> rfl
        | some v => rw [Option.map_some, Option.filter_some]
      rw [encodePayload_eq hvalue, encodePayload_eq hvalue, List.filter_true, hfilter]
      cases (undeclaredKeys members (schema.properties.map (·.name))).head? <;> rfl

end Encoding

/-- Takes the declared fields out of a value, in order of declaration. What is included and not null is
listed; the rest of the value is left. -/
def takeOut (included : PropertyDescriptor → Bool) :
    List PropertyDescriptor → Members → List Property × Members
  | [], left => ([], left)
  | d :: rest, left =>
    let (listed, last) := takeOut included rest (left.erase d.name)
    match left.find? d.name with
    | none | some .null => (listed, last)
    | some value => (if included d then ⟨d.name, value⟩ :: listed else listed, last)

/-- The payload from what is taken out, unless a field is left that is not the identifier. -/
def payloadTakenOut (schema : ElementSchema) (type : ElementType) (value : Json)
    (included : PropertyDescriptor → Bool) : Except SchemaError (List Property) := do
  let fields ← fieldsOf type.name value
  let (listed, left) := takeOut included schema.properties (fields.erase idKey)
  match left with
  | (key, _) :: _ => throw (.undeclaredProperty type.name key)
  | [] => return listed

section TakingOut

variable {schema : ElementSchema} {type : ElementType} {value : Json} {members : Members}
  {descriptors : List PropertyDescriptor} {included : PropertyDescriptor → Bool}

theorem Members.find?_erase {key erased : String} (h : key ≠ erased) (members : Members) :
    (members.erase erased).find? key = members.find? key := by
  induction members with
  | nil => rfl
  | cons p rest ih =>
      rw [erase, List.filter_cons, find?_cons]
      by_cases hp : p.1 = erased
      · rw [if_neg (by simpa using hp), if_neg fun heq => h (heq.trans hp)]
        exact ih
      · rw [if_pos (by simpa using hp), find?_cons]
        exact if_congr Iff.rfl rfl ih

theorem filterMap_payload_erase {erased : String} (h : erased ∉ descriptors.map (·.name))
    (members : Members) :
    (descriptors.filter included).filterMap (payloadProperty? (members.erase erased))
      = (descriptors.filter included).filterMap (payloadProperty? members) := by
  refine List.filterMap_congr fun d hd => ?_
  have hne : d.name ≠ erased := fun heq =>
    h (List.mem_map.mpr ⟨d, List.mem_of_mem_filter hd, heq⟩)
  rw [payloadProperty?, payloadProperty?, Members.find?_erase hne]

theorem takeOut_cons (d : PropertyDescriptor) (rest : List PropertyDescriptor) (left : Members) :
    takeOut included (d :: rest) left
      = (((payloadProperty? left d).filter fun _ => included d).toList
          ++ (takeOut included rest (left.erase d.name)).1,
        (takeOut included rest (left.erase d.name)).2) := by
  rw [takeOut, payloadProperty?]
  cases left.find? d.name with
  | none => rfl
  | some value => cases included d <;> cases value <;> rfl

/-- What is listed does not depend on the fields that have been taken out before. -/
theorem takeOut_eq (hnodup : (descriptors.map (·.name)).Nodup) (left : Members) :
    takeOut included descriptors left
      = ((descriptors.filter included).filterMap (payloadProperty? left),
        left.filter fun p => !(descriptors.map (·.name)).contains p.1) := by
  induction descriptors generalizing left with
  | nil => exact congrArg (Prod.mk []) (List.filter_true left).symm
  | cons d rest ih =>
      obtain ⟨hd, hrest⟩ := List.nodup_cons.mp hnodup
      have hlast : (left.erase d.name).filter (fun p => !(rest.map (·.name)).contains p.1)
          = left.filter fun p => !((d :: rest).map (·.name)).contains p.1 := by
        rw [Members.erase, List.filter_filter]
        refine List.filter_congr fun p _ => ?_
        rw [List.map_cons, List.contains_cons, Bool.not_or, Bool.and_comm]
        rfl
      rw [takeOut_cons, ih hrest, filterMap_payload_erase hd, hlast, List.filter_cons]
      cases included d with
      | false => cases payloadProperty? left d <;> rfl
      | true =>
          rw [if_pos rfl, List.filterMap_cons]
          cases payloadProperty? left d <;> rfl

/-- Both ways to make a payload agree for types whose properties are distinct and not the identifier. -/
theorem payloadTakenOut_eq (hnodup : (schema.properties.map (·.name)).Nodup)
    (hid : idKey ∉ schema.properties.map (·.name)) :
    payloadTakenOut schema type value included = encodePayload schema type value included := by
  cases hvalue : fieldsOf type.name value with
  | error e =>
      rw [payloadTakenOut, encodePayload, hvalue]
      rfl
  | ok members =>
      have hleft : undeclaredKeys members (schema.properties.map (·.name))
          = ((members.erase idKey).filter
              fun p => !(schema.properties.map (·.name)).contains p.1).map (·.1) := by
        rw [undeclaredKeys, Members.keys, List.filter_map, Members.erase, List.filter_filter]
        refine congrArg (List.map _) (List.filter_congr fun p _ => ?_)
        exact Bool.and_comm ..
      rw [payloadTakenOut, hvalue, ok_bind, takeOut_eq hnodup, filterMap_payload_erase hid,
        encodePayload_eq hvalue, hleft]
      cases (members.erase idKey).filter fun p => !(schema.properties.map (·.name)).contains p.1 <;> rfl

end TakingOut

/-- What comes of encoding a value, for its creation and for an update, by what its type declares and what is
left out of updates. -/
structure Encodes (members : Members) (properties : List String) (typeName : String)
    (ignored : List (String × String)) (creation update : Except SchemaError (List Property)) : Prop where
  succeeds_iff : (∃ payload, creation = .ok payload) ↔ members.DeclaredIn properties
  lists_iff : ∀ payload, creation = .ok payload ↔
    members.DeclaredIn properties ∧ Lists payload members properties
  fails_iff : ∀ e, creation = .error e ↔
    ∃ key, FirstUndeclared members properties key ∧ e = .undeclaredProperty typeName key
  update_fails_iff : ∀ e, update = .error e ↔ creation = .error e
  update_eq : update = creation.map (·.filter fun p => !ignored.contains (typeName, p.key))

section Registered

variable {registrations : List Registration} {model : GraphModel} {type declared : ElementType}
  {value : Json} {members : Members} {ignored : List (String × String)} {schema : ElementSchema}

/-- What a complete model knows about a type is what was declared when it was registered, with marks. -/
theorem exists_declared (hmodel : (ModelBuilder.after registrations).build = .ok model)
    (hcontains : model.contains type = true) :
    ∃ declared ∈ registrations.flatMap Registration.types, declared.name = type.name ∧
      declared.Admissible ∧ model.schemaOf type
        = .ok ((ElementSchema.declaredBy declared).marking (registrations.flatMap Registration.ignores)) := by
  obtain ⟨schema, hschema⟩ := Option.isSome_iff_exists.mp hcontains
  have hname : schema.label.typeName = type.name := by simpa using List.find?_some hschema
  obtain ⟨declared, hdeclared, hadmissible, rfl⟩ :=
    exists_of_mem_build hmodel (List.mem_of_find?_eq_some hschema)
  refine ⟨declared, hdeclared, hname, hadmissible, ?_⟩
  rw [GraphModel.schemaOf, hschema]

theorem fieldsOf_eq_ok_iff {typeName : String} :
    fieldsOf typeName value = .ok members ↔ value = .obj members ∨ value = .null ∧ members = [] := by
  cases value <;> simp [fieldsOf, eq_comm]

/-- Payloads are as they have to be for every type whose properties are distinct and not the identifier. -/
theorem encodes_of_schemaOf (hschema : model.schemaOf type = .ok schema)
    (hnodup : (schema.properties.map (·.name)).Nodup) (hid : idKey ∉ schema.properties.map (·.name))
    (hignored : ∀ d ∈ schema.properties, d.ignoreOnUpdate = ignored.contains (type.name, d.name))
    (hfields : fieldsOf type.name value = .ok members) (hascending : members.Ascending) :
    Encodes members (schema.properties.map (·.name)) type.name ignored (model.creationPayload type value)
      (model.updatePayload type value) := by
  have hlists := lists_payload hnodup hid members
  have hcreation (payload : List Property) : model.creationPayload type value = .ok payload ↔
      members.DeclaredIn (schema.properties.map (·.name)) ∧
        payload = schema.properties.filterMap (payloadProperty? members) := by
    rw [creationPayload_eq hschema, encodePayload_eq_ok_iff hfields, List.filter_true]
  have hupdate : model.updatePayload type value = (model.creationPayload type value).map
      (·.filter fun p => !ignored.contains (type.name, p.key)) := by
    rw [updatePayload_eq hschema, creationPayload_eq hschema]
    refine encodePayload_eq_map (fun key => !ignored.contains (type.name, key)) fun d hd => ?_
    rw [hignored d hd]
  refine ⟨?_, fun payload => ?_, fun e => ?_, fun e => ?_, hupdate⟩
  · simp only [hcreation, exists_and_left, exists_eq, and_true]
  · rw [hcreation]
    refine and_congr_right fun _ => ⟨?_, fun h => h.unique hlists hnodup⟩
    rintro rfl
    exact hlists
  · rw [creationPayload_eq hschema, encodePayload_eq_error_iff hfields hascending]
  · rw [hupdate]
    exact ⟨eq_error_of_map_eq_error, fun h => by rw [h]; rfl⟩

/-- Payloads of registered types are exact. The same ones result when the fields of a value are taken out
one after the other. -/
theorem payloads_are_exact (hmodel : (ModelBuilder.after registrations).build = .ok model)
    (hcontains : model.contains type = true)
    (hvalue : value = .obj members ∨ value = .null ∧ members = []) (hascending : members.Ascending) :
    ∃ declared ∈ registrations.flatMap Registration.types, declared.name = type.name ∧
      Encodes members declared.properties type.name (registrations.flatMap Registration.ignores)
        (model.creationPayload type value) (model.updatePayload type value) ∧
      ∃ schema, model.schemaOf type = .ok schema ∧ schema.Describes declared ∧
        model.creationPayload type value = payloadTakenOut schema type value (fun _ => true) ∧
        model.updatePayload type value = payloadTakenOut schema type value (!·.ignoreOnUpdate) := by
  obtain ⟨declared, hdeclared, hname, hadmissible, hschema⟩ := exists_declared hmodel hcontains
  have hdescribes := hadmissible.describes.marking (registrations.flatMap Registration.ignores)
  have hnodup := hdescribes.names ▸ hdescribes.nodup
  have hid : idKey ∉ (((ElementSchema.declaredBy declared).marking
      (registrations.flatMap Registration.ignores)).properties.map (·.name)) := by
    rw [hdescribes.names]
    exact fun hmem => nomatch hdescribes.unreserved idKey hmem
  have hencodes := encodes_of_schemaOf hschema hnodup hid (fun d hd => by rw [ignoreOnUpdate_eq hd, hname])
    (fieldsOf_eq_ok_iff.mpr hvalue) hascending
  rw [hdescribes.names] at hencodes
  refine ⟨declared, hdeclared, hname, hencodes, _, hschema, hdescribes, ?_, ?_⟩
  · rw [payloadTakenOut_eq hnodup hid, creationPayload_eq hschema]
  · rw [payloadTakenOut_eq hnodup hid, updatePayload_eq hschema]

/-- A note is created without its identifier and without its null, and updated without its due date. -/
theorem payloads_of_note :
    let note : ElementType := ⟨"Note", .vertex, "Note", ["text", "tag", "due"], none⟩
    let members : Members :=
      [("due", .str "friday"), ("id", .str "mine"), ("tag", .null), ("text", .str "milk")]
    let registrations : List Registration := [.ignoreOnUpdate note "due", .register note]
    ∃ model, (ModelBuilder.after registrations).build = .ok model ∧
      model.contains note = true ∧ members.Ascending ∧
      model.creationPayload note (.obj members) = .ok [⟨"text", .str "milk"⟩, ⟨"due", .str "friday"⟩] ∧
      model.updatePayload note (.obj members) = .ok [⟨"text", .str "milk"⟩] ∧
      ∃ declared ∈ registrations.flatMap Registration.types, declared.name = note.name ∧
        Encodes members declared.properties note.name (registrations.flatMap Registration.ignores)
          (model.creationPayload note (.obj members)) (model.updatePayload note (.obj members)) := by
  intro note members registrations
  let model : GraphModel := ⟨[⟨.ofType note, [⟨"text", false⟩, ⟨"tag", false⟩, ⟨"due", true⟩]⟩]⟩
  have hmodel : (ModelBuilder.after registrations).build = .ok model := by decide
  have hcontains : model.contains note = true := by decide
  have hascending : members.Ascending := .of_keys ["due", "id", "tag", "text"] (by decide) rfl
  obtain ⟨declared, hdeclared, hname, hencodes, -⟩ :=
    payloads_are_exact hmodel hcontains (.inl rfl) hascending
  exact ⟨model, hmodel, hcontains, hascending, rfl, rfl, declared, hdeclared, hname, hencodes⟩

/-- A null that is not declared is at fault all the same, as the first of two. -/
example :
    let note : ElementType := ⟨"Note", .vertex, "Note", ["text"], none⟩
    let model : GraphModel := ⟨[.declaredBy note]⟩
    model.updatePayload note (.obj [("place", .null), ("text", .str "milk"), ("who", .str "ann")])
      = .error (.undeclaredProperty "Note" "place") := rfl

end Registered

end PropertyGraph
