import PropertyGraph.Proofs.Fields
import PropertyGraph.Proofs.Registration
import PropertyGraph.Proofs.RoundTrip

/-!
# What a payload sets

A payload is made from a value and a list of declared properties. It sets a property of the list to what
the value has for it, unless that is null, and it leaves every other key alone. Setting the properties of
a new element is thus the same as storing the fields of the value that are not null.
-/

namespace PropertyGraph

def Json.isNull : Json → Bool
  | null => true
  | _ => false

/-- The fields that are kept of a value: its identifier and its nulls are not. -/
def Members.stored (members : Members) : Members :=
  members.filter fun p => p.1 != idKey && !p.2.isNull

/-- Every field of a value is its identifier or declared. -/
def Members.DeclaredIn (members : Members) (properties : List String) : Prop :=
  ∀ key ∈ members.keys, key = idKey ∨ key ∈ properties

instance (members : Members) (properties : List String) :
    Decidable (members.DeclaredIn properties) :=
  inferInstanceAs (Decidable (∀ key ∈ members.keys, key = idKey ∨ key ∈ properties))

section Payloads

variable {fields members old : Members} {descriptors : List PropertyDescriptor} {key : String}

def entries (payload : List Property) : List (String × Json) := payload.map fun p => (p.key, p.value)

theorem payloadProperty?_eq (fields : Members) (d : PropertyDescriptor) :
    payloadProperty? fields d
      = ((fields.find? d.name).filter (!·.isNull)).map fun value => ⟨d.name, value⟩ := by
  rw [payloadProperty?]
  cases fields.find? d.name with
  | none => rfl
  | some value => cases value <;> rfl

theorem lookup_payload (fields : Members) (descriptors : List PropertyDescriptor) (key : String) :
    (entries (descriptors.filterMap (payloadProperty? fields))).lookup key
      = if key ∈ descriptors.map (·.name) then (fields.find? key).filter (!·.isNull) else none := by
  induction descriptors with
  | nil => rfl
  | cons d rest ih =>
      rw [List.filterMap_cons, payloadProperty?_eq, List.map_cons]
      by_cases hkey : key = d.name
      · subst hkey
        rw [if_pos List.mem_cons_self]
        cases hvalue : (fields.find? d.name).filter (!·.isNull) with
        | none =>
            -- a null is skipped, and so are those of further descriptors of the name
            change (entries (rest.filterMap (payloadProperty? fields))).lookup d.name = none
            rw [ih, hvalue, ite_self]
        | some value =>
            change ((d.name, value) :: entries (rest.filterMap (payloadProperty? fields))).lookup d.name
              = some value
            rw [lookup_cons_eq, if_pos rfl]
      · have hmem : key ∈ d.name :: rest.map (·.name) ↔ key ∈ rest.map (·.name) := by
          rw [List.mem_cons, or_iff_right hkey]
        rw [if_congr hmem rfl rfl, ← ih]
        cases (fields.find? d.name).filter (!·.isNull) with
        | none => rfl
        | some value =>
            change ((d.name, value) :: entries (rest.filterMap (payloadProperty? fields))).lookup key = _
            rw [lookup_cons_eq, if_neg hkey]

theorem keys_payload_sublist (fields : Members) (descriptors : List PropertyDescriptor) :
    ((entries (descriptors.filterMap (payloadProperty? fields))).map (·.1)).Sublist
      (descriptors.map (·.name)) := by
  induction descriptors with
  | nil => exact .slnil
  | cons d rest ih =>
      rw [List.filterMap_cons, payloadProperty?_eq]
      cases (fields.find? d.name).filter (!·.isNull) with
      | none => exact ih.cons d.name
      | some value => exact ih.cons_cons d.name

/-- What stands under a key after the properties of a payload have been set. -/
theorem find?_setAll_payload (hnodup : (descriptors.map (·.name)).Nodup) (fields old : Members)
    (key : String) :
    (Graph.setAll (descriptors.filterMap (payloadProperty? fields)) old).find? key
      = if key ∈ descriptors.map (·.name) then
          ((fields.find? key).filter (!·.isNull)).or (old.find? key)
        else old.find? key := by
  have hkeys := hnodup.sublist (keys_payload_sublist fields descriptors)
  have hset : (Graph.setAll (descriptors.filterMap (payloadProperty? fields)) old).find? key
      = ((entries (descriptors.filterMap (payloadProperty? fields))).lookup key).or
        (old.find? key) := Members.find?_insertAll hkeys old key
  rw [hset, lookup_payload]
  by_cases hkey : key ∈ descriptors.map (·.name)
  · rw [if_pos hkey, if_pos hkey]
  · rw [if_neg hkey, if_neg hkey]
    rfl

theorem Members.find?_stored (h : members.Ascending) (key : String) :
    members.stored.find? key
      = (members.find? key).filter fun value => key != idKey && !value.isNull :=
  lookup_filter h.nodup _ key

/-- The element that is created from a value has the fields of the value. -/
theorem setAll_payload_nil (hascending : members.Ascending)
    (hnodup : (descriptors.map (·.name)).Nodup) (hid : idKey ∉ descriptors.map (·.name))
    (hdeclared : members.DeclaredIn (descriptors.map (·.name))) :
    Graph.setAll (descriptors.filterMap (payloadProperty? members)) [] = members.stored := by
  refine (Members.ascending_insertAll _ List.Pairwise.nil).ext (hascending.filter _) fun key => ?_
  refine (find?_setAll_payload hnodup members [] key).trans ?_
  have hnone : Members.find? key [] = none := rfl
  rw [Members.find?_stored hascending, hnone, Option.or_none]
  by_cases hkey : key ∈ descriptors.map (·.name)
  · have hne : key ≠ idKey := fun heq => hid (heq ▸ hkey)
    rw [if_pos hkey, bne_iff_ne.mpr hne]
    rfl
  · rw [if_neg hkey]
    symm
    refine Option.filter_eq_none_iff.mpr fun value hvalue => ?_
    have hmem : key ∈ members.keys := mem_keys_iff_lookup.mpr ⟨value, hvalue⟩
    have heq : key = idKey := (hdeclared key hmem).resolve_right hkey
    rw [heq, bne_self_eq_false]
    exact Bool.false_ne_true

end Payloads

section Encoding

variable {schema : ElementSchema} {type : ElementType} {model : GraphModel} {members : Members}
  {properties : List String} {key : String} {value : Json} {included : PropertyDescriptor → Bool}

theorem declares_iff {property : String} :
    schema.declares property = true ↔ property ∈ schema.properties.map (·.name) := by
  rw [ElementSchema.declares, List.any_eq_true, List.mem_map]
  simp only [beq_iff_eq]

theorem ElementSchema.Describes.labelOf (h : schema.Describes type)
    (hschema : model.schemaOf type = .ok schema) : model.labelOf type = .ok (.ofType type) := by
  rw [GraphModel.labelOf, hschema]
  exact congrArg Except.ok h.label

/-- The keys of a value that are neither that of its identifier nor declared. -/
def undeclaredKeys (members : Members) (properties : List String) : List String :=
  members.keys.filter fun key => key != idKey && !properties.contains key

theorem mem_undeclaredKeys_iff :
    key ∈ undeclaredKeys members properties ↔ key ∈ members.keys ∧ key ≠ idKey ∧ key ∉ properties := by
  rw [undeclaredKeys, List.mem_filter, Bool.and_eq_true, bne_iff_ne, Bool.not_eq_true', ← Bool.not_eq_true,
    List.contains_iff_mem]

theorem undeclaredKeys_eq_nil_iff :
    undeclaredKeys members properties = [] ↔ members.DeclaredIn properties := by
  rw [List.eq_nil_iff_forall_not_mem]
  simp only [mem_undeclaredKeys_iff, Members.DeclaredIn]
  refine forall_congr' fun key => ?_
  tauto

theorem encodePayload_eq (hvalue : fieldsOf type.name value = .ok members) :
    encodePayload schema type value included
      = unlessFault ((undeclaredKeys members (schema.properties.map (·.name))).head?.map
          (.undeclaredProperty type.name))
        ((schema.properties.filter included).filterMap (payloadProperty? members)) := by
  have hleft : members.keys.filter (fun key => key != idKey && !schema.declares key)
      = undeclaredKeys members (schema.properties.map (·.name)) := by
    refine List.filter_congr fun key _ => ?_
    rw [Bool.eq_iff_iff.mpr (declares_iff.trans List.contains_iff_mem.symm)]
  rw [encodePayload, hvalue, ok_bind, hleft]
  cases undeclaredKeys members (schema.properties.map (·.name)) <;> rfl

theorem encodePayload_eq_ok_iff (hvalue : fieldsOf type.name value = .ok members) {payload : List Property} :
    encodePayload schema type value included = .ok payload ↔
      members.DeclaredIn (schema.properties.map (·.name)) ∧
        payload = (schema.properties.filter included).filterMap (payloadProperty? members) := by
  rw [encodePayload_eq hvalue, unlessFault_eq_ok_iff, Option.map_eq_none_iff, List.head?_eq_none_iff,
    undeclaredKeys_eq_nil_iff]

theorem creationPayload_eq (hschema : model.schemaOf type = .ok schema) :
    model.creationPayload type value = encodePayload schema type value fun _ => true := by
  rw [GraphModel.creationPayload, hschema, ok_bind]

theorem updatePayload_eq (hschema : model.schemaOf type = .ok schema) :
    model.updatePayload type value = encodePayload schema type value (!·.ignoreOnUpdate) := by
  rw [GraphModel.updatePayload, hschema, ok_bind]

theorem creationPayload_eq_ok (hschema : model.schemaOf type = .ok schema)
    (h : members.DeclaredIn (schema.properties.map (·.name))) :
    model.creationPayload type (.obj members)
      = .ok (schema.properties.filterMap (payloadProperty? members)) := by
  refine (creationPayload_eq hschema).trans ((encodePayload_eq_ok_iff rfl).mpr ⟨h, ?_⟩)
  rw [List.filter_true]

theorem updatePayload_eq_ok (hschema : model.schemaOf type = .ok schema)
    (h : members.DeclaredIn (schema.properties.map (·.name))) :
    model.updatePayload type (.obj members)
      = .ok (schema.updateProperties.filterMap (payloadProperty? members)) :=
  (updatePayload_eq hschema).trans ((encodePayload_eq_ok_iff rfl).mpr ⟨h, rfl⟩)

end Encoding

end PropertyGraph
