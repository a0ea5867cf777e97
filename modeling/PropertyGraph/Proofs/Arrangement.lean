import PropertyGraph.Json.Document

/-!
# Members in order

A value is written with its members as they are declared, and it is held with its members by ascending
key, so a document may come from the one or the other arrangement of a value. Sorting changes neither
which members there are nor a value whose members are in order already, at every depth.
-/

namespace PropertyGraph

namespace Members

/-- Keys ascend, each once. -/
def Ascending (members : Members) : Prop := members.Pairwise (·.1 < ·.1)

theorem ascending_iff {members : Members} :
    Ascending members ↔ (members.map (·.1)).Pairwise (· < ·) :=
  List.pairwise_map.symm

/-- Whether members are in order is a matter of their keys. -/
theorem Ascending.of_keys {members : Members} (keys : List String)
    (h : keys.Pairwise (· < ·)) (hkeys : members.map (·.1) = keys) : Ascending members :=
  ascending_iff.mpr (hkeys ▸ h)

theorem of_mem_insert {key : String} {value : Json} {members : Members} {p : String × Json}
    (h : p ∈ insert key value members) : p = (key, value) ∨ p ∈ members := by
  induction members with
  | nil => exact .inl (List.mem_singleton.mp h)
  | cons q rest ih =>
      rw [insert] at h
      split at h
      · exact List.mem_cons.mp h
      · split at h
        · exact (List.mem_cons.mp h).imp_right (List.mem_cons_of_mem q)
        · rcases List.mem_cons.mp h with rfl | h
          · exact .inr List.mem_cons_self
          · exact (ih h).imp_right (List.mem_cons_of_mem q)

theorem perm_insert {key : String} {value : Json} {members : Members}
    (h : ∀ p ∈ members, p.1 ≠ key) : (insert key value members).Perm ((key, value) :: members) := by
  induction members with
  | nil => exact .refl _
  | cons p rest ih =>
      have hne : key ≠ p.1 := fun heq => h p List.mem_cons_self heq.symm
      have hrest := ih fun q hq => h q (List.mem_cons_of_mem p hq)
      rw [insert, if_neg hne]
      split
      · exact .refl _
      · exact (hrest.cons p).trans (.swap _ _ _)

theorem ascending_insert {key : String} {value : Json} {members : Members}
    (h : Ascending members) : Ascending (insert key value members) := by
  induction members with
  | nil => exact List.pairwise_singleton _ _
  | cons p rest ih =>
      obtain ⟨k, v⟩ := p
      obtain ⟨hfirst, hrest⟩ := List.pairwise_cons.mp h
      rw [insert]
      by_cases hlt : key < k
      · rw [if_pos hlt]
        refine List.pairwise_cons.mpr ⟨fun q hq => ?_, h⟩
        rcases List.mem_cons.mp hq with rfl | hq
        · exact hlt
        · exact String.lt_trans hlt (hfirst q hq)
      rw [if_neg hlt]
      by_cases heq : key = k
      · rw [if_pos heq]
        exact List.pairwise_cons.mpr ⟨heq ▸ hfirst, hrest⟩
      · rw [if_neg heq]
        have hgt : k < key :=
          Decidable.byContradiction fun hle =>
            heq (String.le_antisymm (String.not_lt.mp hle) (String.not_lt.mp hlt))
        refine List.pairwise_cons.mpr ⟨fun q hq => ?_, ih hrest⟩
        rcases of_mem_insert hq with rfl | hq
        · exact hgt
        · exact hfirst q hq

theorem ascending_insertAll (added : List (String × Json)) : ∀ {members : Members},
    Ascending members → Ascending (insertAll members added) := by
  induction added with
  | nil => exact id
  | cons p added ih => exact fun h => ih (ascending_insert h)

theorem perm_insertAll (added : List (String × Json)) : ∀ {members : Members},
    ((members ++ added).map (·.1)).Nodup → (insertAll members added).Perm (members ++ added) := by
  induction added with
  | nil =>
      intro members _
      rw [List.append_nil]
      exact .refl _
  | cons p added ih =>
      intro members hnodup
      have hperm : (insert p.1 p.2 members).Perm (p :: members) := by
        apply perm_insert
        intro q hq heq
        rw [List.map_append, List.nodup_append] at hnodup
        exact hnodup.2.2 q.1 (List.mem_map_of_mem hq) p.1 (by simp) heq
      have hmiddle : (members ++ p :: added).Perm (p :: members ++ added) := List.perm_middle
      have hinsert := hperm.append_right added
      have hnodup' : ((insert p.1 p.2 members ++ added).map (·.1)).Nodup :=
        ((hinsert.trans hmiddle.symm).map _).nodup_iff.mpr hnodup
      exact (ih hnodup').trans (hinsert.trans hmiddle.symm)

theorem ascending_ofList (members : List (String × Json)) : Ascending (ofList members) :=
  ascending_insertAll members List.Pairwise.nil

theorem perm_ofList {members : List (String × Json)} (h : (members.map (·.1)).Nodup) :
    (ofList members).Perm members := perm_insertAll members h

theorem Ascending.eq_of_perm {members members' : Members} (h : Ascending members)
    (h' : Ascending members') (hperm : members.Perm members') : members = members' :=
  hperm.eq_of_pairwise (fun _ _ _ _ hlt hgt => absurd hgt (String.lt_asymm hlt)) h h'

theorem Ascending.nodup {members : Members} (h : Ascending members) :
    (members.map (·.1)).Nodup :=
  List.pairwise_map.mpr (h.imp String.ne_of_lt)

/-- Members are in order when they are those given and their keys ascend. -/
theorem ofList_eq {members sorted : List (String × Json)} (h : Ascending sorted)
    (hperm : sorted.Perm members) : ofList members = sorted := by
  have hnodup := (hperm.map (·.1)).nodup_iff.mp h.nodup
  exact (ascending_ofList members).eq_of_perm h ((perm_ofList hnodup).trans hperm.symm)

end Members

namespace Json

mutual
/-- The value with the members of every object in order. -/
def sorted : Json → Json
  | arr items => arr (sortedItems items)
  | obj members => obj (Members.ofList (sortedMembers members))
  | value => value
termination_by structural value => value
def sortedItems : List Json → List Json
  | [] => []
  | item :: rest => sorted item :: sortedItems rest
termination_by structural items => items
def sortedMembers : List (String × Json) → List (String × Json)
  | [] => []
  | (key, value) :: rest => (key, sorted value) :: sortedMembers rest
termination_by structural members => members
end

theorem sortedItems_eq_map (items : List Json) : sortedItems items = items.map sorted := by
  induction items with
  | nil => rfl
  | cons item rest ih => rw [sortedItems, ih, List.map_cons]

theorem sortedMembers_eq_map (members : List (String × Json)) :
    sortedMembers members = members.map fun p => (p.1, p.2.sorted) := by
  induction members with
  | nil => rfl
  | cons p rest ih => rw [sortedMembers, ih, List.map_cons]

mutual
/-- The members of every object are in order, as free values hold them. -/
def Ordered : Json → Prop
  | arr items => OrderedItems items
  | obj members => Members.Ascending members ∧ OrderedMembers members
  | _ => True
termination_by structural value => value
def OrderedItems : List Json → Prop
  | [] => True
  | item :: rest => Ordered item ∧ OrderedItems rest
termination_by structural items => items
def OrderedMembers : List (String × Json) → Prop
  | [] => True
  | (_, value) :: rest => Ordered value ∧ OrderedMembers rest
termination_by structural members => members
end

mutual
theorem Ordered.sorted_eq : ∀ {value : Json}, value.Ordered → value.sorted = value
  | .null, _ | .bool _, _ | .int _, _ | .float _, _ | .str _, _ => rfl
  | .arr items, h => by rw [sorted, OrderedItems.sorted_eq h]
  | .obj members, h => by
      rw [sorted, OrderedMembers.sorted_eq h.2, Members.ofList_eq h.1 (.refl _)]
theorem OrderedItems.sorted_eq : ∀ {items : List Json},
    OrderedItems items → sortedItems items = items
  | [], _ => rfl
  | item :: rest, h => by rw [sortedItems, Ordered.sorted_eq h.1, OrderedItems.sorted_eq h.2]
theorem OrderedMembers.sorted_eq : ∀ {members : List (String × Json)},
    OrderedMembers members → sortedMembers members = members
  | [], _ => rfl
  | (key, value) :: rest, h => by
      rw [sortedMembers, Ordered.sorted_eq h.1, OrderedMembers.sorted_eq h.2]
end

end Json

namespace Document

mutual
/-- The value of a document has its members in order. -/
theorem toJson?_ofJson : ∀ value : Json, (ofJson value).toJson? = some value.sorted
  | .null | .bool _ | .int _ | .float _ | .str _ => rfl
  | .arr items => by simp [ofJson, toJson?, Json.sorted, itemsToJson?_ofItems items]
  | .obj members => by simp [ofJson, toJson?, Json.sorted, membersToJson?_ofMembers members]
theorem itemsToJson?_ofItems :
    ∀ items : List Json, itemsToJson? (ofItems items) = some (Json.sortedItems items)
  | [] => rfl
  | item :: rest => by
      simp [ofItems, itemsToJson?, Json.sortedItems, toJson?_ofJson item, itemsToJson?_ofItems rest]
theorem membersToJson?_ofMembers : ∀ members : List (String × Json),
    membersToJson? (ofMembers members) = some (Json.sortedMembers members)
  | [] => rfl
  | (key, value) :: rest => by
      simp [ofMembers, membersToJson?, Json.sortedMembers, toJson?_ofJson value,
        membersToJson?_ofMembers rest]
end

end Document

/-- The two orders in which the members of a value stand. -/
inductive Arrangement where
  /-- As they are declared. -/
  | written
  /-- By ascending key, at every depth. -/
  | sorted
deriving DecidableEq, Repr

/-- Members of an object in an arrangement. -/
def Members.arranged (members : List (String × Json)) : Arrangement → Members
  | .written => members
  | .sorted => Members.ofList (Json.sortedMembers members)

namespace Json

def arranged (value : Json) : Arrangement → Json
  | .written => value
  | .sorted => value.sorted

variable (o : Arrangement)

@[simp] theorem arranged_str (s : String) : (str s).arranged o = str s := by cases o <;> rfl

@[simp] theorem arranged_int (i : Int) : (int i).arranged o = int i := by cases o <;> rfl

theorem arranged_arr (items : List Json) :
    (arr items).arranged o = arr (items.map (·.arranged o)) := by
  cases o with
  | written => exact congrArg arr (List.map_id items).symm
  | sorted => exact congrArg arr (sortedItems_eq_map items)

theorem arranged_obj (members : List (String × Json)) :
    (obj members).arranged o = obj (Members.arranged members o) := by cases o <;> rfl

theorem Ordered.arranged_eq {value : Json} (h : value.Ordered) : value.arranged o = value := by
  cases o with
  | written => rfl
  | sorted => exact h.sorted_eq

end Json

namespace Members

variable {members : List (String × Json)}

theorem map_fst_sortedMembers (members : List (String × Json)) :
    (Json.sortedMembers members).map (·.1) = members.map (·.1) := by
  rw [Json.sortedMembers_eq_map, List.map_map]
  rfl

/-- Members that are declared in order stay where they are. -/
theorem arranged_of_keys (keys : List String) (h : keys.Pairwise (· < ·))
    (hkeys : members.map (·.1) = keys) (o : Arrangement) :
    arranged members o = members.map fun p => (p.1, p.2.arranged o) := by
  cases o with
  | written => exact (List.map_id members).symm
  | sorted =>
      have hsorted : Ascending (Json.sortedMembers members) :=
        .of_keys keys h (by rw [map_fst_sortedMembers, hkeys])
      rw [arranged, ofList_eq hsorted (.refl _), Json.sortedMembers_eq_map]
      rfl

theorem arranged_singleton (key : String) (value : Json) (o : Arrangement) :
    arranged [(key, value)] o = [(key, value.arranged o)] :=
  arranged_of_keys [key] (List.pairwise_singleton ..) rfl o

/-- Two members that are declared the other way round change places. -/
theorem arranged_pair {first second : String} (value value' : Json) (h : second < first) :
    arranged [(first, value), (second, value')] .sorted
      = [(second, value'.arranged .sorted), (first, value.arranged .sorted)] :=
  ofList_eq (.of_keys [second, first] (List.pairwise_pair.mpr h) rfl) (.swap _ _ _)

theorem perm_map_fst_arranged (h : (members.map (·.1)).Nodup) (o : Arrangement) :
    ((arranged members o).map (·.1)).Perm (members.map (·.1)) := by
  cases o with
  | written => exact .refl _
  | sorted =>
      have hkeys := map_fst_sortedMembers members
      have hperm := (perm_ofList (hkeys ▸ h)).map (·.1)
      rwa [hkeys] at hperm

/-- One member more stands somewhere among the others. -/
theorem arranged_cons {key : String} (value : Json) (h : (key :: members.map (·.1)).Nodup)
    (o : Arrangement) :
    ∃ before after,
      arranged ((key, value) :: members) o = before ++ (key, value.arranged o) :: after ∧
      arranged members o = before ++ after := by
  cases o with
  | written => exact ⟨[], members, rfl, rfl⟩
  | sorted =>
      have hkeys : ((Json.sortedMembers ((key, value) :: members)).map (·.1)).Nodup := by
        rw [map_fst_sortedMembers]
        exact h
      have hperm := perm_ofList hkeys
      have hascending := ascending_ofList (Json.sortedMembers ((key, value) :: members))
      have hmem : (key, value.sorted) ∈ ofList (Json.sortedMembers ((key, value) :: members)) :=
        hperm.mem_iff.mpr List.mem_cons_self
      obtain ⟨before, after, hsplit⟩ := List.append_of_mem hmem
      refine ⟨before, after, hsplit, ?_⟩
      rw [hsplit] at hperm hascending
      have hrest : (before ++ after).Perm (Json.sortedMembers members) :=
        (List.perm_middle.symm.trans hperm).cons_inv
      have hsublist : (before ++ after).Sublist (before ++ (key, value.sorted) :: after) :=
        (List.Sublist.refl before).append (List.sublist_cons_self _ after)
      exact ofList_eq (hascending.sublist hsublist) hrest

/-- Two members stand one way or the other round. -/
theorem arranged_pair_or {first second : String} (value value' : Json) (h : first ≠ second)
    (o : Arrangement) :
    arranged [(first, value), (second, value')] o
        = [(first, value.arranged o), (second, value'.arranged o)] ∨
      arranged [(first, value), (second, value')] o
        = [(second, value'.arranged o), (first, value.arranged o)] := by
  have hkeys : (first :: [(second, value')].map (·.1)).Nodup := by simpa using h
  obtain ⟨before, after, hpair, hother⟩ := arranged_cons value hkeys o
  rw [arranged_singleton] at hother
  rcases List.append_eq_singleton_iff.mp hother.symm with ⟨rfl, rfl⟩ | ⟨rfl, rfl⟩
  · exact .inl hpair
  · exact .inr hpair

end Members

end PropertyGraph
