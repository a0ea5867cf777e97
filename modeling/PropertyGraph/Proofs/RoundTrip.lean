import Mathlib.Data.List.Basic
import PropertyGraph.Compiled
import PropertyGraph.Proofs.Arrangement

/-!
# What is written is read back

Reading a wire form back is a matter of finding each field by its name. The members may stand in the
order of declaration or by ascending key, so the tag of a variant stands somewhere among its fields, and
a content may come before its tag. Free values are the one place where the arrangement matters: they are
read as they stand in a complete value and with their members in order from a text, so a value comes
back where each of its constants does.
-/

namespace PropertyGraph

open Document (ofJson ofItems ofMembers)

section Parts

variable {ε α β : Type}

theorem ok_bind (a : α) (f : α → Except ε β) : (Except.ok a >>= f) = f a := rfl

theorem ok_map (f : α → β) (a : α) : (Except.ok a : Except ε α).map f = .ok (f a) := rfl

end Parts

theorem ofItems_eq_map (items : List Json) : ofItems items = items.map ofJson := by
  induction items with
  | nil => rfl
  | cons item rest ih => rw [ofItems, ih, List.map_cons]

theorem ofMembers_eq_map (members : List (String × Json)) :
    ofMembers members = members.map fun p => (p.1, ofJson p.2) := by
  induction members with
  | nil => rfl
  | cons p rest ih => rw [ofMembers, ih, List.map_cons]

theorem ofMembers_append (before after : List (String × Json)) :
    ofMembers (before ++ after) = ofMembers before ++ ofMembers after := by
  simp only [ofMembers_eq_map, List.map_append]

theorem map_fst_ofMembers (members : List (String × Json)) :
    (ofMembers members).map (·.1) = members.map (·.1) := by
  rw [ofMembers_eq_map, List.map_map]
  rfl

theorem checkKept_ofJson (value : Json) : (ofJson value).checkKept = .ok () := by
  rw [Document.checkKept, Document.verbatim?_ofJson]
  rfl

namespace Reading

variable {m : Medium} {o : Arrangement}

/-- A free value comes back from its place in a document. -/
def Keeps (m : Medium) (o : Arrangement) (value : Json) : Prop :=
  free m (Document.ofJson (value.arranged o)) = .ok value

/-- A complete value holds free values as they are. -/
theorem keeps_written (h : m.fromText = false) (value : Json) : Keeps m .written value := by
  simp only [Keeps, free, h, Json.arranged, Document.verbatim?_ofJson]
  rfl

theorem keeps_of_ordered {value : Json} (h : value.Ordered) : Keeps m o value := by
  rw [Keeps, h.arranged_eq, free]
  cases m.fromText with
  | false => simp [Document.verbatim?_ofJson]
  | true => simp [Document.toJson?_ofJson, h.sorted_eq]

theorem string_ofJson (o : Arrangement) (text : String) :
    string (Document.ofJson ((Json.str text).arranged o)) = .ok text := by
  rw [Json.arranged_str]
  rfl

theorem list_ofJson {α : Type} {read : Document → Except DecodeError α} {toJson : α → Json}
    {xs : List α} (h : ∀ x ∈ xs, read (Document.ofJson ((toJson x).arranged o)) = .ok x) :
    list read (Document.ofJson ((Json.arr (xs.map toJson)).arranged o)) = .ok xs := by
  have hitems : (((xs.map toJson).map (·.arranged o)).map Document.ofJson).mapM read = .ok xs := by
    induction xs with
    | nil => rfl
    | cons x xs ih =>
        have hx := h x (by simp)
        have hxs := ih fun y hy => h y (by simp [hy])
        rw [List.map_cons, List.map_cons, List.map_cons, List.mapM_cons, hx, hxs]
        rfl
  rw [Json.arranged_arr, Document.ofJson, ofItems_eq_map, list, hitems]
  rfl

section Records

variable {σ α : Type} {fields : List Field} {seen : List String} {key : String} {piece : Piece σ}
  {rest : List (String × Piece σ)} {record : σ}

theorem fillMembers_field {β : Type} {reading : Except DecodeError β} {b : β} {set : β → σ → σ}
    (hfield : fields.any (·.name == key) = true) (hseen : seen.contains key = false)
    (hfill : piece.fill key = reading >>= fun b => .ok (set b)) (hreading : reading = .ok b) :
    fillMembers m fields seen ((key, piece) :: rest) record
      = fillMembers m fields (key :: seen) rest (set b record) := by
  rw [fillMembers, if_pos hfield, hseen, hfill, hreading]
  rfl

/-- What has been seen matters for the keys to come only. -/
theorem fillMembers_seen {seen' : List String}
    (h : ∀ p ∈ rest, seen.contains p.1 = seen'.contains p.1) :
    fillMembers m fields seen rest record = fillMembers m fields seen' rest record := by
  induction rest generalizing seen seen' record with
  | nil => rfl
  | cons p rest ih =>
      have hrest : ∀ q ∈ rest, seen.contains q.1 = seen'.contains q.1 := fun q hq =>
        h q (by simp [hq])
      have hcons : ∀ q ∈ rest, (p.1 :: seen).contains q.1 = (p.1 :: seen').contains q.1 := by
        intro q hq
        rw [List.contains_cons, List.contains_cons, hrest q hq]
      rw [fillMembers, fillMembers, h p (by simp)]
      simp only [ih hrest, ih hcons]

/-- A member that is left out leaves the field as it was, which is what its value would set. -/
theorem fillMembers_optional {β : Type} {member : List (String × Piece σ)}
    (reading : Except DecodeError β) {b : β} {set : β → σ → σ}
    (hfield : fields.any (·.name == key) = true) (hseen : seen.contains key = false)
    (hrest : ∀ p ∈ rest, p.1 ≠ key)
    (hmember : member = [] ∧ set b record = record ∨ ∃ piece, member = [(key, piece)] ∧
      piece.fill key = (reading >>= fun b => .ok (set b)) ∧ reading = .ok b) :
    fillMembers m fields seen (member ++ rest) record
      = fillMembers m fields (key :: seen) rest (set b record) := by
  rcases hmember with ⟨rfl, hset⟩ | ⟨piece, rfl, hfill, hreading⟩
  · rw [hset]
    apply fillMembers_seen
    intro p hp
    have hne : (p.1 == key) = false := beq_false_of_ne (hrest p hp)
    rw [List.contains_cons, hne]
    rfl
  · exact fillMembers_field hfield hseen hfill hreading

/-- A member that is no field is passed over wherever it stands. -/
theorem fillMembers_other {before : List (String × Piece σ)}
    (hfield : fields.any (·.name == key) = false) (hm : m.streaming = false) :
    fillMembers m fields seen (before ++ (key, piece) :: rest) record
      = fillMembers m fields seen (before ++ rest) record := by
  have hskipped : ∀ d : Document, d.checkSkipped m = .ok () := by
    intro d
    rw [Document.checkSkipped, hm]
    rfl
  induction before generalizing seen record with
  | nil =>
      rw [List.nil_append, fillMembers, hfield, hskipped]
      rfl
  | cons p before ih =>
      rw [List.cons_append, fillMembers, List.cons_append, fillMembers]
      simp only [ih]

theorem fill_members_eq_ok {pieces : List (String × Piece σ)} {empty : σ}
    (h : fillMembers m fields [] pieces empty = .ok record) :
    (Layout.members pieces true).fill m fields empty = .ok record := by
  rw [Layout.fill.eq_def]
  simp only [h, ok_bind]
  rfl

/-- The tag is found wherever it stands. -/
theorem tagAmong_append {name text : String} {variants : List (String × α)} {a : α}
    {before after : List (String × Json)} (hvariant : variants.lookup text = some a)
    (hbefore : ∀ p ∈ before, p.1 ≠ name) (hafter : ∀ p ∈ after, p.1 ≠ name) :
    tagAmong m name variants true none (ofMembers (before ++ (name, .str text) :: after))
      = .ok a := by
  have hrest : ∀ (seen : Option α) (members : List (String × Json))
      (rest : List (String × Document)), (∀ p ∈ members, p.1 ≠ name) →
      tagAmong m name variants true seen (ofMembers members ++ rest)
        = tagAmong m name variants true seen rest := by
    intro seen members rest hkeys
    induction members with
    | nil => rfl
    | cons p members ih =>
        have hp := hkeys p (by simp)
        have hmembers := ih fun q hq => hkeys q (by simp [hq])
        rw [ofMembers, List.cons_append, tagAmong, if_neg hp, checkKept_ofJson, ok_bind, hmembers]
  have htag : tag m variants (Document.ofJson (.str text)) = .ok a := by
    rw [Document.ofJson, tag, variantNamed, hvariant]
  have hlast := hrest (some a) after [] hafter
  rw [List.append_nil] at hlast
  rw [ofMembers_append, hrest none before _ hbefore, ofMembers, tagAmong, if_pos rfl, htag, ok_bind,
    hlast]
  rfl

/-- The tag is found among the fields, and it is one member more than they are. -/
theorem exists_tagAmong {name text : String} {variants : List (String × α)} {a : α}
    {members : List (String × Json)} (hvariant : variants.lookup text = some a)
    (hkeys : (name :: members.map (·.1)).Nodup) :
    ∃ before after,
      Members.arranged ((name, .str text) :: members) o = before ++ (name, .str text) :: after ∧
      Members.arranged members o = before ++ after ∧
      tagAmong m name variants true none (ofMembers (before ++ (name, .str text) :: after))
        = .ok a := by
  obtain ⟨before, after, htagged, hmembers⟩ :=
    Members.arranged_cons (.str text) hkeys o
  rw [Json.arranged_str] at htagged
  have hne : ∀ p ∈ before ++ after, p.1 ≠ name := by
    intro p hp heq
    have hperm := Members.perm_map_fst_arranged (List.nodup_cons.mp hkeys).2 o
    have hmem := hperm.mem_iff.mp (List.mem_map_of_mem (hmembers ▸ hp))
    exact (List.nodup_cons.mp hkeys).1 (heq ▸ hmem)
  refine ⟨before, after, htagged, hmembers, tagAmong_append hvariant (fun p hp => ?_) fun p hp => ?_⟩
  · exact hne p (List.mem_append_left after hp)
  · exact hne p (List.mem_append_right before hp)

theorem besideMembers_tag_first {β : Type} {tagName contentName : String}
    {variants : List (String × α)} {first content : Content α β} {a : α} {b : β}
    (hne : contentName ≠ tagName) (hfirst : choice m variants first.document = .ok a)
    (hcontent : content.read m a = .ok b) :
    besideMembers m tagName contentName variants true [(tagName, first), (contentName, content)]
      = .ok b := by
  have hnext : nextRelevant m tagName contentName true [(contentName, content)]
      = .ok (some (false, content, [])) := by
    rw [nextRelevant, if_neg hne, if_pos rfl]
  rw [besideMembers, nextRelevant, if_pos rfl]
  simp only [ok_bind, hfirst, hnext, hcontent]
  rfl

theorem besideMembers_content_first {β : Type} {tagName contentName : String}
    {variants : List (String × α)} {first content : Content α β} {a : α} {b : β}
    (hne : contentName ≠ tagName) (hfirst : choice m variants first.document = .ok a)
    (hkept : content.document.checkKept = .ok ()) (hcontent : content.read m.keep a = .ok b) :
    besideMembers m tagName contentName variants true [(contentName, content), (tagName, first)]
      = .ok b := by
  have hnext : nextRelevant m tagName contentName true [(tagName, first)]
      = .ok (some (true, first, [])) := by
    rw [nextRelevant, if_pos rfl]
  rw [besideMembers, nextRelevant, if_neg hne, if_pos rfl]
  simp only [ok_bind, hkept, hfirst, hnext, hcontent]
  rfl

end Records

end Reading

theorem streaming_keep (m : Medium) : m.keep.streaming = false := Bool.and_false m.fromText

section Elements

variable (m : Medium) (o : Arrangement)

theorem ElementKind.read_toJson (kind : ElementKind) :
    ElementKind.read m (ofJson (kind.toJson.arranged o)) = .ok kind := by
  cases kind <;> cases o <;> rfl

theorem contains_toInt (i : Int64) : Text.IntegerType.signed64.contains i.toInt = true := by
  have hmin : -9223372036854775808 ≤ i.toInt := Int64.le_toInt i
  have hmax : i.toInt ≤ 9223372036854775807 := Int.le_of_lt_add_one (Int64.toInt_lt i)
  exact Bool.and_eq_true_iff.mpr ⟨decide_eq_true hmin, decide_eq_true hmax⟩

theorem ElementId.read_toJson (id : ElementId) :
    ElementId.read (ofJson (id.toJson.arranged o)) = .ok id := by
  cases id with
  | int i =>
      have hread : ElementId.read (.int i.toInt)
          = if Text.IntegerType.signed64.contains i.toInt then .ok (.int (Int64.ofInt i.toInt))
            else .error .noIdentifier := rfl
      rw [ElementId.toJson, Json.arranged_int, ofJson, hread, if_pos (contains_toInt i),
        Int64.ofInt_toInt]
  | str s =>
      rw [ElementId.toJson, Json.arranged_str]
      rfl

theorem Direction.read_toJson (direction : Direction) :
    Direction.read m (ofJson (direction.toJson.arranged o)) = .ok direction := by
  cases direction <;> cases o <;> rfl

theorem WalkTarget.read_toJson (target : WalkTarget) :
    WalkTarget.read m (ofJson (target.toJson.arranged o)) = .ok target := by
  cases target <;> cases o <;> rfl

end Elements

section Wire

variable {m : Medium} {o : Arrangement}

theorem Property.read_toJson {p : Property} (h : Reading.Keeps m o p.value) :
    Property.read m (ofJson (p.toJson.arranged o)) = .ok p := by
  have hkey := Reading.string_ofJson o p.key
  rw [Property.toJson, Json.arranged_obj, Members.arranged_of_keys ["key", "value"] (by decide) (by rfl)]
  simp only [Property.read, ofJson, ofMembers, Reading.record, List.map_cons, List.map_nil,
    Reading.Layout.fill]
  rw [Reading.fillMembers_field rfl rfl rfl hkey, Reading.fillMembers_field rfl rfl rfl h]
  rfl

theorem Projection.read_toJson (projection : Projection) :
    Projection.read m (ofJson (projection.toJson.arranged o)) = .ok projection := by
  obtain ⟨fromText, kept⟩ := m
  cases projection with
  | values key =>
      cases o with
      | written => cases fromText <;> cases kept <;> rfl
      | sorted =>
          rw [Projection.toJson, Json.arranged_obj, Members.arranged_pair _ _ (by decide)]
          cases fromText <;> cases kept <;> rfl
  | _ => cases o <;> cases fromText <;> cases kept <;> rfl

/-! ### Predicates -/

theorem BoundName.read_toJson (name : BoundName) :
    BoundName.read m (ofJson ((BoundName.toJson name).arranged o)) = .ok name := by
  rw [BoundName.toJson, Json.arranged_obj, Members.arranged_of_keys ["name"] (by decide) (by rfl)]
  simp only [List.map_cons, List.map_nil, Json.arranged_str]
  rfl

/-- The free values of an operand. -/
def Operand.constants {ρ : Type} : Operand ρ → List Json
  | .constant value => [value]
  | .bound _ => []

theorem Operand.read_toJson {operand : Operand BoundName}
    (h : ∀ value ∈ operand.constants, Reading.Keeps m o value) :
    Operand.read m (ofJson (operand.toJson.arranged o)) = .ok operand := by
  have hvariant : ∀ (isConstant : Bool) (name : String) (content : Document),
      Operand.variants.lookup name = some isConstant →
      Reading.variant m Operand.variants (.obj [(name, content)] true)
        = .ok (isConstant, some content, .ok ()) := by
    intro isConstant name content hname
    cases hm : m.streaming
    all_goals
      simp only [Reading.variant, hm, Reading.variantNamed, hname]
      rfl
  cases operand with
  | constant v =>
      have hcontent := hvariant true "constant" (ofJson (v.arranged o)) rfl
      have hfree : Reading.free m (ofJson (v.arranged o)) = .ok v := h v (by simp [constants])
      rw [Operand.toJson, Json.arranged_obj, Members.arranged_of_keys ["constant"] (by decide) (by rfl)]
      simp only [List.map_cons, List.map_nil, ofJson, ofMembers, Operand.read, hcontent, ok_bind,
        hfree]
      rfl
  | bound name =>
      have hcontent := hvariant false "bound" (ofJson ((BoundName.toJson name).arranged o)) rfl
      have hname := BoundName.read_toJson (m := m) (o := o) name
      rw [Operand.toJson, Json.arranged_obj, Members.arranged_of_keys ["bound"] (by decide) (by rfl)]
      simp only [List.map_cons, List.map_nil, ofJson, ofMembers, Operand.read, hcontent, ok_bind,
        hname]
      rfl

/-- The free values of a test. -/
def Test.constants {ρ : Type} (test : Test ρ) : List Json := test.operand.constants

theorem Test.read_toJson {test : Test BoundName}
    (h : ∀ value ∈ test.constants, Reading.Keeps m o value) :
    Test.read m (ofJson (test.toJson.arranged o)) = .ok test := by
  obtain ⟨comparison, operand⟩ := test
  have hcomparison : Reading.choice m Comparison.variants (.str comparison.text)
      = .ok comparison := by
    cases comparison <;> rfl
  have hcontent : ∀ {m : Medium}, (∀ value ∈ operand.constants, Reading.Keeps m o value) →
      (Test.content (ofJson (operand.toJson.arranged o))).read m comparison
        = .ok ⟨comparison, operand⟩ := by
    intro m h
    have hoperand := Operand.read_toJson h
    simp only [Test.content, hoperand, ok_map]
  cases o with
  | written => exact Reading.besideMembers_tag_first (by decide) hcomparison (hcontent h)
  | sorted =>
      -- the operand comes before the name of its test
      have hkept := checkKept_ofJson (operand.toJson.arranged .sorted)
      have hread := hcontent (m := m.keep) h
      rw [Test.toJson, Json.arranged_obj, Members.arranged_pair _ _ (by decide)]
      exact Reading.besideMembers_content_first (by decide) hcomparison hkept hread

namespace Predicate

mutual
/-- The free values of a predicate. -/
def constants {ρ : Type} : Predicate ρ → List Json
  | .has _ test => test.constants
  | .is test => test.constants
  | .conj operands => constantsOfAll operands
  | .disj operands => constantsOfAll operands
  | .neg operand => constants operand
termination_by structural predicate => predicate
def constantsOfAll {ρ : Type} : List (Predicate ρ) → List Json
  | [] => []
  | predicate :: rest => constants predicate ++ constantsOfAll rest
termination_by structural predicates => predicates
end

theorem pieces_append (before after : List (String × Document)) :
    pieces (before ++ after) m = pieces before m ++ pieces after m := by
  induction before with
  | nil => rfl
  | cons p before ih => rw [List.cons_append, pieces, pieces, ih, List.cons_append]

theorem read_tagged {operator : Operator} {text : String} {draft : Draft}
    {members arranged : List (String × Json)} {predicate : Predicate BoundName}
    (hoperator : Operator.variants.lookup text = some operator)
    (hkeys : ("op" :: members.map (·.1)).Nodup) (harranged : Members.arranged members o = arranged)
    (hfill : Reading.fillMembers m.keep operator.fields [] (pieces (ofMembers arranged) m.keep)
      Draft.empty = .ok draft)
    (hfinish : draft.finish operator = .ok predicate) :
    read (ofJson ((Json.obj (("op", .str text) :: members)).arranged o)) m = .ok predicate := by
  obtain ⟨before, after, htagged, hmembers, htag⟩ :=
    Reading.exists_tagAmong (m := m) (o := o) hoperator hkeys
  have hother : operator.fields.any (·.name == "op") = false := by cases operator <;> rfl
  have hlayout : (Reading.Layout.members
      (pieces (ofMembers (before ++ ("op", .str text) :: after)) m.keep) true).fill m.keep
      operator.fields Draft.empty = .ok draft := by
    apply Reading.fill_members_eq_ok
    rw [ofMembers_append, pieces_append, ofMembers, pieces,
      Reading.fillMembers_other hother (streaming_keep m), ← pieces_append, ← ofMembers_append,
      ← hmembers, harranged, hfill]
  rw [Json.arranged_obj, htagged]
  simp only [ofJson, read, htag, ok_bind, hlayout, hfinish]

/-- A predicate with one field is read back if its field is. -/
theorem read_single {β : Type} {operator : Operator} {text key : String} {value : Json}
    {reading : Except DecodeError β} {b : β} {set : β → Draft → Draft}
    {predicate : Predicate BoundName}
    (hoperator : Operator.variants.lookup text = some operator) (hkey : "op" ≠ key)
    (hfields : operator.fields = [Reading.required key])
    (hfill : Draft.fill m.keep (ofJson (value.arranged o))
        (fun _ => read (ofJson (value.arranged o)) m.keep)
        (fun _ => readAll (ofJson (value.arranged o)) m.keep) key
      = reading >>= fun b => .ok (set b))
    (hreading : reading = .ok b) (hfinish : (set b Draft.empty).finish operator = .ok predicate) :
    read (ofJson ((Json.obj [("op", .str text), (key, value)]).arranged o)) m = .ok predicate := by
  have hfield : operator.fields.any (·.name == key) = true := by simp [hfields, Reading.required]
  refine read_tagged hoperator (by simpa using hkey) (Members.arranged_singleton key value o) ?_
    hfinish
  rw [ofMembers, pieces, Reading.fillMembers_field hfield rfl hfill hreading]
  rfl

theorem readAll_ofItems {operands : List (Predicate BoundName)}
    (h : readItems (ofItems ((allToJson operands).map (·.arranged o))) m = .ok operands) :
    readAll (ofJson ((Json.arr (allToJson operands)).arranged o)) m = .ok operands := by
  rw [Json.arranged_arr, ofJson, readAll, h]
  rfl

mutual
theorem read_toJson {m : Medium} : ∀ predicate : Predicate BoundName,
    (∀ value ∈ predicate.constants, Reading.Keeps m o value) →
    read (ofJson (predicate.toJson.arranged o)) m = .ok predicate
  | .has key test, h => by
      have hkey := Reading.string_ofJson o key
      have htest := Test.read_toJson (m := m.keep) h
      have hfill : Reading.fillMembers m.keep Operator.has.fields []
          (pieces (ofMembers [("key", (Json.str key).arranged o), ("test", test.toJson.arranged o)])
            m.keep) Draft.empty
          = .ok { Draft.empty with key := some key, test := some test } := by
        rw [ofMembers, pieces, Reading.fillMembers_field rfl rfl rfl hkey, ofMembers, pieces,
          Reading.fillMembers_field rfl rfl rfl htest]
        rfl
      exact read_tagged rfl (by simp) (Members.arranged_of_keys ["key", "test"] (by decide) rfl o)
        hfill rfl
  | .is _, h => read_single rfl (by decide) rfl rfl (Test.read_toJson h) rfl
  | .conj operands, h =>
    read_single rfl (by decide) rfl rfl (readAll_ofItems (readItems_ofItems operands h)) rfl
  | .disj operands, h =>
    read_single rfl (by decide) rfl rfl (readAll_ofItems (readItems_ofItems operands h)) rfl
  | .neg operand, h => read_single rfl (by decide) rfl rfl (read_toJson operand h) rfl
termination_by structural predicate => predicate
theorem readItems_ofItems {m : Medium} : ∀ predicates : List (Predicate BoundName),
    (∀ value ∈ constantsOfAll predicates, Reading.Keeps m o value) →
    readItems (ofItems ((allToJson predicates).map (·.arranged o))) m = .ok predicates
  | [], _ => rfl
  | predicate :: rest, h => by
      have hpredicate := read_toJson (m := m) predicate fun value hvalue =>
        h value (List.mem_append_left _ hvalue)
      have hrest := readItems_ofItems (m := m) rest fun value hvalue =>
        h value (List.mem_append_right _ hvalue)
      rw [allToJson, List.map_cons, ofItems, readItems, hpredicate, ok_bind, hrest]
      rfl
termination_by structural predicates => predicates
end

end Predicate

/-! ### Steps -/

namespace Step

mutual
/-- The free values of a step, those of the steps inside it included. -/
def constants : Step → List Json
  | .addVertex _ properties => properties.map (·.value)
  | .addEdge _ properties source target =>
    properties.map (·.value) ++ selectorConstants source ++ selectorConstants target
  | .update properties => properties.map (·.value)
  | .filter predicate => predicate.constants
  | .inject values => values
  | .bind _ continuation => constantsIn continuation
  | _ => []
termination_by structural step => step
def selectorConstants : Option (List Step) → List Json
  | none => []
  | some steps => constantsIn steps
termination_by structural selector => selector
def constantsIn : List Step → List Json
  | [] => []
  | step :: rest => constants step ++ constantsIn rest
termination_by structural steps => steps
end

theorem pieces_append (before after : List (String × Document)) :
    pieces (before ++ after) m = pieces before m ++ pieces after m := by
  induction before with
  | nil => rfl
  | cons p before ih => rw [List.cons_append, pieces, pieces, ih, List.cons_append]

theorem map_fst_pieces (members : List (String × Document)) :
    (pieces members m).map (·.1) = members.map (·.1) := by
  induction members with
  | nil => rfl
  | cons p members ih => rw [pieces, List.map_cons, ih, List.map_cons]

theorem read_tagged {tag : Tag} {text : String} {draft : Draft}
    {members arranged : List (String × Json)} {step : Step}
    (htag : Tag.variants.lookup text = some tag) (hkeys : ("step" :: members.map (·.1)).Nodup)
    (harranged : Members.arranged members o = arranged)
    (hfill : Reading.fillMembers m.keep tag.fields [] (pieces (ofMembers arranged) m.keep)
      Draft.empty = .ok draft)
    (hfinish : draft.finish tag = .ok step) :
    read (ofJson ((Json.obj (("step", .str text) :: members)).arranged o)) m = .ok step := by
  obtain ⟨before, after, htagged, hmembers, hamong⟩ :=
    Reading.exists_tagAmong (m := m) (o := o) htag hkeys
  have hother : tag.fields.any (·.name == "step") = false := by cases tag <;> rfl
  have hlayout : (Reading.Layout.members
      (pieces (ofMembers (before ++ ("step", .str text) :: after)) m.keep) true).fill m.keep
      tag.fields Draft.empty = .ok draft := by
    apply Reading.fill_members_eq_ok
    rw [ofMembers_append, pieces_append, ofMembers, pieces,
      Reading.fillMembers_other hother (streaming_keep m), ← pieces_append, ← ofMembers_append,
      ← hmembers, harranged, hfill]
  rw [Json.arranged_obj, htagged]
  simp only [ofJson, read, hamong, ok_bind, hlayout, hfinish]

/-- A step with one field is read back if its field is. -/
theorem read_single {β : Type} {tag : Tag} {text key : String} {value : Json}
    {reading : Except DecodeError β} {b : β} {set : β → Draft → Draft} {step : Step}
    (htag : Tag.variants.lookup text = some tag) (hkey : "step" ≠ key)
    (hfields : tag.fields = [Reading.required key])
    (hfill : ∀ steps, Draft.fill m.keep (ofJson (value.arranged o)) steps key
      = reading >>= fun b => .ok (set b))
    (hreading : reading = .ok b) (hfinish : (set b Draft.empty).finish tag = .ok step) :
    read (ofJson ((Json.obj [("step", .str text), (key, value)]).arranged o)) m = .ok step := by
  have hfield : tag.fields.any (·.name == key) = true := by simp [hfields, Reading.required]
  refine read_tagged htag (by simpa using hkey) (Members.arranged_singleton key value o) ?_ hfinish
  rw [ofMembers, pieces, Reading.fillMembers_field hfield rfl (hfill _) hreading]
  rfl

/-- A step with two fields is read back if they are, whichever of them comes first. -/
theorem read_pair {β γ : Type} {tag : Tag} {text first second : String} {value value' : Json}
    {reading : Except DecodeError β} {reading' : Except DecodeError γ} {b : β} {c : γ}
    {set : β → Draft → Draft} {set' : γ → Draft → Draft} {step : Step}
    (htag : Tag.variants.lookup text = some tag) (hkeys : ["step", first, second].Nodup)
    (hfields : tag.fields = [Reading.required first, Reading.required second])
    (hfill : ∀ steps, Draft.fill m.keep (ofJson (value.arranged o)) steps first
      = reading >>= fun b => .ok (set b))
    (hfill' : Draft.fill m.keep (ofJson (value'.arranged o))
        (fun _ => readSequence (ofJson (value'.arranged o)) m.keep) second
      = reading' >>= fun c => .ok (set' c))
    (hreading : reading = .ok b) (hreading' : reading' = .ok c)
    (hcommute : set' c (set b Draft.empty) = set b (set' c Draft.empty))
    (hfinish : (set' c (set b Draft.empty)).finish tag = .ok step) :
    read (ofJson ((Json.obj [("step", .str text), (first, value), (second, value')]).arranged o)) m
      = .ok step := by
  have hfirst : tag.fields.any (·.name == first) = true := by simp [hfields, Reading.required]
  have hsecond : tag.fields.any (·.name == second) = true := by simp [hfields, Reading.required]
  obtain ⟨-, hrest⟩ := List.nodup_cons.mp hkeys
  have hne : first ≠ second := by simpa using hrest
  refine read_tagged htag hkeys rfl ?_ hfinish
  rcases Members.arranged_pair_or value value' hne o with harranged | harranged
  · have hseen : [first].contains second = false := by simpa using hne.symm
    rw [harranged, ofMembers, pieces, Reading.fillMembers_field hfirst rfl (hfill _) hreading,
      ofMembers, pieces, Reading.fillMembers_field hsecond hseen hfill' hreading']
    rfl
  · have hseen : [second].contains first = false := by simpa using hne
    rw [harranged, ofMembers, pieces, Reading.fillMembers_field hsecond rfl hfill' hreading',
      ofMembers, pieces, Reading.fillMembers_field hfirst hseen (hfill _) hreading, hcommute]
    rfl

theorem list_string (labels : List String) :
    Reading.list Reading.string (ofJson ((Json.arr (labels.map .str)).arranged o)) = .ok labels :=
  Reading.list_ofJson fun label _ => Reading.string_ofJson o label

theorem list_values {values : List Json} (h : ∀ value ∈ values, Reading.Keeps m o value) :
    Reading.list (Reading.free m) (ofJson ((Json.arr values).arranged o)) = .ok values := by
  have hvalues : Reading.list (Reading.free m) (ofJson ((Json.arr (values.map id)).arranged o))
      = .ok values := Reading.list_ofJson h
  rwa [List.map_id] at hvalues

theorem list_properties {properties : List Property}
    (h : ∀ value ∈ properties.map (·.value), Reading.Keeps m o value) :
    Reading.list (Property.read m)
      (ofJson ((Json.arr (properties.map Property.toJson)).arranged o)) = .ok properties :=
  Reading.list_ofJson fun _ hproperty => Property.read_toJson (h _ (List.mem_map_of_mem hproperty))

theorem natural_count (count : UInt64) :
    Reading.natural 64 (ofJson ((Json.int count.toNat).arranged o)) = .ok count.toNat := by
  have hmax : (count.toNat : Int) ≤ 18446744073709551615 := by
    have hlt := count.toNat_lt
    omega
  have hcontains : (⟨false, 64⟩ : Text.IntegerType).contains count.toNat = true :=
    Bool.and_eq_true_iff.mpr ⟨decide_eq_true (Int.natCast_nonneg _), decide_eq_true hmax⟩
  rw [Json.arranged_int, ofJson, Reading.natural, Reading.integer, if_pos hcontains]
  rfl

theorem readSequence_ofItems {steps : List Step}
    (h : readItems (ofItems ((allToJson steps).map (·.arranged o))) m = .ok steps) :
    readSequence (ofJson ((Json.arr (allToJson steps)).arranged o)) m = .ok steps := by
  rw [Json.arranged_arr, ofJson, readSequence, h]
  rfl

theorem optionalSteps_ofItems {steps : List Step}
    (h : readItems (ofItems ((allToJson steps).map (·.arranged o))) m = .ok steps) :
    Draft.optionalSteps (fun _ => readSequence (ofJson ((Json.arr (allToJson steps)).arranged o)) m)
      (ofJson ((Json.arr (allToJson steps)).arranged o)) = .ok (some steps) := by
  rw [readSequence_ofItems h, Json.arranged_arr]
  rfl

/-- The member of a selector, or none, in an arrangement. -/
def arrangedSelector (o : Arrangement) (key : String) (selector : Option (List Step)) :
    List (String × Json) :=
  (selectorMember key selector).map fun p => (p.1, p.2.arranged o)

theorem key_of_mem_selectorMember {key : String} {selector : Option (List Step)}
    {p : String × Json} (hp : p ∈ selectorMember key selector) : p.1 = key := by
  cases selector with
  | none => simp [selectorMember] at hp
  | some steps =>
      rw [selectorMember, List.mem_singleton] at hp
      rw [hp]

/-- Whether a selector is written at all, the draft ends up with what was written. -/
theorem fill_selector (key : String) {selector : Option (List Step)} {seen : List String}
    {set : Option (List Step) → Draft → Draft} {rest : List (String × Json)} {draft : Draft}
    (hfield : Tag.addEdge.fields.any (·.name == key) = true) (hseen : seen.contains key = false)
    (hrest : ∀ p ∈ rest, p.1 ≠ key) (hempty : set none draft = draft)
    (hfill : ∀ d steps, Draft.fill m d steps key
      = (Draft.optionalSteps steps d >>= fun selector => .ok (set selector)))
    (hselector : ∀ steps ∈ selector,
      readItems (ofItems ((allToJson steps).map (·.arranged o))) m = .ok steps) :
    Reading.fillMembers m Tag.addEdge.fields seen
        (pieces (ofMembers (arrangedSelector o key selector ++ rest)) m) draft
      = Reading.fillMembers m Tag.addEdge.fields (key :: seen) (pieces (ofMembers rest) m)
          (set selector draft) := by
  have hkeys : ∀ p ∈ pieces (ofMembers rest) m, p.1 ≠ key := by
    intro p hp
    have hmem : p.1 ∈ (pieces (ofMembers rest) m).map (·.1) := List.mem_map_of_mem hp
    rw [map_fst_pieces, map_fst_ofMembers] at hmem
    obtain ⟨q, hq, heq⟩ := List.mem_map.mp hmem
    exact heq ▸ hrest q hq
  rw [ofMembers_append, pieces_append]
  cases selector with
  | none =>
      exact Reading.fillMembers_optional (.ok none) hfield hseen hkeys (.inl ⟨rfl, hempty⟩)
  | some steps =>
      have hsteps := optionalSteps_ofItems (hselector steps rfl)
      exact Reading.fillMembers_optional _ hfield hseen hkeys (.inr ⟨_, rfl, hfill _ _, hsteps⟩)

theorem key_of_mem_arrangedSelector {key : String} {selector : Option (List Step)}
    {p : String × Json} (hp : p ∈ arrangedSelector o key selector) : p.1 = key := by
  obtain ⟨q, hq, rfl⟩ := List.mem_map.mp hp
  exact key_of_mem_selectorMember (p := q) hq

/-- The fields of an edge creation but its label and its properties may be left out, and its source
comes first by key. -/
theorem arranged_addEdge (o : Arrangement) (label properties : Json)
    (source target : Option (List Step)) :
    Members.arranged ([("label", label), ("properties", properties)]
        ++ selectorMember "from" source ++ selectorMember "to" target) o
      = match o with
        | .written => [("label", label.arranged o), ("properties", properties.arranged o)]
          ++ arrangedSelector o "from" source ++ arrangedSelector o "to" target
        | .sorted => arrangedSelector o "from" source
          ++ [("label", label.arranged o), ("properties", properties.arranged o)]
          ++ arrangedSelector o "to" target := by
  cases o with
  | written =>
      simp only [Members.arranged, arrangedSelector, Json.arranged, List.map_id']
  | sorted =>
      refine Members.ofList_eq ?_ ?_
      · cases source with
        | none =>
            cases target with
            | none => exact .of_keys ["label", "properties"] (by decide) rfl
            | some _ => exact .of_keys ["label", "properties", "to"] (by decide) rfl
        | some _ =>
            cases target with
            | none => exact .of_keys ["from", "label", "properties"] (by decide) rfl
            | some _ => exact .of_keys ["from", "label", "properties", "to"] (by decide) rfl
      · rw [Json.sortedMembers_eq_map, List.map_append, List.map_append]
        exact List.perm_append_comm.append_right _

theorem addEdge_keys (label properties : Json) (source target : Option (List Step)) :
    ("step" :: ([("label", label), ("properties", properties)]
      ++ selectorMember "from" source ++ selectorMember "to" target).map (·.1)).Nodup := by
  cases source <;> cases target <;> simp [selectorMember]

theorem fill_addEdge {label : String} {properties : List Property}
    {source target : Option (List Step)}
    (hproperties : ∀ value ∈ properties.map (·.value), Reading.Keeps m o value)
    (hsource : ∀ steps ∈ source,
      readItems (ofItems ((allToJson steps).map (·.arranged o))) m = .ok steps)
    (htarget : ∀ steps ∈ target,
      readItems (ofItems ((allToJson steps).map (·.arranged o))) m = .ok steps) :
    Reading.fillMembers m Tag.addEdge.fields []
      (pieces (ofMembers (Members.arranged ([("label", .str label),
        ("properties", .arr (properties.map Property.toJson))]
        ++ selectorMember "from" source ++ selectorMember "to" target) o)) m) Draft.empty
      = .ok { Draft.empty with
          label := some label, properties := some properties,
          source := source, destination := target } := by
  have hlabel := Reading.string_ofJson o label
  have hread := list_properties hproperties
  have hto : ∀ p ∈ ([] : List (String × Json)), p.1 ≠ "to" := nofun
  rw [arranged_addEdge, ← List.append_nil (arrangedSelector o "to" target)]
  cases o with
  | written =>
      have hfrom : ∀ p ∈ arrangedSelector .written "to" target ++ [], p.1 ≠ "from" := by
        intro p hp
        rw [List.append_nil] at hp
        rw [key_of_mem_arrangedSelector hp]
        decide
      simp only [List.cons_append, List.nil_append]
      rw [ofMembers, pieces, Reading.fillMembers_field rfl rfl rfl hlabel, ofMembers, pieces,
        Reading.fillMembers_field rfl rfl rfl hread,
        fill_selector "from" rfl rfl hfrom rfl (fun _ _ => rfl) hsource,
        fill_selector "to" rfl rfl hto rfl (fun _ _ => rfl) htarget]
      rfl
  | sorted =>
      have hfrom : ∀ p ∈ ("label", (Json.str label).arranged .sorted)
          :: ("properties", (Json.arr (properties.map Property.toJson)).arranged .sorted)
          :: (arrangedSelector .sorted "to" target ++ []), p.1 ≠ "from" := by
        intro p hp
        rcases List.mem_cons.mp hp with rfl | hp
        · simp
        rcases List.mem_cons.mp hp with rfl | hp
        · simp
        · rw [List.append_nil] at hp
          rw [key_of_mem_arrangedSelector hp]
          decide
      simp only [List.append_assoc, List.cons_append, List.nil_append]
      rw [fill_selector "from" rfl rfl hfrom rfl (fun _ _ => rfl) hsource, ofMembers, pieces,
        Reading.fillMembers_field rfl rfl rfl hlabel, ofMembers, pieces,
        Reading.fillMembers_field rfl rfl rfl hread,
        fill_selector "to" rfl rfl hto rfl (fun _ _ => rfl) htarget]
      rfl

mutual
theorem read_toJson {m : Medium} : ∀ step : Step,
    (∀ value ∈ step.constants, Reading.Keeps m o value) →
    read (ofJson (step.toJson.arranged o)) m = .ok step
  | .selectAll kind, _ =>
    read_single rfl (by decide) rfl (fun _ => rfl) (ElementKind.read_toJson m.keep o kind) rfl
  | .selectById kind ids, _ =>
    read_pair rfl (by decide) rfl (fun _ => rfl) rfl (ElementKind.read_toJson m.keep o kind)
      (Reading.list_ofJson fun id _ => ElementId.read_toJson o id) rfl rfl
  | .typeFilter labels, _ =>
    read_single rfl (by decide) rfl (fun _ => rfl) (list_string labels) rfl
  | .addVertex label _, h =>
    read_pair rfl (by decide) rfl (fun _ => rfl) rfl (Reading.string_ofJson o label)
      (list_properties h) rfl rfl
  | .addEdge label properties source target, h => by
      have hproperties : ∀ value ∈ properties.map (·.value), Reading.Keeps m.keep o value :=
        fun value hvalue => h value (List.mem_append_left _ (List.mem_append_left _ hvalue))
      have hsource := readItems_selector (m := m.keep) source fun value hvalue =>
        h value (List.mem_append_left _ (List.mem_append_right _ hvalue))
      have htarget := readItems_selector (m := m.keep) target fun value hvalue =>
        h value (List.mem_append_right _ hvalue)
      exact read_tagged rfl (addEdge_keys _ _ source target) rfl
        (fill_addEdge hproperties hsource htarget) rfl
  | .update _, h => read_single rfl (by decide) rfl (fun _ => rfl) (list_properties h) rfl
  | .traverse direction edgeLabels target, _ => by
      have hdirection := Direction.read_toJson m.keep o direction
      have hlabels := list_string (o := o) edgeLabels
      have htarget := WalkTarget.read_toJson m.keep o target
      have hfill : Reading.fillMembers m.keep Tag.traverse.fields []
          (pieces (ofMembers [("direction", direction.toJson.arranged o),
            ("edgeLabels", (Json.arr (edgeLabels.map .str)).arranged o),
            ("target", target.toJson.arranged o)]) m.keep) Draft.empty
          = .ok { Draft.empty with
              direction := some direction, edgeLabels := some edgeLabels,
              target := some target } := by
        rw [ofMembers, pieces, Reading.fillMembers_field rfl rfl rfl hdirection, ofMembers, pieces,
          Reading.fillMembers_field rfl rfl rfl hlabels, ofMembers, pieces,
          Reading.fillMembers_field rfl rfl rfl htarget]
        rfl
      have hkeys : ["direction", "edgeLabels", "target"].Pairwise (· < ·) := by decide
      exact read_tagged rfl (by simp) (Members.arranged_of_keys _ hkeys rfl o) hfill rfl
  | .edgeVertex direction, _ =>
    read_single rfl (by decide) rfl (fun _ => rfl) (Direction.read_toJson m.keep o direction) rfl
  | .filter predicate, h =>
    read_single rfl (by decide) rfl (fun _ => rfl) (Predicate.read_toJson predicate h) rfl
  | .inject _, h => read_single rfl (by decide) rfl (fun _ => rfl) (list_values h) rfl
  | .fold, _ => read_tagged rfl (by simp) (Members.arranged_of_keys [] (by decide) rfl o) rfl rfl
  | .bind name continuation, h =>
    read_pair rfl (by decide) rfl (fun _ => rfl) rfl (Reading.string_ofJson o name)
      (readSequence_ofItems (readItems_ofItems continuation h)) rfl rfl
  | .project projection, _ =>
    read_single rfl (by decide) rfl (fun _ => rfl) (Projection.read_toJson projection) rfl
  | .limit count, _ => by
      refine read_single rfl (by decide) rfl (fun _ => rfl) (natural_count count) ?_
      rw [UInt64.ofNat_toNat]
      rfl
  | .drop, _ => read_tagged rfl (by simp) (Members.arranged_of_keys [] (by decide) rfl o) rfl rfl
termination_by structural step => step
theorem readItems_selector {m : Medium} : ∀ selector : Option (List Step),
    (∀ value ∈ selectorConstants selector, Reading.Keeps m o value) →
    ∀ steps ∈ selector, readItems (ofItems ((allToJson steps).map (·.arranged o))) m = .ok steps
  | none, _, _, hsteps => nomatch hsteps
  | some selected, h, steps, hsteps => by
      cases hsteps
      exact readItems_ofItems selected h
termination_by structural selector => selector
theorem readItems_ofItems {m : Medium} : ∀ steps : List Step,
    (∀ value ∈ constantsIn steps, Reading.Keeps m o value) →
    readItems (ofItems ((allToJson steps).map (·.arranged o))) m = .ok steps
  | [], _ => rfl
  | step :: rest, h => by
      have hstep := read_toJson (m := m) step fun value hvalue =>
        h value (List.mem_append_left _ hvalue)
      have hrest := readItems_ofItems (m := m) rest fun value hvalue =>
        h value (List.mem_append_right _ hvalue)
      rw [allToJson, List.map_cons, ofItems, readItems, hstep, ok_bind, hrest]
      rfl
termination_by structural steps => steps
end

end Step

end Wire

/-- Reading gives back what was written, as far as it stands on its own. -/
theorem CompiledTraversal.read_toJson {m : Medium} {o : Arrangement} {c : CompiledTraversal}
    (h : ∀ value ∈ Step.constantsIn c.steps, Reading.Keeps m o value) :
    CompiledTraversal.read m (ofJson (c.toJson.arranged o))
      = match Step.unboundIn? [] c.steps with
        | some name => .error (.unbound name)
        | none => .ok c := by
  have hsteps := Step.readSequence_ofItems (Step.readItems_ofItems c.steps h)
  have hread : Step.readSequence (ofJson (c.toJson.arranged o)) m = .ok c.steps := hsteps
  rw [CompiledTraversal.read, hread, ok_bind]
  cases Step.unboundIn? [] c.steps <;> rfl

theorem CompiledTraversal.ofJson_toJson (c : CompiledTraversal) :
    WireForm.ofJson CompiledTraversal c.toJson
      = match Step.unboundIn? [] c.steps with
        | some name => .error (.unbound name)
        | none => .ok c :=
  CompiledTraversal.read_toJson fun value _ => Reading.keeps_written rfl value

end PropertyGraph
