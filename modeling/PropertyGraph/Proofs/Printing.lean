import PropertyGraph.Proofs.Literals

/-!
# A printed value is read back

The compact text of a value has no blanks, and what stands behind a value is a comma, a closing bracket
or nothing. Reading it takes exactly the characters of the value, by mutual recursion on values, items
and members, with as much fuel as there are characters. Arrays and objects that stand too deep are read to
their end like others, and then have no value.
-/

namespace PropertyGraph

namespace Json

mutual
/-- The levels of arrays and objects within one another. -/
def nesting : Json → Nat
  | arr items => nestingOfItems items + 1
  | obj members => nestingOfMembers members + 1
  | _ => 0
termination_by structural value => value
def nestingOfItems : List Json → Nat
  | [] => 0
  | item :: rest => max (nesting item) (nestingOfItems rest)
termination_by structural items => items
def nestingOfMembers : List (String × Json) → Nat
  | [] => 0
  | (_, value) :: rest => max (nesting value) (nestingOfMembers rest)
termination_by structural members => members
end

mutual
/-- Every number is told by its text: an integer is one of 64 bits, with or without sign, and the text
of a floating point number is read as this number. -/
def Legible : Json → Prop
  | int i => Document.minInt ≤ i ∧ i ≤ Document.maxInt
  | float x => Document.readScalar 0 x.toText.toList = (.float x, some [])
  | arr items => LegibleItems items
  | obj members => LegibleMembers members
  | _ => True
termination_by structural value => value
def LegibleItems : List Json → Prop
  | [] => True
  | item :: rest => Legible item ∧ LegibleItems rest
termination_by structural items => items
def LegibleMembers : List (String × Json) → Prop
  | [] => True
  | (_, value) :: rest => Legible value ∧ LegibleMembers rest
termination_by structural members => members
end

end Json

namespace Document

mutual
/-- What is read from the text of a value that stands at some depth: arrays and objects beyond the limit
have no value, and all else is as it was. -/
def cut : Nat → Json → Document
  | depth, .arr items => if depth < maxDepth then arr (cutItems (depth + 1) items) true else valueless
  | depth, .obj members =>
    if depth < maxDepth then obj (cutMembers (depth + 1) members) true else valueless
  | _, .null => null
  | _, .bool b => bool b
  | _, .int i => int i
  | _, .float x => float x
  | _, .str s => str s
termination_by structural _ value => value
def cutItems : Nat → List Json → List Document
  | _, [] => []
  | depth, item :: rest => cut depth item :: cutItems depth rest
termination_by structural _ items => items
def cutMembers : Nat → List (String × Json) → List (String × Document)
  | _, [] => []
  | depth, (key, value) :: rest => (key, cut depth value) :: cutMembers depth rest
termination_by structural _ members => members
end

mutual
/-- Nothing is cut off where the limit is not reached. -/
theorem cut_eq_ofJson : ∀ (value : Json) {depth : Nat}, depth + value.nesting ≤ maxDepth →
    cut depth value = ofJson value
  | .null, _, _ | .bool _, _, _ | .int _, _, _ | .float _, _, _ | .str _, _, _ => rfl
  | .arr items, depth, h => by
      rw [Json.nesting] at h
      rw [cut, if_pos (by omega), cutItems_eq_ofItems items (by omega), ofJson]
  | .obj members, depth, h => by
      rw [Json.nesting] at h
      rw [cut, if_pos (by omega), cutMembers_eq_ofMembers members (by omega), ofJson]
theorem cutItems_eq_ofItems : ∀ (items : List Json) {depth : Nat},
    depth + Json.nestingOfItems items ≤ maxDepth → cutItems depth items = ofItems items
  | [], _, _ => rfl
  | item :: rest, depth, h => by
      rw [Json.nestingOfItems] at h
      rw [cutItems, cut_eq_ofJson item (by omega), cutItems_eq_ofItems rest (by omega), ofItems]
theorem cutMembers_eq_ofMembers : ∀ (members : List (String × Json)) {depth : Nat},
    depth + Json.nestingOfMembers members ≤ maxDepth → cutMembers depth members = ofMembers members
  | [], _, _ => rfl
  | (_, value) :: rest, depth, h => by
      rw [Json.nestingOfMembers] at h
      rw [cutMembers, cut_eq_ofJson value (by omega), cutMembers_eq_ofMembers rest (by omega),
        ofMembers]
end

theorem cutItems_eq_map (depth : Nat) (items : List Json) :
    cutItems depth items = items.map (cut depth) := by
  induction items with
  | nil => rfl
  | cons item rest ih => rw [cutItems, ih, List.map_cons]

theorem cutMembers_eq_map (depth : Nat) (members : List (String × Json)) :
    cutMembers depth members = members.map fun p => (p.1, cut depth p.2) := by
  induction members with
  | nil => rfl
  | cons p rest ih => rw [cutMembers, ih, List.map_cons]

mutual
/-- A piece with a value is not too deep. -/
theorem nesting_le_of_toJson? : ∀ (value : Json) {depth : Nat} {read : Json}, depth ≤ maxDepth →
    (cut depth value).toJson? = some read → depth + value.nesting ≤ maxDepth
  | .null, _, _, hdepth, _ | .bool _, _, _, hdepth, _ | .int _, _, _, hdepth, _
  | .float _, _, _, hdepth, _ | .str _, _, _, hdepth, _ => hdepth
  | .arr items, depth, read, hdepth, h => by
      rw [cut] at h
      split at h
      · next hlt =>
          rw [toJson?, if_pos rfl] at h
          obtain ⟨values, hvalues, -⟩ := Option.map_eq_some_iff.mp h
          have hitems := nesting_le_of_itemsToJson? items hlt hvalues
          rw [Json.nesting]
          omega
      · cases h
  | .obj members, depth, read, hdepth, h => by
      rw [cut] at h
      split at h
      · next hlt =>
          rw [toJson?, if_pos rfl] at h
          obtain ⟨values, hvalues, -⟩ := Option.map_eq_some_iff.mp h
          have hmembers := nesting_le_of_membersToJson? members hlt hvalues
          rw [Json.nesting]
          omega
      · cases h
theorem nesting_le_of_itemsToJson? : ∀ (items : List Json) {depth : Nat} {values : List Json},
    depth ≤ maxDepth → itemsToJson? (cutItems depth items) = some values →
    depth + Json.nestingOfItems items ≤ maxDepth
  | [], _, _, hdepth, _ => hdepth
  | item :: rest, depth, values, hdepth, h => by
      obtain ⟨value, hvalue, h⟩ := Option.bind_eq_some_iff.mp h
      obtain ⟨others, hothers, -⟩ := Option.map_eq_some_iff.mp h
      have hitem := nesting_le_of_toJson? item hdepth hvalue
      have hrest := nesting_le_of_itemsToJson? rest hdepth hothers
      rw [Json.nestingOfItems]
      omega
theorem nesting_le_of_membersToJson? : ∀ (members : List (String × Json)) {depth : Nat}
    {values : List (String × Json)}, depth ≤ maxDepth →
    membersToJson? (cutMembers depth members) = some values →
    depth + Json.nestingOfMembers members ≤ maxDepth
  | [], _, _, hdepth, _ => hdepth
  | (key, value) :: rest, depth, values, hdepth, h => by
      obtain ⟨read, hread, h⟩ := Option.bind_eq_some_iff.mp h
      obtain ⟨others, hothers, -⟩ := Option.map_eq_some_iff.mp h
      have hvalue := nesting_le_of_toJson? value hdepth hread
      have hrest := nesting_le_of_membersToJson? rest hdepth hothers
      rw [Json.nestingOfMembers]
      omega
end

/-- How the text of a value starts: not with a blank, and not as an array or object ends. -/
def Opens (cs : List Char) : Prop :=
  ∃ c rest, cs = c :: rest ∧ isBlank c = false ∧ c ≠ ']' ∧ c ≠ '\x7d'

theorem opens_of_isDigit {c : Char} {cs : List Char} (h : c.isDigit = true) : Opens (c :: cs) := by
  refine ⟨c, cs, rfl, ?_, ?_, ?_⟩
  · rw [isBlank]
    simp only [Bool.or_eq_false_iff, beq_eq_false_iff_ne]
    refine ⟨⟨⟨?_, ?_⟩, ?_⟩, ?_⟩ <;> (rintro rfl; cases h)
  · rintro rfl
    cases h
  · rintro rfl
    cases h

theorem IsNumeral.opens {cs : List Char} {value : Document} (h : IsNumeral cs value) :
    Opens cs := by
  rcases h with h | ⟨digits, rfl, -⟩
  · obtain ⟨c, rest, rfl, hdigit⟩ := isDigit_of_readNumber h
    exact opens_of_isDigit hdigit
  · exact ⟨'-', digits, rfl, by decide, by decide, by decide⟩

theorem isNumeral_int {i : Int} (h : (Json.int i).Legible) :
    IsNumeral (Json.int i).compact.toList (.int i) := isNumeral_toString h.1 h.2

theorem isNumeral_float {x : Binary64} (h : (Json.float x).Legible) :
    IsNumeral (Json.float x).compact.toList (.float x) := isNumeral_of_readScalar h

theorem opens_compact {value : Json} (h : value.Legible) : Opens value.compact.toList := by
  cases value with
  | null => exact ⟨'n', _, rfl, by decide, by decide, by decide⟩
  | bool b => cases b <;> exact ⟨_, _, rfl, by decide, by decide, by decide⟩
  | int i => exact (isNumeral_int h).opens
  | float x => exact (isNumeral_float h).opens
  | str s =>
      have htext : (Json.str s).compact = Json.quote s := rfl
      rw [htext, toList_quote]
      exact ⟨'"', _, rfl, by decide, by decide, by decide⟩
  | arr items =>
      rw [Json.compact, String.toList_append, String.toList_append]
      exact ⟨'[', _, rfl, by decide, by decide, by decide⟩
  | obj members =>
      rw [Json.compact, String.toList_append, String.toList_append]
      exact ⟨'\x7b', _, rfl, by decide, by decide, by decide⟩

theorem skipBlank_of_opens {cs : List Char} (h : Opens cs) (rest : List Char) :
    skipBlank (cs ++ rest) = cs ++ rest := by
  obtain ⟨c, tail, rfl, hblank, -, -⟩ := h
  rw [skipBlank, List.cons_append, List.dropWhile_cons_of_neg (by simp [hblank])]

theorem IsNumeral.readValue_append {cs rest : List Char} {value : Document} {fuel depth : Nat}
    (h : IsNumeral cs value) (hrest : Delimited rest) (hfuel : cs.length ≤ fuel) :
    readValue fuel depth (cs ++ rest) = (value, some rest) := by
  have hread := h.readScalar_append hrest
  have hskip := skipBlank_of_opens h.opens rest
  have hhead : ∃ c tail, cs = c :: tail ∧ (c.isDigit = true ∨ c = '-') := by
    rcases h with h | ⟨digits, rfl, -⟩
    · obtain ⟨c, tail, rfl, hdigit⟩ := isDigit_of_readNumber h
      exact ⟨c, tail, rfl, .inl hdigit⟩
    · exact ⟨'-', digits, rfl, .inr rfl⟩
  obtain ⟨c, tail, rfl, hc⟩ := hhead
  obtain ⟨fuel, rfl⟩ := Nat.exists_eq_add_one_of_ne_zero (Nat.ne_of_gt (Nat.zero_lt_of_lt hfuel))
  rw [readValue.eq_def, hskip, ← hread fuel]
  split
  · next heq => cases heq
  · next heq =>
      cases heq
      rcases hc with hc | hc <;> cases hc
  · next heq =>
      cases heq
      rcases hc with hc | hc <;> cases hc
  · next heq _ _ =>
      cases heq
      rfl

theorem readString_quote {s : String} {fuel : Nat} (h : (Json.quote s).toList.length ≤ fuel + 1)
    (rest : List Char) :
    readString fuel (s.toList.flatMap (fun c => (Json.escapeChar c).toList) ++ '"' :: rest) (some [])
      = some (some s, rest) := by
  have hlength : ∀ cs : List Char,
      cs.length ≤ (cs.flatMap fun c => (Json.escapeChar c).toList).length := by
    intro cs
    induction cs with
    | nil => simp
    | cons c cs ih =>
        have hc : 1 ≤ (Json.escapeChar c).toList.length := by
          unfold Json.escapeChar
          split
          all_goals try decide
          split <;> simp
        simp only [List.flatMap_cons, List.length_append, List.length_cons]
        omega
  have hs := hlength s.toList
  simp only [toList_quote, List.length_append, List.length_cons, List.length_nil] at h
  rw [readString_flatMap s.toList (by omega)]
  simp

theorem readValue_str {s : String} {fuel depth : Nat} {rest : List Char}
    (h : (Json.quote s).toList.length ≤ fuel) :
    readValue fuel depth ((Json.quote s).toList ++ rest) = (str s, some rest) := by
  have hpos : 0 < fuel := Nat.lt_of_lt_of_le (by rw [toList_quote]; simp) h
  obtain ⟨fuel, rfl⟩ := Nat.exists_eq_add_one_of_ne_zero (Nat.ne_of_gt hpos)
  have hread := readString_quote h rest
  have hvalue : ∀ tail, readValue (fuel + 1) depth ('"' :: tail) = readScalar fuel ('"' :: tail) :=
    fun _ => rfl
  rw [toList_quote, List.append_assoc, List.cons_append, hvalue, readScalar, List.singleton_append,
    hread]

theorem delimited_cons {c : Char} {rest : List Char} (h : c = ',' ∨ c = ']' ∨ c = '\x7d') :
    Delimited (c :: rest) := by
  intro d hd
  cases hd
  rcases h with rfl | rfl | rfl <;> decide

section Steps

variable {fuel depth : Nat} {cs rest : List Char}

theorem readItems_last {before : List Document} {item : Document}
    (h : readValue fuel depth cs = (item, some (']' :: rest))) :
    readItems (fuel + 1) depth before cs = (arr (item :: before).reverse true, some rest) := by
  have hskip : skipBlank (']' :: rest) = ']' :: rest := rfl
  simp only [readItems, h, hskip]

theorem readItems_next {before : List Document} {item : Document}
    (h : readValue fuel depth cs = (item, some (',' :: rest))) :
    readItems (fuel + 1) depth before cs = readItems fuel depth (item :: before) rest := by
  have hskip : skipBlank (',' :: rest) = ',' :: rest := rfl
  simp only [readItems, h, hskip]

theorem readMembers_last {before : List (String × Document)} {key : String} {value : Document}
    (hkey : (Json.quote key).toList.length ≤ fuel + 1)
    (h : readValue fuel depth cs = (value, some ('\x7d' :: rest))) :
    readMembers (fuel + 1) depth before ((Json.quote key).toList ++ ':' :: cs)
      = (obj ((key, value) :: before).reverse true, some rest) := by
  have hread := readString_quote hkey (':' :: cs)
  have hquote : ∀ tail, skipBlank ('"' :: tail) = '"' :: tail := fun _ => rfl
  have hcolon : skipBlank (':' :: cs) = ':' :: cs := rfl
  have hskip : skipBlank ('\x7d' :: rest) = '\x7d' :: rest := rfl
  rw [toList_quote, List.append_assoc, List.cons_append, List.singleton_append, readMembers.eq_def,
    hquote]
  simp only [hread, hcolon, h, hskip]

theorem readMembers_next {before : List (String × Document)} {key : String} {value : Document}
    (hkey : (Json.quote key).toList.length ≤ fuel + 1)
    (h : readValue fuel depth cs = (value, some (',' :: rest))) :
    readMembers (fuel + 1) depth before ((Json.quote key).toList ++ ':' :: cs)
      = readMembers fuel depth ((key, value) :: before) rest := by
  have hread := readString_quote hkey (':' :: cs)
  have hquote : ∀ tail, skipBlank ('"' :: tail) = '"' :: tail := fun _ => rfl
  have hcolon : skipBlank (':' :: cs) = ':' :: cs := rfl
  have hskip : skipBlank (',' :: rest) = ',' :: rest := rfl
  rw [toList_quote, List.append_assoc, List.cons_append, List.singleton_append, readMembers.eq_def,
    hquote]
  simp only [hread, hcolon, h, hskip]

end Steps

theorem Opens.append {cs : List Char} (h : Opens cs) (rest : List Char) : Opens (cs ++ rest) := by
  obtain ⟨c, tail, rfl, hc⟩ := h
  exact ⟨c, tail ++ rest, rfl, hc⟩

theorem opens_quote (key : String) : Opens (Json.quote key).toList := by
  rw [toList_quote]
  exact ⟨'"', _, rfl, by decide, by decide, by decide⟩

theorem opens_compactItems {items : List Json} (hne : items ≠ []) (h : Json.LegibleItems items) :
    Opens (Json.compactItems items).toList := by
  match items, hne, h with
  | [item], _, h => exact opens_compact h.1
  | item :: next :: rest, _, h =>
      rw [Json.compactItems, String.toList_append, String.toList_append]
      · exact ((opens_compact h.1).append _).append _
      · simp

theorem opens_compactMembers {members : List (String × Json)} (hne : members ≠ []) :
    Opens (Json.compactMembers members).toList := by
  match members, hne with
  | [(key, value)], _ =>
      rw [Json.compactMembers]
      simp only [String.toList_append]
      exact ((opens_quote key).append _).append _
  | (key, value) :: next :: rest, _ =>
      rw [Json.compactMembers]
      · simp only [String.toList_append, List.append_assoc]
        exact (opens_quote key).append _
      · simp

/-- An array that is not empty is read behind its bracket. -/
theorem readValue_bracket {fuel depth : Nat} {cs : List Char} (hopens : Opens cs) :
    readValue (fuel + 1) depth ('[' :: cs)
      = limitDepth depth (readItems fuel (depth + 1) [] cs) := by
  have hskip := skipBlank_of_opens hopens []
  have hbracket : skipBlank ('[' :: cs) = '[' :: cs := rfl
  rw [List.append_nil] at hskip
  obtain ⟨c, tail, rfl, -, hclose, -⟩ := hopens
  rw [readValue.eq_def, hbracket]
  simp only [hskip]
  split
  · next heq =>
      cases heq
      exact absurd rfl hclose
  · rfl

theorem readValue_brace {fuel depth : Nat} {cs : List Char} (hopens : Opens cs) :
    readValue (fuel + 1) depth ('\x7b' :: cs)
      = limitDepth depth (readMembers fuel (depth + 1) [] cs) := by
  have hskip := skipBlank_of_opens hopens []
  have hbrace : skipBlank ('\x7b' :: cs) = '\x7b' :: cs := rfl
  rw [List.append_nil] at hskip
  obtain ⟨c, tail, rfl, -, -, hclose⟩ := hopens
  rw [readValue.eq_def, hbrace]
  simp only [hskip]
  split
  · next heq =>
      cases heq
      exact absurd rfl hclose
  · rfl

theorem limitDepth_arr (depth : Nat) (items : List Json) (rest : List Char) :
    limitDepth depth (arr (cutItems (depth + 1) items) true, some rest)
      = (cut depth (.arr items), some rest) := by
  rw [limitDepth, cut]
  split <;> rfl

theorem limitDepth_obj (depth : Nat) (members : List (String × Json)) (rest : List Char) :
    limitDepth depth (obj (cutMembers (depth + 1) members) true, some rest)
      = (cut depth (.obj members), some rest) := by
  rw [limitDepth, cut]
  split <;> rfl

theorem toList_compact_arr (items : List Json) :
    (Json.arr items).compact.toList = '[' :: ((Json.compactItems items).toList ++ [']']) := by
  rw [Json.compact, String.toList_append, String.toList_append]
  rfl

theorem toList_compact_obj (members : List (String × Json)) :
    (Json.obj members).compact.toList
      = '\x7b' :: ((Json.compactMembers members).toList ++ ['\x7d']) := by
  rw [Json.compact, String.toList_append, String.toList_append]
  rfl

theorem toList_compactItems_cons (item next : Json) (items : List Json) :
    (Json.compactItems (item :: next :: items)).toList
      = item.compact.toList ++ ',' :: (Json.compactItems (next :: items)).toList := by
  have hcompact : Json.compactItems (item :: next :: items)
      = item.compact ++ "," ++ Json.compactItems (next :: items) := rfl
  rw [hcompact, String.toList_append, String.toList_append, List.append_assoc]
  rfl

theorem toList_compactMembers_singleton (key : String) (value : Json) :
    (Json.compactMembers [(key, value)]).toList
      = (Json.quote key).toList ++ ':' :: value.compact.toList := by
  rw [Json.compactMembers, String.toList_append, String.toList_append, List.append_assoc]
  rfl

theorem toList_compactMembers_cons (key : String) (value : Json) (next : String × Json)
    (members : List (String × Json)) :
    (Json.compactMembers ((key, value) :: next :: members)).toList
      = (Json.quote key).toList ++ ':' :: (value.compact.toList
        ++ ',' :: (Json.compactMembers (next :: members)).toList) := by
  have hcompact : Json.compactMembers ((key, value) :: next :: members)
      = Json.quote key ++ ":" ++ value.compact ++ "," ++ Json.compactMembers (next :: members) := rfl
  simp only [hcompact, String.toList_append, List.append_assoc]
  rfl

mutual
/-- Reading takes the characters of a value and leaves what stands behind it. -/
theorem readValue_compact : ∀ (value : Json) {fuel depth : Nat} {rest : List Char},
    value.Legible → value.compact.toList.length ≤ fuel → Delimited rest →
    readValue fuel depth (value.compact.toList ++ rest) = (cut depth value, some rest)
  | .null, fuel + 1, depth, rest, _, _, _ => rfl
  | .bool true, fuel + 1, depth, rest, _, _, _ => rfl
  | .bool false, fuel + 1, depth, rest, _, _, _ => rfl
  | .int i, fuel, depth, rest, hlegible, hfuel, hrest =>
      (isNumeral_int hlegible).readValue_append hrest hfuel
  | .float x, fuel, depth, rest, hlegible, hfuel, hrest =>
      (isNumeral_float hlegible).readValue_append hrest hfuel
  | .str s, fuel, depth, rest, _, hfuel, _ => readValue_str hfuel
  | .arr items, fuel, depth, rest, hlegible, hfuel, _ => by
      rw [toList_compact_arr] at hfuel ⊢
      simp only [List.length_cons, List.length_append, List.length_nil] at hfuel
      obtain ⟨fuel, rfl⟩ := Nat.exists_eq_add_one_of_ne_zero (Nat.ne_of_gt (Nat.zero_lt_of_lt hfuel))
      rw [List.cons_append, List.append_assoc, List.singleton_append, ← limitDepth_arr]
      by_cases hempty : items = []
      · rw [hempty]
        rfl
      · have hitems : readItems fuel (depth + 1) [] ((Json.compactItems items).toList ++ ']' :: rest)
            = (arr (cutItems (depth + 1) items) true, some rest) :=
          readItems_compact items hempty hlegible (by omega)
        have hopens := (opens_compactItems hempty hlegible).append (']' :: rest)
        rw [readValue_bracket hopens, hitems]
  | .obj members, fuel, depth, rest, hlegible, hfuel, _ => by
      rw [toList_compact_obj] at hfuel ⊢
      simp only [List.length_cons, List.length_append, List.length_nil] at hfuel
      obtain ⟨fuel, rfl⟩ := Nat.exists_eq_add_one_of_ne_zero (Nat.ne_of_gt (Nat.zero_lt_of_lt hfuel))
      rw [List.cons_append, List.append_assoc, List.singleton_append, ← limitDepth_obj]
      by_cases hempty : members = []
      · rw [hempty]
        rfl
      · have hmembers : readMembers fuel (depth + 1) []
              ((Json.compactMembers members).toList ++ '\x7d' :: rest)
            = (obj (cutMembers (depth + 1) members) true, some rest) :=
          readMembers_compact members hempty hlegible (by omega)
        have hopens := (opens_compactMembers hempty).append ('\x7d' :: rest)
        rw [readValue_brace hopens, hmembers]
termination_by structural value => value
/-- The items of an array from one on. -/
theorem readItems_compact : ∀ (items : List Json) {fuel depth : Nat} {before : List Document}
    {rest : List Char}, items ≠ [] → Json.LegibleItems items →
    (Json.compactItems items).toList.length < fuel →
    readItems fuel depth before ((Json.compactItems items).toList ++ ']' :: rest)
      = (arr (before.reverse ++ cutItems depth items) true, some rest)
  | [], _, _, _, _, hne, _, _ => absurd rfl hne
  | [item], fuel + 1, depth, before, rest, _, hlegible, hfuel => by
      rw [Json.compactItems] at hfuel ⊢
      have hitem : readValue fuel depth (item.compact.toList ++ ']' :: rest)
          = (cut depth item, some (']' :: rest)) :=
        readValue_compact item hlegible.1 (by omega) (delimited_cons (.inr (.inl rfl)))
      rw [readItems_last hitem]
      simp [cutItems]
  | item :: next :: items, fuel + 1, depth, before, rest, _, hlegible, hfuel => by
      rw [toList_compactItems_cons] at hfuel ⊢
      simp only [List.length_append, List.length_cons] at hfuel
      rw [List.append_assoc, List.cons_append]
      generalize htail : (Json.compactItems (next :: items)).toList ++ ']' :: rest = tail
      have hitem : readValue fuel depth (item.compact.toList ++ ',' :: tail)
          = (cut depth item, some (',' :: tail)) :=
        readValue_compact item hlegible.1 (by omega) (delimited_cons (.inl rfl))
      have hitems : readItems fuel depth (cut depth item :: before) tail
          = (arr ((cut depth item :: before).reverse ++ cutItems depth (next :: items)) true,
              some rest) :=
        htail ▸ readItems_compact (next :: items) (by simp) hlegible.2 (by omega)
      rw [readItems_next hitem, hitems]
      simp [cutItems]
termination_by structural items => items
/-- The members of an object from one on. -/
theorem readMembers_compact : ∀ (members : List (String × Json)) {fuel depth : Nat}
    {before : List (String × Document)} {rest : List Char}, members ≠ [] →
    Json.LegibleMembers members → (Json.compactMembers members).toList.length < fuel →
    readMembers fuel depth before ((Json.compactMembers members).toList ++ '\x7d' :: rest)
      = (obj (before.reverse ++ cutMembers depth members) true, some rest)
  | [], _, _, _, _, hne, _, _ => absurd rfl hne
  | [(key, value)], fuel + 1, depth, before, rest, _, hlegible, hfuel => by
      rw [toList_compactMembers_singleton] at hfuel ⊢
      simp only [List.length_append, List.length_cons] at hfuel
      have hvalue : readValue fuel depth (value.compact.toList ++ '\x7d' :: rest)
          = (cut depth value, some ('\x7d' :: rest)) :=
        readValue_compact value hlegible.1 (by omega) (delimited_cons (.inr (.inr rfl)))
      rw [List.append_assoc, List.cons_append, readMembers_last (by omega) hvalue]
      simp [cutMembers]
  | (key, value) :: next :: members, fuel + 1, depth, before, rest, _, hlegible, hfuel => by
      rw [toList_compactMembers_cons] at hfuel ⊢
      simp only [List.length_append, List.length_cons] at hfuel
      rw [List.append_assoc, List.cons_append, List.append_assoc, List.cons_append]
      generalize htail : (Json.compactMembers (next :: members)).toList ++ '\x7d' :: rest = tail
      have hvalue : readValue fuel depth (value.compact.toList ++ ',' :: tail)
          = (cut depth value, some (',' :: tail)) :=
        readValue_compact value hlegible.1 (by omega) (delimited_cons (.inl rfl))
      have hmembers : readMembers fuel depth ((key, cut depth value) :: before) tail
          = (obj (((key, cut depth value) :: before).reverse ++ cutMembers depth (next :: members))
              true, some rest) :=
        htail ▸ readMembers_compact (next :: members) (by simp) hlegible.2 (by omega)
      rw [readMembers_next (by omega) hvalue, hmembers]
      simp [cutMembers]
termination_by structural members => members
end

/-- The text of a value is read whole, and what is too deep in it has no value. -/
theorem ofText_compact_cut {value : Json} (hlegible : value.Legible) :
    ofText value.compact = (cut 0 value, true) := by
  have hread : readValue (2 * value.compact.toList.length + 2) 0 (value.compact.toList ++ [])
      = (cut 0 value, some []) :=
    readValue_compact value hlegible (by omega) (by intro c hc; cases hc)
  rw [List.append_nil] at hread
  rw [ofText]
  simp only [hread]
  rfl

/-- A printed value is read back where its numbers are told by their text and it is not nested too
deeply. -/
theorem ofText_compact {value : Json} (hlegible : value.Legible)
    (hnesting : value.nesting ≤ maxDepth) : ofText value.compact = (ofJson value, true) := by
  rw [ofText_compact_cut hlegible, cut_eq_ofJson value (by omega)]

end Document

end PropertyGraph
