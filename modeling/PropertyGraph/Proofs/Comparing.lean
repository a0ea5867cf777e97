import PropertyGraph.Engine.Test
import PropertyGraph.Proofs.Rounding

/-!
# Tests of integers

A test of an integer against an integer goes by the floating point numbers nearest to the two. So its
answer is the exact one unless the two collide, and those that collide are large and close together.
-/

namespace PropertyGraph

open Binary64

/-- What a comparison says of two integers. One that is no list is the only member it has. -/
def Comparison.decides (c : Comparison) (x y : Int) : Bool :=
  match c with
  | eq | within => x == y
  | neq | without => x != y
  | lt => decide (x < y)
  | lte => decide (x ≤ y)
  | gt => decide (y < x)
  | gte => decide (y ≤ x)

/-- A test against a constant integer. -/
def Test.ofInt (c : Comparison) (y : Int) : Test BoundName := ⟨c, .constant (.int y)⟩

/-- A test against a constant list of integers. -/
def Test.ofInts (c : Comparison) (ys : List Int) : Test BoundName :=
  ⟨c, .constant (.arr (ys.map .int))⟩

section

variable (x y : Int)

theorem sameValue_ofInt : (ofInt x).sameValue (ofInt y) = (rounded x == rounded y) := by
  have hunit : (unitsPerOne : Int) ≠ 0 := Int.natCast_ne_zero.mpr (Nat.ne_of_gt unitsPerOne_pos)
  rw [Bool.eq_iff_iff, sameValue, beq_iff_eq, beq_iff_eq, units_ofInt, units_ofInt,
    Int.mul_eq_mul_right_iff hunit]

theorem compare_ofInt : (ofInt x).compare (ofInt y) = compare (rounded x) (rounded y) := by
  have hunit : (0 : Int) < unitsPerOne := Int.natCast_pos.mpr unitsPerOne_pos
  rw [Binary64.compare, units_ofInt, units_ofInt]
  rcases Int.lt_trichotomy (rounded x) (rounded y) with hlt | heq | hgt
  · rw [Int.compare_eq_lt.mpr hlt, Int.compare_eq_lt.mpr (Int.mul_lt_mul_of_pos_right hlt hunit)]
  · rw [heq, Int.compare_eq_eq.mpr rfl, Int.compare_eq_eq.mpr rfl]
  · rw [Int.compare_eq_gt.mpr hgt, Int.compare_eq_gt.mpr (Int.mul_lt_mul_of_pos_right hgt hunit)]

theorem same_int :
    Item.same (.value (.int x)) (.value (.int y)) = (rounded x == rounded y) :=
  sameValue_ofInt x y

theorem any_compare?_int (accept : Ordering → Bool) :
    (Item.compare? (.value (.int x)) (.value (.int y))).any accept =
      accept (compare (rounded x) (rounded y)) := by
  have hcompare : Item.compare? (.value (.int x)) (.value (.int y)) =
      some (compare (rounded x) (rounded y)) := congrArg some (compare_ofInt x y)
  rw [hcompare, Option.any_some]

theorem isWithin_int :
    Item.isWithin (.value (.int x)) (.value (.int y)) = (rounded x == rounded y) := by
  change List.any [.value (.int y)] (Item.same (.value (.int x))) = (rounded x == rounded y)
  rw [List.any_cons, List.any_nil, Bool.or_false, same_int]

theorem isWithin_ints (ys : List Int) :
    Item.isWithin (.value (.int x)) (.value (.arr (ys.map .int))) =
      (ys.map rounded).contains (rounded x) := by
  change ((ys.map Json.int).map Item.value).any (Item.same (.value (.int x))) = _
  rw [List.map_map, List.any_map, List.contains_eq_any_beq, List.any_map]
  exact congrArg ys.any (funext fun y => same_int x y)

variable (bindings : Bindings)

theorem holds_ofInt (c : Comparison) :
    (Test.ofInt c y).holds bindings (.value (.int x)) = .ok (c.decides (rounded x) (rounded y)) := by
  refine congrArg Except.ok ?_
  cases c with
  | eq => exact same_int x y
  | neq => exact congrArg (!·) (same_int x y)
  | lt =>
    refine (any_compare?_int x y (·.isLT)).trans (Bool.eq_iff_iff.mpr ?_)
    rw [Ordering.isLT_iff_eq_lt, Int.compare_eq_lt]
    exact decide_eq_true_iff.symm
  | lte =>
    refine (any_compare?_int x y (·.isLE)).trans (Bool.eq_iff_iff.mpr ?_)
    rw [Std.isLE_compare]
    exact decide_eq_true_iff.symm
  | gt =>
    refine (any_compare?_int x y (·.isGT)).trans (Bool.eq_iff_iff.mpr ?_)
    rw [Ordering.isGT_iff_eq_gt, Int.compare_eq_gt]
    exact decide_eq_true_iff.symm
  | gte =>
    refine (any_compare?_int x y (·.isGE)).trans (Bool.eq_iff_iff.mpr ?_)
    rw [Std.isGE_compare]
    exact decide_eq_true_iff.symm
  | within => exact isWithin_int x y
  | without => exact congrArg (!·) (isWithin_int x y)

theorem holds_within_ofInts (ys : List Int) :
    (Test.ofInts .within ys).holds bindings (.value (.int x)) =
      .ok ((ys.map rounded).contains (rounded x)) :=
  congrArg Except.ok (isWithin_ints x ys)

theorem holds_without_ofInts (ys : List Int) :
    (Test.ofInts .without ys).holds bindings (.value (.int x)) =
      .ok (!(ys.map rounded).contains (rounded x)) :=
  congrArg (fun answer => Except.ok (!answer)) (isWithin_ints x ys)

end

section

variable {x y : Int}

theorem decides_rounded (h : ¬Collide x y) (c : Comparison) :
    c.decides (rounded x) (rounded y) = c.decides x y := by
  have hback : ¬Collide y x := fun hcollide => h ⟨hcollide.1.symm, hcollide.2.symm⟩
  have heq : x = y ↔ rounded x = rounded y := eq_iff_rounded_eq h
  have hle : x ≤ y ↔ rounded x ≤ rounded y := le_iff_rounded_le h
  have hge : y ≤ x ↔ rounded y ≤ rounded x := le_iff_rounded_le hback
  rw [Bool.eq_iff_iff]
  cases c <;> simp only [Comparison.decides, beq_iff_eq, bne_iff_ne, decide_eq_true_eq] <;> omega

theorem decides_rounded_iff :
    (∀ c : Comparison, c.decides (rounded x) (rounded y) = c.decides x y) ↔ ¬Collide x y := by
  refine ⟨fun hexact hcollide => ?_, decides_rounded⟩
  have heq : (rounded x == rounded y) = (x == y) := hexact .eq
  rw [beq_iff_eq.mpr hcollide.2] at heq
  exact hcollide.1 (beq_iff_eq.mp heq.symm)

theorem contains_rounded_iff {ys : List Int} :
    (ys.map rounded).contains (rounded x) = ys.contains x ↔ x ∈ ys ∨ ∀ y ∈ ys, ¬Collide x y := by
  rw [Bool.eq_iff_iff, List.contains_iff_mem, List.contains_iff_mem]
  constructor
  · intro hexact
    by_cases hmem : x ∈ ys
    · exact .inl hmem
    · refine .inr fun y hy hcollide => hmem (hexact.mp ?_)
      rw [hcollide.2]
      exact List.mem_map_of_mem hy
  · intro hcase
    refine ⟨fun hrounded => ?_, List.mem_map_of_mem⟩
    rcases hcase with hmem | hnone
    · exact hmem
    · obtain ⟨y, hy, heq⟩ := List.mem_map.mp hrounded
      rwa [(eq_iff_rounded_eq (hnone y hy)).mpr heq.symm]

end

/-- The integers that a document can hold: those of either type of 64 bits. -/
def IsInteger64 (x : Int) : Prop :=
  Text.IntegerType.signed64.contains x ∨ Text.IntegerType.unsigned64.contains x

theorem IsInteger64.natAbs_lt {x : Int} (h : IsInteger64 x) : x.natAbs < 2 ^ 64 := by
  rcases h with h | h
  · obtain ⟨hmin, hmax⟩ := Bool.and_eq_true_iff.mp h
    have hlow : -9223372036854775808 ≤ x := of_decide_eq_true hmin
    have hhigh : x ≤ 9223372036854775807 := of_decide_eq_true hmax
    omega
  · obtain ⟨hmin, hmax⟩ := Bool.and_eq_true_iff.mp h
    have hlow : 0 ≤ x := of_decide_eq_true hmin
    have hhigh : x ≤ 18446744073709551615 := of_decide_eq_true hmax
    omega

theorem collide_bounds {x y : Int} (h : Collide x y) :
    2 ^ 53 ≤ x.natAbs ∧ 2 ^ 53 ≤ y.natAbs ∧
      (IsInteger64 x → IsInteger64 y → (x - y).natAbs ≤ 2 ^ 11) := by
  refine ⟨?_, ?_, fun hx hy => dist_le_of_collide h hx.natAbs_lt hy.natAbs_lt⟩
  · by_contra hsmall
    exact not_collide_of_lt (by omega) y h
  · by_contra hsmall
    exact not_collide_of_lt (by omega) x ⟨h.1.symm, h.2.symm⟩

/-- The answers of tests of an integer. Each goes by the floating point numbers nearest to the integers.
All tests against `y` are exact if and only if the two do not collide, and membership is if a member is the
integer itself or none collides with it. Collisions need integers of at least `2 ^ 53` on either side. -/
theorem integer_tests_go_by_nearest (bindings : Bindings) (x : Int) :
    (∀ c y, (Test.ofInt c y).holds bindings (.value (.int x)) =
      .ok (c.decides (rounded x) (rounded y))) ∧
    (∀ y, (∀ c, (Test.ofInt c y).holds bindings (.value (.int x)) = .ok (c.decides x y)) ↔
      ¬Collide x y) ∧
    (∀ ys, (Test.ofInts .within ys).holds bindings (.value (.int x)) =
        .ok ((ys.map rounded).contains (rounded x)) ∧
      (Test.ofInts .without ys).holds bindings (.value (.int x)) =
        .ok (!(ys.map rounded).contains (rounded x))) ∧
    (∀ ys, ((Test.ofInts .within ys).holds bindings (.value (.int x)) = .ok (ys.contains x) ∧
      (Test.ofInts .without ys).holds bindings (.value (.int x)) = .ok (!ys.contains x)) ↔
        x ∈ ys ∨ ∀ y ∈ ys, ¬Collide x y) ∧
    (∀ y, Collide x y → 2 ^ 53 ≤ x.natAbs ∧ 2 ^ 53 ≤ y.natAbs ∧
      (IsInteger64 x → IsInteger64 y → (x - y).natAbs ≤ 2 ^ 11)) := by
  refine ⟨fun c y => holds_ofInt x y bindings c, fun y => ?_,
    fun ys => ⟨holds_within_ofInts x bindings ys, holds_without_ofInts x bindings ys⟩, fun ys => ?_,
    fun y => collide_bounds⟩
  · simp only [holds_ofInt, Except.ok.injEq]
    exact decides_rounded_iff
  · simp only [holds_within_ofInts, holds_without_ofInts, Except.ok.injEq, Bool.not_inj_iff, and_self]
    exact contains_rounded_iff

/-- An integer that is equal to its successor, in the eyes of a test. -/
theorem successor_passes_for_equal :
    IsInteger64 9007199254740992 ∧ IsInteger64 9007199254740993 ∧
      (Test.ofInt .eq 9007199254740993).holds [] (.value (.int 9007199254740992)) = .ok true ∧
      Comparison.eq.decides 9007199254740992 9007199254740993 = false := by
  have hsame : rounded 9007199254740992 = rounded 9007199254740993 := by decide
  refine ⟨.inl rfl, .inl rfl, ?_, rfl⟩
  rw [holds_ofInt, hsame, Comparison.decides, beq_self_eq_true]

end PropertyGraph
