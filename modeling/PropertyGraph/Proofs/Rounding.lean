import Mathlib.Tactic.Ring
import PropertyGraph.Number.Binary64

/-!
# Integers as floating point numbers

An integer has a nearest floating point number, which up to `2 ^ 53` is the integer itself. Past that the
floating point numbers are the multiples of a power of two, and an integer between two of them goes to the
nearer one, or halfway to the one whose significand is even. So rounding never reverses the order of two
integers, but it takes integers that are close together to one number.
-/

namespace PropertyGraph.Binary64

section Quotients

variable {a b d : Nat}

theorem divNearest_cases (a d : Nat) :
    divNearest a d = a / d ∧ 2 * (a % d) ≤ d ∨ divNearest a d = a / d + 1 ∧ d ≤ 2 * (a % d) := by
  unfold divNearest
  dsimp only
  split
  · rename_i hup
    simp only [Bool.or_eq_true, decide_eq_true_eq, Bool.and_eq_true, beq_iff_eq] at hup
    exact .inr ⟨rfl, by omega⟩
  · rename_i hdown
    simp only [Bool.or_eq_true, decide_eq_true_eq, Bool.and_eq_true, beq_iff_eq] at hdown
    exact .inl ⟨rfl, by omega⟩

theorem divNearest_mono (d : Nat) (h : a ≤ b) : divNearest a d ≤ divNearest b d := by
  have ha := divNearest_cases a d
  have hb := divNearest_cases b d
  have hquotient : a / d ≤ b / d := Nat.div_le_div_right h
  by_cases heq : a / d = b / d
  · have hremainder : a % d ≤ b % d := by
      have hadd := Nat.div_add_mod a d
      have hbdd := Nat.div_add_mod b d
      rw [heq] at hadd
      omega
    unfold divNearest
    dsimp only
    rw [heq]
    simp only [Bool.or_eq_true, decide_eq_true_eq, Bool.and_eq_true, beq_iff_eq]
    split <;> split <;> omega
  · omega

theorem divNearest_mul_self (hd : 0 < d) (k : Nat) : divNearest (k * d) d = k := by
  have hcases := divNearest_cases (k * d) d
  rw [Nat.mul_div_cancel k hd, Nat.mul_mod_left] at hcases
  omega

theorem divNearest_mul_mul (a d : Nat) {c : Nat} (hc : 0 < c) :
    divNearest (a * c) (d * c) = divNearest a d := by
  have hdouble : 2 * (a % d * c) = 2 * (a % d) * c := (Nat.mul_assoc ..).symm
  have hgt : 2 * (a % d) * c > d * c ↔ 2 * (a % d) > d := Nat.mul_lt_mul_right hc
  have heq : 2 * (a % d) * c = d * c ↔ 2 * (a % d) = d := Nat.mul_left_inj (Nat.ne_of_gt hc)
  simp only [divNearest, Nat.mul_div_mul_right _ _ hc, Nat.mul_mod_mul_right, hdouble, Bool.or_eq_true,
    decide_eq_true_eq, Bool.and_eq_true, beq_iff_eq, hgt, heq]

/-- The nearest multiple is at most half a step away. -/
theorem two_mul_dist_divNearest_le (hd : 0 < d) (a : Nat) :
    2 * a ≤ 2 * (divNearest a d * d) + d ∧ 2 * (divNearest a d * d) ≤ 2 * a + d := by
  have hdivision := Nat.div_add_mod a d
  have hremainder := Nat.mod_lt a hd
  rw [Nat.mul_comm] at hdivision
  have hsucc : (a / d + 1) * d = a / d * d + d := Nat.succ_mul ..
  rcases divNearest_cases a d with ⟨heq, hle⟩ | ⟨heq, hle⟩
  · rw [heq]
    omega
  · rw [heq, hsucc]
    omega

end Quotients

/-- The distance of neighbouring floating point numbers in the binade of a natural number, where it is
not less than one. -/
def spacing (n : Nat) : Nat := 2 ^ (n.log2 - 52)

/-- The value of the floating point number that is nearest to a natural number. -/
def nearest (n : Nat) : Nat := divNearest n (spacing n) * spacing n

section Nearest

variable {n m : Nat}

theorem spacing_pos (n : Nat) : 0 < spacing n := Nat.two_pow_pos _

theorem spacing_of_lt (h : n < 2 ^ 53) : spacing n = 1 := by
  by_cases hn : n = 0
  · subst hn
    rfl
  · have hlog : n.log2 < 53 := (Nat.log2_lt hn).mpr h
    have hexponent : n.log2 - 52 = 0 := by omega
    rw [spacing, hexponent, Nat.pow_zero]

theorem nearest_zero : nearest 0 = 0 := rfl

theorem nearest_of_le (h : n ≤ 2 ^ 53) : nearest n = n := by
  by_cases heq : n = 2 ^ 53
  · subst heq
    decide
  · have hone : spacing n = 1 := spacing_of_lt (by omega)
    have hself := divNearest_mul_self Nat.one_pos n
    rw [Nat.mul_one] at hself
    rw [nearest, hone, Nat.mul_one, hself]

/-- Rounding up leads at most to the next power of two. -/
theorem nearest_le_of_lt_two_pow {k : Nat} (h : n < 2 ^ k) : nearest n ≤ 2 ^ k := by
  by_cases hn : n = 0
  · subst hn
    exact Nat.zero_le _
  · have hlog : n.log2 < k := (Nat.log2_lt hn).mpr h
    have hpower : 2 ^ (k - (n.log2 - 52)) * spacing n = 2 ^ k := by
      rw [spacing, ← Nat.pow_add]
      congr 1
      omega
    calc nearest n
        ≤ divNearest (2 ^ (k - (n.log2 - 52)) * spacing n) (spacing n) * spacing n :=
          Nat.mul_le_mul_right _ (divNearest_mono _ (by omega))
      _ = 2 ^ k := by rw [divNearest_mul_self (spacing_pos n), hpower]

theorem two_pow_log2_le_nearest (hn : n ≠ 0) : 2 ^ n.log2 ≤ nearest n := by
  have hlow : 2 ^ n.log2 ≤ n := Nat.log2_self_le hn
  have hpower : 2 ^ (n.log2 - (n.log2 - 52)) * spacing n = 2 ^ n.log2 := by
    rw [spacing, ← Nat.pow_add, Nat.sub_add_cancel (Nat.sub_le ..)]
  calc 2 ^ n.log2
      = divNearest (2 ^ (n.log2 - (n.log2 - 52)) * spacing n) (spacing n) * spacing n := by
        rw [divNearest_mul_self (spacing_pos n), hpower]
    _ ≤ nearest n := Nat.mul_le_mul_right _ (divNearest_mono _ (by omega))

theorem nearest_mono (h : n ≤ m) : nearest n ≤ nearest m := by
  by_cases hm : m = 0
  · subst hm
    rw [Nat.le_zero.mp h]
  · have hbelow : n < 2 ^ (n.log2 + 1) := Nat.lt_log2_self
    by_cases heq : n.log2 = m.log2
    · have hspacing : spacing n = spacing m := by rw [spacing, heq, spacing]
      rw [nearest, nearest, hspacing]
      exact Nat.mul_le_mul_right _ (divNearest_mono _ h)
    · have hlog : n.log2 + 1 ≤ m.log2 := by
        have hle : n.log2 ≤ m.log2 := by
          by_cases hn : n = 0
          · subst hn
            exact Nat.zero_le _
          · exact (Nat.le_log2 hm).mpr (Nat.le_trans (Nat.log2_self_le hn) h)
        omega
      calc nearest n ≤ 2 ^ (n.log2 + 1) := nearest_le_of_lt_two_pow hbelow
        _ ≤ 2 ^ m.log2 := Nat.pow_le_pow_right (by decide) hlog
        _ ≤ nearest m := two_pow_log2_le_nearest hm

end Nearest

/-- A magnitude is put together from its significand and its exponent. A significand of `2 ^ 53` carries
into the exponent. -/
theorem absUnits_of_significand {negative : Bool} {shift significand : Nat}
    (hlow : 2 ^ 52 ≤ significand) (hhigh : significand ≤ 2 ^ 53) :
    absUnits ⟨negative, shift * fractionSpan + significand⟩ = significand * 2 ^ shift := by
  have hspan : fractionSpan = 2 ^ 52 := rfl
  have hpos : 0 < 2 ^ 52 := Nat.two_pow_pos 52
  simp only [absUnits, Binary64.significand, scale, exponentField, hspan]
  rw [Nat.add_comm, Nat.add_mul_div_right _ _ hpos, Nat.add_mul_mod_self_right]
  by_cases hcarry : significand = 2 ^ 53
  · subst hcarry
    have hfield : 2 ^ 53 / 2 ^ 52 + shift = shift + 2 := by omega
    have hfraction : 2 ^ 53 % 2 ^ 52 = 0 := by decide
    have hscale : shift + 2 - 1 = shift + 1 := by omega
    rw [hfield, hfraction, hscale, if_neg (by omega)]
    change (0 + 2 ^ 52) * 2 ^ (shift + 1) = 2 ^ 53 * 2 ^ shift
    ring
  · have hfield : significand / 2 ^ 52 + shift = shift + 1 := by omega
    have hfraction : significand % 2 ^ 52 + 2 ^ 52 = significand := by omega
    rw [hfield, if_neg (by omega), hfraction]
    rfl

theorem log2_mul_two_pow {n : Nat} (hn : n ≠ 0) (e : Nat) : (n * 2 ^ e).log2 = n.log2 + e := by
  have hpos : 0 < 2 ^ e := Nat.two_pow_pos e
  have hlow : 2 ^ n.log2 ≤ n := Nat.log2_self_le hn
  have hhigh : n < 2 ^ (n.log2 + 1) := Nat.lt_log2_self
  refine (Nat.log2_eq_iff (Nat.mul_ne_zero hn (Nat.ne_of_gt hpos))).mpr ⟨?_, ?_⟩
  · rw [Nat.pow_add]
    exact Nat.mul_le_mul_right _ hlow
  · have hexponent : n.log2 + e + 1 = n.log2 + 1 + e := by omega
    rw [hexponent, Nat.pow_add]
    exact Nat.mul_lt_mul_of_pos_right hhigh hpos

/-- The significand of a natural number has 53 bits, whatever the unit is in which it is counted. -/
theorem divNearest_bounds {n e : Nat} (hn : n ≠ 0) (he : 52 ≤ e) :
    2 ^ 52 ≤ divNearest (n * 2 ^ e) (2 ^ (n.log2 + e - 52)) ∧
      divNearest (n * 2 ^ e) (2 ^ (n.log2 + e - 52)) ≤ 2 ^ 53 := by
  have hpos : 0 < 2 ^ (n.log2 + e - 52) := Nat.two_pow_pos _
  have hlow : 2 ^ 52 * 2 ^ (n.log2 + e - 52) ≤ n * 2 ^ e := by
    have hexponent : 52 + (n.log2 + e - 52) = n.log2 + e := by omega
    rw [← Nat.pow_add, hexponent, Nat.pow_add]
    exact Nat.mul_le_mul_right _ (Nat.log2_self_le hn)
  have hhigh : n * 2 ^ e ≤ 2 ^ 53 * 2 ^ (n.log2 + e - 52) := by
    have hexponent : 53 + (n.log2 + e - 52) = n.log2 + 1 + e := by omega
    rw [← Nat.pow_add, hexponent, Nat.pow_add]
    exact Nat.mul_le_mul_right _ (Nat.le_of_lt Nat.lt_log2_self)
  constructor
  · have hmono := divNearest_mono (2 ^ (n.log2 + e - 52)) hlow
    rwa [divNearest_mul_self hpos] at hmono
  · have hmono := divNearest_mono (2 ^ (n.log2 + e - 52)) hhigh
    rwa [divNearest_mul_self hpos] at hmono

theorem divNearest_mul_two_pow {n e : Nat} (he : 52 ≤ e) :
    divNearest (n * 2 ^ e) (2 ^ (n.log2 + e - 52)) * 2 ^ (n.log2 + e - 52) = nearest n * 2 ^ e := by
  by_cases hlog : 52 ≤ n.log2
  · have hstep : 2 ^ (n.log2 + e - 52) = spacing n * 2 ^ e := by
      rw [spacing, ← Nat.pow_add]
      congr 1
      omega
    rw [hstep, divNearest_mul_mul _ _ (Nat.two_pow_pos e), nearest, Nat.mul_assoc]
  · have hsmall : n < 2 ^ 53 := by
      calc n < 2 ^ (n.log2 + 1) := Nat.lt_log2_self
        _ ≤ 2 ^ 53 := Nat.pow_le_pow_right (by decide) (by omega)
    have hunit : n * 2 ^ e = n * 2 ^ (52 - n.log2) * 2 ^ (n.log2 + e - 52) := by
      rw [Nat.mul_assoc, ← Nat.pow_add]
      congr 2
      omega
    rw [nearest_of_le (Nat.le_of_lt hsmall), hunit, divNearest_mul_self (Nat.two_pow_pos _)]

theorem exists_unitsPerOne_eq : ∃ e, 52 ≤ e ∧ unitsPerOne = 2 ^ e := by
  refine ⟨1074, by decide, ?_⟩
  unfold unitsPerOne
  generalize 1074 = e
  exact Nat.pow_eq

/-- In units of the smallest positive number, the value of the number nearest to a natural number. -/
theorem absUnits_nearestMagnitude (negative : Bool) (n : Nat) :
    absUnits ⟨negative, nearestMagnitude n 1⟩ = nearest n * unitsPerOne := by
  by_cases hn : n = 0
  · subst hn
    have hzero : nearestMagnitude 0 1 = 0 := by
      simp [nearestMagnitude, divNearest]
    rw [hzero, nearest_zero, Nat.zero_mul]
    simp [absUnits, significand, exponentField]
  · obtain ⟨e, he, hunit⟩ := exists_unitsPerOne_eq
    obtain ⟨hlow, hhigh⟩ := divNearest_bounds hn he
    have hmagnitude : nearestMagnitude n 1 =
        (n.log2 + e - 52) * fractionSpan + divNearest (n * 2 ^ e) (2 ^ (n.log2 + e - 52)) := by
      simp only [nearestMagnitude, hunit, Nat.div_one, log2_mul_two_pow hn, Nat.one_mul, Nat.pow_eq]
    rw [hmagnitude, absUnits_of_significand hlow hhigh, divNearest_mul_two_pow he, hunit]

theorem unitsPerOne_pos : 0 < unitsPerOne := by
  obtain ⟨e, -, hunit⟩ := exists_unitsPerOne_eq
  rw [hunit]
  exact Nat.two_pow_pos e

/-- The value of the floating point number that is nearest to an integer. -/
def rounded (i : Int) : Int := if i < 0 then -(nearest i.natAbs : Int) else nearest i.natAbs

section Rounded

variable {i j : Int}

theorem units_ofInt (i : Int) : (ofInt i).units = rounded i * unitsPerOne := by
  unfold units ofInt rounded
  rw [absUnits_nearestMagnitude]
  by_cases hnegative : i < 0
  · simp only [hnegative, decide_true, if_true, Nat.cast_mul, Int.neg_mul]
  · simp only [hnegative, decide_false, Bool.false_eq_true, if_false, Nat.cast_mul]

theorem rounded_of_natAbs_le (h : i.natAbs ≤ 2 ^ 53) : rounded i = i := by
  rw [rounded, nearest_of_le h]
  split <;> omega

theorem rounded_mono (h : i ≤ j) : rounded i ≤ rounded j := by
  unfold rounded
  by_cases hi : i < 0
  · by_cases hj : j < 0
    · have hmono : nearest j.natAbs ≤ nearest i.natAbs := nearest_mono (by omega)
      rw [if_pos hi, if_pos hj]
      omega
    · rw [if_pos hi, if_neg hj]
      omega
  · have hmono : nearest i.natAbs ≤ nearest j.natAbs := nearest_mono (by omega)
    rw [if_neg hi, if_neg (by omega)]
    omega

theorem natAbs_rounded (i : Int) : (rounded i).natAbs = nearest i.natAbs := by
  unfold rounded
  split
  · rw [Int.natAbs_neg, Int.natAbs_natCast]
  · rw [Int.natAbs_natCast]

/-- Rounding moves an integer by half the distance between its neighbours at most. -/
theorem two_mul_dist_rounded_le (i : Int) : 2 * (rounded i - i).natAbs ≤ spacing i.natAbs := by
  have hdist := two_mul_dist_divNearest_le (spacing_pos i.natAbs) i.natAbs
  rw [← nearest] at hdist
  unfold rounded
  split <;> omega

theorem spacing_le_of_lt_two_pow {n k : Nat} (h : n < 2 ^ k) : spacing n ≤ 2 ^ (k - 53) := by
  by_cases hn : n = 0
  · subst hn
    exact Nat.one_le_two_pow
  · have hlog : n.log2 < k := (Nat.log2_lt hn).mpr h
    exact Nat.pow_le_pow_right (by decide) (by omega)

end Rounded

/-! ### Collisions -/

/-- Two integers with one nearest floating point number. -/
def Collide (i j : Int) : Prop := i ≠ j ∧ rounded i = rounded j

section Collisions

variable {i j : Int}

theorem not_collide_of_lt (h : i.natAbs < 2 ^ 53) (j : Int) : ¬Collide i j := by
  rintro ⟨hne, heq⟩
  rw [rounded_of_natAbs_le (Nat.le_of_lt h)] at heq
  by_cases hj : j.natAbs ≤ 2 ^ 53
  · rw [rounded_of_natAbs_le hj] at heq
    exact hne heq
  · have hlow : 2 ^ 53 ≤ i.natAbs := by
      calc 2 ^ 53 = nearest (2 ^ 53) := (nearest_of_le (Nat.le_refl _)).symm
        _ ≤ nearest j.natAbs := nearest_mono (by omega)
        _ = i.natAbs := by rw [← natAbs_rounded, ← heq]
    omega

/-- Integers of 64 bits collide only within a distance of two spacings' halves, which is 2048 near the
greatest of them. -/
theorem dist_le_of_collide (h : Collide i j) (hi : i.natAbs < 2 ^ 64) (hj : j.natAbs < 2 ^ 64) :
    (i - j).natAbs ≤ 2 ^ 11 := by
  have hdistI := two_mul_dist_rounded_le i
  have hdistJ := two_mul_dist_rounded_le j
  have hspacingI : spacing i.natAbs ≤ 2 ^ 11 := spacing_le_of_lt_two_pow hi
  have hspacingJ : spacing j.natAbs ≤ 2 ^ 11 := spacing_le_of_lt_two_pow hj
  rw [h.2] at hdistI
  omega

theorem eq_iff_rounded_eq (h : ¬Collide i j) : i = j ↔ rounded i = rounded j := by
  refine ⟨congrArg rounded, fun heq => ?_⟩
  by_contra hne
  exact h ⟨hne, heq⟩

theorem le_iff_rounded_le (h : ¬Collide i j) : i ≤ j ↔ rounded i ≤ rounded j := by
  refine ⟨rounded_mono, fun hle => ?_⟩
  by_contra hlt
  have hback : rounded j ≤ rounded i := rounded_mono (by omega)
  have heq : i = j := (eq_iff_rounded_eq h).mpr (Int.le_antisymm hle hback)
  omega

end Collisions

end PropertyGraph.Binary64
