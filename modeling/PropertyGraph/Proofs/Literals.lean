import Mathlib.Data.List.Basic
import PropertyGraph.Json.Reading

/-!
# Printed strings and numbers are read back

Every string is read back, character by character: what is not escaped is neither a quote nor a backslash. A
number has no closing mark. Reading takes digits as long as there are any, so what stands behind it has to be
empty or to start with a comma or a closing bracket. An integer is read back where it fits, and a floating
point number where its own text gives it back.
-/

namespace PropertyGraph

namespace Document

open Json (escapeChar quote hexDigit)

theorem hexValue?_hexDigit : ∀ n < 16, hexValue? (hexDigit n) = some n := by decide

/-- A control below U+0020 without an escape of its own is read from its code. -/
theorem hexQuad?_control {n : Nat} (h : n < 0x20) (rest : List Char) :
    hexQuad? ('0' :: '0' :: hexDigit (n / 16) :: hexDigit (n % 16) :: rest) = some (n, rest) := by
  have hzero : hexValue? '0' = some 0 := rfl
  have hhigh := hexValue?_hexDigit (n / 16) (by omega)
  have hlow := hexValue?_hexDigit (n % 16) (by omega)
  have hvalue : ((0 * 16 + 0) * 16 + n / 16) * 16 + n % 16 = n := by omega
  simp only [hexQuad?, hzero, hhigh, hlow, Option.bind_eq_bind, Option.bind_some, hvalue]
  rfl

theorem readString_escapeChar (c : Char) (fuel : Nat) (rest : List Char) (acc : Option (List Char)) :
    readString (fuel + 1) ((escapeChar c).toList ++ rest) acc
      = readString fuel rest (acc.map (c :: ·)) := by
  unfold escapeChar
  split
  · rfl
  · rfl
  · rfl
  · rfl
  · rfl
  · rfl
  · rfl
  · next hquote hbackslash _ _ _ _ _ =>
      split
      · next hcontrol =>
          have hhigh : isHighSurrogate c.toNat = false := by simp [isHighSurrogate]; omega
          have hlow : isLowSurrogate c.toNat = false := by simp [isLowSurrogate]; omega
          have hquad := hexQuad?_control hcontrol rest
          simp [readString, hquad, hhigh, hlow]
      · next hprintable =>
          simp [readString, hprintable]
          grind

theorem toList_quote (s : String) :
    (quote s).toList = '"' :: s.toList.flatMap (fun c => (escapeChar c).toList) ++ ['"'] := by
  have hfold : ∀ (cs : List Char) (text : String),
      (cs.foldl (fun acc c => acc ++ escapeChar c) text).toList
        = text.toList ++ cs.flatMap (fun c => (escapeChar c).toList) := by
    intro cs
    induction cs with
    | nil => simp
    | cons c cs ih => intro text; simp [ih]
  rw [quote, String.toList_append, String.foldl_eq_foldl_toList, hfold]
  rfl

theorem readString_flatMap (cs : List Char) : ∀ {fuel : Nat} {before rest : List Char},
    cs.length < fuel →
    readString fuel (cs.flatMap (fun c => (escapeChar c).toList) ++ '"' :: rest) (some before)
      = some (some (String.ofList (before.reverse ++ cs)), rest) := by
  induction cs with
  | nil =>
      intro fuel before rest h
      obtain ⟨fuel, rfl⟩ := Nat.exists_eq_add_one_of_ne_zero (Nat.ne_of_gt h)
      simp [readString]
  | cons c cs ih =>
      intro fuel before rest h
      obtain ⟨fuel, rfl⟩ := Nat.exists_eq_add_one_of_ne_zero (Nat.ne_of_gt (Nat.zero_lt_of_lt h))
      rw [List.flatMap_cons, List.append_assoc, readString_escapeChar, Option.map_some,
        ih (Nat.lt_of_succ_lt_succ h)]
      simp

/-- What may stand behind a number: nothing that would go on with it. -/
def Delimited (rest : List Char) : Prop :=
  ∀ c ∈ rest.head?, c.isDigit = false ∧ c ≠ '.' ∧ c ≠ 'e' ∧ c ≠ 'E'

theorem Delimited.not_isDigit {rest : List Char} (h : Delimited rest) :
    ∀ c ∈ rest.head?, c.isDigit = false := fun c hc => (h c hc).1

section Numbers

variable {rest : List Char}

theorem takeDigits_append (h : ∀ c ∈ rest.head?, c.isDigit = false) (cs : List Char) :
    ∀ significand taken : Nat,
      takeDigits significand taken (cs ++ rest)
        = ((takeDigits significand taken cs).1, (takeDigits significand taken cs).2.1,
            (takeDigits significand taken cs).2.2 ++ rest) := by
  induction cs with
  | nil =>
      intro significand taken
      cases rest with
      | nil => rfl
      | cons c rest =>
          have hc : c.isDigit = false := h c rfl
          rw [List.nil_append, takeDigits, if_neg (by simp [hc])]
          rfl
  | cons c cs ih =>
      intro significand taken
      rw [List.cons_append, takeDigits, takeDigits]
      split
      · exact ih _ _
      · rfl

theorem takeWhile_isDigit_append (h : ∀ c ∈ rest.head?, c.isDigit = false) (cs : List Char) :
    (cs ++ rest).takeWhile Char.isDigit = cs.takeWhile Char.isDigit := by
  induction cs with
  | nil => cases rest <;> simp_all
  | cons c cs ih => simp only [List.cons_append, List.takeWhile_cons, ih]

theorem dropWhile_isDigit_append (h : ∀ c ∈ rest.head?, c.isDigit = false) (cs : List Char) :
    (cs ++ rest).dropWhile Char.isDigit = cs.dropWhile Char.isDigit ++ rest := by
  induction cs with
  | nil => cases rest <;> simp_all
  | cons c cs ih =>
      simp only [List.cons_append, List.dropWhile_cons, ih]
      split <;> rfl

/-- A digit at the front of a text that goes on stands at the front of the text itself. -/
theorem head?_append_any_isDigit {cs : List Char} (h : cs.head?.any Char.isDigit = true) :
    (cs ++ rest).head?.any Char.isDigit = true := by
  cases cs with
  | nil => cases h
  | cons c cs => exact h

theorem readFraction_append (h : Delimited rest) {significand dropped significand' : Nat}
    {exponent : Int} {fractional : Bool} {cs after : List Char}
    (hread : readFraction significand dropped cs
      = some (significand', exponent, fractional, after)) :
    readFraction significand dropped (cs ++ rest)
      = some (significand', exponent, fractional, after ++ rest) := by
  unfold readFraction at hread
  split at hread
  · next digits =>
      split at hread
      · next hdigit =>
          have hdigits := takeDigits_append h.not_isDigit digits significand 0
          simp only [Option.some.injEq, Prod.mk.injEq] at hread
          obtain ⟨rfl, rfl, rfl, rfl⟩ := hread
          rw [List.cons_append, readFraction, if_pos (head?_append_any_isDigit hdigit), hdigits]
          simp only [dropWhile_isDigit_append h.not_isDigit]
      · cases hread
  · next hpoint =>
      cases hread
      have hpoint' : ∀ digits, cs ++ rest = '.' :: digits → False := by
        intro digits heq
        cases cs with
        | nil => exact (h '.' (by simp_all)).2.1 rfl
        | cons c cs =>
            rw [List.cons_append, List.cons.injEq] at heq
            exact hpoint cs (by rw [heq.1])
      rw [readFraction]
      exact hpoint'

theorem exponentSign_append (cs : List Char) (hdigit : (exponentSign cs).2 ≠ []) :
    exponentSign (cs ++ rest) = ((exponentSign cs).1, (exponentSign cs).2 ++ rest) := by
  unfold exponentSign at hdigit
  split at hdigit
  · rfl
  · rfl
  · next hplus hminus =>
      cases cs with
      | nil => exact absurd rfl hdigit
      | cons c cs =>
          have hc₁ : c ≠ '+' := fun heq => hplus cs (by rw [heq])
          have hc₂ : c ≠ '-' := fun heq => hminus cs (by rw [heq])
          simp [exponentSign, hc₁, hc₂]

theorem exponentDigits_append (h : Delimited rest) (cs : List Char) :
    exponentDigits (cs ++ rest) = ((exponentDigits cs).1, (exponentDigits cs).2 ++ rest) := by
  simp only [exponentDigits, takeWhile_isDigit_append h.not_isDigit,
    dropWhile_isDigit_append h.not_isDigit]

theorem readExponent_append (h : Delimited rest) {exponent exponent' : Int} {scientific : Bool}
    {cs after : List Char}
    (hread : readExponent exponent cs = some (exponent', scientific, after)) :
    readExponent exponent (cs ++ rest) = some (exponent', scientific, after ++ rest) := by
  cases cs with
  | nil =>
      cases hread
      cases rest with
      | nil => rfl
      | cons c rest =>
          have hc := h c rfl
          rw [List.nil_append, readExponent, if_neg (by simp [hc.2])]
  | cons c cs =>
      rw [readExponent] at hread
      split at hread
      · next hletter =>
          simp only at hread
          split at hread
          · next hdigit =>
              have hne : (exponentSign cs).2 ≠ [] := by
                intro hnil
                rw [hnil] at hdigit
                cases hdigit
              cases hread
              rw [List.cons_append, readExponent, if_pos hletter, exponentSign_append cs hne]
              simp only [exponentDigits_append h]
              rw [if_pos (head?_append_any_isDigit hdigit)]
          · cases hread
      · next hletter =>
          cases hread
          rw [List.cons_append, readExponent, if_neg hletter]

/-- What stands behind a number does not change it. -/
theorem readNumber_append (h : Delimited rest) {negative : Bool} {cs after : List Char}
    {value : Document} (hread : readNumber negative cs = some (value, after)) :
    readNumber negative (cs ++ rest) = some (value, after ++ rest) := by
  cases cs with
  | nil => cases hread
  | cons c cs =>
      rw [readNumber, List.head?_cons, Option.bind_eq_bind, Option.bind_some] at hread
      split at hread
      · cases hread
      next hfirst =>
      split at hread
      · cases hread
      next hzero =>
      have hdigits := takeDigits_append h.not_isDigit (c :: cs) 0 0
      have hzero' : ¬(c = '0' ∧ ((c :: cs ++ rest).drop 1).head?.any Char.isDigit = true) := by
        rintro ⟨rfl, hdigit⟩
        cases cs with
        | nil =>
            cases rest with
            | nil => cases hdigit
            | cons d rest => 
              have hd := (h d rfl).1
              simp [hd] at hdigit
        | cons d cs => exact hzero ⟨rfl, hdigit⟩
      simp only [Option.bind_eq_bind, Option.bind_eq_some_iff] at hread
      obtain ⟨⟨s, e, f, mid⟩, hfraction, ⟨e', x, after'⟩, hexponent, hvalue⟩ := hread
      cases hvalue
      have hfraction' := readFraction_append h hfraction
      have hexponent' := readExponent_append h hexponent
      rw [readNumber, List.cons_append, List.head?_cons, Option.bind_eq_bind, Option.bind_some,
        if_neg hfirst]
      rw [← List.cons_append, if_neg hzero', hdigits]
      simp only [takeWhile_isDigit_append h.not_isDigit, dropWhile_isDigit_append h.not_isDigit,
        hfraction', Option.bind_eq_bind, Option.bind_some, hexponent']
      rfl

theorem le_ofDigitChars (cs : List Char) : ∀ n : Nat, n ≤ Nat.ofDigitChars 10 cs n := by
  induction cs with
  | nil => intro n; exact Nat.le_refl n
  | cons c cs ih =>
      intro n
      rw [Nat.ofDigitChars_cons]
      have hrest := ih (10 * n + (c.toNat - '0'.toNat))
      omega

theorem takeDigits_of_isDigit (cs : List Char) : ∀ significand taken : Nat,
    (∀ c ∈ cs, c.isDigit = true) → Nat.ofDigitChars 10 cs significand ≤ maxInt.toNat →
    takeDigits significand taken cs
      = (Nat.ofDigitChars 10 cs significand, taken + cs.length, []) := by
  induction cs with
  | nil => intro significand taken _ _; rfl
  | cons c cs ih =>
      intro significand taken hdigits hfits
      have hc : c.isDigit = true := hdigits c (by simp)
      have hnext : significand * 10 + digitValue c = 10 * significand + (c.toNat - '0'.toNat) := by
        rw [digitValue, Nat.mul_comm]
      rw [Nat.ofDigitChars_cons, ← hnext] at hfits ⊢
      have hle := le_ofDigitChars cs (significand * 10 + digitValue c)
      rw [takeDigits, if_pos ⟨hc, by omega⟩, ih _ _ (fun d hd => hdigits d (by simp [hd])) hfits,
        List.length_cons]
      simp only [Nat.add_assoc, Nat.add_comm 1]

/-- Only zero itself has a zero in front. -/
theorem head?_toDigits_ne_zero (n : Nat) (h : 0 < n) : (Nat.toDigits 10 n).head? ≠ some '0' := by
  induction n using Nat.strongRecOn with
  | ind n ih =>
      by_cases hbase : n < 10
      · rw [Nat.toDigits_of_lt_base hbase]
        simp
        omega
      · have hhead := ih (n / 10) (by omega) (by omega)
        rw [Nat.toDigits_of_base_le (by omega) (by omega),
          List.head?_append_of_ne_nil _ Nat.toDigits_ne_nil]
        exact hhead

theorem readNumber_toDigits (negative : Bool) {n : Nat} (h : n ≤ maxInt.toNat) :
    readNumber negative (Nat.toDigits 10 n) = some (numberOf negative true n 0, []) := by
  have hall : ∀ c ∈ Nat.toDigits 10 n, c.isDigit = true := fun c hc =>
    Nat.isDigit_of_mem_toDigits (by omega) (by omega) hc
  have hvalue : Nat.ofDigitChars 10 (Nat.toDigits 10 n) 0 = n := Nat.ofDigitChars_ten_toDigits
  have hdigits := takeDigits_of_isDigit _ 0 0 hall (by rw [hvalue]; exact h)
  rw [hvalue] at hdigits
  have hzero : ¬((Nat.toDigits 10 n).head? = some '0' ∧
      ((Nat.toDigits 10 n).drop 1).head?.any Char.isDigit = true) := by
    rintro ⟨hhead, htail⟩
    rcases Nat.eq_zero_or_pos n with rfl | hpos
    · cases htail
    · exact head?_toDigits_ne_zero n hpos hhead
  cases hcs : Nat.toDigits 10 n with
  | nil => exact absurd hcs Nat.toDigits_ne_nil
  | cons c cs =>
      rw [hcs] at hdigits hzero hall
      have hc : c.isDigit = true := hall c (by simp)
      have hzero' : ¬(c = '0' ∧ ((c :: cs).drop 1).head?.any Char.isDigit = true) := by
        simpa using hzero
      rw [readNumber, List.head?_cons, Option.bind_eq_bind, Option.bind_some,
        if_neg (by simp [hc]), if_neg hzero', hdigits]
      rfl

end Numbers

/-! ### Scalars -/

/-- The text is that of a number, with a minus in front or without. -/
def IsNumeral (cs : List Char) (value : Document) : Prop :=
  readNumber false cs = some (value, []) ∨
    ∃ digits, cs = '-' :: digits ∧ readNumber true digits = some (value, [])

theorem isDigit_of_readNumber {negative : Bool} {cs after : List Char} {value : Document}
    (h : readNumber negative cs = some (value, after)) :
    ∃ c rest, cs = c :: rest ∧ c.isDigit = true := by
  cases cs with
  | nil => cases h
  | cons c rest =>
      refine ⟨c, rest, rfl, ?_⟩
      rw [readNumber, List.head?_cons, Option.bind_eq_bind, Option.bind_some] at h
      split at h
      · cases h
      · next hdigit => simpa using hdigit

theorem readScalar_of_isDigit {fuel : Nat} {c : Char} {cs after : List Char} {value : Document}
    (hdigit : c.isDigit = true) (h : readNumber false (c :: cs) = some (value, after)) :
    readScalar fuel (c :: cs) = (value, some after) := by
  unfold readScalar
  split
  · next heq => cases heq; cases hdigit
  · next heq => cases heq; cases hdigit
  · next heq => cases heq; cases hdigit
  · next heq => cases heq; cases hdigit
  · next heq => cases heq; cases hdigit
  · rw [h]

theorem IsNumeral.readScalar_append {cs rest : List Char} {value : Document}
    (h : IsNumeral cs value) (hrest : Delimited rest) (fuel : Nat) :
    readScalar fuel (cs ++ rest) = (value, some rest) := by
  rcases h with h | ⟨digits, rfl, h⟩
  · obtain ⟨c, tail, rfl, hdigit⟩ := isDigit_of_readNumber h
    exact readScalar_of_isDigit hdigit (readNumber_append hrest h)
  · rw [List.cons_append, readScalar, readNumber_append hrest h]
    rfl

theorem isNumeral_of_readScalar {cs : List Char} {x : Binary64}
    (h : readScalar 0 cs = (.float x, some [])) : IsNumeral cs (.float x) := by
  unfold readScalar readWord at h
  split at h
  · split at h <;> cases h
  · split at h <;> cases h
  · split at h <;> cases h
  · split at h <;> cases h
  · next digits =>
      split at h
      · next hread =>
          cases h
          exact .inr ⟨digits, rfl, hread⟩
      · cases h
  · split at h
    · next hread =>
        cases h
        exact .inl hread
    · cases h

theorem isNumeral_toString {i : Int} (hmin : minInt ≤ i) (hmax : i ≤ maxInt) :
    IsNumeral (toString i).toList (.int i) := by
  have hbound : (maxInt.toNat : Int) = 18446744073709551615 := rfl
  have hmin' : -9223372036854775808 ≤ i := hmin
  have hmax' : i ≤ 18446744073709551615 := hmax
  rw [Int.toString_eq_repr, Int.repr_eq_if]
  split
  · next hpos =>
      have hread := readNumber_toDigits false (n := i.toNat) (by omega)
      have hvalue : numberOf false true i.toNat 0 = .int i := by
        have hnat : (i.toNat : Int) = i := Int.toNat_of_nonneg hpos
        simp [numberOf, hnat, hmin]
      rw [hvalue] at hread
      rw [Nat.toList_repr]
      exact .inl hread
  · next hneg =>
      have hread := readNumber_toDigits true (n := (-i).toNat) (by omega)
      have hvalue : numberOf true true (-i).toNat 0 = .int i := by
        have hnat : -((-i).toNat : Int) = i := by omega
        have hzero : ((-i).toNat == 0) = false := by simp; omega
        simp only [numberOf, ↓reduceIte, hnat, hmin, hzero]
        rfl
      rw [hvalue] at hread
      refine .inr ⟨Nat.toDigits 10 (-i).toNat, ?_, hread⟩
      rw [String.toList_append, Nat.toList_repr]
      rfl

end Document

end PropertyGraph
