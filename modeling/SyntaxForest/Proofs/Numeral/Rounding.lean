/-
**A float's own value is rounded to the float.**

The nearest float to a decimal is found from its digits and its exponent, by a quotient that is
rounded once.  It depends on the value of the decimal alone: a factor of the quotient cancels, and
a zero after the digits does as well as a greater exponent.  A float is a whole number of units
with no more bits than its fraction has, so the quotient that stands for its value is exact, and
rounding changes nothing.  With all its digits a float is therefore read back, and a text with
fewer digits is only chosen if it is read back too.

Main results:

* `Binary64.round_mul` — rounding depends on the value of the quotient;
* `Binary64.round_units` — **the value of a float is rounded to the float**;
* `Decimal.nearest_mul_pow` — the nearest float depends on the value of the decimal;
* `Shortest.nearest_decimal` — **the shortest decimal of a float is nearest to the float.**
-/

import SyntaxForest.Numeral.Shortest
import SyntaxForest.Proofs.Numeral.Digits

set_option relaxedAutoImplicit false
set_option autoImplicit false

namespace SyntaxForest

/-! ### Rounding a quotient -/

namespace Binary64

variable {num den c m : Nat}

theorem unitsPerOne_pos : 0 < unitsPerOne := by decide +kernel

/-- A factor of both numbers of a quotient does not matter. -/
theorem divideToEven_mul (num den : Nat) (positive : 0 < c) :
    divideToEven (num * c) (den * c) = divideToEven num den := by
  have hless : den * c < 2 * (num % den * c) ↔ den < 2 * (num % den) := by
    rw [← Nat.mul_assoc, Nat.mul_lt_mul_right positive]
  have hequal : 2 * (num % den * c) = den * c ↔ 2 * (num % den) = den := by
    rw [← Nat.mul_assoc, Nat.mul_right_cancel_iff positive]
  simp only [divideToEven, Nat.mul_div_mul_right _ _ positive, Nat.mul_mod_mul_right, hless, hequal]

/-- **Rounding depends on the value of the quotient.** -/
theorem round_mul (num den : Nat) (positive : 0 < c) :
    round (num * c) (den * c) = round num den := by
  simp only [round]
  rw [Nat.mul_right_comm num c unitsPerOne, Nat.mul_div_mul_right _ _ positive, Nat.shiftLeft_eq,
    Nat.mul_right_comm den c, divideToEven_mul _ _ positive, ← Nat.shiftLeft_eq]

theorem units_of_lt (h : m < exponentWeight) : units m = m := if_pos h

/-- A magnitude is a number of fifty-three bits, shifted by its exponent. -/
theorem exists_units (h : exponentWeight ≤ m) : ∃ bits k, units m = bits * 2 ^ k
    ∧ 2 ^ 52 ≤ bits ∧ bits < 2 ^ 53 ∧ m = k * exponentWeight + bits := by
  have hweight : exponentWeight = 2 ^ 52 := rfl
  refine ⟨exponentWeight + m % exponentWeight, m / exponentWeight - 1, ?_, ?_, ?_, ?_⟩
  · rw [units, if_neg (Nat.not_lt.2 h), Nat.shiftLeft_eq]
  · rw [hweight]
    exact Nat.le_add_right _ _
  · have := Nat.mod_lt m (show 0 < exponentWeight by decide)
    rw [hweight] at this ⊢
    omega
  · have hone : 1 ≤ m / exponentWeight := (Nat.one_le_div_iff (by decide)).2 h
    have hdiv := Nat.div_add_mod m exponentWeight
    rw [← Nat.add_assoc, ← Nat.succ_mul, Nat.succ_eq_add_one, Nat.sub_add_cancel hone, Nat.mul_comm]
    exact hdiv.symm

/-- **The value of a float is rounded to the float.** -/
theorem round_units (finite : m < infinity) : round (units m) unitsPerOne = m := by
  have hpos := unitsPerOne_pos
  simp only [round]
  rw [Nat.mul_div_cancel _ hpos]
  by_cases hsmall : m < exponentWeight
  · -- a number of fewer bits is not shifted
    have hlog : (units m).log2 - 52 = 0 := by
      rw [units_of_lt hsmall]
      by_cases hzero : m = 0
      · rw [hzero]
        rfl
      · exact Nat.sub_eq_zero_of_le (Nat.le_of_lt ((Nat.log2_lt hzero).2 hsmall))
    rw [hlog, Nat.zero_mul, Nat.shiftLeft_zero, divideToEven_exact _ hpos, units_of_lt hsmall,
      Nat.zero_add, Nat.min_eq_left (Nat.le_of_lt finite)]
  · -- a number of 53 bits and zeros is shifted by the zeros
    obtain ⟨bits, k, hunits, hlow, hhigh, hm⟩ := exists_units (Nat.not_lt.1 hsmall)
    have hlog : (units m).log2 - 52 = k := by
      have hpow := Nat.two_pow_pos k
      have hlog2 : (bits * 2 ^ k).log2 = 52 + k := by
        refine (Nat.log2_eq_iff (Nat.ne_of_gt (Nat.mul_pos (by omega) hpow))).2 ⟨?_, ?_⟩
        · rw [Nat.pow_add]
          exact Nat.mul_le_mul_right _ hlow
        · rw [Nat.add_right_comm, Nat.pow_add]
          exact Nat.mul_lt_mul_of_pos_right hhigh hpow
      rw [hunits, hlog2, Nat.add_sub_cancel_left]
    rw [hlog, hunits, Nat.shiftLeft_eq, Nat.mul_assoc, Nat.mul_comm (2 ^ k),
      divideToEven_exact _ (Nat.mul_pos hpos (Nat.two_pow_pos k)), ← hm,
      Nat.min_eq_left (Nat.le_of_lt finite)]

/-- The value of a float is bounded by its exponent. -/
theorem units_lt (limit : Nat) (h : m < limit * exponentWeight) : units m < 2 ^ (52 + limit) := by
  have hweight : exponentWeight = 2 ^ 52 := rfl
  by_cases hsmall : m < exponentWeight
  · rw [units_of_lt hsmall]
    exact Nat.lt_of_lt_of_le hsmall (Nat.pow_le_pow_right Nat.two_pos (Nat.le_add_right 52 limit))
  · obtain ⟨bits, k, hunits, hlow, hhigh, hm⟩ := exists_units (Nat.not_lt.1 hsmall)
    have hk : k + 1 ≤ limit := by
      rw [hweight] at h hm
      omega
    calc units m = bits * 2 ^ k := hunits
      _ < 2 ^ 53 * 2 ^ k := Nat.mul_lt_mul_of_pos_right hhigh (Nat.two_pow_pos k)
      _ = 2 ^ (53 + k) := (Nat.pow_add 2 53 k).symm
      _ ≤ 2 ^ (52 + limit) := Nat.pow_le_pow_right (by decide) (by omega)

theorem units_pos (positive : 0 < m) : 0 < units m := by
  by_cases hsmall : m < exponentWeight
  · rwa [units_of_lt hsmall]
  · obtain ⟨bits, k, hunits, hlow, -, -⟩ := exists_units (Nat.not_lt.1 hsmall)
    rw [hunits]
    exact Nat.mul_pos (by omega) (Nat.two_pow_pos k)

end Binary64

/-! ### The nearest float to a decimal -/

namespace Decimal

variable {n : Nat}

theorem width_mul_pow (positive : 0 < n) (k : Nat) : width (n * 10 ^ k) = width n + k := by
  rw [width, Numeral.toDigits_mul_pow positive, List.length_append, List.length_replicate, width]

theorem width_le {k : Nat} (positive : 0 < k) (h : n < 10 ^ k) : width n ≤ k :=
  (Nat.length_toDigits_le_iff (by decide) positive).2 h

theorem lt_width {k : Nat} (positive : 0 < k) (h : 10 ^ k ≤ n) : k < width n :=
  Nat.lt_of_not_le fun hle =>
    Nat.not_lt.2 h ((Nat.length_toDigits_le_iff (by decide) positive).1 hle)

/-- **The nearest float depends on the value of the decimal:** zeros after the digits do as well as
a greater exponent. -/
theorem nearest_mul_pow (n k : Nat) (exponent : Int) :
    nearest ⟨n * 10 ^ k, exponent⟩ = nearest ⟨n, exponent + k⟩ := by
  rcases Nat.eq_zero_or_pos n with rfl | hpos
  · rw [Nat.zero_mul, nearest_of_zero, nearest_of_zero]
  have hpow : ∀ k, 0 < 10 ^ k := fun k => Nat.pow_pos (by decide)
  have hbound : exponent + (width (n * 10 ^ k) : Nat) = exponent + k + width n := by
    rw [width_mul_pow hpos]
    omega
  have hnonzero : n * 10 ^ k ≠ 0 := Nat.ne_of_gt (Nat.mul_pos hpos (hpow k))
  simp only [nearest, hbound, if_neg hnonzero, if_neg (Nat.ne_of_gt hpos), Nat.pow_eq]
  -- the quotients have the same value, whichever of the exponents are negative
  split
  · rfl
  split
  · rfl
  by_cases hexponent : 0 ≤ exponent
  · obtain ⟨e, rfl⟩ := Int.eq_ofNat_of_zero_le hexponent
    rw [if_pos hexponent, if_pos (by omega), ← Int.natCast_add, Int.toNat_natCast,
      Int.toNat_natCast, Nat.add_comm, Nat.pow_add, Nat.mul_assoc]
  · rw [if_neg hexponent]
    obtain ⟨e, rfl⟩ : ∃ e : Nat, exponent = -(e : Int) := ⟨(-exponent).toNat, by omega⟩
    rw [Int.neg_neg, Int.toNat_natCast]
    split
    · obtain ⟨rest, rfl⟩ : ∃ rest, k = e + rest := ⟨k - e, by omega⟩
      have hrest : (-(e : Int) + (e + rest : Nat)).toNat = rest := by omega
      have hround := Binary64.round_mul (n * 10 ^ rest) 1 (hpow e)
      rw [Nat.one_mul] at hround
      rw [hrest, Nat.add_comm, Nat.pow_add, ← Nat.mul_assoc, hround]
    · obtain ⟨rest, rfl⟩ : ∃ rest, e = rest + k := ⟨e - k, by omega⟩
      have hrest : (-(-((rest + k : Nat) : Int) + k)).toNat = rest := by omega
      rw [hrest, Nat.pow_add, Binary64.round_mul _ _ (hpow k)]

/-- A number over a power of two is a decimal. -/
theorem nearest_mul_five_pow {e : Nat} (positive : 0 < n) (he : 0 < e)
    (small : e ≤ width (n * 5 ^ e) + 330) (large : width (n * 5 ^ e) ≤ e + 310) :
    nearest ⟨n * 5 ^ e, -(e : Int)⟩ = Binary64.round n (2 ^ e) := by
  have hpow : 0 < 5 ^ e := Nat.pow_pos (by decide)
  have hten : 10 ^ e = 2 ^ e * 5 ^ e := Nat.mul_pow 2 5 e
  simp only [nearest, Nat.pow_eq]
  rw [if_neg (Nat.ne_of_gt (Nat.mul_pos positive hpow)), if_neg (by omega), if_neg (by omega),
    if_neg (by omega), Int.neg_neg, Int.toNat_natCast, hten, Binary64.round_mul _ _ hpow]

end Decimal

/-! ### The shortest decimal -/

namespace Shortest

variable {m : Nat}

/-- The value of a float has no more digits before the point, and no more zeros after it, than are
looked at. -/
theorem width_exact (positive : 0 < m) (finite : m < Binary64.infinity) :
    744 ≤ Decimal.width (exact m).digits ∧ Decimal.width (exact m).digits ≤ 1384 := by
  have hlow : 10 ^ 743 ≤ Nat.pow 5 1074 := by decide +kernel
  have hhigh : 2 ^ (52 + 2047) * Nat.pow 5 1074 ≤ 10 ^ 1384 := by decide +kernel
  have hpos := Binary64.units_pos positive
  have hunits := Binary64.units_lt 2047 finite
  show 744 ≤ Decimal.width (Binary64.units m * Nat.pow 5 1074)
    ∧ Decimal.width (Binary64.units m * Nat.pow 5 1074) ≤ 1384
  generalize Nat.pow 5 1074 = five at hlow hhigh ⊢
  generalize 2 ^ (52 + 2047) = two at hhigh hunits
  constructor
  · exact Decimal.lt_width (by decide) (Nat.le_trans hlow (Nat.le_mul_of_pos_left five hpos))
  · have hfive : 0 < five := Nat.lt_of_lt_of_le (Nat.pow_pos (by decide)) hlow
    exact Decimal.width_le (by decide)
      (Nat.lt_of_lt_of_le (Nat.mul_lt_mul_of_pos_right hunits hfive) hhigh)

/-- A float is nearest to its value with all its digits. -/
theorem nearest_exact (positive : 0 < m) (finite : m < Binary64.infinity) :
    (exact m).nearest = m := by
  obtain ⟨hsmall, hlarge⟩ := width_exact positive finite
  -- the exponent has a name, so that no power of it is computed
  obtain ⟨e, he⟩ : ∃ e, e = 1074 := ⟨1074, rfl⟩
  have hone : Binary64.unitsPerOne = 2 ^ e := by
    rw [Binary64.unitsPerOne, ← he]
    exact Nat.one_shiftLeft e
  have hexact : exact m = ⟨Binary64.units m * 5 ^ e, -(e : Int)⟩ := by
    have hneg : (-1074 : Int) = -(e : Int) := by omega
    rw [exact, ← he, Nat.pow_eq, hneg]
  rw [hexact] at hsmall hlarge ⊢
  simp only at hsmall hlarge
  rw [Decimal.nearest_mul_five_pow (Binary64.units_pos positive) (by omega) (by omega) (by omega),
    ← hone, Binary64.round_units finite]

/-- **The shortest decimal of a float is nearest to the float.** -/
theorem nearest_decimal (positive : 0 < m) (finite : m < Binary64.infinity) :
    (decimal m).nearest = m := by
  rw [decimal]
  cases hfound : (List.range 17).findSome? fun (size : Nat) => pick m (point m - 1 - size) with
  | none => exact nearest_exact positive finite
  | some d =>
      obtain ⟨size, -, hpick⟩ := List.exists_of_findSome?_eq_some hfound
      exact nearest_of_pick hpick

end Shortest

end SyntaxForest
