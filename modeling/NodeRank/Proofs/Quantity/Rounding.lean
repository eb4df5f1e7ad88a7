import NodeRank.Quantity.Parser
import NodeRank.Proofs.Text.Decimal
import Mathlib.Algebra.Order.Field.Power
import Mathlib.Data.Rat.Floor
import Mathlib.Data.Sign.Basic
import Mathlib.Tactic.FieldSimp
import Mathlib.Tactic.Ring

/-! # Rounding quantities

The digits and the scale of a quantity denote a rational number. Its billionths are rounded up once
and exactly, as far as the 127 binary digits of the computation reach, and the units and thousandths
that are read off them are those of the number itself.
-/
namespace NodeRank
open Text

/-- Rounding up in two steps is rounding up once, if the second grid is part of the first. -/
theorem ceilDiv_ceil (y : ℚ) {d : ℕ} (hd : 0 < d) : ceilDiv ⌈y * d⌉ d = ⌈y⌉ := by
  apply eq_of_forall_ge_iff
  intro k
  have hd' : (0 : ℚ) < d := Nat.cast_pos.mpr hd
  rw [ceilDiv_le_iff hd, Int.ceil_le, Int.ceil_le, Int.cast_mul, Int.cast_natCast]
  exact mul_le_mul_iff_of_pos_right hd'

theorem natCast_ceil_div (n : ℕ) {d : ℕ} (hd : 0 < d) :
    (((n + (d - 1)) / d : ℕ) : ℤ) = ⌈(n : ℚ) / d⌉ := by
  have hd' : (0 : ℚ) < d := Nat.cast_pos.mpr hd
  rw [← Int.natCast_ceil_eq_ceil (by positivity)]
  refine congrArg _ (eq_of_forall_ge_iff fun k => ?_)
  rw [Nat.ceil_le, div_le_iff₀ hd', Nat.div_le_iff_le_mul_add_pred hd]
  have hcast : (n : ℚ) ≤ k * d ↔ n ≤ k * d := by
    exact_mod_cast Iff.rfl
  rw [hcast, Nat.mul_comm k d]
  omega

namespace Quantity
variable {whole fraction : List Char} {scale : Scale}

/-- The number that digits around a point denote on a scale. -/
def magnitude (whole fraction : List Char) (scale : Scale) : ℚ :=
  (decimal whole + decimal fraction / 10 ^ fraction.length) *
    (scale.multiplier * 10 ^ scale.exponent)

/-- The multiplied digits, the power of ten that shifts them and the billionths all have at most 127
binary digits. -/
structure Fits (whole fraction : List Char) (scale : Scale) : Prop where
  digits : decimal (whole ++ fraction) * scale.multiplier < 2 ^ 127
  power : (10 : ℚ) ^ (9 + scale.exponent - fraction.length) < 2 ^ 127
  nanos : magnitude whole fraction scale * 10 ^ 9 < 2 ^ 127

theorem magnitude_nonneg (whole fraction : List Char) (scale : Scale) :
    0 ≤ magnitude whole fraction scale := by
  unfold magnitude
  positivity

theorem magnitude_mul (whole fraction : List Char) (scale : Scale) :
    magnitude whole fraction scale * 10 ^ 9 =
      ((decimal (whole ++ fraction) * scale.multiplier : ℕ) : ℚ) *
        10 ^ (9 + scale.exponent - fraction.length) := by
  have hten : (10 : ℚ) ≠ 0 := by norm_num
  unfold magnitude
  rw [decimal_append, zpow_sub₀ hten, zpow_add₀ hten, zpow_natCast]
  push_cast
  field_simp
  norm_num

namespace Scale
variable {digits places n : ℕ}

theorem maxNanos_lt_iff {m : ℕ} : maxNanos < m ↔ 2 ^ 127 ≤ m := by
  have hmax : maxNanos + 1 = 2 ^ 127 := by decide
  omega

theorem nanos?_of_ge (h : 2 ^ 127 ≤ digits * scale.multiplier) :
    scale.nanos? digits places = none :=
  if_pos (maxNanos_lt_iff.mpr h)

theorem nanos?_up {up : ℕ} (hdigits : digits * scale.multiplier < 2 ^ 127)
    (hshift : 9 + scale.exponent - places = .ofNat up) :
    scale.nanos? digits places = some n ↔ 10 ^ up < 2 ^ 127 ∧
      digits * scale.multiplier * 10 ^ up < 2 ^ 127 ∧ n = digits * scale.multiplier * 10 ^ up := by
  unfold nanos?
  rw [hshift]
  dsimp only [Nat.pow_eq]
  simp only [maxNanos_lt_iff, if_neg (not_le.mpr hdigits)]
  split_ifs with hover
  · constructor
    · intro h
      cases h
    · rintro ⟨hfactor,hproduct,_⟩
      exact absurd hover (not_or.mpr ⟨not_le.mpr hfactor,not_le.mpr hproduct⟩)
  · obtain ⟨hfactor,hproduct⟩ := not_or.mp hover
    rw [Option.some.injEq, eq_comm]
    exact ⟨fun h => ⟨not_le.mp hfactor,not_le.mp hproduct,h⟩,fun h => h.2.2⟩

theorem nanos?_down {down : ℕ} (hdigits : digits * scale.multiplier < 2 ^ 127)
    (hshift : 9 + scale.exponent - places = .negSucc down) :
    scale.nanos? digits places =
      some ((digits * scale.multiplier + (10 ^ (down + 1) - 1)) / 10 ^ (down + 1)) := by
  unfold nanos?
  rw [hshift]
  dsimp only [Nat.pow_eq]
  rw [if_neg (maxNanos_lt_iff.not.mpr (not_le.mpr hdigits))]

theorem nanos?_eq_some_iff {shift : ℤ} (hshift : 9 + scale.exponent - places = shift) :
    scale.nanos? digits places = some n ↔ digits * scale.multiplier < 2 ^ 127 ∧
      (10 : ℚ) ^ shift < 2 ^ 127 ∧
      ((digits * scale.multiplier : ℕ) : ℚ) * 10 ^ shift < 2 ^ 127 ∧
      (n : ℤ) = ⌈((digits * scale.multiplier : ℕ) : ℚ) * 10 ^ shift⌉ := by
  by_cases hdigits : digits * scale.multiplier < 2 ^ 127
  · cases shift with
    | ofNat up =>
      -- Upwards everything is an integer, so the limits are the same for both kinds of numbers.
      have hpower : (10 : ℚ) ^ (Int.ofNat up) = (10 ^ up : ℕ) := by
        rw [Int.ofNat_eq_natCast, zpow_natCast, Nat.cast_pow]
        rfl
      have hlimit (m : ℕ) : (m : ℚ) < 2 ^ 127 ↔ m < 2 ^ 127 := by
        exact_mod_cast Iff.rfl
      rw [nanos?_up hdigits hshift, hpower, ← Nat.cast_mul, hlimit, hlimit, Int.ceil_natCast,
        Nat.cast_inj]
      exact (and_iff_right hdigits).symm
    | negSucc down =>
      -- Downwards nothing grows, so the multiplied digits are the only limit.
      have hpower : (10 : ℚ) ^ (Int.negSucc down) ≤ 1 :=
        zpow_le_one_of_nonpos₀ (by norm_num) (Int.negSucc_lt_zero down).le
      have hscaled : ((digits * scale.multiplier : ℕ) : ℚ) < 2 ^ 127 := by
        exact_mod_cast hdigits
      have hlimit : ((digits * scale.multiplier : ℕ) : ℚ) * 10 ^ (Int.negSucc down) < 2 ^ 127 :=
        (mul_le_of_le_one_right (Nat.cast_nonneg _) hpower).trans_lt hscaled
      have hdiv : ((digits * scale.multiplier : ℕ) : ℚ) * 10 ^ (Int.negSucc down) =
          (digits * scale.multiplier : ℕ) / (10 ^ (down + 1) : ℕ) := by
        rw [zpow_negSucc, Nat.cast_pow, div_eq_mul_inv]
        rfl
      have hceil := natCast_ceil_div (digits * scale.multiplier) (Nat.pow_pos (n := down + 1)
        (show 0 < 10 by decide))
      rw [nanos?_down hdigits hshift, Option.some.injEq, eq_comm, ← Nat.cast_inj (R := ℤ), hceil,
        ← hdiv]
      exact ⟨fun h => ⟨hdigits,hpower.trans_lt (by norm_num),hlimit,h⟩,fun h => h.2.2.2⟩
  · rw [nanos?_of_ge (not_lt.mp hdigits)]
    constructor
    · intro h
      cases h
    · rintro ⟨hlt,_⟩
      exact absurd hlt hdigits

end Scale

theorem Spelling.digits_eq (s : Spelling) : s.digits = decimal (s.whole ++ s.fraction) := by
  have h := foldl_digitValue (s.whole ++ s.fraction) 0
  rwa [Nat.zero_mul, Nat.zero_add] at h

theorem nanos?_digits_iff (s : Spelling) {n : ℕ} :
    scale.nanos? s.digits s.fraction.length = some n ↔
      Fits s.whole s.fraction scale ∧ (n : ℤ) = ⌈magnitude s.whole s.fraction scale * 10 ^ 9⌉ := by
  rw [Scale.nanos?_eq_some_iff rfl, magnitude_mul, s.digits_eq]
  constructor
  · rintro ⟨hdigits,hpower,hnanos,hn⟩
    exact ⟨⟨hdigits,hpower,by rwa [magnitude_mul]⟩,hn⟩
  · rintro ⟨hfits,hn⟩
    refine ⟨hfits.digits,hfits.power,?_,hn⟩
    rw [← magnitude_mul]
    exact hfits.nanos

theorem not_fits_of_none {s : Spelling} (h : scale.nanos? s.digits s.fraction.length = none) :
    ¬ Fits s.whole s.fraction scale := by
  intro hfits
  have hceil : 0 ≤ ⌈magnitude s.whole s.fraction scale * 10 ^ 9⌉ :=
    Int.ceil_nonneg (mul_nonneg (magnitude_nonneg _ _ _) (by norm_num))
  have hsome := (nanos?_digits_iff s).mpr ⟨hfits,Int.toNat_of_nonneg hceil⟩
  rw [h] at hsome
  cases hsome

/-- The number that a text denotes whose sign, digits and scale are these. -/
def signed (negative : Bool) (magnitude : ℚ) : ℚ := if negative then -magnitude else magnitude

theorem ofInt_63 {n : ℤ} (h : 0 ≤ n) : (Capped.ofInt 63 n).toInt = min (2 ^ 63 - 1) n := by
  rw [Capped.toInt_ofInt, Capped.cap, Capped.span_63]
  omega

/-- Whole units and thousandths are as if the number itself had been rounded up. -/
theorem value_ceil {q : Quantity} {x : ℚ} (hx : 0 ≤ x) (h : q.nanos = ⌈x * 10 ^ 9⌉) :
    q.value.toInt = min (2 ^ 63 - 1) ⌈x⌉ ∧ q.milliValue.toInt = min (2 ^ 63 - 1) ⌈1000 * x⌉ := by
  have hunit : ceilDiv q.nanos nanosPerUnit = ⌈x⌉ := by
    rw [h, ← ceilDiv_ceil x (show 0 < nanosPerUnit by decide)]
    norm_num [nanosPerUnit]
  have hmilli : ceilDiv q.nanos nanosPerMilli = ⌈1000 * x⌉ := by
    rw [h, ← ceilDiv_ceil (1000 * x) (show 0 < nanosPerMilli by decide)]
    congr 2
    norm_num [nanosPerMilli]
    ring
  constructor
  · rw [value, hunit, ofInt_63 (Int.ceil_nonneg hx)]
  · rw [milliValue, hmilli, ofInt_63 (Int.ceil_nonneg (by positivity))]

theorem abs_signed (negative : Bool) {m : ℚ} (h : 0 ≤ m) : |signed negative m| = m := by
  cases negative with
  | false => exact abs_of_nonneg h
  | true => exact (abs_neg m).trans (abs_of_nonneg h)

theorem sign_mul_ceil (negative : Bool) {m : ℚ} (h : 0 ≤ m) :
    (SignType.sign (signed negative m) : ℤ) * ⌈m * 10 ^ 9⌉ =
      if negative then -⌈m * 10 ^ 9⌉ else ⌈m * 10 ^ 9⌉ := by
  rcases h.eq_or_lt with rfl | hpos
  · simp
  · cases negative with
    | false => simp [signed, sign_pos hpos]
    | true => simp [signed, Left.sign_neg, sign_pos hpos]

end Quantity
end NodeRank
