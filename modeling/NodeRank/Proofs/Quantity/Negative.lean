import NodeRank.Proofs.Quantity.Order

/-! # Amounts below zero

Units and thousandths are rounded up from the billionths. Below zero these have been rounded down
from the number, so that a number which lies above a whole one by less than a billionth of a unit
comes out as that whole one, and not as the next. All other numbers are rounded up as they should.
-/
namespace NodeRank
open Text

/-- The whole number that is next above `y`, for a number of which only whole `d`th parts count: a
smaller rest is dropped first. -/
def ceilOfParts (d : ℕ) (y : ℚ) : ℤ := if Int.fract y * d < 1 then ⌊y⌋ else ⌈y⌉

/-- Rounding down to parts and then up to whole numbers. -/
theorem ceilDiv_floor (y : ℚ) {d : ℕ} (hd : 0 < d) : ceilDiv ⌊y * d⌋ d = ceilOfParts d y := by
  apply eq_of_forall_ge_iff
  intro k
  have hd' : (0 : ℚ) < d := Nat.cast_pos.mpr hd
  have hfract : Int.fract y * d = (y - ⌊y⌋) * d := rfl
  have hparts : ceilDiv ⌊y * d⌋ d ≤ k ↔ (y - k) * d < 1 := by
    rw [ceilDiv_le_iff hd, ← Int.lt_add_one_iff, Int.floor_lt, sub_mul, sub_lt_iff_lt_add']
    push_cast
    exact Iff.rfl
  rw [hparts, ceilOfParts]
  split_ifs with hrest
  · constructor
    · intro h
      by_contra hk
      have hnext : (k : ℚ) + 1 ≤ y := by exact_mod_cast Int.le_floor.mp (not_le.mp hk)
      have hd1 : (1 : ℚ) ≤ d := by exact_mod_cast hd
      exact absurd h (not_lt.mpr (one_le_mul_of_one_le_of_one_le (le_sub_iff_add_le'.mpr hnext) hd1))
    · intro h
      have hle : y - k ≤ y - ⌊y⌋ := sub_le_sub_left (by exact_mod_cast h) y
      exact (mul_le_mul_of_nonneg_right hle hd'.le).trans_lt (hfract ▸ hrest)
  · rw [Int.ceil_le]
    constructor
    · intro h
      by_contra hk
      have hle : (k : ℚ) ≤ ⌊y⌋ := by exact_mod_cast Int.le_floor.mpr (not_le.mp hk).le
      have hmul := mul_le_mul_of_nonneg_right (sub_le_sub_left hle y) hd'.le
      exact hrest ((hfract ▸ hmul).trans_lt h)
    · intro h
      exact (mul_nonpos_of_nonpos_of_nonneg (sub_nonpos.mpr h) hd'.le).trans_lt one_pos

/-- Above a limit, dropping the rest makes no difference exactly where there is none or where it
comes to a part. -/
theorem max_ceilOfParts_eq_iff (limit : ℤ) (d : ℕ) (y : ℚ) :
    max limit (ceilOfParts d y) = max limit ⌈y⌉ ↔
      Int.fract y = 0 ∨ 1 ≤ Int.fract y * d ∨ y ≤ limit := by
  unfold ceilOfParts
  split_ifs with hrest
  · by_cases hzero : Int.fract y = 0
    · obtain ⟨n,rfl⟩ := Int.fract_eq_zero_iff.mp hzero
      simp
    · have hceil : ⌈y⌉ = ⌊y⌋ + 1 := (Int.ceil_eq_floor_add_one_iff_notMem y).mpr
        fun h => hzero (Int.fract_eq_zero_iff.mpr h)
      have hlimit : y ≤ limit ↔ ⌈y⌉ ≤ limit := Int.ceil_le.symm
      rw [hlimit, hceil]
      have hnot : ¬ 1 ≤ Int.fract y * d := not_le.mpr hrest
      simp only [hzero, hnot, false_or]
      omega
  · simp [not_lt.mp hrest]

/-- A number of whole parts has no rest that is smaller than one. -/
theorem fract_of_whole_parts {d : ℕ} (hd : 0 < d) {y : ℚ} {n : ℤ} (h : y * d = n) :
    Int.fract y = 0 ∨ 1 ≤ Int.fract y * d := by
  have hd' : (0 : ℚ) < d := Nat.cast_pos.mpr hd
  have hparts : Int.fract y * d = (n - ⌊y⌋ * d : ℤ) := by
    push_cast
    rw [← h, ← sub_mul]
    rfl
  rcases (Int.fract_nonneg y).eq_or_lt with hzero | hpos
  · exact .inl hzero.symm
  · have hmul := mul_pos hpos hd'
    rw [hparts] at hmul ⊢
    right
    exact_mod_cast hmul

namespace Quantity

theorem ofInt_63_of_nonpos {n : ℤ} (h : n ≤ 0) : (Capped.ofInt 63 n).toInt = max (-2 ^ 63) n := by
  rw [Capped.toInt_ofInt, Capped.cap, Capped.span_63]
  omega

/-- Units and thousandths below zero. -/
theorem value_of_nonpos {q : Quantity} {x : ℚ} (hx : x ≤ 0) (h : q.nanos = ⌊x * 10 ^ 9⌋) :
    q.value.toInt = max (-2 ^ 63) (ceilOfParts (10 ^ 9) x) ∧
      q.milliValue.toInt = max (-2 ^ 63) (ceilOfParts (10 ^ 6) (1000 * x)) := by
  have hunit : ceilDiv q.nanos nanosPerUnit = ceilOfParts (10 ^ 9) x := by
    rw [h, ← ceilDiv_floor x (show 0 < 10 ^ 9 by decide)]
    norm_num [nanosPerUnit]
  have hmilli : ceilDiv q.nanos nanosPerMilli = ceilOfParts (10 ^ 6) (1000 * x) := by
    have hscale : x * 10 ^ 9 = 1000 * x * (10 ^ 6 : ℕ) := by
      push_cast
      ring
    rw [h, hscale, ← ceilDiv_floor (1000 * x) (show 0 < 10 ^ 6 by decide)]
    norm_num [nanosPerMilli]
  have hnanos : q.nanos ≤ 0 := by
    rw [h]
    exact Int.floor_nonpos (mul_nonpos_of_nonpos_of_nonneg hx (by norm_num))
  have hnonpos {d : ℕ} (hd : 0 < d) : ceilDiv q.nanos d ≤ 0 :=
    (ceilDiv_le_iff hd 0).mpr (by omega)
  constructor
  · rw [value, ofInt_63_of_nonpos (hnonpos (by decide)), hunit]
  · rw [milliValue, ofInt_63_of_nonpos (hnonpos (by decide)), hmilli]

/-- The units and thousandths of a text with a minus. They are the number rounded up exactly where
it does not lie above a whole one by less than a billionth of a unit, and so for every number of
whole billionths. -/
theorem rounded_of_minus {input : String} {text : List Char} {q : Quantity}
    (htext : Trimmed input.toList text) (hminus : text.head? = some '-')
    (hq : parse input = .ok q) :
    ∃ x, (∀ y, Denotes text y ↔ y = x) ∧ x ≤ 0 ∧ q.nanos = ⌊x * 10 ^ 9⌋ ∧
      q.value.toInt = max (-2 ^ 63) (ceilOfParts (10 ^ 9) x) ∧
      q.milliValue.toInt = max (-2 ^ 63) (ceilOfParts (10 ^ 6) (1000 * x)) ∧
      (q.value.toInt = max (-2 ^ 63) ⌈x⌉ ↔
        Int.fract x = 0 ∨ 1 ≤ Int.fract x * 10 ^ 9 ∨ x ≤ -2 ^ 63) ∧
      (q.milliValue.toInt = max (-2 ^ 63) ⌈1000 * x⌉ ↔
        Int.fract (1000 * x) = 0 ∨ 1 ≤ Int.fract (1000 * x) * 10 ^ 6 ∨ 1000 * x ≤ -2 ^ 63) ∧
      ∀ n : ℤ, x * 10 ^ 9 = n →
        q.value.toInt = max (-2 ^ 63) ⌈x⌉ ∧ q.milliValue.toInt = max (-2 ^ 63) ⌈1000 * x⌉ := by
  obtain ⟨x,hx,_⟩ := denotes_of_parse hq
  have hnanos := (Made.read hq).nanos_eq hx
  rw [toList_text_of_parse hq, ← trimmed_iff.mp htext] at hx
  have hnonpos := hx.nonpos hminus
  rw [billionths_of_nonpos hnonpos] at hnanos
  obtain ⟨hvalue,hmilli⟩ := value_of_nonpos hnonpos hnanos
  have hvalue_iff := max_ceilOfParts_eq_iff (-2 ^ 63) (10 ^ 9) x
  have hmilli_iff := max_ceilOfParts_eq_iff (-2 ^ 63) (10 ^ 6) (1000 * x)
  rw [← hvalue] at hvalue_iff
  rw [← hmilli] at hmilli_iff
  refine ⟨x,hx.iff_eq,hnonpos,hnanos,hvalue,hmilli,?_,?_,?_⟩
  · exact_mod_cast hvalue_iff
  · exact_mod_cast hmilli_iff
  · intro n hn
    have hthousandths : 1000 * x * (10 ^ 6 : ℕ) = n := by
      rw [← hn]
      push_cast
      ring
    have hunits : x * (10 ^ 9 : ℕ) = n := by exact_mod_cast hn
    refine ⟨hvalue_iff.mpr ?_,hmilli_iff.mpr ?_⟩
    · exact (fract_of_whole_parts (by decide) hunits).imp_right .inl
    · exact (fract_of_whole_parts (by decide) hthousandths).imp_right .inl

/-- Half a billionth beyond two and a half below zero: the rest is dropped and nothing lost. -/
theorem rounded_of_half_billionth :
    Trimmed " -2500000000.5n".toList "-2500000000.5n".toList ∧
      Denotes "-2500000000.5n".toList (-25000000005 / 10 ^ 10) ∧
      ∃ q, parse " -2500000000.5n" = .ok q ∧ q.value.toInt = -2 ∧ q.milliValue.toInt = -2500 := by
  have htext : Trimmed " -2500000000.5n".toList "-2500000000.5n".toList :=
    trimmed_iff.mpr (by decide)
  have hdenotes : Denotes "-2500000000.5n".toList (-25000000005 / 10 ^ 10) :=
    @denotes_ofChars _ true 25000000005 1 ⟨1,-9⟩ _ rfl rfl rfl rfl rfl (by norm_num [signed])
  have hq : parse " -2500000000.5n" = .ok ⟨"-2500000000.5n",-2500000001⟩ := rfl
  refine ⟨htext,hdenotes,_,hq,?_⟩
  obtain ⟨x,hx,_,_,_,_,hvalue,hmilli,_⟩ := rounded_of_minus htext rfl hq
  obtain rfl := (hx _).mp hdenotes
  rw [hvalue.mpr (.inr (.inl (by norm_num))), hmilli.mpr (.inr (.inl (by norm_num)))]
  norm_num

/-- A number that lies above minus one by less than a billionth comes out as minus one. -/
theorem not_rounded_up_of_many_nines :
    Denotes "-0.9999999999".toList (-9999999999 / 10 ^ 10) ∧
      parse "-0.9999999999" = .ok ⟨"-0.9999999999",-10 ^ 9⟩ ∧
      (⟨"-0.9999999999",-10 ^ 9⟩ : Quantity).value.toInt = -1 ∧
      max (-2 ^ 63) ⌈(-9999999999 / 10 ^ 10 : ℚ)⌉ = 0 ∧
      (⟨"-0.9999999999",-10 ^ 9⟩ : Quantity).milliValue.toInt = -1000 ∧
      max (-2 ^ 63) ⌈1000 * (-9999999999 / 10 ^ 10 : ℚ)⌉ = -999 := by
  refine ⟨?_,rfl,by decide +kernel,?_,by decide +kernel,?_⟩
  · exact @denotes_ofChars _ true 9999999999 10 ⟨1,0⟩ _ rfl rfl rfl rfl rfl (by norm_num [signed])
  · norm_num
  · norm_num

end Quantity
end NodeRank
