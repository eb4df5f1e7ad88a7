import NodeRank.Proofs.Quantity.Amount

/-! # The order of quantities

The billionths of a quantity are a function of the number that its text denotes. Rounding away from
zero is rounding up above zero and rounding down below it, and on both sides it keeps the order, so
that quantities, their units and their thousandths are ordered as the numbers are.
-/
namespace NodeRank.Quantity
open Text

/-- The billionths of a number, rounded away from zero. -/
def billionths (x : ℚ) : ℤ := SignType.sign x * ⌈|x| * 10 ^ 9⌉

theorem billionths_of_nonneg {x : ℚ} (h : 0 ≤ x) : billionths x = ⌈x * 10 ^ 9⌉ := by
  unfold billionths
  rcases h.eq_or_lt with rfl | hpos
  · simp
  · rw [sign_pos hpos, abs_of_pos hpos, SignType.coe_one, one_mul]

theorem billionths_of_nonpos {x : ℚ} (h : x ≤ 0) : billionths x = ⌊x * 10 ^ 9⌋ := by
  unfold billionths
  rcases h.eq_or_lt with rfl | hneg
  · simp
  · rw [sign_neg hneg, abs_of_neg hneg, neg_mul, Int.ceil_neg, SignType.coe_neg_one, neg_one_mul,
      neg_neg]

theorem billionths_mono {x y : ℚ} (h : x ≤ y) : billionths x ≤ billionths y := by
  have hscaled : x * 10 ^ 9 ≤ y * 10 ^ 9 := mul_le_mul_of_nonneg_right h (by norm_num)
  rcases le_total 0 x with hx | hx
  · rw [billionths_of_nonneg hx, billionths_of_nonneg (hx.trans h)]
    exact Int.ceil_le_ceil hscaled
  rcases le_total y 0 with hy | hy
  · rw [billionths_of_nonpos hx, billionths_of_nonpos hy]
    exact Int.floor_le_floor hscaled
  · rw [billionths_of_nonpos hx, billionths_of_nonneg hy]
    have hlow : ⌊x * 10 ^ 9⌋ ≤ 0 :=
      Int.floor_nonpos (mul_nonpos_of_nonpos_of_nonneg hx (by norm_num))
    exact hlow.trans (Int.ceil_nonneg (by positivity))

theorem value_mono {p q : Quantity} (h : p.nanos ≤ q.nanos) : p.value ≤ q.value :=
  Capped.cap_mono (ceilDiv_mono (by decide) h)

theorem milliValue_mono {p q : Quantity} (h : p.nanos ≤ q.nanos) : p.milliValue ≤ q.milliValue :=
  Capped.cap_mono (ceilDiv_mono (by decide) h)

theorem Made.nanos_eq {q : Quantity} (h : Made q) {x : ℚ} (hx : Denotes q.text.toList x) :
    q.nanos = billionths x := by
  obtain ⟨y,hy,hnanos⟩ := h.denotes
  rwa [hx.unique hy]

/-- Quantities are ordered as the numbers that their texts denote. -/
theorem Made.nanos_le {p q : Quantity} (hp : Made p) (hq : Made q) {x y : ℚ}
    (hx : Denotes p.text.toList x) (hy : Denotes q.text.toList y) (h : x ≤ y) :
    p.nanos ≤ q.nanos := by
  rw [hp.nanos_eq hx, hq.nanos_eq hy]
  exact billionths_mono h

theorem Denotes.nonpos {text : List Char} {x : ℚ} (h : Denotes text x)
    (hminus : text.head? = some '-') : x ≤ 0 := by
  obtain ⟨hs,_,_⟩ := h
  cases hs with
  | minus _ => exact neg_nonpos_of_nonneg (magnitude_nonneg _ _ _)
  | plus _ => cases hminus
  | bare hhead _ _ => exact absurd hminus hhead

/-- What a text denotes is found by taking it apart. -/
theorem denotes_ofChars {text : List Char} {negative : Bool} {digits places : ℕ} {scale : Scale}
    {x : ℚ} (hnum : (Spelling.ofChars text).hasNumber)
    (hnegative : (Spelling.ofChars text).negative = negative)
    (hdigits : (Spelling.ofChars text).digits = digits)
    (hplaces : (Spelling.ofChars text).fraction.length = places)
    (hsuffix : Scale.ofSuffix? (Spelling.ofChars text).suffix = some scale)
    (hx : signed negative (digits * scale.multiplier * 10 ^ (scale.exponent - places)) = x) :
    Denotes text x := by
  have hs : Spelled text (.ofChars text) := spelled_iff.mpr rfl
  have hten : (10 : ℚ) ≠ 0 := by norm_num
  have hmagnitude : magnitude (Spelling.ofChars text).whole (Spelling.ofChars text).fraction scale =
      digits * scale.multiplier * 10 ^ (scale.exponent - places) := by
    rw [← hdigits, Spelling.digits_eq, decimal_append, hplaces, zpow_sub₀ hten, zpow_natCast,
      magnitude, hplaces]
    push_cast
    field_simp
  rw [← hx, ← hmagnitude, ← hnegative]
  exact .intro hs (Spelling.pointed_of_hasNumber hs.number_chars hnum)
    (Scale.ofSuffix?_eq_some_iff.mp hsuffix)

end NodeRank.Quantity
