import NodeRank.Proofs.Quantity.Order

/-! # Quantities and their own texts

A quantity is read back from the text that it keeps, be it one that was read or one that was made of
thousandths, and this is so for no others. What is made of thousandths writes them in digits and
stores them in billionths by a rule of its own; that both say the same is read off the grammar.
-/
namespace NodeRank
open Text

theorem Text.WritesInt.not_isBlank {cs : List Char} {n : ℤ} (h : WritesInt cs n) :
    ∀ c ∈ cs, ¬ isBlank c := by
  cases h with
  | bare _ h => exact fun c hc => not_isBlank_of_isDigit (h c hc)
  | plus _ h =>
    rw [List.forall_mem_cons]
    exact ⟨by decide,fun c hc => not_isBlank_of_isDigit (h c hc)⟩
  | minus _ h =>
    rw [List.forall_mem_cons]
    exact ⟨by decide,fun c hc => not_isBlank_of_isDigit (h c hc)⟩

theorem ceilDiv_mul (n : ℤ) {d : ℕ} (hd : 0 < d) : ceilDiv (n * d) d = n := by
  unfold ceilDiv
  rw [← Int.neg_mul, Int.mul_ediv_cancel _ (by omega), Int.neg_neg]

namespace Quantity

/-- Quantities that keep one text are the same. -/
theorem Made.ext_text {p q : Quantity} (hp : Made p) (hq : Made q) (h : p.text = q.text) :
    p = q := by
  obtain ⟨x,hx,hnanos⟩ := hp.denotes
  have hnanos' := hq.nanos_eq (h ▸ hx)
  cases p
  cases q
  cases h
  exact congrArg _ (hnanos.trans hnanos'.symm)

theorem parse_text {input : String} {q : Quantity} (h : parse input = .ok q) :
    parse q.text = .ok q := by
  have hsame : parse q.text = parse input := by
    unfold parse
    rw [toList_text_of_parse h, trim_trim]
  rw [hsame, h]

theorem fits_milli (m : Amount) : Fits (Nat.toDigits 10 m.toInt.natAbs) [] ⟨1,-3⟩ := by
  have hle : m.toInt.natAbs ≤ 2 ^ 63 := m.natAbs_le
  have hdigits : decimal (Nat.toDigits 10 m.toInt.natAbs ++ []) * 1 = m.toInt.natAbs := by
    rw [List.append_nil, decimal_toDigits, mul_one]
  refine ⟨?_,by norm_num,?_⟩
  · rw [hdigits]
    exact hle.trans_lt (by norm_num)
  · rw [magnitude_mul, hdigits]
    have hcast : (m.toInt.natAbs : ℚ) ≤ 2 ^ 63 := by exact_mod_cast hle
    norm_num at hcast ⊢
    linarith

/-- Thousandths are written in nineteen digits at most. -/
theorem countP_isDigit_milli (m : Amount) :
    (Nat.toDigits 10 m.toInt.natAbs).countP Char.isDigit ≤ 24 := by
  have hle : m.toInt.natAbs ≤ 2 ^ 63 := m.natAbs_le
  rw [List.countP_eq_length.mpr isDigit_toDigits,
    Nat.length_toDigits_le_iff (by decide) (by decide)]
  exact hle.trans_lt (by norm_num)

/-- What is written of thousandths is read as these. -/
theorem parse_ofMilli (m : Amount) : parse (ofMilli m).text = .ok (ofMilli m) := by
  have htext : (ofMilli m).text.toList = (toString m.toInt).toList ++ ['m'] := String.toList_append
  have htrim : trim (ofMilli m).text.toList = (toString m.toInt).toList ++ ['m'] := by
    rw [htext]
    refine trim_of_not_isBlank fun c hc => ?_
    rcases List.mem_append.mp hc with hc | hc
    · exact (writesInt_toString m.toInt).not_isBlank c hc
    · obtain rfl := List.mem_singleton.mp hc
      decide
  have hs := spelled_milli m.toInt
  have hnum : Pointed (Nat.toDigits 10 m.toInt.natAbs) (Nat.toDigits 10 m.toInt.natAbs) [] :=
    .bare Nat.toDigits_ne_nil isDigit_toDigits
  have hverdict := verdict_parse htrim.symm (by simp) hs
  obtain ⟨q,hq⟩ := (hverdict.ok_or_outOfRange hs hnum (countP_isDigit_milli m)
    (.decimal (c := 'm') (k := -3) (by decide))).1 ⟨by decide,fits_milli m⟩
  have hsame : q.text = (ofMilli m).text := by
    rw [← String.toList_inj, toList_text_of_parse hq, htrim, htext]
  rw [hq, (Made.read hq).ext_text (.ofMilli m) hsame]

theorem milliValue_ofMilli (m : Amount) : (ofMilli m).milliValue = m := by
  unfold milliValue ofMilli
  rw [ceilDiv_mul m.toInt (by decide), Capped.ofInt_toInt]

theorem made_iff_parse_text {q : Quantity} : Made q ↔ parse q.text = .ok q := by
  constructor
  · intro h
    cases h with
    | read h => exact parse_text h
    | ofMilli m => exact parse_ofMilli m
  · exact .read

/-- Reading is not changed by reading once more what has been read, thousandths are written so that
they are read again, and the quantities that there are are those that read their own text. -/
theorem own_text_reads_back :
    (∀ input, (parse input).bind (fun q => parse q.text) = parse input) ∧
    (∀ m : Amount, (ofMilli m).milliValue = m ∧
      ∃ q, parse (ofMilli m).text = .ok q ∧ q = ofMilli m ∧ q.sameAmount (ofMilli m)) ∧
    ∀ q, Made q ↔ parse q.text = .ok q := by
  refine ⟨fun input => ?_,fun m => ?_,fun q => made_iff_parse_text⟩
  · cases h : parse input with
    | error e => rfl
    | ok q => exact parse_text h
  · exact ⟨milliValue_ofMilli m,_,parse_ofMilli m,rfl,beq_self_eq_true _⟩

example : parse (ofMilli (.ofInt 63 (-2 ^ 63))).text =
    .ok ⟨"-9223372036854775808m",-9223372036854775808000000⟩ := by rfl

end Quantity
end NodeRank
