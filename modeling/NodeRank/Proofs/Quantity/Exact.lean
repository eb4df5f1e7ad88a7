import NodeRank.Proofs.Quantity.Grammar
import NodeRank.Proofs.Quantity.Rounding

/-! # Quantities are exact

A text comes to one of five verdicts, one for each way in which the grammar and the range can fail
and one for what is read. What is read keeps the number that the text denotes, rounded away from
zero to billionths, and a text of the grammar is refused only for its length or its range.
-/
namespace NodeRank.Quantity
open Text

/-- Everything that a text without blanks around it can come to. -/
inductive Verdict (text : List Char) (s : Spelling) : Except ParseError Quantity → Prop
  | malformed (h : Malformed s.number) : Verdict text s (.error (.invalidNumber (.ofList text)))
  | long (h : ¬ Malformed s.number) (hlong : 24 < s.number.countP Char.isDigit) :
    Verdict text s (.error (.outOfRange (.ofList text)))
  | unknown (h : ¬ Malformed s.number) (hshort : s.number.countP Char.isDigit ≤ 24)
    (hsuffix : ∀ scale, ¬ Suffix s.suffix scale) :
    Verdict text s (.error (.unknownSuffix (.ofList text) (.ofList s.suffix)))
  | unfit {whole fraction : List Char} {scale : Scale} (h : Pointed s.number whole fraction)
    (hshort : s.number.countP Char.isDigit ≤ 24) (hsuffix : Suffix s.suffix scale)
    (hfits : ¬ (scale.exponent.natAbs ≤ 64 ∧ Fits whole fraction scale)) :
    Verdict text s (.error (.outOfRange (.ofList text)))
  | exact {whole fraction : List Char} {scale : Scale} {q : Quantity}
    (h : Pointed s.number whole fraction)
    (hshort : s.number.countP Char.isDigit ≤ 24) (hsuffix : Suffix s.suffix scale)
    (hexponent : scale.exponent.natAbs ≤ 64) (hfits : Fits whole fraction scale)
    (htext : q.text = .ofList text)
    (hnanos : q.nanos = if s.negative then -⌈magnitude whole fraction scale * 10 ^ 9⌉ else
      ⌈magnitude whole fraction scale * 10 ^ 9⌉) : Verdict text s (.ok q)

theorem verdict_nanosOf {text : List Char} {s : Spelling} (h : Spelled text s) :
    Verdict text s ((nanosOf (.ofList text) s).map (⟨.ofList text,·⟩)) := by
  have hchars := h.number_chars
  have hmalformed := Spelling.malformed_iff hchars
  unfold nanosOf
  by_cases hnum : s.hasNumber
  · have hpointed := Spelling.pointed_of_hasNumber hchars hnum
    have hdigits : s.number.countP Char.isDigit = s.digitCount := hpointed.countP_isDigit
    rw [if_neg (by simp [hnum]), show maxDigits = 24 from rfl, ← hdigits]
    by_cases hlong : 24 < s.number.countP Char.isDigit
    · rw [if_pos hlong]
      exact .long hpointed.not_malformed hlong
    rw [if_neg hlong]
    rw [not_lt] at hlong
    cases hscale : Scale.ofSuffix? s.suffix with
    | none =>
      refine .unknown hpointed.not_malformed hlong ?_
      intro scale hsuffix
      rw [Scale.ofSuffix?_eq_some_iff.mpr hsuffix] at hscale
      cases hscale
    | some scale =>
      have hsuffix := Scale.ofSuffix?_eq_some_iff.mp hscale
      dsimp only
      rw [show maxExponent = 64 from rfl]
      by_cases hexponent : 64 < scale.exponent.natAbs
      · rw [if_pos hexponent]
        exact .unfit hpointed hlong hsuffix fun hfits => absurd hexponent (not_lt.mpr hfits.1)
      rw [if_neg hexponent]
      rw [not_lt] at hexponent
      cases hnanos : scale.nanos? s.digits s.fraction.length with
      | none => exact .unfit hpointed hlong hsuffix fun hfits => not_fits_of_none hnanos hfits.2
      | some n =>
        obtain ⟨hfits,hn⟩ := (nanos?_digits_iff s).mp hnanos
        refine .exact hpointed hlong hsuffix hexponent hfits rfl ?_
        rw [← hn]
  · rw [if_pos (by simp [hnum])]
    exact .malformed (hmalformed.mpr hnum)

theorem verdict_parse {input : String} {text : List Char} {s : Spelling}
    (htext : text = trim input.toList) (hne : text ≠ []) (h : Spelled text s) :
    Verdict text s (parse input) := by
  have hs := spelled_iff.mp h
  have hverdict := verdict_nanosOf h
  unfold parse
  rw [← htext]
  cases text with
  | nil => exact absurd rfl hne
  | cons c cs =>
    dsimp only
    rwa [← hs]

theorem parse_eq_empty_iff (input : String) :
    parse input = .error .empty ↔ trim input.toList = [] := by
  by_cases hne : trim input.toList = []
  · unfold parse
    rw [hne]
    simp
  · have hverdict := verdict_parse rfl hne (spelled_iff.mpr rfl)
    constructor
    · intro h
      rw [h] at hverdict
      cases hverdict
    · intro h
      exact absurd h hne

/-- What is kept of a text that denotes `x`. -/
structure Keeps (q : Quantity) (text : List Char) (x : ℚ) : Prop where
  text_eq : q.text = .ofList text
  nanos : q.nanos = SignType.sign x * ⌈|x| * 10 ^ 9⌉
  value : text.head? ≠ some '-' → q.value.toInt = min (2 ^ 63 - 1) ⌈x⌉
  milliValue : text.head? ≠ some '-' → q.milliValue.toInt = min (2 ^ 63 - 1) ⌈1000 * x⌉

theorem Spelled.negative_eq_false {text : List Char} {s : Spelling} (h : Spelled text s)
    (hhead : text.head? ≠ some '-') : s.negative = false := by
  cases h with
  | minus _ => exact absurd rfl hhead
  | plus _ => rfl
  | bare _ _ _ => rfl

namespace Verdict
variable {text : List Char} {s : Spelling} {answer : Except ParseError Quantity}

theorem invalid_iff (h : Verdict text s answer) (t : String) :
    answer = .error (.invalidNumber t) ↔ t = .ofList text ∧ Malformed s.number := by
  cases h with
  | malformed h => simp [h, eq_comm]
  | long h _ => simp [h]
  | unknown h _ _ => simp [h]
  | unfit h _ _ _ => simp [h.not_malformed]
  | exact h _ _ _ _ _ _ => simp [h.not_malformed]

theorem eq_outOfRange (h : Verdict text s answer) (hnum : ¬ Malformed s.number)
    (hlong : 24 < s.number.countP Char.isDigit) : answer = .error (.outOfRange (.ofList text)) := by
  cases h with
  | malformed h => exact absurd h hnum
  | long _ _ => rfl
  | unknown _ hshort _ => exact absurd hlong (not_lt.mpr hshort)
  | unfit _ _ _ _ => rfl
  | exact _ hshort _ _ _ _ _ => exact absurd hlong (not_lt.mpr hshort)

theorem unknown_iff (h : Verdict text s answer) (hnum : ¬ Malformed s.number)
    (hshort : s.number.countP Char.isDigit ≤ 24) (t u : String) :
    answer = .error (.unknownSuffix t u) ↔
      t = .ofList text ∧ u = .ofList s.suffix ∧ ∀ scale, ¬ Suffix s.suffix scale := by
  cases h with
  | malformed h => exact absurd h hnum
  | long _ hlong => exact absurd hlong (not_lt.mpr hshort)
  | unknown _ _ hsuffix => simp [hsuffix, eq_comm]
  | unfit _ _ hsuffix _ => simpa using fun _ _ => ⟨_,hsuffix⟩
  | exact _ _ hsuffix _ _ _ _ => simpa using fun _ _ => ⟨_,hsuffix⟩

theorem keeps {q : Quantity} (h : Verdict text s (.ok q)) (hs : Spelled text s) :
    ∃ whole fraction scale, Pointed s.number whole fraction ∧ Suffix s.suffix scale ∧
      Keeps q text (signed s.negative (magnitude whole fraction scale)) := by
  cases h with
  | @exact whole fraction scale _ hpointed _ hsuffix _ _ htext hnanos =>
    have hm := magnitude_nonneg whole fraction scale
    have hvalue : text.head? ≠ some '-' →
        q.value.toInt = min (2 ^ 63 - 1) ⌈signed s.negative (magnitude whole fraction scale)⌉ ∧
        q.milliValue.toInt =
          min (2 ^ 63 - 1) ⌈1000 * signed s.negative (magnitude whole fraction scale)⌉ := by
      intro hhead
      have hneg := hs.negative_eq_false hhead
      rw [hneg] at hnanos ⊢
      exact value_ceil hm hnanos
    refine ⟨whole,fraction,scale,hpointed,hsuffix,htext,?_,fun h => (hvalue h).1,
      fun h => (hvalue h).2⟩
    rw [hnanos, abs_signed _ hm, sign_mul_ceil _ hm]

theorem ok_or_outOfRange (h : Verdict text s answer) (hs : Spelled text s)
    {whole fraction : List Char} {scale : Scale} (hpointed : Pointed s.number whole fraction)
    (hshort : s.number.countP Char.isDigit ≤ 24) (hsuffix : Suffix s.suffix scale) :
    (scale.exponent.natAbs ≤ 64 ∧ Fits whole fraction scale → ∃ q, answer = .ok q) ∧
      (¬ (scale.exponent.natAbs ≤ 64 ∧ Fits whole fraction scale) →
        answer = .error (.outOfRange (.ofList text))) := by
  cases h with
  | malformed h => exact absurd h hpointed.not_malformed
  | long _ hlong => exact absurd hlong (not_lt.mpr hshort)
  | unknown _ _ hnone => exact absurd hsuffix (hnone scale)
  | unfit hpointed' _ hsuffix' hfits =>
    obtain ⟨_,rfl,rfl⟩ := (Spelling.pointed_iff hs.number_chars).mp hpointed
    obtain ⟨_,rfl,rfl⟩ := (Spelling.pointed_iff hs.number_chars).mp hpointed'
    obtain rfl := hsuffix.unique hsuffix'
    exact ⟨fun h => absurd h hfits,fun _ => rfl⟩
  | exact hpointed' _ hsuffix' hexponent hfits _ _ =>
    obtain ⟨_,rfl,rfl⟩ := (Spelling.pointed_iff hs.number_chars).mp hpointed
    obtain ⟨_,rfl,rfl⟩ := (Spelling.pointed_iff hs.number_chars).mp hpointed'
    obtain rfl := hsuffix.unique hsuffix'
    exact ⟨fun _ => ⟨_,rfl⟩,fun h => absurd ⟨hexponent,hfits⟩ h⟩

end Verdict

/-- Reading a quantity follows the grammar: each error has its one cause, what is read is exact, and
a text of the grammar is refused only for its length or its range. What becomes of the exponent
`-2 ^ 31`, whose magnitude is no signed number of 32 bits, is left open. -/
theorem parse_by_grammar (input : String) :
    ∃ text, (∀ t, Trimmed input.toList t ↔ t = text) ∧
      (parse input = .error .empty ↔ text = []) ∧
      (text ≠ [] → ∃ s, (∀ t, Spelled text t ↔ t = s) ∧
        (∀ t, parse input = .error (.invalidNumber t) ↔ t = .ofList text ∧ Malformed s.number) ∧
        (¬ Malformed s.number → 24 < s.number.countP Char.isDigit →
          parse input = .error (.outOfRange (.ofList text))) ∧
        (¬ Malformed s.number → s.number.countP Char.isDigit ≤ 24 → ∀ t u,
          parse input = .error (.unknownSuffix t u) ↔
            t = .ofList text ∧ u = .ofList s.suffix ∧ ∀ scale, ¬ Suffix s.suffix scale) ∧
        (∀ q, parse input = .ok q → ∃ whole fraction scale,
          Pointed s.number whole fraction ∧ Suffix s.suffix scale ∧
            Keeps q text (signed s.negative (magnitude whole fraction scale))) ∧
        ∀ whole fraction scale, Pointed s.number whole fraction →
          s.number.countP Char.isDigit ≤ 24 → Suffix s.suffix scale →
            (scale.exponent.natAbs ≤ 64 ∧ Fits whole fraction scale → ∃ q, parse input = .ok q) ∧
            (scale.exponent ≠ -2 ^ 31 →
              ¬ (scale.exponent.natAbs ≤ 64 ∧ Fits whole fraction scale) →
                parse input = .error (.outOfRange (.ofList text)))) := by
  refine ⟨trim input.toList,fun t => trimmed_iff,parse_eq_empty_iff input,?_⟩
  intro hne
  have hs : Spelled (trim input.toList) (.ofChars (trim input.toList)) := spelled_iff.mpr rfl
  have h := verdict_parse rfl hne hs
  refine ⟨_,fun t => spelled_iff,h.invalid_iff,h.eq_outOfRange,h.unknown_iff,?_,?_⟩
  · intro q hq
    rw [hq] at h
    exact h.keeps hs
  · intro whole fraction scale hpointed hshort hsuffix
    obtain ⟨hread,hrefused⟩ := h.ok_or_outOfRange hs hpointed hshort hsuffix
    exact ⟨hread,fun _ => hrefused⟩

example : parse "\t-.5Ki " = .ok ⟨"-.5Ki",-512 * 10 ^ 9⟩ ∧ parse "1e-20" = .ok ⟨"1e-20",1⟩ ∧
    parse "0e30" = .error (.outOfRange "0e30") := by
  decide +kernel

end NodeRank.Quantity
