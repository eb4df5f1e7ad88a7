import NodeRank.Proofs.Quantity.Exact

/-! # The amount of a quantity

A text of the grammar denotes one rational number. Every quantity, read from a text or made of
thousandths, keeps a text that denotes its amount: the billionths are those of that number, rounded
away from zero.
-/
namespace NodeRank.Quantity
open Text

/-- The number that a text without blanks around it denotes. -/
inductive Denotes (text : List Char) : ℚ → Prop
  | intro {s : Spelling} {whole fraction : List Char} {scale : Scale} (hs : Spelled text s)
    (hnum : Pointed s.number whole fraction) (hsuffix : Suffix s.suffix scale) :
    Denotes text (signed s.negative (magnitude whole fraction scale))

theorem Denotes.unique {text : List Char} {x y : ℚ} (h : Denotes text x) (h' : Denotes text y) :
    x = y := by
  obtain ⟨hs,hnum,hsuffix⟩ := h
  obtain ⟨hs',hnum',hsuffix'⟩ := h'
  obtain rfl := (spelled_iff.mp hs).trans (spelled_iff.mp hs').symm
  obtain ⟨_,rfl,rfl⟩ := (Spelling.pointed_iff hs.number_chars).mp hnum
  obtain ⟨_,rfl,rfl⟩ := (Spelling.pointed_iff hs.number_chars).mp hnum'
  rw [hsuffix.unique hsuffix']

theorem Denotes.iff_eq {text : List Char} {x : ℚ} (h : Denotes text x) (y : ℚ) :
    Denotes text y ↔ y = x := ⟨fun hy => hy.unique h,fun hy => hy ▸ h⟩

/-- The quantities that there are: what is read from texts, and what is made of thousandths. -/
inductive Made : Quantity → Prop
  | read {input : String} {q : Quantity} (h : parse input = .ok q) : Made q
  | ofMilli (m : Amount) : Made (ofMilli m)

theorem parse?_eq_some_iff {input : String} {q : Quantity} :
    parse? input = some q ↔ parse input = .ok q := by
  unfold parse?
  cases parse input with
  | error e => simp [Except.toOption]
  | ok p => simp [Except.toOption]

theorem made_of_parse? {input : String} {q : Quantity} (h : parse? input = some q) : Made q :=
  .read (parse?_eq_some_iff.mp h)

/-- What is read keeps the text without the blanks around it, and the number that this denotes. -/
theorem keeps_of_parse {input : String} {q : Quantity} (h : parse input = .ok q) :
    ∃ x, Denotes (trim input.toList) x ∧ Keeps q (trim input.toList) x := by
  have hne : trim input.toList ≠ [] := by
    intro hempty
    rw [(parse_eq_empty_iff input).mpr hempty] at h
    cases h
  have hs : Spelled (trim input.toList) (.ofChars (trim input.toList)) := spelled_iff.mpr rfl
  have hverdict := verdict_parse rfl hne hs
  rw [h] at hverdict
  obtain ⟨_,_,_,hnum,hsuffix,hkeeps⟩ := hverdict.keeps hs
  exact ⟨_,.intro hs hnum hsuffix,hkeeps⟩

theorem toList_text_of_parse {input : String} {q : Quantity} (h : parse input = .ok q) :
    q.text.toList = trim input.toList := by
  obtain ⟨_,_,hkeeps⟩ := keeps_of_parse h
  rw [hkeeps.text_eq, String.toList_ofList]

theorem denotes_of_parse {input : String} {q : Quantity} (h : parse input = .ok q) :
    ∃ x, Denotes q.text.toList x ∧ q.nanos = SignType.sign x * ⌈|x| * 10 ^ 9⌉ := by
  obtain ⟨x,hx,hkeeps⟩ := keeps_of_parse h
  rw [toList_text_of_parse h]
  exact ⟨x,hx,hkeeps.nanos⟩

/-- An integer is spelled in digits, behind a sign if it is negative. -/
theorem spelled_milli (n : ℤ) :
    Spelled ((toString n).toList ++ ['m']) ⟨n < 0,Nat.toDigits 10 n.natAbs,['m']⟩ := by
  have hcut (k : ℕ) : Cut Spelling.isNumberChar (Nat.toDigits 10 k ++ ['m']) (Nat.toDigits 10 k)
      ['m'] := by
    refine ⟨rfl,fun c hc => ?_,by simp [Spelling.isNumberChar]⟩
    rw [Spelling.isNumberChar, isDigit_toDigits c hc, Bool.true_or]
  have hhead (k : ℕ) (c : Char) (hc : c.isDigit = false) :
      (Nat.toDigits 10 k ++ ['m']).head? ≠ some c := by
    rw [List.head?_append_of_ne_nil _ Nat.toDigits_ne_nil]
    intro h
    rw [isDigit_toDigits c (List.mem_of_head? h)] at hc
    cases hc
  rw [Int.toString_eq_repr, Int.repr_eq_if]
  split_ifs with h
  · rw [Nat.toList_repr, decide_eq_false (not_lt.mpr h), show n.natAbs = n.toNat by omega]
    exact .bare (hhead _ _ (by decide)) (hhead _ _ (by decide)) (hcut _)
  · rw [String.toList_append, Nat.toList_repr, decide_eq_true (by omega),
      show n.natAbs = (-n).toNat by omega]
    exact .minus (hcut _)

theorem signed_milli (n : ℤ) : signed (n < 0) (n.natAbs / 1000) = n / 1000 := by
  unfold signed
  rw [Nat.cast_natAbs]
  by_cases h : n < 0
  · rw [if_pos (decide_eq_true h), abs_of_neg h]
    push_cast
    ring
  · rw [if_neg (by simpa using h), abs_of_nonneg (not_lt.mp h)]

theorem denotes_ofMilli (m : Amount) : Denotes (ofMilli m).text.toList (m.toInt / 1000) := by
  have hnum : Pointed (Nat.toDigits 10 m.toInt.natAbs) (Nat.toDigits 10 m.toInt.natAbs) [] :=
    .bare Nat.toDigits_ne_nil isDigit_toDigits
  have h := Denotes.intro (spelled_milli m.toInt) hnum (.decimal (c := 'm') (k := -3) (by decide))
  have htext : (ofMilli m).text.toList = (toString m.toInt).toList ++ ['m'] :=
    String.toList_append
  have hvalue : magnitude (Nat.toDigits 10 m.toInt.natAbs) [] ⟨1,-3⟩ = m.toInt.natAbs / 1000 := by
    unfold magnitude
    rw [decimal_toDigits, decimal_nil]
    norm_num
    ring
  rw [hvalue, signed_milli] at h
  rwa [htext]

theorem nanos_ofMilli (m : Amount) :
    (ofMilli m).nanos = SignType.sign (m.toInt / 1000 : ℚ) * ⌈|(m.toInt / 1000 : ℚ)| * 10 ^ 9⌉ := by
  have hnonneg : (0 : ℚ) ≤ m.toInt.natAbs / 1000 := by positivity
  have hceil : ⌈(m.toInt.natAbs / 1000 : ℚ) * 10 ^ 9⌉ = m.toInt.natAbs * 10 ^ 6 := by
    have hcast : (m.toInt.natAbs / 1000 : ℚ) * 10 ^ 9 = (m.toInt.natAbs * 10 ^ 6 : ℤ) := by
      rw [Nat.cast_natAbs]
      push_cast
      ring
    rw [hcast, Int.ceil_intCast]
  rw [← signed_milli, abs_signed _ hnonneg, sign_mul_ceil _ hnonneg, hceil]
  show m.toInt * (1000000 : ℕ) = _
  by_cases h : m.toInt < 0
  · rw [if_pos (decide_eq_true h)]
    omega
  · rw [if_neg (by simpa using h)]
    omega

/-- Every quantity keeps one number, the one that its text denotes, rounded away from zero. -/
theorem Made.denotes {q : Quantity} (h : Made q) :
    ∃ x, Denotes q.text.toList x ∧ q.nanos = SignType.sign x * ⌈|x| * 10 ^ 9⌉ := by
  cases h with
  | read h => exact denotes_of_parse h
  | ofMilli m => exact ⟨_,denotes_ofMilli m,nanos_ofMilli m⟩

end NodeRank.Quantity
