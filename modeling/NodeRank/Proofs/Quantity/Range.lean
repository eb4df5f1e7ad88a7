import NodeRank.Proofs.Quantity.Amount

/-! # Quantities out of range

A text of the grammar, with an exponent of any length, is read, or it is refused for one of two
reasons: the exponent is no number of 32 binary digits, or something does not fit. What has to fit
is more than the amount. The digits count without their point and with the binary factor, and so
does the power of ten that a zero is multiplied by.
-/
namespace NodeRank.Quantity
open Text

variable {whole fraction : List Char} {scale : Scale}

/-- A suffix of the grammar, or an exponent that 32 binary digits do not hold. The least number of
32 binary digits is left out. -/
inductive LongSuffix : List Char → Scale → Prop
  | known {cs : List Char} {scale : Scale} (h : Suffix cs scale) (hne : scale.exponent ≠ -2 ^ 31) :
    LongSuffix cs scale
  | beyond {mark : Char} {cs : List Char} {n : ℤ} (hmark : mark = 'e' ∨ mark = 'E')
    (h : WritesInt cs n) (hn : n < -2 ^ 31 ∨ 2 ^ 31 ≤ n) : LongSuffix (mark :: cs) ⟨1,n⟩

theorem Suffix.exponent_mem {cs : List Char} (h : Suffix cs scale) :
    -2 ^ 31 ≤ scale.exponent ∧ scale.exponent < 2 ^ 31 := by
  have hletters : ∀ p ∈ decimalLetters, -2 ^ 31 ≤ p.2 ∧ p.2 < 2 ^ 31 := by decide
  cases h with
  | none => decide
  | binary _ => exact ⟨by norm_num,by norm_num⟩
  | decimal h => exact hletters _ h
  | exponent _ _ hge hlt => exact ⟨hge,hlt⟩

/-- No suffix of the grammar has an exponent beyond 32 binary digits. -/
theorem not_suffix_of_beyond {mark : Char} {cs : List Char} {n : ℤ} (h : WritesInt cs n)
    (hn : n < -2 ^ 31 ∨ 2 ^ 31 ≤ n) (scale : Scale) : ¬ Suffix (mark :: cs) scale := by
  intro hsuffix
  have hread := Scale.ofSuffix?_eq_some_iff.mpr hsuffix
  unfold Scale.ofSuffix? at hread
  rw [Scale.lookup_exponent h] at hread
  dsimp only at hread
  split_ifs at hread
  obtain ⟨m,hm,_⟩ := Option.map_eq_some_iff.mp hread
  obtain ⟨hwrites,hge,hlt⟩ := Scale.exponent?_eq_some_iff.mp hm
  rw [← int?_eq_some_iff] at h hwrites
  obtain rfl := Option.some.inj (h.symm.trans hwrites)
  omega

/-- Why an amount of few digits and with a small exponent does not fit all the same. -/
inductive Overflows (whole fraction : List Char) (scale : Scale) : Prop
  /-- The billionths themselves have more than 127 binary digits. -/
  | amount (h : 2 ^ 127 ≤ ⌈magnitude whole fraction scale * 10 ^ 9⌉)
  /-- The digits have too many on a binary scale when they are taken for an integer. -/
  | digits (h : 2 ^ 127 ≤ decimal (whole ++ fraction) * scale.multiplier)
  /-- The amount is zero, and the power of ten that it is multiplied by has too many. -/
  | zero (h : magnitude whole fraction scale = 0) (hshift : 30 ≤ scale.exponent - fraction.length)

theorem ceil_lt_of_fits (h : Fits whole fraction scale) :
    ⌈magnitude whole fraction scale * 10 ^ 9⌉ < 2 ^ 127 := by
  obtain ⟨hdigits,_,hnanos⟩ := h
  rw [magnitude_mul] at hnanos ⊢
  cases hshift : 9 + scale.exponent - fraction.length with
  | ofNat up =>
    rw [hshift, Int.ofNat_eq_natCast, zpow_natCast] at hnanos
    rw [Int.ofNat_eq_natCast, zpow_natCast]
    have hcast : ((decimal (whole ++ fraction) * scale.multiplier : ℕ) : ℚ) * 10 ^ up =
        (decimal (whole ++ fraction) * scale.multiplier * 10 ^ up : ℕ) := by
      push_cast
      rfl
    rw [hcast] at hnanos ⊢
    rw [Int.ceil_natCast]
    exact_mod_cast hnanos
  | negSucc down =>
    -- Nothing grows downwards, so rounding up stays below the digits themselves.
    have hpower : (10 : ℚ) ^ (Int.negSucc down) ≤ 1 :=
      zpow_le_one_of_nonpos₀ (by norm_num) (Int.negSucc_lt_zero down).le
    have hle := mul_le_of_le_one_right
      (Nat.cast_nonneg (α := ℚ) (decimal (whole ++ fraction) * scale.multiplier)) hpower
    have hceil : ⌈((decimal (whole ++ fraction) * scale.multiplier : ℕ) : ℚ) *
        10 ^ (Int.negSucc down)⌉ ≤ (decimal (whole ++ fraction) * scale.multiplier : ℕ) :=
      Int.ceil_le.mpr (by exact_mod_cast hle)
    omega

theorem pow_lt_iff_le {k : ℤ} : (10 : ℚ) ^ k < 2 ^ 127 ↔ k ≤ 38 := by
  constructor
  · intro h
    by_contra hk
    have hpower : (10 : ℚ) ^ (39 : ℤ) ≤ 10 ^ k := zpow_le_zpow_right₀ (by norm_num) (by omega)
    exact absurd (hpower.trans_lt h) (by norm_num)
  · intro h
    have hpower : (10 : ℚ) ^ k ≤ 10 ^ (38 : ℤ) := zpow_le_zpow_right₀ (by norm_num) h
    exact hpower.trans_lt (by norm_num)

/-- For an amount that is not zero the power of ten fits whenever the billionths do. -/
theorem fits_iff_not_overflows :
    Fits whole fraction scale ↔ ¬ Overflows whole fraction scale := by
  constructor
  · intro hfits hover
    cases hover with
    | amount h => exact absurd (ceil_lt_of_fits hfits) (not_lt.mpr h)
    | digits h => exact absurd hfits.digits (not_lt.mpr h)
    | zero _ hshift =>
      have hpower := pow_lt_iff_le.mp hfits.power
      omega
  · intro hover
    have hnanos : magnitude whole fraction scale * 10 ^ 9 < 2 ^ 127 := by
      by_contra hlarge
      refine hover (.amount (Int.le_ceil_iff.mpr ?_))
      push_cast
      linarith
    refine ⟨?_,?_,hnanos⟩
    · by_contra hlarge
      exact hover (.digits (not_lt.mp hlarge))
    · by_cases hzero : magnitude whole fraction scale = 0
      · rw [pow_lt_iff_le]
        by_contra hlarge
        exact hover (.zero hzero (by omega))
      · rw [magnitude_mul] at hnanos
        have hne : decimal (whole ++ fraction) * scale.multiplier ≠ 0 := by
          intro h
          apply hzero
          have hmul := magnitude_mul whole fraction scale
          rw [h, Nat.cast_zero, zero_mul] at hmul
          exact (mul_eq_zero.mp hmul).resolve_right (by norm_num)
        have hone : (1 : ℚ) ≤ (decimal (whole ++ fraction) * scale.multiplier : ℕ) := by
          exact_mod_cast Nat.one_le_iff_ne_zero.mpr hne
        exact (le_mul_of_one_le_left (by positivity) hone).trans_lt hnanos

theorem Pointed.ne_nil {number : List Char} (h : Pointed number whole fraction) : number ≠ [] := by
  cases h with
  | bare hne _ => exact hne
  | point _ _ _ => simp

theorem Spelled.ne_nil {text : List Char} {s : Spelling} (h : Spelled text s)
    (hnumber : s.number ≠ []) : text ≠ [] := by
  cases h with
  | minus _ => simp
  | plus _ => simp
  | bare _ _ h =>
    rw [← h.append]
    simpa using fun hnil => absurd hnil hnumber

/-- A text of the grammar comes to one of three answers. It is out of range if it has more than 24
digits, or if its exponent is a number of 32 binary digits and either passes 64 or something
overflows; a longer exponent makes the suffix unknown; every other text is read. -/
theorem outOfRange_iff_overflows {input : String} {text : List Char} {s : Spelling}
    (htext : Trimmed input.toList text) (hs : Spelled text s)
    (hnum : Pointed s.number whole fraction) (hsuffix : LongSuffix s.suffix scale) :
    let long := 24 < s.number.countP Char.isDigit
    let word := -2 ^ 31 < scale.exponent ∧ scale.exponent < 2 ^ 31
    let large := 64 < scale.exponent.natAbs ∨ Overflows whole fraction scale
    (parse input = .error (.outOfRange (.ofList text)) ↔ long ∨ word ∧ large) ∧
    (parse input = .error (.unknownSuffix (.ofList text) (.ofList s.suffix)) ↔ ¬ long ∧ ¬ word) ∧
    ((∃ q, parse input = .ok q) ↔ ¬ long ∧ word ∧ ¬ large) := by
  intro long word large
  have hverdict := verdict_parse (trimmed_iff.mp htext) (hs.ne_nil hnum.ne_nil) hs
  by_cases hlong : long
  · rw [hverdict.eq_outOfRange hnum.not_malformed hlong]
    simp [hlong]
  · have hshort : s.number.countP Char.isDigit ≤ 24 := not_lt.mp hlong
    have hunknown := hverdict.unknown_iff hnum.not_malformed hshort
    generalize hrest : s.suffix = rest at hsuffix hunknown ⊢
    cases hsuffix with
    | known hsuffix hne =>
      obtain ⟨hge,hlt⟩ := hsuffix.exponent_mem
      have hword : word := ⟨lt_of_le_of_ne hge hne.symm,hlt⟩
      obtain ⟨hread,hrefused⟩ := hverdict.ok_or_outOfRange hs hnum hshort (hrest ▸ hsuffix)
      rw [fits_iff_not_overflows, ← not_lt, ← not_or] at hread hrefused
      by_cases hlarge : large
      · rw [hrefused (not_not.mpr hlarge)]
        simp [hlong, hword, hlarge]
      · obtain ⟨q,hq⟩ := hread hlarge
        rw [hq]
        simp [hlong, hword, hlarge]
    | beyond hmark hwrites hn =>
      have hword : ¬ word := by
        rintro ⟨hge,hlt⟩
        dsimp only at hge hlt
        omega
      rw [(hunknown _ _).mpr ⟨rfl,rfl,not_suffix_of_beyond hwrites hn⟩]
      simp [hlong, hword]

/-- Twenty-four nines, all but one behind the point: the amount fits, the digits do not. -/
theorem outOfRange_of_many_nines :
    let nines := List.replicate 23 '9'
    let text := '-' :: '9' :: '.' :: (nines ++ ['E', 'i'])
    Trimmed (' ' :: text) text ∧ Spelled text ⟨true,'9' :: '.' :: nines,['E', 'i']⟩ ∧
      Pointed ('9' :: '.' :: nines) ['9'] nines ∧ LongSuffix ['E', 'i'] ⟨2 ^ 60,0⟩ ∧
      ⌈magnitude ['9'] nines ⟨2 ^ 60,0⟩ * 10 ^ 9⌉ < 2 ^ 127 ∧
      parse (.ofList (' ' :: text)) = .error (.outOfRange (.ofList text)) := by
  intro nines text
  have htext : Trimmed (' ' :: text) text := trimmed_iff.mpr (by decide)
  have hs : Spelled text ⟨true,'9' :: '.' :: nines,['E', 'i']⟩ := spelled_iff.mpr (by decide)
  have hnum : Pointed ('9' :: '.' :: nines) ['9'] nines :=
    @Pointed.point ['9'] nines (by simp) (by simp) (by simp [nines])
  have hsuffix : LongSuffix ['E', 'i'] ⟨2 ^ 60,0⟩ :=
    .known (.binary (c := 'E') (k := 60) (by decide)) (by norm_num)
  have hnines : decimal nines = 99999999999999999999999 := by decide +kernel
  have hnine : decimal ['9'] = 9 := rfl
  have hlength : nines.length = 23 := List.length_replicate
  refine ⟨htext,hs,hnum,hsuffix,?_,?_⟩
  · refine Int.lt_of_le_sub_one (Int.ceil_le.mpr ?_)
    unfold magnitude
    rw [hnines, hnine, hlength]
    norm_num
  · refine (outOfRange_iff_overflows (by rwa [String.toList_ofList]) hs hnum hsuffix).1.mpr
      (.inr ⟨by norm_num,.inr (.digits ?_)⟩)
    rw [decimal_append, hnines, hnine, hlength]
    norm_num

/-- Three texts that are refused although nothing is wrong with their amounts, or not for that
reason: a zero that is multiplied by a large power of ten, digits that do not fit without their
point, and an exponent far beyond 64. -/
theorem not_outOfRange_by_amount :
    (Denotes "0e30".toList 0 ∧ parse "0e30" = .error (.outOfRange "0e30")) ∧
    (Denotes "1.00000000000000000000000Ei".toList (2 ^ 60) ∧
      parse "1.00000000000000000000000Ei" =
        .error (.outOfRange "1.00000000000000000000000Ei")) ∧
    (LongSuffix "e2147483648".toList ⟨1,2147483648⟩ ∧
      parse "1e2147483648" = .error (.unknownSuffix "1e2147483648" "e2147483648")) := by
  have hzeros : decimal (List.replicate 23 '0') = 0 := by decide +kernel
  refine ⟨⟨?_,rfl⟩,⟨?_,rfl⟩,.beyond (.inl rfl) (int?_eq_some_iff.mp rfl) (.inr (by norm_num)),rfl⟩
  · have hs : Spelled "0e30".toList ⟨false,['0'],['e', '3', '0']⟩ := spelled_iff.mpr (by decide)
    have hnum : Pointed ['0'] ['0'] [] := .bare (by simp) (by simp)
    have hsuffix : Suffix ['e', '3', '0'] ⟨1,30⟩ :=
      .exponent (.inl rfl) (int?_eq_some_iff.mp rfl) (by norm_num) (by norm_num)
    have hx : signed false (magnitude ['0'] [] ⟨1,30⟩) = 0 := by
      unfold signed magnitude
      rw [show decimal ['0'] = 0 from rfl, decimal_nil]
      norm_num
    exact hx ▸ .intro hs hnum hsuffix
  · have hs : Spelled "1.00000000000000000000000Ei".toList
        ⟨false,'1' :: '.' :: List.replicate 23 '0',['E', 'i']⟩ := spelled_iff.mpr (by decide)
    have hnum : Pointed ('1' :: '.' :: List.replicate 23 '0') ['1'] (List.replicate 23 '0') :=
      @Pointed.point ['1'] _ (by simp) (by simp) (by simp)
    have hx : signed false (magnitude ['1'] (List.replicate 23 '0') ⟨2 ^ 60,0⟩) = 2 ^ 60 := by
      unfold signed magnitude
      rw [hzeros, show decimal ['1'] = 1 from rfl]
      norm_num
    exact hx ▸ .intro hs hnum (.binary (c := 'E') (k := 60) (by decide))

end NodeRank.Quantity
