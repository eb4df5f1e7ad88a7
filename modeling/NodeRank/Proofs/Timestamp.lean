import NodeRank.Timestamp
import NodeRank.Proofs.Text.Cut
import NodeRank.Proofs.Text.Decimal

/-! # Timestamps read back

Reading keeps to what a clock in UTC shows, and what a clock shows is read back from what is
written of it.
-/
namespace NodeRank.Timestamp
open Text

/-- What a clock in UTC shows: a day of the calendar and a time of that day, which runs past its
second only in the last second of a minute. -/
structure Kept (t : Timestamp) : Prop where
  date : t.date.isValid
  second : t.second < 86400
  nanos : t.nanos < 2 * billion
  leap : billion ≤ t.nanos → t.second % 60 = 59

/-! ### Numbers -/

section Numbers
variable {width n : Nat} {cs digits rest : List Char}

theorem number?_append (hne : digits ≠ []) (hdigits : ∀ c ∈ digits, c.isDigit)
    (hlength : digits.length ≤ width)
    (hrest : digits.length = width ∨ ∀ c ∈ rest.head?, ¬ c.isDigit) :
    number? width (digits ++ rest) = some (decimal digits, rest) := by
  have hcut : Cut Char.isDigit ((digits ++ rest).take width) digits
      (rest.take (width - digits.length)) := by
    refine ⟨by rw [List.take_append, List.take_of_length_le hlength],hdigits,fun c hc => ?_⟩
    rw [List.head?_take] at hc
    split_ifs at hc with hwidth
    · cases hc
    · exact hrest.resolve_left (by omega) c hc
  unfold number?
  dsimp only
  rw [← (cut_iff.mp hcut).1, nat?_eq_some_iff.mpr ⟨hne,hdigits,rfl⟩, List.drop_left]
  rfl

theorem exists_digits_of_number? (h : number? width cs = some (n, rest)) :
    ∃ digits, digits ++ rest = cs ∧ digits.length ≤ width ∧ (∀ c ∈ digits, c.isDigit) ∧
      n = decimal digits := by
  obtain ⟨m,hm,heq⟩ := Option.map_eq_some_iff.mp h
  obtain ⟨rfl,rfl⟩ := Prod.mk.inj heq
  obtain ⟨_,hdigits,rfl⟩ := nat?_eq_some_iff.mp hm
  have hprefix : (cs.take width).takeWhile Char.isDigit <+: cs :=
    (List.takeWhile_prefix _).trans (List.take_prefix _ _)
  exact ⟨_,List.prefix_iff_eq_append.mp hprefix,
    (List.takeWhile_prefix _).length_le.trans (List.length_take_le _ _),hdigits,rfl⟩

theorem padded_ne_nil : padded width n ≠ [] := by
  intro h
  exact Nat.toDigits_ne_nil (List.append_eq_nil_iff.mp h).2

theorem isDigit_padded : ∀ c ∈ padded width n, c.isDigit := by
  intro c hc
  rcases List.mem_append.mp hc with hzero | hdigit
  · rw [List.eq_of_mem_replicate hzero]
    rfl
  · exact isDigit_toDigits c hdigit

theorem decimal_padded : decimal (padded width n) = n := by
  have hzeros (k : Nat) : decimal (List.replicate k '0') = 0 := by
    induction k with
    | zero => rfl
    | succ k ih => rw [List.replicate_succ, decimal_cons, ih]; simp [digitValue]
  unfold padded
  dsimp only
  rw [decimal_append, hzeros, decimal_toDigits, Nat.zero_mul, Nat.zero_add]

theorem length_padded (hwidth : 0 < width) (h : n < 10 ^ width) :
    (padded width n).length = width := by
  have hlength := (Nat.length_toDigits_le_iff (b := 10) (by decide) hwidth).mpr h
  unfold padded
  dsimp only
  rw [List.length_append, List.length_replicate]
  omega

theorem number?_padded (hwidth : 0 < width) (h : n < 10 ^ width) :
    number? width (padded width n ++ rest) = some (n, rest) := by
  have hlength := length_padded hwidth h
  rw [number?_append padded_ne_nil isDigit_padded hlength.le (.inl hlength), decimal_padded]

theorem exists_padded_eq_cons : ∃ c cs, padded width n = c :: cs ∧ c.isDigit := by
  have hdigits : ∀ c ∈ padded width n, c.isDigit := isDigit_padded
  obtain ⟨c,cs,hcs⟩ := List.exists_cons_of_ne_nil (padded_ne_nil : padded width n ≠ [])
  rw [hcs, List.forall_mem_cons] at hdigits
  exact ⟨c,cs,hcs,hdigits.1⟩

theorem trimLeft_cons {c : Char} (h : ¬ isBlank c) : trimLeft (c :: rest) = c :: rest :=
  List.dropWhile_cons_of_neg h

theorem trimLeft_padded : trimLeft (padded width n ++ rest) = padded width n ++ rest := by
  obtain ⟨c,cs,hcs,hc⟩ : ∃ c cs, padded width n = c :: cs ∧ c.isDigit := exists_padded_eq_cons
  rw [hcs]
  exact trimLeft_cons (not_isBlank_of_isDigit hc)

end Numbers

/-! ### What is read is kept -/

theorem fraction?_lt {cs rest : List Char} {nanos : Nat} (h : fraction? cs = some (nanos, rest)) :
    nanos < billion := by
  unfold fraction? at h
  split at h
  · simp only [Option.bind_eq_bind, Option.bind_eq_some_iff, Option.some.injEq] at h
    obtain ⟨⟨n,tail⟩,hn,heq⟩ := h
    obtain ⟨rfl,_⟩ := Prod.mk.inj heq
    obtain ⟨digits,rfl,hlength,hdigits,rfl⟩ := exists_digits_of_number? hn
    have hused : (digits ++ tail).length - tail.length = digits.length := by simp
    dsimp only
    rw [hused]
    calc decimal digits * 10 ^ (9 - digits.length)
      _ < 10 ^ digits.length * 10 ^ (9 - digits.length) :=
        Nat.mul_lt_mul_of_pos_right (decimal_lt hdigits) (by positivity)
      _ = 10 ^ 9 := by rw [← pow_add, Nat.add_sub_cancel' hlength]
  · obtain ⟨rfl,_⟩ := Prod.mk.inj (Option.some.inj h)
    decide

/-- Clocks are ahead of UTC by whole minutes. -/
theorem offset?_mod {cs rest : List Char} {offset : Int} (h : offset? cs = some (offset, rest)) :
    offset % 60 = 0 := by
  have hminutes (sign : Int) (hours minutes : Nat) :
      sign * (hours * 3600 + minutes * 60 : Nat) % 60 = 0 := by
    have hsixty : ((hours * 3600 + minutes * 60 : Nat) : Int) = 60 * (hours * 60 + minutes) := by
      push_cast
      ring
    rw [hsixty, Int.mul_left_comm]
    exact Int.mul_emod_right _ _
  have htail {sign : Int} {cs : List Char} (h : ((twoDigits? cs).bind fun hours =>
      (twoDigits? (hours.2.dropWhile fun c => c == ':' || Text.isBlank c)).bind fun minutes =>
        if hours.1 < 24 ∧ minutes.1 < 60 then
          some (sign * (hours.1 * 3600 + minutes.1 * 60 : Nat), minutes.2)
        else none) = some (offset, rest)) : offset % 60 = 0 := by
    obtain ⟨hours,_,h⟩ := Option.bind_eq_some_iff.mp h
    obtain ⟨minutes,_,h⟩ := Option.bind_eq_some_iff.mp h
    obtain ⟨_,h⟩ := Option.ite_none_right_eq_some.mp h
    obtain ⟨rfl,_⟩ := Prod.mk.inj (Option.some.inj h)
    exact hminutes sign hours.1 minutes.1
  unfold offset? at h
  split_ifs at h
  · obtain ⟨rfl,_⟩ := Prod.mk.inj (Option.some.inj h)
    rfl
  split at h
  · cases h
  split_ifs at h
  · obtain ⟨rfl,_⟩ := Prod.mk.inj (Option.some.inj h)
    rfl
  · exact htail h
  · exact htail h
  · cases h

theorem kept_of_ofLocal? {date : Date} {second nanos : Nat} {offset : Int} {t : Timestamp}
    (h : ofLocal? date second nanos offset = some t) (hoffset : offset % 60 = 0)
    (hnanos : nanos < 2 * billion) (hleap : billion ≤ nanos → second % 60 = 59) : t.Kept := by
  obtain ⟨hdate,h⟩ := Option.ite_none_right_eq_some.mp h
  obtain rfl := Option.some.inj h
  unfold secondsPerDay
  refine ⟨hdate,?_,hnanos,fun hle => ?_⟩
  · dsimp only
    omega
  · have hlast := hleap hle
    dsimp only
    omega

theorem kept_of_parse? {s : String} {t : Timestamp} (h : parse? s = some t) : t.Kept := by
  unfold parse? at h
  obtain ⟨⟨year,_⟩,_,h⟩ := Option.bind_eq_some_iff.mp h
  obtain ⟨_,_,h⟩ := Option.bind_eq_some_iff.mp h
  obtain ⟨⟨month,_⟩,_,h⟩ := Option.bind_eq_some_iff.mp h
  obtain ⟨_,_,h⟩ := Option.bind_eq_some_iff.mp h
  obtain ⟨⟨day,_⟩,_,h⟩ := Option.bind_eq_some_iff.mp h
  obtain ⟨_,_,h⟩ := Option.bind_eq_some_iff.mp h
  obtain ⟨⟨hour,_⟩,_,h⟩ := Option.bind_eq_some_iff.mp h
  obtain ⟨_,_,h⟩ := Option.bind_eq_some_iff.mp h
  obtain ⟨⟨minute,_⟩,_,h⟩ := Option.bind_eq_some_iff.mp h
  obtain ⟨_,_,h⟩ := Option.bind_eq_some_iff.mp h
  obtain ⟨⟨second,_⟩,_,h⟩ := Option.bind_eq_some_iff.mp h
  obtain ⟨⟨nanos,_⟩,hfraction,h⟩ := Option.bind_eq_some_iff.mp h
  obtain ⟨⟨offset,_⟩,hoffset,h⟩ := Option.bind_eq_some_iff.mp h
  obtain ⟨hclock,h⟩ := Option.ite_none_right_eq_some.mp h
  simp only [Bool.and_eq_true, decide_eq_true_eq] at hclock
  have hnanos := fraction?_lt hfraction
  refine kept_of_ofLocal? h (offset?_mod hoffset) ?_ ?_
  · split <;> omega
  · intro hle
    split
    · omega
    · rename_i hsecond
      rw [if_neg hsecond] at hle
      omega

/-! ### What is written is read -/

section Render
variable {n : Nat} {rest : List Char}

theorem pair?_padded (h : n < 100) : pair? (padded 2 n ++ rest) = some (n, rest) := by
  unfold pair?
  rw [trimLeft_padded, number?_padded (by decide) h]

theorem mark?_cons {c : Char} (h : ¬ isBlank c) : mark? c (c :: rest) = some rest := by
  unfold mark?
  rw [trimLeft_cons h]
  exact if_pos rfl

theorem year?_renderYear (year : Int) :
    year? (trimLeft (renderYear year ++ '-' :: rest)) = some (year, '-' :: rest) := by
  have hdigits : digits? (padded 4 year.natAbs ++ '-' :: rest) =
      some (year.natAbs, '-' :: rest) := by
    unfold digits?
    rw [number?_append padded_ne_nil isDigit_padded (by simp) (.inr (by simp)), decimal_padded]
  unfold renderYear
  split_ifs with hplain hneg
  · have hnumber :
        number? 4 (padded 4 year.toNat ++ '-' :: rest) = some (year.toNat, '-' :: rest) :=
      number?_padded (by decide) (by omega)
    rw [trimLeft_padded]
    obtain ⟨c,cs,hcs,hc⟩ : ∃ c cs, padded 4 year.toNat = c :: cs ∧ c.isDigit :=
      exists_padded_eq_cons
    rw [hcs, List.cons_append] at hnumber ⊢
    unfold year?
    -- A digit is no sign, so the number is read without one.
    split
    · exact absurd hc (by simp_all)
    · exact absurd hc (by simp_all)
    · rw [hnumber]
      exact congrArg (fun y => some (y, _)) (Int.toNat_of_nonneg hplain.1)
  · rw [List.cons_append, trimLeft_cons (by decide), year?, hdigits]
    exact congrArg (fun y => some (y, _)) (by omega)
  · rw [List.cons_append, trimLeft_cons (by decide), year?, hdigits]
    exact congrArg (fun y => some (y, _)) (by omega)

theorem fraction?_renderFraction (h : n < billion) :
    fraction? (renderFraction n ++ ['Z']) = some (n, ['Z']) := by
  have hpadded {width m : Nat} (hwidth : 0 < width) (hle : width ≤ 9) (hm : m < 10 ^ width) :
      fraction? ('.' :: padded width m ++ ['Z']) = some (m * 10 ^ (9 - width), ['Z']) := by
    have hlength := length_padded hwidth hm
    rw [List.cons_append, fraction?, number?_append padded_ne_nil isDigit_padded
      (hlength.le.trans hle) (.inr (by simp)), decimal_padded]
    simp [hlength]
  unfold billion at h
  unfold renderFraction
  split_ifs with hzero hmilli hmicro
  · rw [hzero]
    rfl
  · rw [hpadded (by decide) (by decide) (by omega), show 10 ^ (9 - 3) = 1000000 from rfl,
      Nat.div_mul_cancel (Nat.dvd_of_mod_eq_zero hmilli)]
  · rw [hpadded (by decide) (by decide) (by omega), show 10 ^ (9 - 6) = 1000 from rfl,
      Nat.div_mul_cancel (Nat.dvd_of_mod_eq_zero hmicro)]
  · rw [hpadded (by decide) (by decide) (by omega), Nat.sub_self, pow_zero, Nat.mul_one]

end Render

/-- Months and days are written in two digits. -/
theorem date_lt {d : Date} (h : d.isValid) : d.month < 100 ∧ d.day < 100 := by
  have hdays : Date.daysIn d.year d.month ≤ 31 := by
    unfold Date.daysIn
    split_ifs <;> decide
  simp only [Date.isValid, Bool.and_eq_true, decide_eq_true_eq] at h
  omega

/-- The seconds that are written beyond the last of a minute. -/
def leap (t : Timestamp) : Nat := if billion ≤ t.nanos then 1 else 0

theorem toList_render (t : Timestamp) :
    t.render.toList = renderYear t.date.year ++ '-' :: (padded 2 t.date.month ++
      '-' :: (padded 2 t.date.day ++ 'T' :: (padded 2 (t.second / 3600) ++
      ':' :: (padded 2 (t.second / 60 % 60) ++ ':' :: (padded 2 (t.second % 60 + t.leap) ++
      (renderFraction (t.nanos - t.leap * billion) ++ ['Z'])))))) := by
  unfold render leap
  simp only [String.toList_ofList, List.append_assoc, List.cons_append]

section Kept
variable {t : Timestamp}

theorem Kept.leap_cases (h : t.Kept) :
    t.leap = 0 ∧ t.nanos < billion ∨ t.leap = 1 ∧ billion ≤ t.nanos ∧ t.second % 60 = 59 := by
  unfold Timestamp.leap
  split_ifs with hle
  · exact .inr ⟨rfl,hle,h.leap hle⟩
  · exact .inl ⟨rfl,by omega⟩

theorem Kept.nanos_leap (h : t.Kept) :
    t.leap * billion ≤ t.nanos ∧ t.nanos - t.leap * billion < billion := by
  have hnanos := h.nanos
  rcases h.leap_cases with ⟨hzero,hlt⟩ | ⟨hone,hle,_⟩
  · rw [hzero]
    omega
  · rw [hone]
    omega

theorem ofLocal?_universal (h : t.Kept) : ofLocal? t.date t.second t.nanos 0 = some t := by
  have hsecond := h.second
  have hshift : (t.second : Int) % 86400 = t.second := by omega
  have hlater : ¬ (86400 : Int) ≤ t.second := by omega
  have hearlier : ¬ (t.second : Int) < 0 := by omega
  unfold ofLocal? secondsPerDay
  simp only [Int.sub_zero, if_neg hearlier, if_neg hlater, if_pos h.date, hshift,
    Int.toNat_natCast]

theorem parse?_render (h : t.Kept) : parse? t.render = some t := by
  obtain ⟨hmonth,hday⟩ := date_lt h.date
  obtain ⟨hpart,hfraction⟩ := h.nanos_leap
  have hleap := h.leap_cases
  have hsecond := h.second
  unfold parse?
  rw [toList_render]
  -- The readers take turns as the parts were written.
  refine Option.bind_eq_some_iff.mpr ⟨_,year?_renderYear _,?_⟩
  refine Option.bind_eq_some_iff.mpr ⟨_,mark?_cons (by decide),?_⟩
  refine Option.bind_eq_some_iff.mpr ⟨_,pair?_padded hmonth,?_⟩
  refine Option.bind_eq_some_iff.mpr ⟨_,mark?_cons (by decide),?_⟩
  refine Option.bind_eq_some_iff.mpr ⟨_,pair?_padded hday,?_⟩
  refine Option.bind_eq_some_iff.mpr ⟨_,rfl,?_⟩
  refine Option.bind_eq_some_iff.mpr ⟨_,pair?_padded (by omega),?_⟩
  refine Option.bind_eq_some_iff.mpr ⟨_,mark?_cons (by decide),?_⟩
  refine Option.bind_eq_some_iff.mpr ⟨_,pair?_padded (by omega),?_⟩
  refine Option.bind_eq_some_iff.mpr ⟨_,mark?_cons (by decide),?_⟩
  refine Option.bind_eq_some_iff.mpr ⟨_,pair?_padded (by omega),?_⟩
  refine Option.bind_eq_some_iff.mpr ⟨_,fraction?_renderFraction hfraction,?_⟩
  refine Option.bind_eq_some_iff.mpr ⟨(0, []),by decide,?_⟩
  have hsixtieth : (if t.second % 60 + t.leap = 60 then 1 else 0) = t.leap := by split <;> omega
  have hseconds : t.second / 3600 * 3600 + t.second / 60 % 60 * 60 +
      (t.second % 60 + t.leap - t.leap) = t.second := by omega
  have hclock : t.second / 3600 < 24 ∧ t.second / 60 % 60 < 60 ∧ t.second % 60 + t.leap ≤ 60 := by
    omega
  dsimp only
  rw [hsixtieth, hseconds, Nat.sub_add_cancel hpart, if_pos ?_]
  · exact ofLocal?_universal h
  · simp only [Bool.and_eq_true, decide_eq_true_eq]
    exact ⟨⟨⟨⟨rfl,h.date⟩,hclock.1⟩,hclock.2.1⟩,hclock.2.2⟩

end Kept
end NodeRank.Timestamp
