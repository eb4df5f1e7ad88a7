import NodeRank.Text.Integer
import Mathlib.Data.Nat.Digits.Defs

/-! # Numbers in decimal digits

The number that digits write is the sum of their values by place, which is what reading them from
left to right with an accumulator comes to. An integer is written in digits with at most one sign.
-/
namespace NodeRank.Text

def digitValue (c : Char) : Nat := c.toNat - '0'.toNat

/-- The number that decimal digits write, the last one counting for ones. -/
def decimal (cs : List Char) : Nat := Nat.ofDigits 10 (cs.reverse.map digitValue)

@[simp] theorem decimal_nil : decimal [] = 0 := rfl

theorem decimal_append (xs ys : List Char) :
    decimal (xs ++ ys) = decimal xs * 10 ^ ys.length + decimal ys := by
  unfold decimal
  rw [List.reverse_append, List.map_append, Nat.ofDigits_append, List.length_map,
    List.length_reverse]
  ring

theorem decimal_cons (c : Char) (cs : List Char) :
    decimal (c :: cs) = digitValue c * 10 ^ cs.length + decimal cs := by
  have h := decimal_append [c] cs
  simpa [decimal] using h

/-- Digits that are read after others shift these by their number. -/
theorem foldl_digitValue (cs : List Char) (acc : Nat) :
    cs.foldl (fun n c => n * 10 + digitValue c) acc = acc * 10 ^ cs.length + decimal cs := by
  induction cs generalizing acc with
  | nil => simp
  | cons c cs ih =>
    rw [List.foldl_cons, ih, decimal_cons, List.length_cons]
    ring

theorem decimal_toDigits (n : Nat) : decimal (Nat.toDigits 10 n) = n := by
  have h := foldl_digitValue (Nat.toDigits 10 n) 0
  rw [Nat.zero_mul, Nat.zero_add] at h
  have hn := Nat.ofDigitChars_ten_toDigits (n := n)
  rw [Nat.ofDigitChars_eq_foldl] at hn
  rw [← h]
  simpa only [Nat.mul_comm, digitValue] using hn

theorem isDigit_toDigits {n : Nat} : ∀ c ∈ Nat.toDigits 10 n, c.isDigit := by
  intro c hc
  exact Nat.isDigit_of_mem_toDigits (by decide) (by decide) hc

theorem isDigit_iff {c : Char} : c.isDigit ↔ '0' ≤ c ∧ c ≤ '9' := by
  simp [Char.isDigit, Char.le_def]

theorem digitValue_lt {c : Char} (h : c.isDigit) : digitValue c < 10 := by
  have hbounds := Char.isDigit_iff_toNat.mp h
  have hzero : '0'.toNat = 48 := rfl
  have hnine : '9'.toNat = 57 := rfl
  unfold digitValue
  omega

theorem decimal_lt {cs : List Char} (h : ∀ c ∈ cs, c.isDigit) : decimal cs < 10 ^ cs.length := by
  have hlt := Nat.ofDigits_lt_base_pow_length (b := 10) (l := cs.reverse.map digitValue)
    (by decide) ?_
  · simpa [decimal] using hlt
  · intro d hd
    obtain ⟨c,hc,rfl⟩ := List.mem_map.mp hd
    exact digitValue_lt (h c (List.mem_reverse.mp hc))

/-- A number of more than one digit does not begin with a zero. -/
theorem eq_nil_of_toDigits {n : Nat} {cs : List Char} (h : Nat.toDigits 10 n = '0' :: cs) :
    cs = [] := by
  by_contra hne
  have hvalue : decimal cs = n := by
    rw [← decimal_toDigits n, h, decimal_cons]
    simp [digitValue]
  have hlt : n < 10 ^ cs.length := by
    rw [← hvalue]
    refine decimal_lt fun c hc => isDigit_toDigits c (n := n) ?_
    rw [h]
    exact List.mem_cons_of_mem _ hc
  have hlength := (Nat.length_toDigits_le_iff (by decide) (List.length_pos_iff.mpr hne)).mpr hlt
  rw [h, List.length_cons] at hlength
  omega

theorem digitOf?_eq_some_iff {c : Char} {d : Nat} :
    digitOf? 10 c = some d ↔ c.isDigit ∧ d = digitValue c := by
  unfold digitOf? digit?
  simp only [← isDigit_iff, Option.filter_eq_some_iff, decide_eq_true_eq]
  -- Letters stand for ten and more, so the base leaves the first case only.
  split_ifs with hdigit
  · have hlt := digitValue_lt hdigit
    unfold digitValue at *
    simp only [Option.some.injEq, hdigit, true_and]
    omega
  · constructor
    · rintro ⟨h,hlt⟩
      have := Option.some.inj h
      omega
    · rintro ⟨h,_⟩
      exact absurd h hdigit
  · constructor
    · rintro ⟨h,hlt⟩
      have := Option.some.inj h
      omega
    · rintro ⟨h,_⟩
      exact absurd h hdigit
  · simp [hdigit]

theorem natFrom?_eq_some_iff {cs : List Char} {acc n : Nat} :
    natFrom? 10 acc cs = some n ↔
      (∀ c ∈ cs, c.isDigit) ∧ n = acc * 10 ^ cs.length + decimal cs := by
  induction cs generalizing acc with
  | nil => simpa [natFrom?] using eq_comm
  | cons c cs ih =>
    rw [natFrom?, List.forall_mem_cons]
    cases hd : digitOf? 10 c with
    | none =>
      have hdigit : ¬ c.isDigit := by
        intro h
        have hsome := digitOf?_eq_some_iff.mpr ⟨h,rfl⟩
        rw [hd] at hsome
        cases hsome
      simp [hdigit]
    | some d =>
      obtain ⟨hdigit,rfl⟩ := digitOf?_eq_some_iff.mp hd
      have hvalue : (acc * 10 + digitValue c) * 10 ^ cs.length + decimal cs =
          acc * 10 ^ (c :: cs).length + decimal (c :: cs) := by
        rw [decimal_cons, List.length_cons]
        ring
      dsimp only
      rw [ih, hvalue]
      simp [hdigit]

theorem nat?_eq_some_iff {cs : List Char} {n : Nat} :
    nat? 10 cs = some n ↔ cs ≠ [] ∧ (∀ c ∈ cs, c.isDigit) ∧ n = decimal cs := by
  unfold nat?
  by_cases h : cs = []
  · simp [h]
  · simp [h, natFrom?_eq_some_iff]

/-- How integers are written: in digits, behind at most one sign. -/
inductive WritesInt : List Char → Int → Prop
  | bare {cs : List Char} (hne : cs ≠ []) (h : ∀ c ∈ cs, c.isDigit) : WritesInt cs (decimal cs)
  | plus {cs : List Char} (hne : cs ≠ []) (h : ∀ c ∈ cs, c.isDigit) :
    WritesInt ('+' :: cs) (decimal cs)
  | minus {cs : List Char} (hne : cs ≠ []) (h : ∀ c ∈ cs, c.isDigit) :
    WritesInt ('-' :: cs) (-(decimal cs : Int))

theorem int?_eq_some_iff {cs : List Char} {n : Int} : int? 10 cs = some n ↔ WritesInt cs n := by
  constructor
  · intro h
    unfold int? at h
    split at h
    · rename_i cs
      cases hm : nat? 10 cs with
      | none => simp [hm] at h
      | some m =>
        obtain ⟨hne,hdigits,rfl⟩ := nat?_eq_some_iff.mp hm
        simp only [hm, Option.pure_def, Option.bind_eq_bind, Option.bind_some, Option.map_some,
          Option.some.injEq] at h
        subst h
        exact .minus hne hdigits
    · obtain ⟨m,hm,rfl⟩ := Option.map_eq_some_iff.mp h
      obtain ⟨hne,hdigits,rfl⟩ := nat?_eq_some_iff.mp hm
      exact .plus hne hdigits
    · obtain ⟨m,hm,rfl⟩ := Option.map_eq_some_iff.mp h
      obtain ⟨hne,hdigits,rfl⟩ := nat?_eq_some_iff.mp hm
      exact .bare hne hdigits
  · intro h
    cases h with
    | bare hne hdigits =>
      have hm := nat?_eq_some_iff.mpr ⟨hne,hdigits,rfl⟩
      unfold int?
      split
      · exact absurd (hdigits '-' List.mem_cons_self) (by decide)
      · exact absurd (hdigits '+' List.mem_cons_self) (by decide)
      · rw [hm]
        rfl
    | plus hne hdigits =>
      rw [int?, nat?_eq_some_iff.mpr ⟨hne,hdigits,rfl⟩]
      rfl
    | minus hne hdigits =>
      rw [int?, nat?_eq_some_iff.mpr ⟨hne,hdigits,rfl⟩]
      rfl

/-- What is printed of an integer is read as that integer. -/
theorem writesInt_toString (n : Int) : WritesInt (toString n).toList n := by
  rw [Int.toString_eq_repr, Int.repr_eq_if]
  split_ifs with h
  · have hbare := WritesInt.bare (Nat.toDigits_ne_nil (n := n.toNat)) isDigit_toDigits
    rwa [decimal_toDigits, Int.toNat_of_nonneg h, ← Nat.toList_repr] at hbare
  · have hminus := WritesInt.minus (Nat.toDigits_ne_nil (n := (-n).toNat)) isDigit_toDigits
    rw [decimal_toDigits, Int.toNat_of_nonneg (by omega), Int.neg_neg, ← Nat.toList_repr] at hminus
    rwa [String.toList_append]

end NodeRank.Text
