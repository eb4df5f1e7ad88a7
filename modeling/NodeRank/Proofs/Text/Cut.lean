import NodeRank.Text.Blank
import Mathlib.Data.List.TakeWhile

/-! # Where a text is cut

A text is cut behind its longest run of characters of a kind, and it is trimmed when it loses the
blanks at its ends and no more. Both are said by what the parts are, and in both ways there is one
answer.
-/
namespace NodeRank.Text

/-- `front` is the longest run of `p` at the start of `cs`, and `back` is what follows. -/
structure Cut (p : Char → Bool) (cs front back : List Char) : Prop where
  append : front ++ back = cs
  front : ∀ c ∈ front, p c
  back : ∀ c ∈ back.head?, ¬ p c

variable {p : Char → Bool} {cs front back text : List Char}

theorem cut_while (p : Char → Bool) (cs : List Char) :
    Cut p cs (cs.takeWhile p) (cs.dropWhile p) where
  append := List.takeWhile_append_dropWhile
  front _ hc := List.mem_takeWhile_imp hc
  back c hc := by
    have h := List.head?_dropWhile_not p cs
    rw [Option.mem_def.mp hc] at h
    simpa using h

theorem Cut.back_eq (h : Cut p cs front back) : back = cs.dropWhile p := by
  obtain ⟨rfl,hfront,hback⟩ := h
  rw [List.dropWhile_append_of_pos hfront]
  cases back with
  | nil => rfl
  | cons c back => rw [List.dropWhile_cons_of_neg (hback c rfl)]

theorem cut_iff : Cut p cs front back ↔ front = cs.takeWhile p ∧ back = cs.dropWhile p := by
  constructor
  · intro h
    have hback := h.back_eq
    refine ⟨?_,hback⟩
    have happend : front ++ back = cs.takeWhile p ++ back := by
      rw [h.append, hback, List.takeWhile_append_dropWhile]
    exact List.append_cancel_right happend
  · rintro ⟨rfl,rfl⟩
    exact cut_while p cs

/-- Whether a character behind the cut is of the kind does not matter to the characters before. -/
theorem Cut.append_cons (h : Cut p cs front back) {c : Char} (hc : ¬ p c) (ys : List Char) :
    Cut p (cs ++ c :: ys) front (back ++ c :: ys) where
  append := by rw [← List.append_assoc, h.append]
  front := h.front
  back d hd := by
    cases back with
    | nil =>
      obtain rfl : c = d := Option.some.inj hd
      exact hc
    | cons b back => exact h.back d hd

theorem Cut.congr {q : Char → Bool} (h : Cut p cs front back) (hpq : ∀ c ∈ cs, p c = q c) :
    Cut q cs front back where
  append := h.append
  front c hc := by
    rw [← hpq c (h.append ▸ List.mem_append_left back hc)]
    exact h.front c hc
  back c hc := by
    rw [← hpq c (h.append ▸ List.mem_append_right front (List.mem_of_mem_head? hc))]
    exact h.back c hc

/-- `text` is what lies between the blanks at the ends of `cs`. -/
structure Trimmed (cs text : List Char) : Prop where
  around : ∃ front back, front ++ (text ++ back) = cs ∧
    (∀ c ∈ front, isBlank c) ∧ ∀ c ∈ back, isBlank c
  first : ∀ c ∈ text.head?, ¬ isBlank c
  last : ∀ c ∈ text.getLast?, ¬ isBlank c

theorem trimmed_trim (cs : List Char) : Trimmed cs (trim cs) := by
  have hleft := cut_while isBlank cs
  have hright := cut_while isBlank (trimLeft cs).reverse
  have hrest : trim cs ++ ((trimLeft cs).reverse.takeWhile isBlank).reverse = trimLeft cs := by
    have h := congrArg List.reverse hright.append
    rwa [List.reverse_append, List.reverse_reverse] at h
  refine ⟨⟨_,((trimLeft cs).reverse.takeWhile isBlank).reverse,?_,hleft.front,
    fun c hc => hright.front c (List.mem_reverse.mp hc)⟩,?_,?_⟩
  · rw [hrest]
    exact hleft.append
  · intro c hc
    apply hleft.back c
    change c ∈ (trimLeft cs).head?
    rw [← hrest, List.head?_append, Option.mem_def.mp hc]
    rfl
  · intro c hc
    refine hright.back c ?_
    rwa [trim, List.getLast?_reverse] at hc

theorem Cut.trimLeft_eq (h : Cut isBlank cs front back) : trimLeft cs = back := h.back_eq.symm

theorem trimmed_iff : Trimmed cs text ↔ text = trim cs := by
  constructor
  · rintro ⟨⟨front,back,rfl,hfront,hback⟩,hfirst,hlast⟩
    cases text with
    | nil =>
      have hall : Cut isBlank (front ++ ([] ++ back)) (front ++ back) [] := by
        refine ⟨by simp,?_,by simp⟩
        intro c hc
        exact (List.mem_append.mp hc).elim (hfront c) (hback c)
      rw [trim, hall.trimLeft_eq]
      rfl
    | cons c cs =>
      have hleft : Cut isBlank (front ++ (c :: cs ++ back)) front (c :: cs ++ back) :=
        ⟨rfl,hfront,hfirst⟩
      have hright : Cut isBlank (c :: cs ++ back).reverse back.reverse (c :: cs).reverse := by
        refine ⟨List.reverse_append.symm,fun c hc => hback c (List.mem_reverse.mp hc),?_⟩
        rw [List.head?_reverse]
        exact hlast
      rw [trim, hleft.trimLeft_eq, hright.trimLeft_eq, List.reverse_reverse]
  · rintro rfl
    exact trimmed_trim cs

theorem trim_trim (cs : List Char) : trim (trim cs) = trim cs := by
  obtain ⟨_,hfirst,hlast⟩ := trimmed_trim cs
  exact (trimmed_iff.mp ⟨⟨[],[],by simp,nofun,nofun⟩,hfirst,hlast⟩).symm

/-- A text without blanks is its own trim. -/
theorem trim_of_not_isBlank (h : ∀ c ∈ cs, ¬ isBlank c) : trim cs = cs :=
  (trimmed_iff.mp ⟨⟨[],[],by simp,nofun,nofun⟩,fun c hc => h c (List.mem_of_head? hc),
    fun c hc => h c (List.mem_of_getLast? hc)⟩).symm

theorem not_isBlank_of_isDigit {c : Char} (h : c.isDigit) : ¬ isBlank c := by
  have hbounds := Char.isDigit_iff_toNat.mp h
  have hzero : '0'.toNat = 48 := rfl
  have hnine : '9'.toNat = 57 := rfl
  simp only [isBlank, Bool.or_eq_true, Bool.and_eq_true, decide_eq_true_eq, beq_iff_eq]
  omega

end NodeRank.Text
