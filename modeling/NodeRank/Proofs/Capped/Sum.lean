import NodeRank.Capped
import Mathlib.Algebra.Order.BigOperators.Group.List
import Mathlib.Algebra.Order.Ring.Int
import Mathlib.Data.List.Infix

/-! # Sums that are capped on the way

A running sum that stops at the ends of its range depends on the order of its terms and on the way
they are grouped. It does not for `Mergeable` lists: their running sum is one cap of the exact sum,
and parts of them may be summed and capped on their own. Where no sum on the way leaves the range
(`Unstopped`), the running sum is the exact one.
-/
namespace NodeRank.Capped
variable {b : Nat}

/-- The sum of integers that is capped after each of them. -/
def runningSum (b : Nat) (xs : List Int) : Int := xs.foldl (fun s x => cap b (s + x)) 0

def magnitude (xs : List Int) : Int := (xs.map fun x => (x.natAbs : Int)).sum

/-- No term is negative, or the range holds the sum of all magnitudes. -/
def Mergeable (b : Nat) (xs : List Int) : Prop := (∀ x ∈ xs, 0 ≤ x) ∨ magnitude xs < span b

theorem magnitude_nonneg (xs : List Int) : 0 ≤ magnitude xs := by
  apply List.sum_nonneg
  intro y hy
  obtain ⟨x,_,rfl⟩ := List.mem_map.mp hy
  omega

theorem magnitude_append (xs ys : List Int) :
    magnitude (xs ++ ys) = magnitude xs + magnitude ys := by
  unfold magnitude
  rw [List.map_append, List.sum_append]

theorem natAbs_sum_le (xs : List Int) : (xs.sum.natAbs : Int) ≤ magnitude xs := by
  induction xs with
  | nil => simp [magnitude]
  | cons x xs ih =>
    have h := magnitude_append [x] xs
    have hx : magnitude [x] = x.natAbs := by simp [magnitude]
    rw [List.singleton_append] at h
    rw [List.sum_cons]
    omega

theorem Mergeable.left {xs ys : List Int} (h : Mergeable b (xs ++ ys)) : Mergeable b xs := by
  rcases h with h | h
  · exact .inl fun x hx => h x (List.mem_append_left _ hx)
  · rw [magnitude_append] at h
    have hys := magnitude_nonneg ys
    exact .inr (by omega)

theorem Mergeable.right {xs ys : List Int} (h : Mergeable b (xs ++ ys)) : Mergeable b ys := by
  rcases h with h | h
  · exact .inl fun x hx => h x (List.mem_append_right _ hx)
  · rw [magnitude_append] at h
    have hxs := magnitude_nonneg xs
    exact .inr (by omega)

theorem Mergeable.perm {xs ys : List Int} (h : Mergeable b xs) (hp : xs.Perm ys) :
    Mergeable b ys := by
  rcases h with h | h
  · exact .inl fun x hx => h x (hp.mem_iff.mpr hx)
  · have hm : magnitude xs = magnitude ys := (hp.map _).sum_eq
    exact .inr (hm ▸ h)

theorem cap_sum_of_magnitude {xs : List Int} (h : magnitude xs < span b) :
    cap b xs.sum = xs.sum := by
  have hs := natAbs_sum_le xs
  exact cap_eq_self (by omega) (by omega)

/-- Two parts that are capped on their own add up to one cap of the exact sum. -/
theorem Mergeable.cap_add {xs ys : List Int} (h : Mergeable b (xs ++ ys)) :
    cap b (cap b xs.sum + cap b ys.sum) = cap b (xs ++ ys).sum := by
  rw [List.sum_append]
  have hb := span_pos b
  rcases h with h | h
  · have hx := List.sum_nonneg fun x hx => h x (List.mem_append_left ys hx)
    have hy := List.sum_nonneg fun y hy => h y (List.mem_append_right xs hy)
    unfold cap
    omega
  · rw [magnitude_append] at h
    have hx := magnitude_nonneg xs
    have hy := magnitude_nonneg ys
    rw [cap_sum_of_magnitude (by omega : magnitude xs < span b),
      cap_sum_of_magnitude (by omega : magnitude ys < span b)]

theorem Mergeable.cap_add_term {xs : List Int} {y : Int} (h : Mergeable b (xs ++ [y])) :
    cap b (cap b xs.sum + y) = cap b (xs ++ [y]).sum := by
  rw [List.sum_append, List.sum_singleton]
  have hb := span_pos b
  rcases h with h | h
  · have hx := List.sum_nonneg fun x hx => h x (List.mem_append_left [y] hx)
    have hy := h y (List.mem_append_right xs List.mem_cons_self)
    unfold cap
    omega
  · rw [magnitude_append] at h
    have hy := magnitude_nonneg [y]
    rw [cap_sum_of_magnitude (by omega : magnitude xs < span b)]

theorem cap_sum_nil : cap b ([] : List Int).sum = 0 :=
  cap_sum_of_magnitude (by simp [magnitude, span_pos])

theorem Mergeable.foldl_cap {xs ys : List Int} (h : Mergeable b (xs ++ ys)) :
    ys.foldl (fun s y => cap b (s + y)) (cap b xs.sum) = cap b (xs ++ ys).sum := by
  induction ys generalizing xs with
  | nil => simp
  | cons y ys ih =>
    have h' : Mergeable b ((xs ++ [y]) ++ ys) := by simpa using h
    rw [List.foldl_cons, h'.left.cap_add_term, ih h']
    simp

/-- The running sum of a mergeable list is one cap of its exact sum. -/
theorem Mergeable.runningSum_eq {xs : List Int} (h : Mergeable b xs) :
    runningSum b xs = cap b xs.sum := by
  have hf := (show Mergeable b ([] ++ xs) from h).foldl_cap
  rwa [cap_sum_nil, List.nil_append] at hf

theorem Mergeable.foldl_runningSum {xs : List Int} {yss : List (List Int)}
    (h : Mergeable b (xs ++ yss.flatten)) :
    (yss.map (runningSum b)).foldl (fun s y => cap b (s + y)) (cap b xs.sum) =
      cap b (xs ++ yss.flatten).sum := by
  induction yss generalizing xs with
  | nil => simp
  | cons ys yss ih =>
    have h' : Mergeable b ((xs ++ ys) ++ yss.flatten) := by simpa using h
    rw [List.map_cons, List.foldl_cons, h'.left.right.runningSum_eq, h'.left.cap_add, ih h']
    simp

/-- Running sums of running sums are one cap of the exact sum of all terms. -/
theorem Mergeable.runningSum_flatten {yss : List (List Int)} (h : Mergeable b yss.flatten) :
    runningSum b (yss.map (runningSum b)) = cap b yss.flatten.sum := by
  have hf := (show Mergeable b ([] ++ yss.flatten) from h).foldl_runningSum
  rwa [cap_sum_nil, List.nil_append] at hf

/-- The only end at which a mergeable sum stops is the upper one. -/
theorem Mergeable.cap_eq_min {xs : List Int} (h : Mergeable b xs) :
    cap b xs.sum = min xs.sum (span b - 1) := by
  have hb := span_pos b
  have hs : -span b ≤ xs.sum := by
    rcases h with h | h
    · have hx := List.sum_nonneg h
      omega
    · have hx := natAbs_sum_le xs
      omega
  unfold cap
  omega

/-- A cap never widens a gap. -/
theorem cap_sub_cap_le {m n : Int} (h : m ≤ n) : cap b n - cap b m ≤ n - m := by
  unfold cap
  omega

/-- The range holds every sum on the way. -/
def Unstopped (b : Nat) (xs : List Int) : Prop := ∀ ys ∈ xs.inits, cap b ys.sum = ys.sum

instance (b : Nat) (xs : List Int) : Decidable (Unstopped b xs) :=
  inferInstanceAs (Decidable (∀ ys ∈ xs.inits, cap b ys.sum = ys.sum))

theorem Unstopped.runningSum_eq {xs : List Int} (h : Unstopped b xs) :
    runningSum b xs = xs.sum := by
  induction xs using List.reverseRecOn with
  | nil => rfl
  | append_singleton xs x ih =>
    have hfront : Unstopped b xs := fun ys hys =>
      h ys ((List.mem_inits _ _).mpr (((List.mem_inits _ _).mp hys).trans (xs.prefix_append [x])))
    have hlast := h _ ((List.mem_inits _ _).mpr (List.prefix_refl (xs ++ [x])))
    have hstep : runningSum b (xs ++ [x]) = cap b (runningSum b xs + x) := by
      unfold runningSum
      rw [List.foldl_append, List.foldl_cons, List.foldl_nil]
    rw [hstep, ih hfront, ← hlast, List.sum_append, List.sum_singleton]

end NodeRank.Capped
