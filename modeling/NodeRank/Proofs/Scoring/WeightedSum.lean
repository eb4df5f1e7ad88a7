import NodeRank.Proofs.Capped.Sum
import NodeRank.Scoring.Scorer
import Mathlib.Algebra.BigOperators.Ring.List

/-! # Weighted sums in plain integers

A tally is two running sums over the weight table. Where the terms are mergeable, each of them is
one cap of the exact weighted sum, and a bound on the weights alone bounds that sum for every node.
-/
namespace NodeRank
open Capped

namespace Weights

def counted (w : Weights) : List (String × Amount) := w.toList.filter fun e => 0 < e.2

/-- The values of the counted names, each multiplied by the weight. -/
def terms (w : Weights) (value : String → Int) : List Int :=
  w.counted.map fun e => value e.1 * e.2.toInt

/-- The exact sum of values by weight; weights that are not positive count for nothing. -/
def weighted (w : Weights) (value : String → Int) : Int := (w.terms value).sum

def total (w : Weights) : Int := w.weighted fun _ => 1

theorem weight_pos {w : Weights} {e : String × Amount} (h : e ∈ w.counted) : 0 < e.2.toInt := by
  have hp := (List.mem_filter.mp h).2
  rw [decide_eq_true_eq, lt_iff, toInt_zero] at hp
  exact hp

theorem terms_nonneg {w : Weights} {value : String → Int} (h : ∀ e ∈ w.counted, 0 ≤ value e.1) :
    ∀ x ∈ w.terms value, 0 ≤ x := by
  intro x hx
  obtain ⟨e,he,rfl⟩ := List.mem_map.mp hx
  exact Int.mul_nonneg (h e he) (weight_pos he).le

theorem weighted_nonneg (w : Weights) {value : String → Int} (h : ∀ e ∈ w.counted, 0 ≤ value e.1) :
    0 ≤ w.weighted value := List.sum_nonneg (terms_nonneg h)

theorem magnitude_terms (w : Weights) (value : String → Int) :
    magnitude (w.terms value) = w.weighted fun name => ((value name).natAbs : Int) := by
  unfold magnitude weighted terms
  rw [List.map_map]
  congr 1
  apply List.map_congr_left
  intro e he
  have hw := weight_pos he
  simp only [Function.comp_apply, Int.natAbs_mul, Nat.cast_mul]
  rw [Int.natAbs_of_nonneg hw.le]

theorem weighted_mono (w : Weights) {f g : String → Int} (h : ∀ name, f name ≤ g name) :
    w.weighted f ≤ w.weighted g := by
  apply List.sum_le_sum
  intro e he
  exact Int.mul_le_mul_of_nonneg_right (h e.1) (weight_pos he).le

/-- A constant weighs as much as all the weights together. -/
theorem weighted_const (w : Weights) (n : Int) : w.weighted (fun _ => n) = n * w.total := by
  unfold total weighted terms
  rw [← List.sum_map_mul_left]
  simp only [Int.one_mul]

end Weights

namespace Tally

theorem toInt_foldl_add (share : String → Share) (l : List (String × Amount)) (t : Tally) :
    (l.foldl (fun t e => t.add e.2 (share e.1)) t).allocatable.toInt =
        ((l.filter fun e => 0 < e.2).map fun e => (share e.1).allocatable.toInt * e.2.toInt).foldl
          (fun s x => cap 127 (s + x)) t.allocatable.toInt ∧
      (l.foldl (fun t e => t.add e.2 (share e.1)) t).cost.toInt =
        ((l.filter fun e => 0 < e.2).map fun e => (share e.1).cost.toInt * e.2.toInt).foldl
          (fun s x => cap 127 (s + x)) t.cost.toInt := by
  induction l generalizing t with
  | nil => exact ⟨rfl,rfl⟩
  | cons e l ih =>
    have h := ih (t.add e.2 (share e.1))
    rw [List.foldl_cons]
    by_cases he : 0 < e.2
    · rw [List.filter_cons_of_pos (by simpa using he)]
      simpa [Tally.add, he] using h
    · rw [List.filter_cons_of_neg (by simpa using he)]
      simpa [Tally.add, he] using h

theorem toInt_allocatable_ofTable (w : Weights) (share : String → Share) :
    (ofTable w share).allocatable.toInt =
      runningSum 127 (w.terms fun name => (share name).allocatable.toInt) := by
  have h := (toInt_foldl_add share w.toList zero).1
  rwa [show zero.allocatable.toInt = 0 from toInt_zero] at h

theorem toInt_cost_ofTable (w : Weights) (share : String → Share) :
    (ofTable w share).cost.toInt =
      runningSum 127 (w.terms fun name => (share name).cost.toInt) := by
  have h := (toInt_foldl_add share w.toList zero).2
  rwa [show zero.cost.toInt = 0 from toInt_zero] at h

/-- Capacities that are not negative are capped once, if at all. -/
theorem allocatable_ofTable_eq_cap (w : Weights) {share : String → Share}
    (h : ∀ e ∈ w.counted, 0 ≤ (share e.1).allocatable.toInt) :
    (ofTable w share).allocatable.toInt =
      cap 127 (w.weighted fun name => (share name).allocatable.toInt) := by
  have hm : Mergeable 127 (w.terms fun name => (share name).allocatable.toInt) :=
    .inl (Weights.terms_nonneg h)
  rw [toInt_allocatable_ofTable, hm.runningSum_eq]
  rfl

/-- Costs that are mergeable are capped once, if at all. -/
theorem cost_ofTable_eq_cap (w : Weights) {share : String → Share}
    (h : Mergeable 127 (w.terms fun name => (share name).cost.toInt)) :
    (ofTable w share).cost.toInt = cap 127 (w.weighted fun name => (share name).cost.toInt) := by
  rw [toInt_cost_ofTable, h.runningSum_eq]
  rfl

/-- Costs of a total magnitude within range are not capped. -/
theorem cost_ofTable_eq (w : Weights) {share : String → Share}
    (h : w.weighted (fun name => ((share name).cost.toInt.natAbs : Int)) < span 127) :
    (ofTable w share).cost.toInt = w.weighted fun name => (share name).cost.toInt := by
  have hm : magnitude (w.terms fun name => (share name).cost.toInt) < span 127 := by
    rwa [Weights.magnitude_terms]
  rw [cost_ofTable_eq_cap w (.inr hm)]
  exact cap_sum_of_magnitude hm

end Tally
end NodeRank
