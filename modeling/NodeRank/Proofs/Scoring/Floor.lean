import NodeRank.Scoring.Policy

/-! # Scores as floors

Where a hundredfold of the capacity is within range, no cap on the way of a score changes it: what
is cut off at an end of the range lies beyond the end of the scale as well. `exactScore` is the
score without any caps.
-/
namespace NodeRank.Policy
open Capped

/-- The score of a cost over a positive capacity in plain integers, rounded down. -/
def exactScore (policy : Policy) (cost capacity : Int) : Int :=
  match policy with
  | .least => clampScore (100 * (capacity - cost) / capacity)
  | .most => clampScore (100 * cost / capacity)

def idleScore : Policy → Int
  | .least => 100
  | .most => 0

theorem clampScore_ediv_of_ge {n a : Int} (ha : 0 < a) (h : 100 * a ≤ n) :
    clampScore (n / a) = 100 := by
  have hq := (Int.le_ediv_iff_mul_le ha).mpr h
  unfold clampScore minScore maxScore
  omega

theorem clampScore_ediv_of_nonpos {n a : Int} (ha : 0 < a) (h : n ≤ 0) :
    clampScore (n / a) = 0 := by
  have hq : n / a ≤ 0 := by
    have hle := Int.ediv_le_ediv ha h
    rwa [Int.zero_ediv] at hle
  unfold clampScore minScore maxScore
  omega

/-- Quotients score alike if they are equal or lie beyond the same end of the scale. -/
theorem clampScore_ediv_congr {m n a : Int} (ha : 0 < a)
    (h : m = n ∨ (100 * a ≤ m ∧ 100 * a ≤ n) ∨ (m ≤ 0 ∧ n ≤ 0)) :
    clampScore (m / a) = clampScore (n / a) := by
  rcases h with rfl | ⟨hm,hn⟩ | ⟨hm,hn⟩
  · rfl
  · rw [clampScore_ediv_of_ge ha hm, clampScore_ediv_of_ge ha hn]
  · rw [clampScore_ediv_of_nonpos ha hm, clampScore_ediv_of_nonpos ha hn]

/-- The cap on a hundredfold is not seen in the score. -/
theorem clampScore_cap_ediv {a : Int} (ha : 0 < a) (h : 100 * a < span 127) (n : Int) :
    clampScore (cap 127 n / a) = clampScore (n / a) := by
  apply clampScore_ediv_congr ha
  unfold cap
  omega

/-- Nor is a cap on the part of which the hundredfold is taken. -/
theorem clampScore_cap_part {a : Int} (ha : 0 < a) (h : 100 * a < span 127) (n : Int) :
    clampScore (100 * cap 127 n / a) = clampScore (100 * n / a) := by
  apply clampScore_ediv_congr ha
  unfold cap
  omega

theorem score_of_nonpos (p : Policy) (cost : Total) {allocatable : Total}
    (h : allocatable.toInt ≤ 0) : p.score cost allocatable = p.idleScore := by
  cases p <;> simp [score, h, idleScore, maxScore, minScore]

/-- A score where the hundredfold of the capacity is within range. -/
theorem score_eq_exactScore (p : Policy) (cost allocatable : Total)
    (ha : 0 < allocatable.toInt) (h : 100 * allocatable.toInt < span 127) :
    p.score cost allocatable = p.exactScore cost.toInt allocatable.toInt := by
  have hn : ¬ allocatable.toInt ≤ 0 := by omega
  cases p with
  | least =>
    simp only [score, if_neg hn, percent, toInt_ofInt, toInt_sub, maxScore, exactScore]
    rw [clampScore_cap_ediv ha h, clampScore_cap_part ha h]
  | most =>
    simp only [score, if_neg hn, percent, toInt_ofInt, maxScore, exactScore]
    exact clampScore_cap_ediv ha h _

/-- Nor does a cap on the cost change a score. -/
theorem exactScore_cap (p : Policy) (cost : Int) {a : Int} (ha : 0 < a)
    (h : 100 * a < span 127) : p.exactScore (cap 127 cost) a = p.exactScore cost a := by
  cases p with
  | least =>
    apply clampScore_ediv_congr ha
    unfold cap
    omega
  | most => exact clampScore_cap_part ha h cost

end NodeRank.Policy
