import NodeRank.Capped

/-! # Scoring policies

A policy turns a weighted cost and a weighted capacity into a score from zero to a hundred. A node
without capacity counts as idle.
-/
namespace NodeRank

/-- Which nodes are preferred: those with the least utilization or those with the most. -/
inductive Policy where
  | least
  | most
deriving DecidableEq, Inhabited

namespace Policy

def maxScore : Int := 100
def minScore : Int := 0

def name : Policy → String
  | .least => "Least"
  | .most => "Most"

def ofName? (s : String) : Option Policy :=
  if s = "Least" then some .least else if s = "Most" then some .most else none

theorem ofName?_name (p : Policy) : ofName? p.name = some p := by cases p <;> decide

def clampScore (n : Int) : Int := max minScore (min n maxScore)

/-- How many hundredths of a positive capacity a part of it is, rounded down. The hundredfold of
the part is capped before the division. -/
def percent (part allocatable : Total) : Int :=
  (Capped.ofInt 127 (maxScore * part.toInt)).toInt / allocatable.toInt

def score (policy : Policy) (cost allocatable : Total) : Int :=
  match policy with
  | .least =>
    if allocatable.toInt ≤ 0 then maxScore
    else clampScore (percent (allocatable - cost) allocatable)
  | .most =>
    if allocatable.toInt ≤ 0 then minScore else clampScore (percent cost allocatable)

theorem clampScore_mem (n : Int) : minScore ≤ clampScore n ∧ clampScore n ≤ maxScore := by
  unfold clampScore minScore maxScore; omega

theorem score_mem (p : Policy) (cost allocatable : Total) :
    minScore ≤ p.score cost allocatable ∧ p.score cost allocatable ≤ maxScore := by
  cases p
  · rw [score]
    split
    · decide
    · exact clampScore_mem _
  · rw [score]
    split
    · decide
    · exact clampScore_mem _

end Policy
end NodeRank
