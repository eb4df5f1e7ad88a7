import NodeRank.Proofs.Scoring.Exact
import NodeRank.Proofs.Scoring.WeightTable

/-! # The two policies complement each other

In exact arithmetic the scores of the two policies add up to a hundred, or to one less where both
are rounded down. The cap on the hundredfold of a part takes more away than rounding does once the
capacity is large enough; `Complementary` says exactly when it does not.
-/
namespace NodeRank
open Capped

namespace Policy

/-- The ninety-ninefold of the capacity is within range; or cost and free capacity are both
positive, the hundredfold of the smaller one is within range, and the hundredfold of the larger one
does not pass the first multiple of the capacity beyond the range. -/
def Complementary (cost capacity : Int) : Prop :=
  99 * capacity < span 127 ∨
    0 < cost ∧ cost < capacity ∧ 100 * min cost (capacity - cost) < span 127 ∧
      100 * max cost (capacity - cost) ≤ ((span 127 - 1) / capacity + 1) * capacity

def partScore (part capacity : Int) : Int := clampScore (cap 127 (100 * part) / capacity)

theorem partScore_of_nonpos {x a : Int} (ha : 0 < a) (h : x ≤ 0) : partScore x a = 0 := by
  apply clampScore_ediv_of_nonpos ha
  have hb := span_pos 127
  unfold cap
  omega

/-- The whole and more of it scores ninety-nine or more only below the cap. -/
theorem le_partScore_iff {x a : Int} (ha : 0 < a) (h : a ≤ x) :
    99 ≤ partScore x a ↔ 99 * a < span 127 := by
  have hq : 99 ≤ cap 127 (100 * x) / a ↔ 99 * a ≤ cap 127 (100 * x) := Int.le_ediv_iff_mul_le ha
  have hb := span_pos 127
  have hcap : 99 * a ≤ cap 127 (100 * x) ↔ 99 * a < span 127 := by unfold cap; omega
  rw [← hcap, ← hq]
  unfold partScore clampScore minScore maxScore
  omega

/-- A proper part scores its percentage, up to the percentage at which the range ends. -/
theorem partScore_eq_min {x a : Int} (ha : 0 < a) (h0 : 0 ≤ x) (h1 : x < a) :
    partScore x a = min (100 * x / a) ((span 127 - 1) / a) := by
  have hb := span_pos 127
  have hcap : cap 127 (100 * x) = min (100 * x) (span 127 - 1) := by unfold cap; omega
  have hmin : min (100 * x) (span 127 - 1) / a = min (100 * x / a) ((span 127 - 1) / a) := by
    rcases Int.le_total (100 * x) (span 127 - 1) with h | h
    · rw [Int.min_eq_left h, Int.min_eq_left (Int.ediv_le_ediv ha h)]
    · rw [Int.min_eq_right h, Int.min_eq_right (Int.ediv_le_ediv ha h)]
  have hlow : 0 ≤ 100 * x / a := Int.ediv_nonneg (by omega) ha.le
  have hlow' : 0 ≤ (span 127 - 1) / a := Int.ediv_nonneg (by omega) ha.le
  have hhigh : 100 * x / a < 100 := (Int.ediv_lt_iff_lt_mul ha).mpr (by omega)
  unfold partScore
  rw [hcap, hmin]
  unfold clampScore minScore maxScore
  omega

/-- Percentages of two parts that make up the whole; they add up to a hundred if there is nothing
to round. -/
theorem percentages_add {x y a : Int} (ha : 0 < a) (h : x + y = a) :
    100 * x / a + 100 * y / a = 99 ∧ 100 * y / a * a ≠ 100 * y ∨
      100 * x / a + 100 * y / a = 100 ∧ 100 * y / a * a = 100 * y := by
  have hy := Int.ediv_mul_le (100 * y) ha.ne'
  have hy' := Int.lt_ediv_add_one_mul_self (100 * y) ha
  generalize 100 * y / a = v at hy hy'
  have hmul : ∀ k : Int, (k - v) * a = k * a - v * a := fun k => Int.sub_mul k v a
  have hone : (v + 1) * a = v * a + a := by rw [Int.add_mul, Int.one_mul]
  have hx : 100 - v ≤ 100 * x / a ↔ (100 - v) * a ≤ 100 * x := Int.le_ediv_iff_mul_le ha
  have hx' : 100 * x / a < 101 - v ↔ 100 * x < (101 - v) * a := Int.ediv_lt_iff_lt_mul ha
  have hx'' : 99 - v ≤ 100 * x / a ↔ (99 - v) * a ≤ 100 * x := Int.le_ediv_iff_mul_le ha
  rw [hmul] at hx hx' hx''
  omega

/-- The parts of a capacity complement each other, `x` being the smaller one. -/
theorem partScore_add_iff {x y a : Int} (hx : 0 < x) (hxy : x ≤ y) (h : x + y = a) :
    (partScore x a + partScore y a = 99 ∨ partScore x a + partScore y a = 100) ↔
      99 * a < span 127 ∨
        100 * x < span 127 ∧ 100 * y ≤ ((span 127 - 1) / a + 1) * a := by
  have ha : 0 < a := by omega
  rw [partScore_eq_min ha (by omega) (by omega), partScore_eq_min ha (by omega) (by omega)]
  have hsum := percentages_add ha h
  have huv : 100 * x / a ≤ 100 * y / a := Int.ediv_le_ediv ha (by omega)
  have hv : 100 * y / a < 100 := (Int.ediv_lt_iff_lt_mul ha).mpr (by omega)
  -- Where the range ends, in percent of the capacity.
  have hend : 99 ≤ (span 127 - 1) / a ↔ 99 * a ≤ span 127 - 1 := Int.le_ediv_iff_mul_le ha
  rcases Int.lt_or_le (100 * x) (span 127) with hlt | hge
  · have hu : 100 * x / a ≤ (span 127 - 1) / a := Int.ediv_le_ediv ha (by omega)
    rw [Int.min_eq_left hu]
    rcases Int.lt_or_le ((span 127 - 1) / a) (100 * y / a) with hcut | hkept
    · rw [Int.min_eq_right hcut.le]
      have hfull : (span 127 - 1) / a + 1 ≤ 100 * y / a ↔ ((span 127 - 1) / a + 1) * a ≤ 100 * y :=
        Int.le_ediv_iff_mul_le ha
      have hnext : (span 127 - 1) / a + 1 = 100 * y / a →
          ((span 127 - 1) / a + 1) * a = 100 * y / a * a := fun he => by rw [he]
      have hnext' : 100 * y = ((span 127 - 1) / a + 1) * a →
          100 * y / a = (span 127 - 1) / a + 1 := fun he => by
        rw [he, Int.mul_ediv_cancel _ ha.ne']
      -- One percent may be lost, and only if there is none to lose by rounding.
      rcases hsum with ⟨hsum,hround⟩ | ⟨hsum,hround⟩
      · omega
      · omega
    · rw [Int.min_eq_left hkept]
      have hbelow : 100 * y / a < (span 127 - 1) / a + 1 ↔
          100 * y < ((span 127 - 1) / a + 1) * a := Int.ediv_lt_iff_lt_mul ha
      omega
  · -- Both parts are cut off below fifty percent.
    have hu : (span 127 - 1) / a ≤ 100 * x / a := Int.ediv_le_ediv ha (by omega)
    have hhalf : (span 127 - 1) / a < 50 := (Int.ediv_lt_iff_lt_mul ha).mpr (by omega)
    rw [Int.min_eq_right hu, Int.min_eq_right (hu.trans huv)]
    omega

theorem score_least_eq (cost : Total) {allocatable : Total} (ha : 0 < allocatable.toInt) :
    Policy.least.score cost allocatable =
      partScore (cap 127 (allocatable.toInt - cost.toInt)) allocatable.toInt := by
  simp only [score, if_neg (Int.not_le.mpr ha)]
  rfl

theorem score_most_eq (cost : Total) {allocatable : Total} (ha : 0 < allocatable.toInt) :
    Policy.most.score cost allocatable = partScore cost.toInt allocatable.toInt := by
  simp only [score, if_neg (Int.not_le.mpr ha)]
  rfl

theorem least_add_most_of_nonpos (cost : Total) {allocatable : Total}
    (h : allocatable.toInt ≤ 0) :
    Policy.least.score cost allocatable + Policy.most.score cost allocatable = 100 := by
  rw [score_of_nonpos _ _ h, score_of_nonpos _ _ h]
  rfl

/-- The scores of the two policies are complementary exactly as `Complementary` says. -/
theorem least_add_most_iff (cost : Total) {allocatable : Total} (ha : 0 < allocatable.toInt) :
    (Policy.least.score cost allocatable + Policy.most.score cost allocatable = 99 ∨
      Policy.least.score cost allocatable + Policy.most.score cost allocatable = 100) ↔
      Complementary cost.toInt allocatable.toInt := by
  rw [score_least_eq cost ha, score_most_eq cost ha]
  have hge := cost.ge
  have hlt := cost.lt
  have hlt' := allocatable.lt
  generalize cost.toInt = c at *
  generalize allocatable.toInt = a at *
  unfold Complementary
  by_cases h0 : c ≤ 0
  · have hle : a ≤ cap 127 (a - c) := by unfold cap; omega
    have hiff := le_partScore_iff ha hle
    have hmem := clampScore_mem (cap 127 (100 * cap 127 (a - c)) / a)
    rw [partScore_of_nonpos ha h0]
    unfold partScore minScore maxScore at *
    omega
  · by_cases h1 : a ≤ c
    · have hfree : partScore (cap 127 (a - c)) a = 0 :=
        partScore_of_nonpos ha (by unfold cap; omega)
      have hiff := le_partScore_iff ha h1
      have hmem := clampScore_mem (cap 127 (100 * c) / a)
      rw [hfree]
      unfold partScore minScore maxScore at *
      omega
    · rw [cap_eq_self (by omega) (by omega)]
      rcases Int.le_total c (a - c) with h | h
      · have hiff := partScore_add_iff (by omega) h (by omega : c + (a - c) = a)
        rw [Int.min_eq_left h, Int.max_eq_right h]
        omega
      · have hiff := partScore_add_iff (by omega) h (by omega : (a - c) + c = a)
        rw [Int.min_eq_right h, Int.max_eq_left h]
        omega

/-- A capacity beyond the range is as little complementary as the end of the range. -/
theorem complementary_cap_iff (c : Int) {a : Int} (h : 0 ≤ a) :
    Complementary c (cap 127 a) ↔ Complementary c a := by
  by_cases hlt : a < span 127
  · rw [cap_eq_self (by omega) hlt]
  · have hb := span_127
    have hcap : cap 127 a = span 127 - 1 := by unfold cap; omega
    have hone : (span 127 - 1) / (span 127 - 1) = 1 := Int.ediv_self (by omega)
    have hzero : (span 127 - 1) / a = 0 := Int.ediv_eq_zero_of_lt (by omega) (by omega)
    unfold Complementary
    rw [hcap, hone, hzero]
    omega

end Policy

namespace Scorer

theorem scoreWith_complementary_iff (name name' : String) (w : Weights) (t t' : Telemetry)
    (n : Node) (pods : List Pod) (usage : Option Usage) :
    let state := (NodeState.ofNode n).addPods pods
    let capacity := w.capacity state usage
    let tally := Tally.ofTable w (state.share · usage)
    let sum := scoreWith ⟨name,.least,w,t⟩ state usage + scoreWith ⟨name',.most,w,t'⟩ state usage
    sum = 99 ∨ sum = 100 ↔ capacity = 0 ∨ Policy.Complementary tally.cost.toInt capacity := by
  intro state capacity tally sum
  have ha : tally.allocatable.toInt = cap 127 capacity := tally_allocatable_eq w n pods usage
  have hnonneg : 0 ≤ capacity := w.capacity_nonneg n pods usage
  have hb := span_127
  by_cases h : capacity = 0
  · have hsum : sum = 100 := by
      apply Policy.least_add_most_of_nonpos
      rw [show tally.allocatable.toInt = _ from ha, h]
      decide
    exact iff_of_true (.inr hsum) (.inl h)
  · have hpos : 0 < tally.allocatable.toInt := by rw [ha]; unfold cap; omega
    have hiff : sum = 99 ∨ sum = 100 ↔ _ := Policy.least_add_most_iff tally.cost hpos
    rw [hiff, ha, Policy.complementary_cap_iff _ hnonneg]
    exact ⟨.inr,fun hor => hor.resolve_left h⟩

/-- The scores of an accepted table under the two policies, and exactly when they complement each
other. They do for every cost where the ninety-ninefold of the capacity is within range. -/
theorem least_add_most_of_accepted {specs : List WeightSpec} {w : Weights}
    (hs : Weights.ofSpecs specs = .ok w) (name : String) (t : Telemetry) (n : Node)
    (pods : List Pod) :
    let state := (NodeState.ofNode n).addPods pods
    let least : Scorer := ⟨name,.least,w,t⟩
    let most : Scorer := ⟨name,.most,w,t⟩
    let usage := least.usage? n.name
    let capacity := w.capacity state usage
    let cost := (Tally.ofTable w (state.share · usage)).cost.toInt
    ∃ l m, (least.score state .never).result = .ok l ∧ (most.score state .never).result = .ok m ∧
      (l + m = 99 ∨ l + m = 100 ↔ capacity = 0 ∨ Policy.Complementary cost capacity) ∧
      (w.load state usage < span 127 → cost = w.cost state usage) ∧
      (99 * capacity < span 127 → l + m = 99 ∨ l + m = 100) ∧
      (w.total ≤ 10 ^ 17 → l + m = 99 ∨ l + m = 100) := by
  intro state least most usage capacity cost
  have hw := Weights.isEmpty_of_ofSpecs hs
  have hn : state.node = some n := NodeState.node_addPods _ _
  have hiff := scoreWith_complementary_iff name name w t t n pods usage
  refine ⟨_,_,(least.score_never hn hw).1,(most.score_never hn hw).1,hiff,?_,?_,?_⟩
  · exact Tally.cost_ofTable_eq w
  · intro h
    exact hiff.mpr (.inr (.inl h))
  · intro h
    have hcap : 100 * capacity < span 127 := (within_range_of_total h state usage).1
    have hnonneg : 0 ≤ capacity := w.capacity_nonneg n pods usage
    have hbound : 99 * capacity < span 127 := by omega
    exact hiff.mpr (.inr (.inl hbound))

def memoryTable (weight : Amount) : Weights := .ofList [("memory", weight)]

def halfFull : NodeState :=
  (NodeState.ofNode ⟨"n1",.ofList [("memory", ⟨"4Ei",2 ^ 62 * 10 ^ 9⟩)],∅⟩).addPods
    [⟨.zero,"p",default,"n1",[.requesting (.ofList [("memory", ⟨"2Ei",2 ^ 61 * 10 ^ 9⟩)])],∅⟩]

/-- A weight at which the capacity passes a ninety-ninth of the range, but not two of them. -/
theorem least_add_most_of_great_weight :
    Weights.ofSpecs [⟨"memory",.ofInt 63 (2 ^ 59)⟩] = .ok (memoryTable (.ofInt 63 (2 ^ 59))) ∧
      ∃ l m,
        (score ⟨"s",.least,memoryTable (.ofInt 63 (2 ^ 59)),.off⟩ halfFull .never).result = .ok l ∧
        (score ⟨"s",.most,memoryTable (.ofInt 63 (2 ^ 59)),.off⟩ halfFull .never).result = .ok m ∧
        (l + m = 99 ∨ l + m = 100) := by
  have hs : Weights.ofSpecs [⟨"memory",.ofInt 63 (2 ^ 59)⟩] =
    .ok (memoryTable (.ofInt 63 (2 ^ 59))) := by rfl
  obtain ⟨l,m,hl,hm,hiff,_⟩ := least_add_most_of_accepted hs "s" .off _ _
  refine ⟨hs,l,m,hl,hm,hiff.mpr (.inr (.inr ?_))⟩
  decide +kernel

/-- Half a node scores seven under both policies if its memory weighs as much as it can. -/
theorem not_complementary_of_full_weight :
    (Weights.ofSpecs [⟨"memory",.ofInt 63 (2 ^ 62)⟩]).toOption =
        some (memoryTable (.ofInt 63 (2 ^ 62))) ∧
      (score ⟨"s",.least,memoryTable (.ofInt 63 (2 ^ 62)),.off⟩ halfFull .never).result.toOption =
        some 7 ∧
      (score ⟨"s",.most,memoryTable (.ofInt 63 (2 ^ 62)),.off⟩ halfFull .never).result.toOption =
        some 7 := by
  decide +kernel

end Scorer
end NodeRank
