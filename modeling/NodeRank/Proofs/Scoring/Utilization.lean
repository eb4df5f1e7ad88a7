import NodeRank.Proofs.Scoring.Exact
import NodeRank.Proofs.Scoring.Load
import Mathlib.Data.Rat.Floor

/-! # Scores by utilization

Where the hundredfold of the capacity is within range, a score is a function of the utilization,
the cost over the capacity as a rational number. Nodes of different sizes are therefore ordered by
their utilization, the one way round or the other, and a factor on all weights, which is a factor on
both sums, is not seen in any score.
-/
namespace NodeRank
open Capped

namespace Policy

/-- The score of a utilization. -/
def ofUtilization (policy : Policy) (u : ℚ) : ℤ :=
  match policy with
  | .least => clampScore ⌊100 * (1 - u)⌋
  | .most => clampScore ⌊100 * u⌋

theorem ediv_eq_floor (n : ℤ) {a : ℤ} (ha : 0 ≤ a) : n / a = ⌊(n : ℚ) / a⌋ := by
  rw [Int.floor_div_cast_of_nonneg ha, Int.floor_intCast]

theorem exactScore_eq_ofUtilization (p : Policy) (cost : ℤ) {a : ℤ} (ha : 0 < a) :
    p.exactScore cost a = p.ofUtilization (cost / a) := by
  have hne : (a : ℚ) ≠ 0 := by exact_mod_cast ha.ne'
  cases p with
  | least =>
    have hfree : ((100 * (a - cost) : ℤ) : ℚ) / a = 100 * (1 - cost / a) := by
      push_cast
      field_simp
    unfold exactScore ofUtilization
    dsimp only
    rw [ediv_eq_floor _ ha.le, hfree]
  | most =>
    have hused : ((100 * cost : ℤ) : ℚ) / a = 100 * (cost / a) := by
      push_cast
      field_simp
    unfold exactScore ofUtilization
    dsimp only
    rw [ediv_eq_floor _ ha.le, hused]

theorem score_eq_ofUtilization (p : Policy) (c : Total) {a : Total} (ha : 0 < a.toInt)
    (h : 100 * a.toInt < span 127) : p.score c a = p.ofUtilization (c.toInt / a.toInt) := by
  rw [p.score_eq_exactScore c a ha h, p.exactScore_eq_ofUtilization _ ha]

theorem ofUtilization_least_antitone {u u' : ℚ} (h : u ≤ u') :
    least.ofUtilization u' ≤ least.ofUtilization u :=
  clampScore_mono (Int.floor_le_floor (by linarith))

theorem ofUtilization_most_mono {u u' : ℚ} (h : u ≤ u') :
    most.ofUtilization u ≤ most.ofUtilization u' :=
  clampScore_mono (Int.floor_le_floor (by linarith))

/-- Within the scale a whole step is seen in the score. -/
theorem clampScore_floor_lt {x y : ℚ} (hx : 0 ≤ x) (hy : y ≤ 100) (h : x + 1 ≤ y) :
    clampScore ⌊x⌋ < clampScore ⌊y⌋ := by
  have hlow : 0 ≤ ⌊x⌋ := Int.floor_nonneg.mpr hx
  have hhigh : ⌊y⌋ ≤ 100 := Int.floor_le_iff.mpr (by push_cast; linarith)
  have hstep : ⌊x⌋ + 1 ≤ ⌊y⌋ := by
    rw [← Int.floor_add_one]
    exact Int.floor_le_floor h
  unfold clampScore minScore maxScore
  omega

theorem ofUtilization_strict {u u' : ℚ} (hu : 0 ≤ u) (hu' : u' ≤ 1) (h : 1 / 100 ≤ u' - u) :
    least.ofUtilization u' < least.ofUtilization u ∧
      most.ofUtilization u < most.ofUtilization u' :=
  ⟨clampScore_floor_lt (by linarith) (by linarith) (by linarith),
    clampScore_floor_lt (by linarith) (by linarith) (by linarith)⟩

end Policy

namespace Weights

/-- Tables of the same names, one of them a multiple of the other up to a common factor. -/
def Proportional (w w' : Weights) : Prop :=
  ∃ p q : ℕ, 0 < p ∧ 0 < q ∧
    w.mapEntries (fun _ x => p * x.toInt) = w'.mapEntries fun _ x => q * x.toInt

/-- The sum of values by weights that are plain integers. -/
def sumBy (table : NameMap ℤ) (value : String → ℤ) : ℤ :=
  ((table.toList.filter fun e => 0 < e.2).map fun e => value e.1 * e.2).sum

theorem mul_weighted {p : ℕ} (hp : 0 < p) (w : Weights) (value : String → ℤ) :
    p * w.weighted value = sumBy (w.mapEntries fun _ x => p * x.toInt) value := by
  have hcounted (e : String × Amount) : decide (0 < (p : ℤ) * e.2.toInt) = decide (0 < e.2) := by
    rw [decide_eq_decide, lt_iff, toInt_zero]
    exact mul_pos_iff_of_pos_left (by omega)
  unfold sumBy weighted terms counted NameMap.mapEntries
  rw [List.filter_map, List.map_map, ← List.sum_map_mul_left]
  simp only [Function.comp_def, hcounted]
  congr 1
  apply List.map_congr_left
  intro e _
  ring

/-- The cost of a node over its capacity, both weighted. -/
def utilization (w : Weights) (state : NodeState) (usage : Option Usage) : ℚ :=
  w.cost state usage / w.capacity state usage

/-- Whether nothing of consequence to a score is capped under a table: the capacity and its
hundredfold are within range, and the costs are mergeable. -/
structure InRange (w : Weights) (state : NodeState) (usage : Option Usage) : Prop where
  capacity : 100 * w.capacity state usage < span 127
  cost : Mergeable 127 (w.terms fun name => (state.share name usage).cost.toInt)

theorem inRange_of_total {w : Weights} (h : w.total ≤ 10 ^ 17) (state : NodeState)
    (usage : Option Usage) : w.InRange state usage := by
  obtain ⟨hcap,hload⟩ := Scorer.within_range_of_total h state usage
  refine ⟨hcap,.inr ?_⟩
  rwa [magnitude_terms]

namespace Proportional
variable {w w' : Weights} (h : w.Proportional w')
include h

theorem names_eq : w.names = w'.names := by
  obtain ⟨p,q,_,_,heq⟩ := h
  have hnames := congrArg NameMap.names heq
  unfold NameMap.names NameMap.mapEntries at hnames
  rwa [List.map_map, List.map_map] at hnames

theorem exists_mul_weighted_eq : ∃ p q : ℕ, 0 < p ∧ 0 < q ∧
    ∀ value, p * w.weighted value = q * w'.weighted value := by
  obtain ⟨p,q,hp,hq,heq⟩ := h
  refine ⟨p,q,hp,hq,fun value => ?_⟩
  rw [mul_weighted hp, mul_weighted hq, heq]

theorem utilization_eq (state : NodeState) (usage : Option Usage) :
    w.utilization state usage = w'.utilization state usage := by
  obtain ⟨p,q,hp,hq,hmul⟩ := h.exists_mul_weighted_eq
  have hcost : (p : ℚ) * w.cost state usage = q * w'.cost state usage := by
    exact_mod_cast hmul _
  have hcapacity : (p : ℚ) * w.capacity state usage = q * w'.capacity state usage := by
    exact_mod_cast hmul _
  have hp : (p : ℚ) ≠ 0 := by exact_mod_cast hp.ne'
  have hq : (q : ℚ) ≠ 0 := by exact_mod_cast hq.ne'
  unfold utilization
  rw [← mul_div_mul_left _ _ hp, hcost, hcapacity, mul_div_mul_left _ _ hq]

theorem capacity_pos_iff (state : NodeState) (usage : Option Usage) :
    0 < w.capacity state usage ↔ 0 < w'.capacity state usage := by
  obtain ⟨p,q,hp,hq,hmul⟩ := h.exists_mul_weighted_eq
  have hcapacity : p * w.capacity state usage = q * w'.capacity state usage := hmul _
  have hp : (0 : ℤ) < p := by exact_mod_cast hp
  have hq : (0 : ℤ) < q := by exact_mod_cast hq
  rw [← mul_pos_iff_of_pos_left hp, hcapacity, mul_pos_iff_of_pos_left hq]

end Proportional
end Weights

namespace Scorer

theorem scoreWith_eq_ofUtilization (s : Scorer) {n : Node} {pods : List Pod}
    {usage : Option Usage}
    (hpos : 0 < s.weights.capacity ((NodeState.ofNode n).addPods pods) usage)
    (h : s.weights.InRange ((NodeState.ofNode n).addPods pods) usage) :
    s.scoreWith ((NodeState.ofNode n).addPods pods) usage =
      s.policy.ofUtilization
        (s.weights.utilization ((NodeState.ofNode n).addPods pods) usage) := by
  rw [s.scoreWith_eq_exactScore_of_mergeable hpos h.capacity h.cost,
    Policy.exactScore_eq_ofUtilization _ _ hpos]
  rfl

theorem scoreWith_eq_of_proportional (s : Scorer) {w' : Weights} (h : s.weights.Proportional w')
    (n : Node) (pods : List Pod) {usage : Option Usage}
    (hs : s.weights.InRange ((NodeState.ofNode n).addPods pods) usage)
    (hs' : w'.InRange ((NodeState.ofNode n).addPods pods) usage) :
    { s with weights := w' }.scoreWith ((NodeState.ofNode n).addPods pods) usage =
      s.scoreWith ((NodeState.ofNode n).addPods pods) usage := by
  have hiff := h.capacity_pos_iff ((NodeState.ofNode n).addPods pods) usage
  have hnonneg' := w'.capacity_nonneg n pods usage
  rcases (s.weights.capacity_nonneg n pods usage).eq_or_lt with hzero | hpos
  · have hzero' : w'.capacity ((NodeState.ofNode n).addPods pods) usage = 0 := by omega
    rw [s.scoreWith_eq_idleScore hzero.symm, scoreWith_eq_idleScore { s with weights := w' } hzero']
  · rw [s.scoreWith_eq_ofUtilization hpos hs,
      scoreWith_eq_ofUtilization { s with weights := w' } (hiff.mp hpos) hs', h.utilization_eq]

end Scorer

namespace Policy

/-- Nodes of any sizes are ordered by their utilization, one policy against the other. A factor on
all weights makes no difference, and more cost never makes a node look emptier. -/
theorem orders_by_utilization :
    (∀ c c' a a' : Total, 0 < a.toInt → a.toInt ≤ (2 ^ 127 - 1) / 100 →
      0 < a'.toInt → a'.toInt ≤ (2 ^ 127 - 1) / 100 →
      let u : ℚ := c.toInt / a.toInt
      let u' : ℚ := c'.toInt / a'.toInt
      (u ≤ u' → least.score c' a' ≤ least.score c a ∧ most.score c a ≤ most.score c' a') ∧
      (u = u' → ∀ p : Policy, p.score c a = p.score c' a') ∧
      (0 ≤ u → u' ≤ 1 → 1 / 100 ≤ u' - u →
        least.score c' a' < least.score c a ∧ most.score c a < most.score c' a') ∧
      (least.score c' a' < least.score c a → most.score c a ≤ most.score c' a')) ∧
    (∀ a c c' : Total, c.toInt ≤ c'.toInt →
      least.score c' a ≤ least.score c a ∧ most.score c a ≤ most.score c' a) ∧
    ∀ (s : Scorer) (w' : Weights), s.weights.Proportional w' → ∀ (n : Node) pods,
      let state := (NodeState.ofNode n).addPods pods
      (∀ usage, s.weights.InRange state usage → w'.InRange state usage →
        { s with weights := w' }.scoreWith state usage = s.scoreWith state usage) ∧
      ((∀ usage, s.weights.InRange state usage ∧ w'.InRange state usage) → ∀ c,
        ({ s with weights := w' }.score state c).result = (s.score state c).result) := by
  refine ⟨?_,fun a c c' h => ⟨score_least_antitone h a,score_most_mono h a⟩,?_⟩
  · intro c c' a a' ha hrange ha' hrange' u u'
    have hscore (p : Policy) : p.score c a = p.ofUtilization u :=
      p.score_eq_ofUtilization c ha (by rw [span_127]; omega)
    have hscore' (p : Policy) : p.score c' a' = p.ofUtilization u' :=
      p.score_eq_ofUtilization c' ha' (by rw [span_127]; omega)
    simp only [hscore, hscore']
    refine ⟨fun h => ?_,fun h p => by rw [h],ofUtilization_strict,fun h => ?_⟩
    · exact ⟨ofUtilization_least_antitone h,ofUtilization_most_mono h⟩
    -- A node that scores lower for its load is the fuller one.
    · have hlt : u < u' := by
        by_contra hle
        exact absurd (ofUtilization_least_antitone (not_lt.mp hle)) (not_le.mpr h)
      exact ofUtilization_most_mono hlt.le
  · intro s w' hw n pods state
    have hscoreWith (usage : Option Usage) (h : s.weights.InRange state usage)
        (h' : w'.InRange state usage) :
        { s with weights := w' }.scoreWith state usage = s.scoreWith state usage :=
      s.scoreWith_eq_of_proportional hw n pods h h'
    refine ⟨hscoreWith,fun hrange c => ?_⟩
    have hall : { s with weights := w' }.scoreWith state = s.scoreWith state :=
      funext fun usage => hscoreWith usage (hrange usage).1 (hrange usage).2
    rw [Scorer.result_score, Scorer.result_score, s.basis_eq_of_names hw.names_eq, hall]

/-- A small node of which a third is in use, and one of the largest that there are, all in use. -/
theorem orders_third_before_full :
    let full : Total := .ofInt 127 ((2 ^ 127 - 1) / 100)
    let s : Scorer := ⟨"s",.least,.ofList [("cpu", .ofInt 63 1048576), ("memory", 1)],.off⟩
    let w' : Weights := .ofList [("cpu", .ofInt 63 2097152), ("memory", 2)]
    let state := (NodeState.ofNode Scorer.fourProcessors).addPods []
    full.toInt = (2 ^ 127 - 1) / 100 ∧
      least.score full full < least.score 1 3 ∧ most.score 1 3 < most.score full full ∧
      least.score 3 full ≤ least.score 2 full ∧ s.weights.Proportional w' ∧
      ∀ c, ({ s with weights := w' }.score state c).result = (s.score state c).result := by
  intro full s w' state
  have hfull : full.toInt = (2 ^ 127 - 1) / 100 := by decide +kernel
  have hone : (1 : Total).toInt = 1 := by decide +kernel
  have hthree : (3 : Total).toInt = 3 := by decide +kernel
  have hproportional : s.weights.Proportional w' := ⟨2,1,by decide,by decide,by decide +kernel⟩
  obtain ⟨hacross,hwithin,hscaled⟩ := orders_by_utilization
  obtain ⟨_,_,hstrict,_⟩ := hacross 1 full 3 full (by rw [hthree]; decide) (by rw [hthree]; decide)
    (by rw [hfull]; decide) hfull.le
  have hless := hstrict (by rw [hone, hthree]; norm_num) (by rw [hfull]; norm_num)
    (by rw [hone, hthree, hfull]; norm_num)
  have hmore : least.score 3 full ≤ least.score 2 full := (hwithin full 2 3 (by decide +kernel)).1
  refine ⟨hfull,hless.1,hless.2,hmore,hproportional,?_⟩
  exact (hscaled s w' hproportional Scorer.fourProcessors []).2 fun usage =>
    ⟨Weights.inRange_of_total (by decide +kernel) _ usage,
      Weights.inRange_of_total (by decide +kernel) _ usage⟩

end Policy
end NodeRank
