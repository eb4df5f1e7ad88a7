import NodeRank.Proofs.Resource.Dimension
import NodeRank.Proofs.Scoring.Floor
import NodeRank.Proofs.Scoring.Uncancelled
import NodeRank.Proofs.Scoring.WeightedSum

/-! # The weighted floor formula

The score of a node is the floor of the hundredfold weighted utilization, put on the scale from
zero to a hundred. The sums are exact where the hundredfold of the capacity and the magnitudes of
the costs are within range, and weights of up to `10 ^ 17` in total ensure that for every node.
-/
namespace NodeRank
open Capped

namespace NodeState

theorem amount_allocatable_nonneg (n : Node) (pods : List Pod) (d : Dimension) :
    0 ≤ (((ofNode n).addPods pods).allocatable.amount d).toInt := by
  rw [allocatable_addPods]
  exact Resources.amount_less_nonneg _ _ d

theorem share_allocatable_nonneg {s : NodeState} (h : ∀ d, 0 ≤ (s.allocatable.amount d).toInt)
    (name : String) (usage : Option Usage) : 0 ≤ (s.share name usage).allocatable.toInt := by
  have hrequested : 0 ≤ (s.requestedShare name).allocatable.toInt := by
    unfold requestedShare
    split_ifs
    · exact h .milliCpu
    · exact h .memory
    · exact h .pods
    · exact h .ephemeralStorage
    · exact h (.scalar name)
    · exact toInt_zero.ge
  unfold share readingShare?
  cases usage with
  | none => exact hrequested
  | some u =>
    dsimp only
    split_ifs
    · exact h .milliCpu
    · exact h .memory
    · exact hrequested

end NodeState

namespace Weights

/-- The exact weighted capacity of a node. -/
def capacity (w : Weights) (state : NodeState) (usage : Option Usage) : Int :=
  w.weighted fun name => (state.share name usage).allocatable.toInt

def cost (w : Weights) (state : NodeState) (usage : Option Usage) : Int :=
  w.weighted fun name => (state.share name usage).cost.toInt

/-- The weighted magnitudes of the costs of a node. -/
def load (w : Weights) (state : NodeState) (usage : Option Usage) : Int :=
  w.weighted fun name => ((state.share name usage).cost.toInt.natAbs : Int)

theorem capacity_nonneg (w : Weights) (n : Node) (pods : List Pod) (usage : Option Usage) :
    0 ≤ w.capacity ((NodeState.ofNode n).addPods pods) usage :=
  weighted_nonneg w fun e _ =>
    NodeState.share_allocatable_nonneg (NodeState.amount_allocatable_nonneg n pods) e.1 usage

theorem capacity_le (w : Weights) (state : NodeState) (usage : Option Usage) :
    w.capacity state usage ≤ (span 63 - 1) * w.total := by
  refine (weighted_mono w fun name => ?_).trans_eq (weighted_const w _)
  have hlt := (state.share name usage).allocatable.lt
  omega

theorem load_le (w : Weights) (state : NodeState) (usage : Option Usage) :
    w.load state usage ≤ span 63 * w.total := by
  refine (weighted_mono w fun name => ?_).trans_eq (weighted_const w _)
  have hge := (state.share name usage).cost.ge
  have hlt := (state.share name usage).cost.lt
  omega

end Weights

namespace Scorer

theorem tally_allocatable_eq (w : Weights) (n : Node) (pods : List Pod) (usage : Option Usage) :
    (Tally.ofTable w (((NodeState.ofNode n).addPods pods).share · usage)).allocatable.toInt =
      cap 127 (w.capacity ((NodeState.ofNode n).addPods pods) usage) :=
  Tally.allocatable_ofTable_eq_cap w fun e _ =>
    NodeState.share_allocatable_nonneg (NodeState.amount_allocatable_nonneg n pods) e.1 usage

theorem scoreWith_mem (s : Scorer) (state : NodeState) (usage : Option Usage) :
    0 ≤ s.scoreWith state usage ∧ s.scoreWith state usage ≤ 100 :=
  Policy.score_mem s.policy _ _

theorem scoreWith_eq_idleScore (s : Scorer) {n : Node} {pods : List Pod} {usage : Option Usage}
    (h : s.weights.capacity ((NodeState.ofNode n).addPods pods) usage = 0) :
    s.scoreWith ((NodeState.ofNode n).addPods pods) usage = s.policy.idleScore := by
  have ha := tally_allocatable_eq s.weights n pods usage
  have hb := span_pos 127
  rw [h, cap_eq_self (by omega) hb] at ha
  exact Policy.score_of_nonpos _ _ ha.le

/-- A capacity within range makes the score the exact one, whatever the size of costs that are
mergeable, as long as no resource of the table has a negative capacity. -/
theorem scoreWith_eq_exactScore_of_nonneg (s : Scorer) {state : NodeState} {usage : Option Usage}
    (hnonneg : ∀ e ∈ s.weights.counted, 0 ≤ (state.share e.1 usage).allocatable.toInt)
    (hpos : 0 < s.weights.capacity state usage)
    (hcap : 100 * s.weights.capacity state usage < span 127)
    (hcost : Mergeable 127 (s.weights.terms fun name => (state.share name usage).cost.toInt)) :
    s.scoreWith state usage =
      s.policy.exactScore (s.weights.cost state usage) (s.weights.capacity state usage) := by
  have ha : (Tally.ofTable s.weights (state.share · usage)).allocatable.toInt =
      cap 127 (s.weights.capacity state usage) := Tally.allocatable_ofTable_eq_cap _ hnonneg
  rw [cap_eq_self (by omega) (by omega)] at ha
  unfold scoreWith
  dsimp only
  rw [Policy.score_eq_exactScore _ _ _ (by omega) (by omega), ha, Tally.cost_ofTable_eq_cap _ hcost]
  exact s.policy.exactScore_cap _ hpos hcap

theorem scoreWith_eq_exactScore_of_mergeable (s : Scorer) {n : Node} {pods : List Pod}
    {usage : Option Usage}
    (hpos : 0 < s.weights.capacity ((NodeState.ofNode n).addPods pods) usage)
    (hcap : 100 * s.weights.capacity ((NodeState.ofNode n).addPods pods) usage < span 127)
    (hcost : Mergeable 127 (s.weights.terms fun name =>
      (((NodeState.ofNode n).addPods pods).share name usage).cost.toInt)) :
    s.scoreWith ((NodeState.ofNode n).addPods pods) usage =
      s.policy.exactScore (s.weights.cost ((NodeState.ofNode n).addPods pods) usage)
        (s.weights.capacity ((NodeState.ofNode n).addPods pods) usage) :=
  s.scoreWith_eq_exactScore_of_nonneg
    (fun e _ => NodeState.share_allocatable_nonneg (NodeState.amount_allocatable_nonneg n pods)
      e.1 usage) hpos hcap hcost

/-- Sums within range make the score the exact one. -/
theorem scoreWith_eq_exactScore (s : Scorer) {n : Node} {pods : List Pod} {usage : Option Usage}
    (hpos : 0 < s.weights.capacity ((NodeState.ofNode n).addPods pods) usage)
    (hcap : 100 * s.weights.capacity ((NodeState.ofNode n).addPods pods) usage < span 127)
    (hload : s.weights.load ((NodeState.ofNode n).addPods pods) usage < span 127) :
    s.scoreWith ((NodeState.ofNode n).addPods pods) usage =
      s.policy.exactScore (s.weights.cost ((NodeState.ofNode n).addPods pods) usage)
        (s.weights.capacity ((NodeState.ofNode n).addPods pods) usage) := by
  refine s.scoreWith_eq_exactScore_of_mergeable hpos hcap (.inr ?_)
  rwa [Weights.magnitude_terms]

/-- Weights of up to `10 ^ 17` in total keep every sum within range. -/
theorem within_range_of_total {w : Weights} (h : w.total ≤ 10 ^ 17) (state : NodeState)
    (usage : Option Usage) :
    100 * w.capacity state usage < span 127 ∧ w.load state usage < span 127 := by
  have hc := w.capacity_le state usage
  have hl := w.load_le state usage
  rw [span_63] at hc hl
  rw [span_127]
  omega

theorem warnings_logWith_iff (s : Scorer) (n : Node) (pods : List Pod) (usage : Option Usage) :
    (s.logWith ((NodeState.ofNode n).addPods pods) usage).filter Record.isWarning =
      if s.weights.capacity ((NodeState.ofNode n).addPods pods) usage = 0 then
        [.withoutCapacity n.name] else [] := by
  have hname : ((NodeState.ofNode n).addPods pods).nodeName = n.name := by
    unfold NodeState.nodeName
    rw [NodeState.node_addPods]
    rfl
  have hnonneg := s.weights.capacity_nonneg n pods usage
  have hiff : cap 127 (s.weights.capacity ((NodeState.ofNode n).addPods pods) usage) ≤ 0 ↔
      s.weights.capacity ((NodeState.ofNode n).addPods pods) usage = 0 := by
    have hb := span_127
    unfold cap
    omega
  rw [warnings_logWith, tally_allocatable_eq, hname]
  simp only [hiff]

/-- The score of a node, for every table and every answer of telemetry. -/
theorem score_eq_weighted_floor (s : Scorer) (n : Node) (pods : List Pod)
    (hw : s.weights.isEmpty = false) :
    let state := (NodeState.ofNode n).addPods pods
    let capacity := s.weights.capacity state (s.usage? n.name)
    let cost := s.weights.cost state (s.usage? n.name)
    let load := s.weights.load state (s.usage? n.name)
    ∃ score, (s.score state .never).result = .ok score ∧ 0 ≤ score ∧ score ≤ 100 ∧
      0 ≤ capacity ∧ (capacity = 0 → score = s.policy.idleScore) ∧
      (s.score state .never).log.filter Record.isWarning =
        (if capacity = 0 then [.withoutCapacity n.name] else []) ∧
      (0 < capacity → 100 * capacity < span 127 → load < span 127 →
        score = s.policy.exactScore cost capacity) ∧
      (0 < capacity → s.weights.total ≤ 10 ^ 17 → score = s.policy.exactScore cost capacity) ∧
      Weights.standard.total ≤ 10 ^ 17 := by
  intro state capacity cost load
  have hn : state.node = some n := NodeState.node_addPods _ _
  obtain ⟨hresult,hlog⟩ := s.score_never hn hw
  obtain ⟨hlow,hhigh⟩ := s.scoreWith_mem state (s.usage? n.name)
  refine ⟨_,hresult,hlow,hhigh,s.weights.capacity_nonneg n pods _,?_,?_,?_,?_,?_⟩
  · exact s.scoreWith_eq_idleScore
  · rw [hlog]
    exact s.warnings_logWith_iff n pods _
  · exact s.scoreWith_eq_exactScore
  · intro hpos htotal
    obtain ⟨hcap,hload⟩ := within_range_of_total htotal state (s.usage? n.name)
    exact s.scoreWith_eq_exactScore hpos hcap hload
  · decide +kernel

/-- A scorer that is told of processor time below zero and of more memory than there is. -/
def misread : Scorer where
  name := "s"
  policy := .most
  weights := .ofList [("cpu", .ofInt 63 1000000), ("memory", 1), ("pods", .ofInt 63 (-1))]
  telemetry := ⟨fun _ => ⟨.ok ⟨.ofInt 63 (-2000),.ofInt 63 (12 * 2 ^ 30)⟩,3⟩,10⟩

def fourProcessors : Node :=
  ⟨"n1",.ofList [("cpu", ⟨"4",4 * 10 ^ 9⟩), ("memory", ⟨"8Gi",8 * 2 ^ 30 * 10 ^ 9⟩)],∅⟩

theorem score_misread_fourProcessors :
    misread.weights.isEmpty = false ∧
      (misread.score ((NodeState.ofNode fourProcessors).addPods []) .never).result = .ok 86 := by
  have hw : misread.weights.isEmpty = false := by decide +kernel
  obtain ⟨score,hresult,_,_,_,_,_,hexact,_⟩ := score_eq_weighted_floor misread fourProcessors [] hw
  have hscore := hexact (by decide +kernel) (by decide +kernel) (by decide +kernel)
  rw [hresult, hscore]
  exact ⟨hw,congrArg Except.ok (by decide +kernel)⟩

end Scorer
end NodeRank
