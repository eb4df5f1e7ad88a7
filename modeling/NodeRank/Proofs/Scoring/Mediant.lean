import NodeRank.Proofs.Scoring.Reading
import NodeRank.Proofs.Scoring.Utilization

/-! # A score among the scores of its resources

The utilization of a node under a table is a mediant: the weighted costs of its resources are added
up above the line and their weighted capacities below it. A mediant lies between the fractions that
it is made of, and a score goes by the utilization. So where no sum leaves its range, the score of a
node lies between the scores that it gets for one resource at a time.
-/
namespace NodeRank
open Capped

namespace Policy
variable {α : Type} {l : List α}

/-- Some fraction is not above the mediant, both multiplied out. Fractions the other way up, the
same says that some fraction is not below it. -/
theorem exists_mul_sum_le (hl : l ≠ []) (f g : α → ℤ) :
    ∃ e ∈ l, f e * (l.map g).sum ≤ g e * (l.map f).sum := by
  apply List.exists_le_of_sum_le hl
  rw [List.sum_map_mul_right, List.sum_map_mul_right, mul_comm]

theorem exactScore_of_mul_le {c c' a a' : ℤ} (ha : 0 < a) (ha' : 0 < a') (h : c * a' ≤ a * c') :
    least.exactScore c' a' ≤ least.exactScore c a ∧
      most.exactScore c a ≤ most.exactScore c' a' := by
  have hu : (c : ℚ) / a ≤ c' / a' := by
    rw [div_le_div_iff₀ (by exact_mod_cast ha) (by exact_mod_cast ha')]
    rw [mul_comm a] at h
    exact_mod_cast h
  simp only [exactScore_eq_ofUtilization _ _ ha, exactScore_eq_ofUtilization _ _ ha']
  exact ⟨ofUtilization_least_antitone hu,ofUtilization_most_mono hu⟩

/-- The score of the sums lies between the scores of the parts. -/
theorem exists_exactScore_le_le (p : Policy) (hl : l ≠ []) (cost : α → ℤ) {capacity : α → ℤ}
    (h : ∀ e ∈ l, 0 < capacity e) :
    (∃ e ∈ l, p.exactScore (cost e) (capacity e) ≤
      p.exactScore (l.map cost).sum (l.map capacity).sum) ∧
    ∃ e ∈ l, p.exactScore (l.map cost).sum (l.map capacity).sum ≤
      p.exactScore (cost e) (capacity e) := by
  have hsum : 0 < (l.map capacity).sum :=
    List.sum_pos _ (List.forall_mem_map.mpr h) (mt List.map_eq_nil_iff.mp hl)
  obtain ⟨e,he,hlow⟩ := exists_mul_sum_le hl cost capacity
  obtain ⟨e',he',hhigh⟩ := exists_mul_sum_le hl capacity cost
  have hhigh' : (l.map cost).sum * capacity e' ≤ (l.map capacity).sum * cost e' := by linarith
  have hless := exactScore_of_mul_le (h e he) hsum hlow
  have hmore := exactScore_of_mul_le hsum (h e' he') hhigh'
  cases p with
  | least => exact ⟨⟨e',he',hmore.1⟩,⟨e,he,hless.1⟩⟩
  | most => exact ⟨⟨e,he,hless.2⟩,⟨e',he',hmore.2⟩⟩

end Policy

namespace Weights

theorem counted_eq_toList {w : Weights} (h : ∀ e ∈ w.toList, 0 < e.2.toInt) :
    w.counted = w.toList := by
  apply List.filter_eq_self.mpr
  intro e he
  rw [decide_eq_true_eq, lt_iff, toInt_zero]
  exact h e he

/-- One entry as a table. -/
def single (e : String × Amount) : Weights := .ofList [e]

theorem toList_single (e : String × Amount) : (single e).toList = [e] := rfl

theorem counted_single {e : String × Amount} (h : 0 < e.2.toInt) : (single e).counted = [e] :=
  counted_eq_toList (by simpa [toList_single] using h)

theorem weighted_single {e : String × Amount} (h : 0 < e.2.toInt) (value : String → ℤ) :
    (single e).weighted value = value e.1 * e.2.toInt := by
  unfold weighted terms
  rw [counted_single h, List.map_singleton, List.sum_singleton]

/-- No entry has more than all together, where none is negative. -/
theorem weighted_single_le {w : Weights} {value : String → ℤ}
    (hvalue : ∀ e ∈ w.counted, 0 ≤ value e.1) {e : String × Amount} (he : e ∈ w.counted) :
    (single e).weighted value ≤ w.weighted value := by
  rw [weighted_single (weight_pos he)]
  exact List.single_le_sum (terms_nonneg hvalue) _ (List.mem_map_of_mem he)

end Weights

namespace Scorer

/-- The scorer for one entry of the table, as if it were all of it. -/
def only (s : Scorer) (e : String × Amount) : Scorer := { s with weights := .single e }

theorem needsUsage_only (s : Scorer) (e : String × Amount) :
    (s.only e).needsUsage = ResourceName.isMeasurable e.1 := Bool.or_false _

/-- A call for one entry is not cancelled if that for the table is not, and its reading is the same
or makes no difference. -/
theorem result_score_only {s : Scorer} {state : NodeState} {n : Node} {c : Cancellation}
    {u : Option Usage} (hn : state.node = some n) (hu : s.basis (some n) c = .ok u)
    {e : String × Amount} (he : e ∈ s.weights.toList) :
    ((s.only e).score state c).result = .ok ((s.only e).scoreWith state u) := by
  obtain ⟨hc,_,hend⟩ := basis_eq_ok_iff.mp hu
  have hcall : (s.only e).basis (some n) c =
      if (s.only e).needsUsage then (s.telemetry.usage n.name c).result else .ok none := by
    unfold basis
    rw [hc]
    rfl
  rw [result_score, hn, hcall, needsUsage_only]
  cases hmeasurable : ResourceName.isMeasurable e.1 with
  | true =>
    have hneeds : s.needsUsage = true := List.any_eq_true.mpr ⟨e,he,hmeasurable⟩
    rw [hneeds, if_pos rfl] at hend
    rw [if_pos rfl, hend]
    rfl
  | false =>
    rw [if_neg Bool.false_ne_true]
    have hneeds : (s.only e).needsUsage = false := (s.needsUsage_only e).trans hmeasurable
    exact congrArg Except.ok (scoreWith_of_not_needed hneeds state u).symm

section Positive
variable {s : Scorer} {state : NodeState} {usage : Option Usage}
variable (hweights : ∀ e ∈ s.weights.toList, 0 < e.2.toInt)
variable (hallocatable : ∀ e ∈ s.weights.toList, 0 < (state.requestedShare e.1).allocatable.toInt)
variable (hcapacity : 100 * s.weights.capacity state usage < span 127)
variable (hload : s.weights.load state usage < span 127)
include hweights hallocatable hcapacity hload

theorem scoreWith_eq_exactScore_sums (hw : s.weights.toList ≠ []) :
    s.scoreWith state usage = s.policy.exactScore
      (s.weights.toList.map fun e => (state.share e.1 usage).cost.toInt * e.2.toInt).sum
      (s.weights.toList.map fun e => (state.share e.1 usage).allocatable.toInt * e.2.toInt).sum := by
  have hcounted := Weights.counted_eq_toList hweights
  have hpos : ∀ e ∈ s.weights.toList, 0 < (state.share e.1 usage).allocatable.toInt := by
    intro e he
    rw [state.allocatable_share]
    exact hallocatable e he
  have hsum : 0 < s.weights.capacity state usage := by
    unfold Weights.capacity Weights.weighted Weights.terms
    rw [hcounted]
    refine List.sum_pos _ (List.forall_mem_map.mpr fun e he => ?_) (mt List.map_eq_nil_iff.mp hw)
    exact Int.mul_pos (hpos e he) (hweights e he)
  rw [s.scoreWith_eq_exactScore_of_nonneg ?_ hsum hcapacity (.inr ?_)]
  · unfold Weights.cost Weights.capacity Weights.weighted Weights.terms
    rw [hcounted]
  · intro e he
    rw [hcounted] at he
    exact (hpos e he).le
  · rwa [Weights.magnitude_terms]

/-- The score for one entry is that of its term in each of the sums. -/
theorem scoreWith_only_eq_exactScore {e : String × Amount} (he : e ∈ s.weights.toList) :
    (s.only e).scoreWith state usage = s.policy.exactScore
      ((state.share e.1 usage).cost.toInt * e.2.toInt)
      ((state.share e.1 usage).allocatable.toInt * e.2.toInt) := by
  have hcounted := Weights.counted_eq_toList hweights
  have hmem : e ∈ s.weights.counted := hcounted ▸ he
  have hcapacity' : (s.only e).weights.capacity state usage ≤ s.weights.capacity state usage := by
    apply Weights.weighted_single_le _ hmem
    intro e' he'
    rw [state.allocatable_share]
    exact (hallocatable e' (hcounted ▸ he')).le
  have hload' : (s.only e).weights.load state usage ≤ s.weights.load state usage :=
    Weights.weighted_single_le (fun _ _ => Int.natCast_nonneg _) hmem
  have hsums : (s.only e).scoreWith state usage = _ := scoreWith_eq_exactScore_sums
    (by simpa [only, Weights.toList_single] using hweights e he)
    (by simpa [only, Weights.toList_single] using hallocatable e he)
    (by omega) (by omega) (by simp [only, Weights.toList_single])
  simpa [only, Weights.toList_single] using hsums

end Positive

/-- A score lies between the scores for the single entries of the table, whatever telemetry says and
whenever the cycle is cancelled, unless that leaves the node without a score. -/
theorem score_between_single_scores {s : Scorer} {state : NodeState} {n : Node}
    (hn : state.node = some n) (hweights : ∀ e ∈ s.weights.toList, 0 < e.2.toInt)
    (hallocatable : ∀ e ∈ s.weights.toList, 0 < (state.requestedShare e.1).allocatable.toInt)
    (hcapacity : 100 * s.weights.capacity state (s.usage? n.name) < span 127)
    (hload : s.weights.load state (s.usage? n.name) < span 127) :
    (s.weights.isEmpty = false → ∃ score, (s.score state .never).result = .ok score) ∧
    ∀ c score, (s.score state c).result = .ok score →
      (∀ e ∈ s.weights.toList, ∃ x, ((s.only e).score state c).result = .ok x) ∧
      (∃ e ∈ s.weights.toList, ∃ x, ((s.only e).score state c).result = .ok x ∧ x ≤ score) ∧
      ∃ e ∈ s.weights.toList, ∃ x, ((s.only e).score state c).result = .ok x ∧ score ≤ x := by
  refine ⟨fun hw => ⟨_,(s.score_never hn hw).1⟩,fun c score hscore => ?_⟩
  obtain ⟨n',u,hn',hu,hok⟩ := exists_of_result_eq_ok hscore
  obtain rfl : n = n' := Option.some.inj (hn.symm.trans hn')
  rw [← eq_usage?_of_basis hu] at hcapacity hload
  have hnonempty : s.weights.toList ≠ [] :=
    List.isEmpty_eq_false_iff.mp (basis_eq_ok_iff.mp hu).2.1
  have hsingle (e : String × Amount) (he : e ∈ s.weights.toList) :=
    result_score_only hn hu he
  have hsums := scoreWith_eq_exactScore_sums hweights hallocatable hcapacity hload hnonempty
  have hparts (e : String × Amount) (he : e ∈ s.weights.toList) :=
    scoreWith_only_eq_exactScore hweights hallocatable hcapacity hload he
  have hpos : ∀ e ∈ s.weights.toList,
      0 < (state.share e.1 u).allocatable.toInt * e.2.toInt := by
    intro e he
    rw [state.allocatable_share]
    exact Int.mul_pos (hallocatable e he) (hweights e he)
  obtain ⟨⟨e,he,hlow⟩,e',he',hhigh⟩ := s.policy.exists_exactScore_le_le hnonempty
    (fun e => (state.share e.1 u).cost.toInt * e.2.toInt) hpos
  rw [← hsums, hok] at hlow hhigh
  refine ⟨fun e he => ⟨_,hsingle e he⟩,⟨e,he,_,hsingle e he,?_⟩,⟨e',he',_,hsingle e' he',?_⟩⟩
  · rw [hparts e he]
    exact hlow
  · rw [hparts e' he']
    exact hhigh

/-- A scorer that is told of more processor time than the node has. -/
def overdrawn : Scorer where
  name := "s"
  policy := .most
  weights := .ofList [("cpu", .ofInt 63 1000000), ("memory", 1)]
  telemetry := ⟨fun _ => ⟨.ok ⟨.ofInt 63 6000,.ofInt 63 (2 ^ 30)⟩,3⟩,10⟩

theorem score_between_overdrawn_and_idle :
    let state := (NodeState.ofNode fourProcessors).addPods []
    let usage := overdrawn.usage? fourProcessors.name
    state.node = some fourProcessors ∧ (∀ e ∈ overdrawn.weights.toList, 0 < e.2.toInt) ∧
      (∀ e ∈ overdrawn.weights.toList, 0 < (state.requestedShare e.1).allocatable.toInt) ∧
      100 * overdrawn.weights.capacity state usage < span 127 ∧
      overdrawn.weights.load state usage < span 127 ∧
      (overdrawn.score state (.after 5)).result = .ok 56 ∧
      (∃ e ∈ overdrawn.weights.toList, ∃ x,
        ((overdrawn.only e).score state (.after 5)).result = .ok x ∧ x ≤ 56) ∧
      ∃ e ∈ overdrawn.weights.toList, ∃ x,
        ((overdrawn.only e).score state (.after 5)).result = .ok x ∧ 56 ≤ x := by
  intro state usage
  have hn : state.node = some fourProcessors := rfl
  have hweights : ∀ e ∈ overdrawn.weights.toList, 0 < e.2.toInt := by decide +kernel
  have hallocatable : ∀ e ∈ overdrawn.weights.toList,
      0 < (state.requestedShare e.1).allocatable.toInt := by decide +kernel
  have hcapacity : 100 * overdrawn.weights.capacity state usage < span 127 := by decide +kernel
  have hload : overdrawn.weights.load state usage < span 127 := by decide +kernel
  have hscore : (overdrawn.score state (.after 5)).result = .ok 56 := by rfl
  have hbetween := (score_between_single_scores hn hweights hallocatable hcapacity hload).2 _ _
    hscore
  exact ⟨hn,hweights,hallocatable,hcapacity,hload,hscore,hbetween.2⟩

end Scorer
end NodeRank
