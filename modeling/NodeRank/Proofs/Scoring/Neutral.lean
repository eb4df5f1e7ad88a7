import NodeRank.Proofs.Scoring.Basis
import NodeRank.Proofs.Scoring.Reading
import NodeRank.Proofs.Scoring.WeightedSum

/-! # Entries that add nothing

An entry adds nothing to a score if its weight is not positive, or if the node has nothing of the
resource. An entry of the second kind makes no difference to a call at all. One of the first kind
still makes a table where there would be none, and telemetry is still asked because of it, so that
the cycle can be cancelled meanwhile; other than that it makes no difference either.
-/
namespace NodeRank
open Capped

namespace Tally

/-- Whether adding an entry leaves every tally as it is. -/
def Neutral (share : String → Share) (e : String × Amount) : Prop :=
  ∀ t : Tally, t.add e.2 (share e.1) = t

variable {share : String → Share}

theorem neutral_of_zero {e : String × Amount} (h : share e.1 = ⟨0,0⟩) : Neutral share e := by
  have hadd (x : Total) : x + (0 : Amount).times e.2 = x := by
    apply Capped.ext
    rw [toInt_add, toInt_times, toInt_zero, Int.zero_mul, Int.add_zero]
    exact cap_eq_self x.ge x.lt
  intro t
  rw [h]
  unfold add
  split
  · exact congrArg₂ Tally.mk (hadd _) (hadd _)
  · rfl

theorem foldl_filter_of_neutral {l : List (String × Amount)} {keep : String × Amount → Bool}
    (h : ∀ e, keep e = false → Neutral share e) (t : Tally) :
    (l.filter keep).foldl (fun t e => t.add e.2 (share e.1)) t =
      l.foldl (fun t e => t.add e.2 (share e.1)) t := by
  rw [List.foldl_filter]
  apply List.foldl_ext
  intro t e _
  cases hkeep : keep e with
  | true => rfl
  | false => exact (h e hkeep t).symm

theorem ofTable_insert {w : Weights} {name : String} (hnew : w.get? name = none)
    (h : share name = ⟨0,0⟩) (weight : Amount) :
    ofTable (w.insert name weight) share = ofTable w share := by
  have hrest : ofTable ((w.insert name weight).erase name) share =
      ofTable (w.insert name weight) share := by
    apply foldl_filter_of_neutral
    intro e he
    have hname : e.1 = name := by simpa using he
    exact neutral_of_zero (hname ▸ h)
  rw [← hrest, NameMap.erase_insert hnew]

end Tally

/-- The table without the entries whose weight is not positive. -/
def Weights.positive (w : Weights) : Weights := ⟨w.counted,w.sorted.filter _⟩

theorem Tally.ofTable_positive (w : Weights) (share : String → Share) :
    ofTable w.positive share = ofTable w share := by
  apply foldl_filter_of_neutral
  intro e he t
  exact if_neg (by simpa using he)

namespace NodeState

/-- Whether a node has nothing of a resource: the name stands for none, or it is a scalar of which
the node offers nothing and its pods ask for nothing. -/
def Lacks (s : NodeState) (name : String) : Prop :=
  ResourceName.isSupported name = false ∨
    ResourceName.isScalar name ∧ s.allocatable.scalar name = 0 ∧ s.requested.scalar name = 0

theorem Lacks.not_basic {s : NodeState} {name : String} (h : s.Lacks name) :
    name ≠ ResourceName.cpu ∧ name ≠ ResourceName.memory ∧ name ≠ ResourceName.pods ∧
      name ≠ ResourceName.ephemeralStorage := by
  rcases h with h | ⟨h,_⟩
  · simp only [ResourceName.isSupported, Bool.or_eq_false_iff, beq_eq_false_iff_ne] at h
    exact ⟨h.1.1.1.1,h.1.1.1.2,h.1.1.2,h.1.2⟩
  · exact ResourceName.ne_basic_of_isScalar h

theorem Lacks.not_measurable {s : NodeState} {name : String} (h : s.Lacks name) :
    ResourceName.isMeasurable name = false := by
  obtain ⟨hcpu,hmemory,_⟩ := h.not_basic
  simp [ResourceName.isMeasurable, hcpu, hmemory]

theorem Lacks.share_eq_zero {s : NodeState} {name : String} (h : s.Lacks name)
    (usage : Option Usage) : s.share name usage = ⟨0,0⟩ := by
  obtain ⟨hcpu,hmemory,hpods,hstorage⟩ := h.not_basic
  rw [s.share_of_not_measurable h.not_measurable]
  unfold requestedShare
  rw [if_neg hcpu, if_neg hmemory, if_neg hpods, if_neg hstorage]
  rcases h with h | ⟨hscalar,hallocatable,hrequested⟩
  · simp only [ResourceName.isSupported, Bool.or_eq_false_iff] at h
    simp [h.2]
  · rw [if_pos hscalar, hallocatable, hrequested]

end NodeState

namespace Scorer

theorem needsUsage_iff {s : Scorer} :
    s.needsUsage ↔ ∃ e ∈ s.weights.toList, ResourceName.isMeasurable e.1 := List.any_eq_true

/-- A resource of which the node has nothing may stand in the table or not: the call comes to the
same and asks the same of telemetry, whatever the weight, the answer and the cancellation. -/
theorem score_insert_lacking {s : Scorer} (hw : s.weights.isEmpty = false) {name : String}
    (hnew : s.weights.get? name = none) {state : NodeState} (h : state.Lacks name)
    (weight : Amount) (c : Cancellation) :
    let s' : Scorer := { s with weights := s.weights.insert name weight }
    (s'.score state c).result = (s.score state c).result ∧
      (s'.score state c).asked = (s.score state c).asked := by
  intro s'
  have hempty : s'.weights.isEmpty = s.weights.isEmpty := by
    rw [hw]
    exact List.isEmpty_eq_false_iff_exists_mem.mpr ⟨_,(NameMap.mem_insert_iff hnew).mpr (.inl rfl)⟩
  have hneeds : s'.needsUsage = s.needsUsage := by
    rw [Bool.eq_iff_iff, needsUsage_iff, needsUsage_iff]
    simp [s', NameMap.mem_insert_iff hnew, or_and_right, exists_or, h.not_measurable]
  have hscore : s'.scoreWith state = s.scoreWith state := by
    funext usage
    unfold scoreWith
    rw [Tally.ofTable_insert hnew (h.share_eq_zero usage)]
  rw [result_score, result_score, asked_score, asked_score, s.basis_congr hempty hneeds, hscore]
  unfold questions
  rw [hneeds]
  exact ⟨rfl,rfl⟩

/-- A graphics processor that no node has ever heard of, and as much weight on it as there can be. -/
theorem score_insert_unheard :
    let s' : Scorer :=
      { halfRead with weights := halfRead.weights.insert "gpu.example.com/foo" (.ofInt 63 (2 ^ 63)) }
    let state := (NodeState.ofNode twoProcessors).addPod oneProcessorPod
    halfRead.weights.isEmpty = false ∧ halfRead.weights.get? "gpu.example.com/foo" = none ∧
      state.Lacks "gpu.example.com/foo" ∧ (s'.score state (.after 5)).result = .ok 29 ∧
      (s'.score state (.after 5)).asked = ["n1"] := by
  intro s' state
  have hw : halfRead.weights.isEmpty = false := by decide +kernel
  have hnew : halfRead.weights.get? "gpu.example.com/foo" = none := by decide +kernel
  have hlacks : state.Lacks "gpu.example.com/foo" := .inr ⟨by decide,rfl,rfl⟩
  have hsame := score_insert_lacking hw hnew hlacks (.ofInt 63 (2 ^ 63)) (.after 5)
  have hscore : (halfRead.score state (.after 5)).result = .ok 29 := by decide +kernel
  have hasked : (halfRead.score state (.after 5)).asked = ["n1"] := by rfl
  exact ⟨hw,hnew,hlacks,hsame.1.trans hscore,hsame.2.trans hasked⟩

/-- The scorer without the entries whose weight is not positive. -/
def counting (s : Scorer) : Scorer := { s with weights := s.weights.positive }

theorem scoreWith_counting (s : Scorer) : s.counting.scoreWith = s.scoreWith := by
  funext state usage
  exact congrArg (fun t : Tally => s.policy.score t.cost t.allocatable)
    (Tally.ofTable_positive s.weights _)

theorem needsUsage_of_counting {s : Scorer} (h : s.counting.needsUsage) : s.needsUsage := by
  obtain ⟨e,he,hmeasurable⟩ := needsUsage_iff.mp h
  exact needsUsage_iff.mpr ⟨e,List.mem_of_mem_filter he,hmeasurable⟩

theorem isEmpty_counting {s : Scorer} (h : s.weights.isEmpty) : s.counting.weights.isEmpty :=
  List.isEmpty_iff.mpr (congrArg (List.filter _) (List.isEmpty_iff.mp h))

/-- A call without a node, or cancelled beforehand, fails whatever the table. -/
theorem basis_of_refused {node : Option Node} {c : Cancellation}
    (h : node = none ∨ c.isBeforehand) :
    ∃ e, ∀ s : Scorer, s.basis node c = .error e ∧ s.questions node c = [] := by
  cases node with
  | none => exact ⟨_,fun _ => ⟨rfl,rfl⟩⟩
  | some n =>
    have hc : c.isBeforehand := h.resolve_left (Option.some_ne_none n)
    refine ⟨.cancelled n.name,fun s => ⟨if_pos hc,if_neg ?_⟩⟩
    rw [hc, Bool.not_true, Bool.and_false]
    exact Bool.false_ne_true

theorem exists_of_not_refused {node : Option Node} {c : Cancellation}
    (h : ¬ (node = none ∨ c.isBeforehand)) : ∃ n, node = some n ∧ c.isBeforehand = false := by
  obtain ⟨hn,hc⟩ := not_or.mp h
  obtain ⟨n,hn⟩ := Option.ne_none_iff_exists'.mp hn
  exact ⟨n,hn,Bool.eq_false_iff.mpr hc⟩

section NotRefused
variable {s : Scorer} {state : NodeState} {n : Node} {c : Cancellation}
variable (hn : state.node = some n) (hc : c.isBeforehand = false)
include hn hc

theorem result_of_isEmpty (hw : s.weights.isEmpty) :
    (s.score state c).result = .error .noResourcesConfigured := by
  rw [result_score, hn]
  simp [basis, hc, hw, Except.map]

theorem result_of_entries (hw : s.weights.isEmpty = false) :
    (s.score state c).result =
      (if s.needsUsage then (s.telemetry.usage n.name c).result else .ok none).map
        (s.scoreWith state) := by
  rw [result_score, hn]
  simp only [basis, hc, hw, Bool.false_eq_true, ↓reduceIte]

theorem result_counting_of_entries (hw : s.weights.isEmpty = false)
    (hw' : s.counting.weights.isEmpty = false) :
    (s.counting.score state c).result = (s.score state c).result ↔
      s.counting.needsUsage = s.needsUsage ∨ ∃ x, (s.score state c).result = .ok x := by
  rw [result_of_entries hn hc hw, result_of_entries hn hc hw', scoreWith_counting]
  cases hneeds : s.counting.needsUsage with
  | true =>
    rw [needsUsage_of_counting hneeds]
    exact iff_of_true rfl (.inl rfl)
  | false =>
    have hnone := scoreWith_of_not_needed hneeds state
    rw [scoreWith_counting] at hnone
    cases s.needsUsage with
    | false => exact iff_of_true rfl (.inl rfl)
    | true =>
      -- Only the whole table asks: it may be cancelled over it, but what it is told is of no use.
      show Except.ok (s.scoreWith state none) = _ ↔ _
      simp only [↓reduceIte, Bool.false_eq_true, false_or]
      cases (s.telemetry.usage n.name c).result with
      | error e => exact iff_of_false nofun fun ⟨_,h⟩ => nomatch h
      | ok u => exact iff_of_true (congrArg Except.ok (hnone u).symm) ⟨_,rfl⟩

end NotRefused

theorem result_counting_iff (s : Scorer) (state : NodeState) (c : Cancellation) :
    (s.counting.score state c).result = (s.score state c).result ↔
      (state.node = none ∨ c.isBeforehand) ∨ s.weights.isEmpty ∨
        s.counting.weights.isEmpty = false ∧
          (s.counting.needsUsage = s.needsUsage ∨ ∃ x, (s.score state c).result = .ok x) := by
  by_cases hrefused : state.node = none ∨ c.isBeforehand
  · obtain ⟨e,he⟩ := basis_of_refused hrefused
    refine iff_of_true ?_ (.inl hrefused)
    rw [result_score, result_score, (he _).1, (he _).1]
    rfl
  rw [or_iff_right hrefused]
  obtain ⟨n,hn,hc⟩ := exists_of_not_refused hrefused
  cases hw : s.weights.isEmpty with
  | true =>
    refine iff_of_true ?_ (.inl rfl)
    rw [result_of_isEmpty hn hc hw, result_of_isEmpty hn hc (isEmpty_counting hw)]
  | false =>
    rw [or_iff_right Bool.false_ne_true]
    cases hw' : s.counting.weights.isEmpty with
    | true =>
      rw [result_of_isEmpty hn hc hw']
      exact iff_of_false (result_ne_noResourcesConfigured hw state c).symm nofun
    | false =>
      rw [result_counting_of_entries hn hc hw hw', and_iff_right rfl]

theorem asked_counting_iff (s : Scorer) (state : NodeState) (c : Cancellation) :
    (s.counting.score state c).asked = (s.score state c).asked ↔
      (state.node = none ∨ c.isBeforehand) ∨ s.counting.needsUsage = s.needsUsage := by
  rw [asked_score, asked_score]
  by_cases hrefused : state.node = none ∨ c.isBeforehand
  · obtain ⟨e,he⟩ := basis_of_refused hrefused
    refine iff_of_true ?_ (.inl hrefused)
    rw [(he _).2, (he _).2]
  rw [or_iff_right hrefused]
  obtain ⟨n,hn,hc⟩ := exists_of_not_refused hrefused
  rw [hn]
  unfold questions
  rw [hc]
  cases s.counting.needsUsage <;> cases s.needsUsage <;> simp

/-- Entries whose weight is not positive never change a score. They make a difference to a call
exactly where they are all the table has, and where telemetry is asked for their sake: to the
question, and to the result if the wait is cancelled. -/
theorem same_without_uncounted_iff (s : Scorer) (state : NodeState) (c : Cancellation) :
    let s' := s.counting
    (∀ x y, (s.score state c).result = .ok x → (s'.score state c).result = .ok y → x = y) ∧
    ((s'.score state c).result = (s.score state c).result ↔
      (state.node = none ∨ c.isBeforehand) ∨ s.weights.isEmpty ∨
        s'.weights.isEmpty = false ∧
          (s'.needsUsage = s.needsUsage ∨ ∃ x, (s.score state c).result = .ok x)) ∧
    ((s'.score state c).asked = (s.score state c).asked ↔
      (state.node = none ∨ c.isBeforehand) ∨ s'.needsUsage = s.needsUsage) := by
  intro s'
  refine ⟨fun x y hx hy => ?_,s.result_counting_iff state c,s.asked_counting_iff state c⟩
  obtain ⟨_,_,_,hu,_⟩ := exists_of_result_eq_ok hy
  have hentries : s'.weights.isEmpty = false := (basis_eq_ok_iff.mp hu).2.1
  have hsame := (s.result_counting_iff state c).mpr (.inr (.inr ⟨hentries,.inr ⟨x,hx⟩⟩))
  exact Except.ok.inj (hx.symm.trans (hsame.symm.trans hy))

def manyPods : Node := ⟨"n1",.ofList [("cpu", ⟨"4",4 * 10 ^ 9⟩), ("pods", ⟨"110",110 * 10 ^ 9⟩)],∅⟩

/-- A scorer with a slow source of telemetry. -/
def slow (weights : List (String × Amount)) : Scorer where
  name := "s"
  policy := .least
  weights := .ofList weights
  telemetry := ⟨fun _ => ⟨.ok ⟨.ofInt 63 1000,1⟩,20⟩,100⟩

/-- A weight of zero on all that the table has, and one on the processor time of a node that is
asked for too late. -/
theorem not_same_without_uncounted :
    let state := NodeState.ofNode manyPods
    ((slow [("pods", 0)]).score state .never).result = .ok 100 ∧
      ((slow [("pods", 0)]).counting.score state .never).result = .error .noResourcesConfigured ∧
      ((slow [("cpu", 0), ("pods", 1)]).score state (.after 5)).result = .error (.cancelled "n1") ∧
      ((slow [("cpu", 0), ("pods", 1)]).counting.score state (.after 5)).result = .ok 100 ∧
      ((slow [("cpu", 0), ("pods", 1)]).score state (.after 5)).asked = ["n1"] ∧
      ((slow [("cpu", 0), ("pods", 1)]).counting.score state (.after 5)).asked = [] := by
  decide +kernel

end Scorer
end NodeRank
