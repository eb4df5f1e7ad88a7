import NodeRank.Proofs.Scoring.Uncancelled
import NodeRank.Scoring.Ranker
import Mathlib.Algebra.Ring.Int.Defs
import Mathlib.Data.List.Basic

/-! # What telemetry can change in a score

An answer of telemetry that fails or comes too late leaves the score by requests. A reading puts
its processor time and its memory in the place of two costs, each unless it is zero, and leaves
all capacities and all other costs as they are.
-/
namespace NodeRank

/-- Whether an answer is there by the time the wait for it is given up. -/
def Answer.InTime (a : Answer) (timeout : Nat) : Prop := a.delay ≤ timeout

namespace Usage

def nonzero (x : Amount) : Option Amount := if x = 0 then none else some x

/-- The cost of a resource that a reading tells, where it is to be trusted. -/
def cost? (u : Usage) (name : String) : Option Amount :=
  if name = ResourceName.cpu then nonzero u.cpuMillis
  else if name = ResourceName.memory then nonzero u.memoryBytes
  else none

theorem cost?_of_not_measurable (u : Usage) {name : String}
    (h : ResourceName.isMeasurable name = false) : u.cost? name = none := by
  simp only [ResourceName.isMeasurable, Bool.or_eq_false_iff, beq_eq_false_iff_ne] at h
  simp [cost?, h.1, h.2]

end Usage

namespace NodeState

/-- The share by requests, with the cost that a reading tells in the place of its own. -/
def measuredShare (s : NodeState) (u : Usage) (name : String) : Share :=
  { s.requestedShare name with cost := (u.cost? name).getD (s.requestedShare name).cost }

theorem share_some (s : NodeState) (name : String) (u : Usage) :
    s.share name (some u) = s.measuredShare u name := by
  have hdiff : ResourceName.memory ≠ ResourceName.cpu := by decide
  unfold share readingShare? measuredShare Usage.cost? Usage.nonzero
  by_cases hcpu : name = ResourceName.cpu
  · subst hcpu
    by_cases hzero : u.cpuMillis = 0
    · simp [hzero, hdiff.symm]
    · simp [hzero, requestedShare]
  · by_cases hmemory : name = ResourceName.memory
    · subst hmemory
      by_cases hzero : u.memoryBytes = 0
      · simp [hzero, hdiff]
      · simp [hzero, hdiff, requestedShare]
    · simp [hcpu, hmemory]

/-- Telemetry cannot tell anything of a resource that is not measurable. -/
theorem measuredShare_of_not_measurable (s : NodeState) (u : Usage) {name : String}
    (h : ResourceName.isMeasurable name = false) :
    s.measuredShare u name = s.requestedShare name := by
  simp [measuredShare, u.cost?_of_not_measurable h]

theorem allocatable_share (s : NodeState) (name : String) (usage : Option Usage) :
    (s.share name usage).allocatable = (s.requestedShare name).allocatable := by
  cases usage with
  | none => rfl
  | some u => rw [share_some, measuredShare]

/-- Whether there is a reading makes no difference to a resource that it cannot tell of. -/
theorem share_of_not_measurable (s : NodeState) {name : String}
    (h : ResourceName.isMeasurable name = false) (usage : Option Usage) :
    s.share name usage = s.requestedShare name := by
  cases usage with
  | none => rfl
  | some u => rw [share_some, s.measuredShare_of_not_measurable u h]

end NodeState

theorem Tally.ofTable_congr {w : Weights} {f g : String → Share}
    (h : ∀ e ∈ w.toList, f e.1 = g e.1) : ofTable w f = ofTable w g := by
  unfold ofTable
  apply List.foldl_ext
  intro t e he
  rw [h e he]

namespace Telemetry

theorem timely?_of_inTime {t : Telemetry} {node : String}
    (h : (t.answer node).InTime t.timeout) : t.timely? node = (t.answer node).result.toOption :=
  if_pos h

theorem timely?_of_unusable {t : Telemetry} {node : String}
    (h : ¬ (t.answer node).InTime t.timeout ∨ ∃ e, (t.answer node).result = .error e) :
    t.timely? node = none := by
  rcases h with hlate | ⟨e,he⟩
  · exact if_neg hlate
  · unfold timely?
    rw [he]
    split <;> rfl

theorem timely?_off (node : String) : off.timely? node = none := rfl

end Telemetry

namespace Scorer

/-- The score of given shares under the table and the policy of a scorer. -/
def scoreOf (s : Scorer) (share : String → Share) : Int :=
  let tally := Tally.ofTable s.weights share
  s.policy.score tally.cost tally.allocatable

def offline (s : Scorer) : Scorer := { s with telemetry := .off }

theorem usage?_offline (s : Scorer) (node : String) : s.offline.usage? node = none := by
  unfold usage?
  split
  · exact Telemetry.timely?_off node
  · rfl

theorem usage?_of_unusable {s : Scorer} {node : String}
    (h : s.telemetry.timely? node = none) : s.usage? node = none := by
  unfold usage?
  split
  · exact h
  · rfl

theorem scoreWith_none (s : Scorer) (state : NodeState) :
    s.scoreWith state none = s.scoreOf state.requestedShare := rfl

theorem scoreWith_some (s : Scorer) (state : NodeState) (u : Usage) :
    s.scoreWith state (some u) = s.scoreOf (state.measuredShare u) := by
  have hshare : (state.share · (some u)) = state.measuredShare u :=
    funext fun name => state.share_some name u
  unfold scoreWith scoreOf
  rw [hshare]

/-- A reading that is not asked for would not have changed anything. -/
theorem scoreOf_measuredShare_of_not_needed {s : Scorer} (h : s.needsUsage = false)
    (state : NodeState) (u : Usage) :
    s.scoreOf (state.measuredShare u) = s.scoreOf state.requestedShare := by
  have htally : Tally.ofTable s.weights (state.measuredShare u) =
      Tally.ofTable s.weights state.requestedShare := by
    apply Tally.ofTable_congr
    intro e he
    have hname := Bool.eq_false_iff.mpr (List.any_eq_false.mp h e he)
    exact state.measuredShare_of_not_measurable u hname
  unfold scoreOf
  rw [htally]

theorem scoreWith_of_not_needed {s : Scorer} (h : s.needsUsage = false) (state : NodeState)
    (usage : Option Usage) : s.scoreWith state usage = s.scoreWith state none := by
  cases usage with
  | none => rfl
  | some u => rw [scoreWith_some, scoreOf_measuredShare_of_not_needed h, scoreWith_none]

theorem scoreWith_of_timely {s : Scorer} {node : String} {u : Usage}
    (h : s.telemetry.timely? node = some u) (state : NodeState) :
    s.scoreWith state (s.usage? node) = s.scoreOf (state.measuredShare u) := by
  unfold usage?
  cases hneeds : s.needsUsage with
  | true => rw [if_pos rfl, h, scoreWith_some]
  | false =>
    rw [if_neg Bool.false_ne_true, scoreWith_none, scoreOf_measuredShare_of_not_needed hneeds]

/-- Whatever telemetry does, a node gets a score: by requests, or with what a timely reading tells
in the place of the costs of processor time and memory. -/
theorem score_by_reading (s : Scorer) {state : NodeState} {n : Node} (hn : state.node = some n)
    (hw : s.weights.isEmpty = false) :
    let answer := s.telemetry.answer n.name
    ∃ score, (s.score state .never).result = .ok score ∧
      (∀ (cluster : Snapshot) (name : String), cluster.get? name = some state →
        ((Ranker.mk s).score cluster name .never).result = .ok score) ∧
      (¬ answer.InTime s.telemetry.timeout ∨ (∃ e, answer.result = .error e) →
        (s.offline.score state .never).result = .ok score ∧
          score = s.scoreOf state.requestedShare) ∧
      ∀ u, answer.InTime s.telemetry.timeout → answer.result = .ok u →
        score = s.scoreOf (state.measuredShare u) := by
  intro answer
  have hscore := (s.score_never hn hw).1
  refine ⟨_,hscore,?_,?_,?_⟩
  · intro cluster name hget
    unfold Ranker.score
    rw [hget]
    exact hscore
  · intro hunusable
    have husage := usage?_of_unusable (Telemetry.timely?_of_unusable hunusable)
    have hoffline := (s.offline.score_never hn hw).1
    rw [usage?_offline] at hoffline
    rw [husage]
    exact ⟨hoffline,s.scoreWith_none state⟩
  · intro u htime hu
    have htimely := Telemetry.timely?_of_inTime htime
    rw [show (s.telemetry.answer n.name).result = .ok u from hu] at htimely
    exact scoreWith_of_timely htimely state

/-- A scorer that is told of no processor time and of six of eight gibibytes of memory. -/
def halfRead : Scorer where
  name := "s"
  policy := .least
  weights := .ofList [("cpu", .ofInt 63 1000000), ("memory", 1), ("pods", 1)]
  telemetry := ⟨fun _ => ⟨.ok ⟨0,.ofInt 63 (6 * 2 ^ 30)⟩,3⟩,10⟩

def twoProcessors : Node :=
  ⟨"n1",.ofList [("cpu", ⟨"2",2 * 10 ^ 9⟩), ("memory", ⟨"8Gi",8 * 2 ^ 30 * 10 ^ 9⟩)],∅⟩

def oneProcessorPod : Pod :=
  ⟨.zero,"p",default,"n1",[.requesting (.ofList [("cpu", ⟨"1",10 ^ 9⟩)])],∅⟩

theorem score_halfRead_twoProcessors :
    let state := (NodeState.ofNode twoProcessors).addPod oneProcessorPod
    state.node = some twoProcessors ∧ halfRead.weights.isEmpty = false ∧
      (halfRead.score state .never).result = .ok 29 ∧
      ((Ranker.mk halfRead).score ⟨.ofList [("n1", state)]⟩ "n1" .never).result = .ok 29 := by
  intro state
  have hw : halfRead.weights.isEmpty = false := by decide +kernel
  have hn : state.node = some twoProcessors := rfl
  obtain ⟨score,hresult,hranker,_,hread⟩ := score_by_reading halfRead hn hw
  have hscore : score = 29 := (hread _ (show 3 ≤ 10 by decide) rfl).trans (by decide +kernel)
  subst hscore
  exact ⟨hn,hw,hresult,hranker _ _ (by decide +kernel)⟩

end Scorer
end NodeRank
