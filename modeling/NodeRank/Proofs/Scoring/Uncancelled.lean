import NodeRank.Scoring.Scorer

/-! # Scores of a cycle that goes on

Without cancellation a scorer always answers. What it answers is the score of the one reading that
arrives in time, or of none, and the only warning that it can write is the one about capacity.
-/
namespace NodeRank

namespace Telemetry

/-- The reading of a node that is there by the timeout. -/
def timely? (t : Telemetry) (node : String) : Option Usage :=
  if (t.answer node).delay ≤ t.timeout then (t.answer node).result.toOption else none

theorem reading_fst (node : String) (r : Except TelemetryError Usage) :
    (reading node r).1 = r.toOption := by
  cases r with
  | ok u => rfl
  | error e => cases e <;> rfl

theorem warnings_reading (node : String) (r : Except TelemetryError Usage) :
    (reading node r).2.filter Record.isWarning = [] := by
  cases r with
  | ok u => rfl
  | error e => cases e <;> rfl

theorem firstEvent_never (delay timeout : Nat) :
    firstEvent delay timeout .never = if delay ≤ timeout then .answered else .timedOut :=
  if_neg Bool.false_ne_true

theorem result_usage_never (t : Telemetry) (node : String) :
    (t.usage node .never).result = .ok (t.timely? node) := by
  unfold usage timely?
  simp only [firstEvent_never]
  by_cases h : (t.answer node).delay ≤ t.timeout
  · simp only [if_pos h, reading_fst]
  · simp only [if_neg h]

theorem warnings_usage (t : Telemetry) (node : String) (c : Cancellation) :
    (t.usage node c).log.filter Record.isWarning = [] := by
  unfold usage
  dsimp only
  cases firstEvent (t.answer node).delay t.timeout c with
  | cancelled => rfl
  | answered => exact warnings_reading node _
  | timedOut => rfl

end Telemetry

namespace NodeState

theorem warnings_shareLog (s : NodeState) (name : String) (usage : Option Usage) :
    (s.shareLog name usage).filter Record.isWarning = [] := by
  cases usage with
  | none => rfl
  | some u =>
    unfold shareLog
    dsimp only
    split
    · rfl
    · split <;> rfl

end NodeState

namespace Scorer

/-- The reading that a score goes by: it is asked for only if some resource can be measured. -/
def usage? (s : Scorer) (node : String) : Option Usage :=
  if s.needsUsage then s.telemetry.timely? node else none

theorem usageIf_never (s : Scorer) {state : NodeState} {n : Node} (hn : state.node = some n) :
    (s.telemetry.usageIf s.needsUsage state .never).result = .ok (s.usage? n.name) ∧
      (s.telemetry.usageIf s.needsUsage state .never).log.filter Record.isWarning = [] := by
  unfold Telemetry.usageIf usage?
  rw [hn]
  cases s.needsUsage with
  | false => exact ⟨rfl,rfl⟩
  | true => exact ⟨Telemetry.result_usage_never _ _,Telemetry.warnings_usage _ _ _⟩

theorem warnings_logWith (s : Scorer) (state : NodeState) (usage : Option Usage) :
    (s.logWith state usage).filter Record.isWarning =
      if (Tally.ofTable s.weights (state.share · usage)).allocatable.toInt ≤ 0 then
        [.withoutCapacity state.nodeName] else [] := by
  have hshares : (s.weights.toList.flatMap fun e => state.shareLog e.1 usage).filter
      Record.isWarning = [] := by
    rw [List.filter_flatMap]
    apply List.flatMap_eq_nil_iff.mpr
    intro e _
    exact state.warnings_shareLog e.1 usage
  unfold logWith
  simp only [List.filter_append, hshares, List.nil_append, Capped.le_iff, Capped.toInt_zero]
  split <;> rfl

/-- Without cancellation a node is scored by the reading that arrives in time. -/
theorem score_never (s : Scorer) {state : NodeState} {n : Node} (hn : state.node = some n)
    (hw : s.weights.isEmpty = false) :
    (s.score state .never).result = .ok (s.scoreWith state (s.usage? n.name)) ∧
      (s.score state .never).log.filter Record.isWarning =
        (s.logWith state (s.usage? n.name)).filter Record.isWarning := by
  obtain ⟨hresult,hlog⟩ := s.usageIf_never hn
  unfold score
  simp only [hn, hw, Option.isNone_some, Cancellation.isBeforehand, Bool.false_eq_true, ↓reduceIte,
    Outcome.andThen, hresult, List.filter_append, hlog, List.nil_append, and_self]

end Scorer
end NodeRank
