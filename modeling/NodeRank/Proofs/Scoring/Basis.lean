import NodeRank.Proofs.Scoring.Uncancelled

/-! # What a call goes by

A call fails, or it scores its node by a reading or by none. Which of these it does, and whether it
asks telemetry, is settled before any resource is looked at: by the node, by the cancellation and
by the names in the table. A call that is not cancelled goes by what it would go by if nothing
could cancel it.
-/
namespace NodeRank

namespace Telemetry

theorem firstEvent_of_ne_cancelled {delay timeout : Nat} {c : Cancellation}
    (h : firstEvent delay timeout c ≠ .cancelled) :
    firstEvent delay timeout c = firstEvent delay timeout .never := by
  have hseen : ¬ c.isSeenAt (min delay timeout) := fun hseen => h (if_pos hseen)
  rw [firstEvent_never]
  exact if_neg hseen

/-- A wait is cancelled, or it ends with the reading that is there in time, if there is one. -/
theorem result_usage (t : Telemetry) (node : String) (c : Cancellation) :
    (t.usage node c).result =
      if firstEvent (t.answer node).delay t.timeout c = .cancelled then .error (.cancelled node)
      else .ok (t.timely? node) := by
  split
  · rename_i h
    simp only [usage, h]
  · rename_i h
    rw [← t.result_usage_never node]
    simp only [usage, firstEvent_of_ne_cancelled h]
    cases firstEvent (t.answer node).delay t.timeout .never <;> rfl

theorem asked_usage (t : Telemetry) (node : String) (c : Cancellation) :
    (t.usage node c).asked = if c.isBeforehand then [] else [node] := by
  unfold usage
  dsimp only
  cases firstEvent (t.answer node).delay t.timeout c <;> rfl

end Telemetry

namespace Scorer

theorem needsUsage_eq_any_names (s : Scorer) :
    s.needsUsage = s.weights.names.any ResourceName.isMeasurable := by
  unfold needsUsage NameMap.names
  rw [List.any_map]
  rfl

/-- Telemetry is of use to a table that names processor time or memory. -/
theorem needsUsage_iff_names {s : Scorer} :
    s.needsUsage ↔ ResourceName.cpu ∈ s.weights.names ∨ ResourceName.memory ∈ s.weights.names := by
  simp [needsUsage_eq_any_names, ResourceName.isMeasurable, and_or_left, exists_or]

theorem needsUsage_of_isEmpty {s : Scorer} (h : s.weights.isEmpty) : s.needsUsage = false := by
  unfold needsUsage
  rw [List.isEmpty_iff.mp h, List.any_nil]

/-- What a call goes by, or why it fails: the load of the node does not matter to that. -/
def basis (s : Scorer) (node : Option Node) (c : Cancellation) :
    Except ScoreError (Option Usage) :=
  match node with
  | none => .error (.nodeNotFound "snapshot carries no node")
  | some n =>
    if c.isBeforehand then .error (.cancelled n.name)
    else if s.weights.isEmpty then .error .noResourcesConfigured
    else if s.needsUsage then (s.telemetry.usage n.name c).result
    else .ok none

/-- The nodes whose usage a call asks for. -/
def questions (s : Scorer) (node : Option Node) (c : Cancellation) : List String :=
  match node with
  | none => []
  | some n => if s.needsUsage && !c.isBeforehand then [n.name] else []

theorem score_by_basis (s : Scorer) (state : NodeState) (c : Cancellation) :
    (s.score state c).result = (s.basis state.node c).map (s.scoreWith state) ∧
      (s.score state c).asked = s.questions state.node c := by
  unfold score basis questions NodeState.nodeName
  cases hnode : state.node with
  | none => exact ⟨rfl,rfl⟩
  | some n =>
    simp only [Option.isNone_some, Bool.false_eq_true, ↓reduceIte, Option.map_some,
      Option.getD_some]
    by_cases hc : c.isBeforehand
    · simp [hc, Outcome.pure, Except.map]
    by_cases hw : s.weights.isEmpty
    · simp [hc, hw, needsUsage_of_isEmpty hw, Outcome.pure, Except.map]
    simp only [hc, hw, Bool.false_eq_true, ↓reduceIte, Telemetry.usageIf, hnode]
    have hasked := s.telemetry.asked_usage n.name c
    cases s.needsUsage with
    | false => exact ⟨rfl,rfl⟩
    | true =>
      simp only [↓reduceIte, Outcome.andThen, hasked, hc, Bool.false_eq_true]
      cases (s.telemetry.usage n.name c).result with
      | error e => exact ⟨rfl,rfl⟩
      | ok usage => exact ⟨rfl,rfl⟩

theorem result_score (s : Scorer) (state : NodeState) (c : Cancellation) :
    (s.score state c).result = (s.basis state.node c).map (s.scoreWith state) :=
  (s.score_by_basis state c).1

theorem asked_score (s : Scorer) (state : NodeState) (c : Cancellation) :
    (s.score state c).asked = s.questions state.node c :=
  (s.score_by_basis state c).2

/-- What a call goes by does not depend on the weights, as long as the names ask for the same. -/
theorem basis_congr (s : Scorer) {w' : Weights} (hempty : w'.isEmpty = s.weights.isEmpty)
    (hneeds : { s with weights := w' }.needsUsage = s.needsUsage) (node : Option Node)
    (c : Cancellation) : { s with weights := w' }.basis node c = s.basis node c := by
  unfold basis
  rw [hneeds, hempty]

/-- What a call goes by depends on the names of the table, not on its weights. -/
theorem basis_eq_of_names (s : Scorer) {w' : Weights} (h : s.weights.names = w'.names)
    (node : Option Node) (c : Cancellation) :
    { s with weights := w' }.basis node c = s.basis node c := by
  have hempty (w : Weights) : w.isEmpty = w.names.isEmpty := List.isEmpty_map.symm
  apply basis_congr
  · rw [hempty, hempty s.weights, h]
  · rw [needsUsage_eq_any_names, needsUsage_eq_any_names, h]

theorem basis_eq_ok_iff {s : Scorer} {n : Node} {c : Cancellation} {u : Option Usage} :
    s.basis (some n) c = .ok u ↔ c.isBeforehand = false ∧ s.weights.isEmpty = false ∧
      (if s.needsUsage then (s.telemetry.usage n.name c).result else .ok none) = .ok u := by
  unfold basis
  cases c.isBeforehand <;> cases s.weights.isEmpty <;> simp

/-- A call gives a score only for a node, and goes by something then. -/
theorem exists_of_result_eq_ok {s : Scorer} {state : NodeState} {c : Cancellation} {score : Int}
    (h : (s.score state c).result = .ok score) :
    ∃ n u, state.node = some n ∧ s.basis (some n) c = .ok u ∧ s.scoreWith state u = score := by
  rw [result_score] at h
  cases hn : state.node with
  | none =>
    rw [hn] at h
    cases h
  | some n =>
    rw [hn] at h
    cases hu : s.basis (some n) c with
    | error e =>
      rw [hu] at h
      cases h
    | ok u =>
      rw [hu] at h
      exact ⟨n,u,rfl,hu,Except.ok.inj h⟩

/-- A table with entries is never taken for an empty one. -/
theorem result_ne_noResourcesConfigured {s : Scorer} (hw : s.weights.isEmpty = false)
    (state : NodeState) (c : Cancellation) :
    (s.score state c).result ≠ .error .noResourcesConfigured := by
  rw [result_score]
  unfold basis
  cases state.node with
  | none => exact nofun
  | some n =>
    simp only [hw, Bool.false_eq_true, ↓reduceIte, Telemetry.result_usage]
    split
    · exact nofun
    split
    · split <;> exact nofun
    · exact nofun

/-- A call that is not cancelled goes by the reading that is there in time. -/
theorem eq_usage?_of_basis {s : Scorer} {n : Node} {c : Cancellation} {u : Option Usage}
    (h : s.basis (some n) c = .ok u) : u = s.usage? n.name := by
  obtain ⟨_,_,hend⟩ := basis_eq_ok_iff.mp h
  unfold usage?
  cases hneeds : s.needsUsage with
  | false =>
    rw [hneeds] at hend
    exact (Except.ok.inj hend).symm
  | true =>
    rw [hneeds, if_pos rfl, Telemetry.result_usage] at hend
    split at hend
    · cases hend
    · exact (Except.ok.inj hend).symm

end Scorer
end NodeRank
