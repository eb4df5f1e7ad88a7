import NodeRank.Scoring.Ranker

/-! # What scoring looks at

Of an entry of a snapshot a call looks at the name of the node, at the totals and the allocatable
resources, and at the number of the pods. Snapshots that agree on these, name by name, are ranked
alike, down to the records that are written and the nodes that are asked about.
-/
namespace Option.Rel
variable {α β γ : Type} {R S : α → β → Prop} {a : Option α} {b : Option β}

theorem imp (h : Option.Rel R a b) (hRS : ∀ x y, R x y → S x y) : Option.Rel S a b := by
  cases h with
  | none => exact .none
  | some hxy => exact .some (hRS _ _ hxy)

theorem map_eq (h : Option.Rel R a b) {f : α → γ} {g : β → γ} (hfg : ∀ x y, R x y → f x = g y) :
    a.map f = b.map g := by
  cases h with
  | none => rfl
  | some hxy => exact congrArg Option.some (hfg _ _ hxy)

end Option.Rel

namespace NodeRank

/-- Node states that agree on all that scoring looks at: of the node its name only, of the pods
their number only. -/
structure NodeState.SameView (a b : NodeState) : Prop where
  name : a.node.map Node.name = b.node.map Node.name
  requested : a.requested = b.requested
  defaulted : a.defaulted = b.defaulted
  allocatable : a.allocatable = b.allocatable
  pods : a.pods.length = b.pods.length

namespace NodeState.SameView
variable {a b : NodeState} (h : a.SameView b)
include h

theorem nodeName_eq : a.nodeName = b.nodeName := by
  unfold nodeName
  rw [h.name]

theorem isNone_eq : a.node.isNone = b.node.isNone := by
  rw [← Option.isNone_map (f := Node.name), h.name, Option.isNone_map]

theorem requestedShare_eq : a.requestedShare = b.requestedShare := by
  funext name
  unfold requestedShare
  rw [h.allocatable, h.defaulted, h.requested, h.pods]

theorem share_eq : a.share = b.share := by
  funext name usage
  unfold share readingShare?
  rw [h.allocatable, h.requestedShare_eq]

theorem shareLog_eq : a.shareLog = b.shareLog := by
  funext name usage
  unfold shareLog
  rw [h.nodeName_eq]

theorem usageIf_eq (t : Telemetry) (needed : Bool) (c : Cancellation) :
    t.usageIf needed a c = t.usageIf needed b c := by
  have hname := h.name
  unfold Telemetry.usageIf
  cases ha : a.node with
  | none =>
    rw [ha, Option.map_none, eq_comm, Option.map_eq_none_iff] at hname
    rw [hname]
  | some n =>
    rw [ha, Option.map_some, eq_comm, Option.map_eq_some_iff] at hname
    obtain ⟨m,hb,hm⟩ := hname
    rw [hb]
    simp only [hm]

theorem telemetryShare_eq (t : Telemetry) (name : String) (c : Cancellation) :
    t.share a name c = t.share b name c := by
  unfold Telemetry.share
  rw [h.nodeName_eq, h.usageIf_eq, h.share_eq, h.shareLog_eq]

theorem scoreWith_eq (s : Scorer) : s.scoreWith a = s.scoreWith b := by
  funext usage
  unfold Scorer.scoreWith
  rw [h.share_eq]

theorem logWith_eq (s : Scorer) : s.logWith a = s.logWith b := by
  funext usage
  unfold Scorer.logWith
  rw [h.share_eq, h.shareLog_eq, h.nodeName_eq, h.scoreWith_eq]

theorem score_eq (s : Scorer) (c : Cancellation) : s.score a c = s.score b c := by
  unfold Scorer.score
  rw [h.isNone_eq, h.nodeName_eq, h.usageIf_eq, h.scoreWith_eq, h.logWith_eq]

end NodeState.SameView

/-- Snapshots whose entries have the same view rank every shortlist alike. -/
theorem Ranker.rank_eq_of_sameView (r : Ranker) {s t : Snapshot}
    (h : ∀ name, Option.Rel NodeState.SameView (s.get? name) (t.get? name)) (names : List String)
    (c : Cancellation) : r.rank s names c = r.rank t names c := by
  have hscore : r.score s = r.score t := by
    funext name c
    have hname := h name
    unfold Ranker.score
    generalize s.get? name = a at hname
    generalize t.get? name = b at hname
    cases hname with
    | none => rfl
    | some hview => exact hview.score_eq r.scorer c
  unfold rank entry? exclusion?
  rw [hscore]

end NodeRank
