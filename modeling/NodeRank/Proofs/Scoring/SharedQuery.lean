import NodeRank.Proofs.Scoring.Basis
import NodeRank.Proofs.Scoring.Reading
import NodeRank.Proofs.Scoring.WeightedSum

/-! # One question for all resources

A call on a node asks telemetry once for all resources of its table, and not at all if telemetry
can tell of none of them. The share of each resource is still the one that a question for that
resource alone would lead to, in the score as in the record that is written of it.
-/
namespace NodeRank
open Capped

theorem NameMap.get?_mapEntries_of_names {α β : Type} {m : NameMap α} {f g : String → β}
    (h : ∀ name ∈ m.names, f name = g name) (name : String) :
    (m.mapEntries fun name _ => f name).get? name =
      if name ∈ m.names then some (g name) else none := by
  rw [get?_mapEntries]
  by_cases hname : name ∈ m.names
  · obtain ⟨x,hx⟩ := Option.isSome_iff_exists.mp (mem_names_iff.mp hname)
    rw [if_pos hname, hx, Option.map_some, h name hname]
  · have hnone := Option.not_isSome_iff_eq_none.mp (mt mem_names_iff.mpr hname)
    rw [if_neg hname, hnone, Option.map_none]

namespace Weights

/-- The running sum of amounts by weight, over the names of positive weight in their order. -/
def runningTotal (w : Weights) (amount : String → Amount) : Total :=
  (w.counted.map fun e => (amount e.1).times e.2).foldl (· + ·) 0

theorem foldl_add_eq (share : String → Share) (l : List (String × Amount)) (t : Tally) :
    l.foldl (fun t e => t.add e.2 (share e.1)) t =
      ⟨((l.filter fun e => 0 < e.2).map fun e => (share e.1).allocatable.times e.2).foldl
          (· + ·) t.allocatable,
        ((l.filter fun e => 0 < e.2).map fun e => (share e.1).cost.times e.2).foldl
          (· + ·) t.cost⟩ := by
  induction l generalizing t with
  | nil => rfl
  | cons e l ih =>
    rw [List.foldl_cons, ih]
    by_cases he : 0 < e.2 <;> simp [Tally.add, he]

/-- A tally is two running totals. -/
theorem ofTable_eq (w : Weights) (share : String → Share) :
    Tally.ofTable w share =
      ⟨w.runningTotal fun name => (share name).allocatable,
        w.runningTotal fun name => (share name).cost⟩ :=
  foldl_add_eq share w.toList .zero

/-- Amounts whose weighted magnitudes are within range are summed exactly. -/
theorem toInt_runningTotal {w : Weights} {amount : String → Amount}
    (h : w.weighted (fun name => ((amount name).toInt.natAbs : Int)) < span 127) :
    (w.runningTotal amount).toInt = w.weighted fun name => (amount name).toInt := by
  have hcost : (Tally.ofTable w fun name => ⟨0,amount name⟩).cost.toInt =
      w.weighted fun name => (amount name).toInt := Tally.cost_ofTable_eq w h
  rwa [ofTable_eq] at hcost

end Weights

namespace Telemetry

/-- A wait writes only of a usage that it does not come to know. -/
theorem eq_usageUnknown_of_mem {t : Telemetry} {node : String} {c : Cancellation} {r : Record}
    (h : r ∈ (t.usage node c).log) : ∃ e, r = .usageUnknown node e := by
  have hreading {x : Except TelemetryError Usage} (h : r ∈ (reading node x).2) :
      ∃ e, r = .usageUnknown node e := by
    cases x with
    | ok u => cases h
    | error e => cases e <;> simp_all [reading]
  unfold usage at h
  dsimp only at h
  split at h
  · cases h
  · exact hreading h
  · exact hreading h

theorem log_usageIf (t : Telemetry) (needed : Bool) (s : NodeState) (c : Cancellation) :
    (t.usageIf needed s c).log.filter (·.message == "Scored node") = [] := by
  rw [List.filter_eq_nil_iff]
  intro r hr
  unfold usageIf at hr
  cases hn : s.node with
  | none => simp [hn, Outcome.pure] at hr
  | some n =>
    cases needed with
    | false => simp [hn, Outcome.pure] at hr
    | true =>
      simp only [hn] at hr
      obtain ⟨e,rfl⟩ := eq_usageUnknown_of_mem hr
      simp [Record.message]

/-- What a question for one resource alone leads to. -/
theorem result_share_never (t : Telemetry) {s : NodeState} {n : Node} (hn : s.node = some n)
    (name : String) :
    (t.share s name .never).result =
      .ok (s.share name (if ResourceName.isMeasurable name then t.timely? n.name else none)) := by
  unfold share usageIf
  rw [hn]
  cases ResourceName.isMeasurable name with
  | false => rfl
  | true =>
    have h := t.result_usage_never n.name
    simp [Cancellation.isBeforehand, Outcome.andThen, h]

end Telemetry

namespace Scorer

theorem log_score_never (s : Scorer) {state : NodeState} {n : Node} (hn : state.node = some n)
    (hw : s.weights.isEmpty = false) :
    (s.score state .never).log =
      (s.telemetry.usageIf s.needsUsage state .never).log ++
        s.logWith state (s.usage? n.name) := by
  have hresult := (s.usageIf_never hn).1
  unfold score
  simp [hn, hw, Cancellation.isBeforehand, Outcome.andThen, hresult]

theorem scored_logWith (s : Scorer) (state : NodeState) (usage : Option Usage) :
    (s.logWith state usage).filter (·.message == "Scored node") =
      [.scored s.name state.nodeName (s.scoreWith state usage)
        (s.weights.mapEntries fun name _ => (state.share name usage).allocatable)
        (s.weights.mapEntries fun name _ => (state.share name usage).cost)] := by
  have hshares : (s.weights.toList.flatMap fun e => state.shareLog e.1 usage).filter
      (·.message == "Scored node") = [] := by
    rw [List.filter_flatMap]
    apply List.flatMap_eq_nil_iff.mpr
    intro e _
    cases usage with
    | none => rfl
    | some u =>
      unfold NodeState.shareLog
      dsimp only
      split_ifs <;> rfl
  unfold logWith
  rw [List.filter_append, List.filter_append, hshares]
  split_ifs <;> rfl

/-- A resource of the table has the share that a question for it alone would lead to. -/
theorem result_share_of_mem (s : Scorer) {state : NodeState} {n : Node}
    (hn : state.node = some n) {name : String} (hname : name ∈ s.weights.names) :
    (s.telemetry.share state name .never).result = .ok (state.share name (s.usage? n.name)) := by
  rw [s.telemetry.result_share_never hn]
  cases hmeasurable : ResourceName.isMeasurable name with
  | false => simp [state.share_of_not_measurable hmeasurable]
  | true =>
    have hneeds : s.needsUsage := by
      rw [needsUsage_eq_any_names]
      exact List.any_eq_true.mpr ⟨name,hname,hmeasurable⟩
    simp [usage?, hneeds]

/-- A call asks telemetry once if its table names processor time or memory, and not at all
otherwise. It writes one record of its score, with the shares that questions for the single
resources lead to, and the score is the one of their sums. -/
theorem score_by_separate_shares (s : Scorer) {state : NodeState} {n : Node}
    (hn : state.node = some n) (hw : s.weights.isEmpty = false) :
    let o := s.score state .never
    let names := s.weights.names
    (o.asked = if ResourceName.cpu ∈ names ∨ ResourceName.memory ∈ names then [n.name] else []) ∧
    ∃ share : String → Share,
      (∀ name, (s.telemetry.share state name .never).result = .ok (share name)) ∧
      let sum (amount : Share → Amount) := s.weights.runningTotal fun name => amount (share name)
      let score := s.policy.score (sum Share.cost) (sum Share.allocatable)
      o.result = .ok score ∧
      (∃ allocatable cost : NameMap Amount,
        o.log.filter (·.message == "Scored node") =
          [.scored s.name n.name score allocatable cost] ∧
        (∀ name, allocatable.get? name =
          if name ∈ names then some (share name).allocatable else none) ∧
        ∀ name, cost.get? name = if name ∈ names then some (share name).cost else none) ∧
      ∀ amount : Share → Amount,
        s.weights.weighted (fun name => ((amount (share name)).toInt.natAbs : Int)) < span 127 →
        (sum amount).toInt = s.weights.weighted fun name => (amount (share name)).toInt := by
  intro o names
  have hname : state.nodeName = n.name := by simp [NodeState.nodeName, hn]
  let share (name : String) : Share :=
    state.share name (if ResourceName.isMeasurable name then s.telemetry.timely? n.name else none)
  have hshare (name : String) : (s.telemetry.share state name .never).result = .ok (share name) :=
    s.telemetry.result_share_never hn name
  have hsame : ∀ name ∈ names, state.share name (s.usage? n.name) = share name := by
    intro name hmem
    exact Except.ok.inj ((s.result_share_of_mem hn hmem).symm.trans (hshare name))
  have hscore : s.scoreWith state (s.usage? n.name) =
      s.policy.score (s.weights.runningTotal fun name => (share name).cost)
        (s.weights.runningTotal fun name => (share name).allocatable) := by
    have htally : Tally.ofTable s.weights (state.share · (s.usage? n.name)) =
        Tally.ofTable s.weights share :=
      Tally.ofTable_congr fun e he => hsame e.1 (List.mem_map_of_mem he)
    unfold scoreWith
    rw [htally, Weights.ofTable_eq]
  have hrecord := s.scored_logWith state (s.usage? n.name)
  rw [hname, hscore] at hrecord
  refine ⟨?_,share,hshare,?_,
    ⟨s.weights.mapEntries fun name _ => (state.share name (s.usage? n.name)).allocatable,
      s.weights.mapEntries fun name _ => (state.share name (s.usage? n.name)).cost,?_,?_,?_⟩,
    fun amount => Weights.toInt_runningTotal⟩
  · rw [s.asked_score, hn]
    simp [questions, needsUsage_iff_names, Cancellation.isBeforehand, names]
  · rw [← hscore]
    exact (s.score_never hn hw).1
  · rw [s.log_score_never hn hw, List.filter_append, s.telemetry.log_usageIf, List.nil_append]
    exact hrecord
  · exact NameMap.get?_mapEntries_of_names fun name hmem =>
      congrArg Share.allocatable (hsame name hmem)
  · exact NameMap.get?_mapEntries_of_names fun name hmem =>
      congrArg Share.cost (hsame name hmem)

theorem score_by_separate_shares_halfRead :
    let state := (NodeState.ofNode twoProcessors).addPod oneProcessorPod
    let o := halfRead.score state .never
    state.node = some twoProcessors ∧ halfRead.weights.isEmpty = false ∧
      o.asked = ["n1"] ∧ o.result = .ok 29 ∧
      (∃ allocatable cost, o.log.filter (·.message == "Scored node") =
        [.scored "s" "n1" 29 allocatable cost]) ∧
      (halfRead.telemetry.share state "memory" .never).result =
        .ok ⟨.ofInt 63 (2 ^ 33),.ofInt 63 (6 * 2 ^ 30)⟩ := by
  intro state o
  have hn : state.node = some twoProcessors := rfl
  have hw : halfRead.weights.isEmpty = false := by decide +kernel
  obtain ⟨hasked,share,hshare,hresult,⟨a,c,hrecord,_⟩,_⟩ := score_by_separate_shares halfRead hn hw
  have hscore : o.result = .ok 29 := by decide +kernel
  have hmemory : share "memory" = ⟨.ofInt 63 (2 ^ 33),.ofInt 63 (6 * 2 ^ 30)⟩ :=
    Except.ok.inj ((hshare "memory").symm.trans (by decide +kernel))
  rw [← Except.ok.inj (hscore.symm.trans hresult)] at hrecord
  exact ⟨hn,hw,hasked.trans (by decide +kernel),hscore,⟨a,c,hrecord⟩,hmemory ▸ hshare "memory"⟩

end Scorer
end NodeRank
