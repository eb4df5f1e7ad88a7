import NodeRank.Proofs.Cluster.History
import NodeRank.Scoring.Ranker

/-! # Scores of a cycle that is already cancelled

A cycle that is cancelled before it scores asks no telemetry, writes no record and ranks no node.
Of a node that the snapshot holds it says that it is cancelled. A name that the snapshot does not
hold is looked up first, and is reported as unknown although the cycle is cancelled.
-/
namespace NodeRank

namespace Scorer

theorem score_beforehand_of_node (s : Scorer) {state : NodeState} {n : Node}
    (hn : state.node = some n) :
    s.score state .beforehand = .pure (.error (.cancelled n.name)) := by
  unfold score NodeState.nodeName
  rw [hn]
  rfl

end Scorer

/-- An entry stands under the name of its node. -/
theorem Snapshot.nodeName_of_get? {changes : List Change} {name : String} {state : NodeState}
    (h : (empty.run changes).get? name = some state) :
    ∃ n, state.node = some n ∧ n.name = name := by
  rw [History.explains_run changes name] at h
  obtain ⟨t,ht,rfl⟩ := Option.map_eq_some_iff.mp h
  exact ⟨t.node,t.node_state,(History.named_of_tenancy? ht).1⟩

namespace Ranker

/-- What a cancelled cycle says of a name. -/
def refusal (s : Snapshot) (name : String) : ScoreError :=
  if name ∈ s.nodeNames then .cancelled name
  else .nodeNotFound ("getting node " ++ Text.quote name ++ " from snapshot")

theorem refusal_eq_cancelled_iff {s : Snapshot} {name : String} :
    refusal s name = .cancelled name ↔ name ∈ s.nodeNames := by
  unfold refusal
  split_ifs with h <;> simp [h]

theorem refusal_eq_nodeNotFound_iff {s : Snapshot} {name : String} :
    refusal s name = .nodeNotFound ("getting node " ++ Text.quote name ++ " from snapshot") ↔
      name ∉ s.nodeNames := by
  unfold refusal
  split_ifs with h <;> simp [h]

theorem score_beforehand_eq (r : Ranker) (changes : List Change) (name : String) :
    let s := Snapshot.empty.run changes
    r.score s name .beforehand = .pure (.error (refusal s name)) := by
  intro s
  have hmem : name ∈ s.nodeNames ↔ (s.get? name).isSome := NameMap.mem_names_iff
  unfold score refusal
  cases hget : s.get? name with
  | none =>
    rw [hget] at hmem
    rw [if_neg (by simp [hmem])]
  | some state =>
    rw [hget] at hmem
    rw [if_pos (by simp [hmem])]
    obtain ⟨n,hn,hname⟩ := Snapshot.nodeName_of_get? hget
    rw [← hname]
    exact r.scorer.score_beforehand_of_node hn

theorem rank_beforehand_eq (r : Ranker) (changes : List Change) (names : List String) :
    let s := Snapshot.empty.run changes
    r.rank s names .beforehand = ⟨[],names.map fun name => (name, refusal s name),[]⟩ := by
  intro s
  have hscore := r.score_beforehand_eq changes
  have hentry : r.entry? s .beforehand = fun _ => none := by
    funext name
    unfold entry?
    rw [hscore name]
    rfl
  have hexclusion : r.exclusion? s .beforehand = fun name => some (name, refusal s name) := by
    funext name
    unfold exclusion?
    rw [hscore name]
    rfl
  have hasked : (fun name => (r.score s name .beforehand).asked) = fun _ => [] := by
    funext name
    rw [hscore name]
    rfl
  have hbest : names.filterMap (fun _ => (none : Option Ranked)) = [] :=
    List.filterMap_eq_nil_iff.mpr fun _ _ => rfl
  unfold rank
  rw [hentry, hexclusion, hasked, hbest, List.mergeSort_nil, List.filterMap_eq_map',
    List.flatMap_eq_nil_iff.mpr fun _ _ => rfl]

/-- A cycle that is cancelled beforehand fails as cancelled on the nodes that the snapshot holds and
on no others, and in every case without a question to telemetry. -/
theorem cancelled_iff_known (r : Ranker) (changes : List Change) (name : String) :
    let s := Snapshot.empty.run changes
    let o := r.score s name .beforehand
    (o.result = .error (.cancelled name) ↔ name ∈ s.nodeNames) ∧
    (o.result = .error (.nodeNotFound ("getting node " ++ Text.quote name ++ " from snapshot")) ↔
      name ∉ s.nodeNames) ∧
    o.asked = [] ∧ o.log = [] ∧
    ∀ names, let ranking := r.rank s names .beforehand
      ranking.best = [] ∧ ranking.asked = [] ∧
        ranking.excluded = names.map fun name => (name, refusal s name) := by
  intro s o
  have ho : o = .pure (.error (refusal s name)) := r.score_beforehand_eq changes name
  have hresult (e : ScoreError) : o.result = .error e ↔ refusal s name = e := by
    rw [ho]
    exact ⟨Except.error.inj,congrArg Except.error⟩
  rw [hresult, hresult]
  refine ⟨refusal_eq_cancelled_iff,refusal_eq_nodeNotFound_iff,?_,?_,?_⟩
  · rw [ho]
    rfl
  · rw [ho]
    rfl
  · intro names
    rw [show r.rank s names .beforehand = _ from r.rank_beforehand_eq changes names]
    exact ⟨rfl,rfl,rfl⟩

/-- No node has ever been put in, so the cancelled cycle calls the node unknown. -/
theorem not_cancelled_of_unknown :
    let r : Ranker := ⟨⟨Ranker.pluginName,.least,Weights.standard,.off⟩⟩
    (r.score (Snapshot.empty.run []) "n1" .beforehand).result =
        .error (.nodeNotFound "getting node \"n1\" from snapshot") ∧
      (r.score (Snapshot.empty.run []) "n1" .beforehand).result ≠ .error (.cancelled "n1") := by
  intro r
  have h : (r.score (Snapshot.empty.run []) "n1" .beforehand).result =
      .error (.nodeNotFound "getting node \"n1\" from snapshot") := rfl
  rw [h]
  exact ⟨rfl,nofun⟩

end Ranker
end NodeRank
