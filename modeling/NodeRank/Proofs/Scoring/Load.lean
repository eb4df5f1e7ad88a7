import NodeRank.Proofs.Cluster.History
import NodeRank.Proofs.Cluster.Totals
import NodeRank.Proofs.Scoring.Basis
import NodeRank.Proofs.Scoring.WeightedSum
import NodeRank.Scoring.Ranker

/-! # More load

Every step from what the pods of a node ask for to its score keeps the order of costs, caps and
roundings included. A pod that asks for nothing negative therefore never raises the score of its
node under the policy for the least utilization, nor lowers it under the other one.
-/
namespace NodeRank
open Capped

namespace Policy

theorem clampScore_mono {m n : Int} (h : m ≤ n) : clampScore m ≤ clampScore n := by
  unfold clampScore
  omega

theorem percent_mono {x y a : Total} (ha : 0 < a.toInt) (h : x.toInt ≤ y.toInt) :
    percent x a ≤ percent y a := by
  have hundredfold : maxScore * x.toInt ≤ maxScore * y.toInt := by
    unfold maxScore
    omega
  exact Int.ediv_le_ediv ha (cap_mono hundredfold)

theorem score_least_antitone {c c' : Total} (h : c.toInt ≤ c'.toInt) (a : Total) :
    Policy.least.score c' a ≤ Policy.least.score c a := by
  unfold score
  dsimp only
  split
  · exact le_rfl
  · rename_i ha
    have hfree : (a - c').toInt ≤ (a - c).toInt := cap_mono (by omega)
    exact clampScore_mono (percent_mono (by omega) hfree)

theorem score_most_mono {c c' : Total} (h : c.toInt ≤ c'.toInt) (a : Total) :
    Policy.most.score c a ≤ Policy.most.score c' a := by
  unfold score
  dsimp only
  split
  · exact le_rfl
  · exact clampScore_mono (percent_mono (by omega) h)

end Policy

namespace Tally

theorem foldl_cap_mono {α : Type} {l : List α} {f g : α → Int} (h : ∀ x ∈ l, f x ≤ g x) {s t : Int}
    (hst : s ≤ t) :
    (l.map f).foldl (fun s x => cap 127 (s + x)) s ≤
      (l.map g).foldl (fun s x => cap 127 (s + x)) t := by
  induction l generalizing s t with
  | nil => exact hst
  | cons x l ih =>
    have hx := h x List.mem_cons_self
    exact ih (fun y hy => h y (List.mem_cons_of_mem x hy)) (cap_mono (by omega))

theorem cost_ofTable_mono (w : Weights) {f g : String → Share}
    (h : ∀ name, (f name).cost.toInt ≤ (g name).cost.toInt) :
    (ofTable w f).cost.toInt ≤ (ofTable w g).cost.toInt := by
  rw [toInt_cost_ofTable, toInt_cost_ofTable]
  refine foldl_cap_mono (fun e he => ?_) le_rfl
  exact Int.mul_le_mul_of_nonneg_right (h e.1) (Weights.weight_pos he).le

theorem allocatable_ofTable_congr (w : Weights) {f g : String → Share}
    (h : ∀ name, (f name).allocatable = (g name).allocatable) :
    (ofTable w f).allocatable = (ofTable w g).allocatable := by
  apply Capped.ext
  rw [toInt_allocatable_ofTable, toInt_allocatable_ofTable]
  simp only [h]

end Tally

/-- The second state is the first one under more load, or the same: no total is smaller. -/
structure NodeState.LoadLE (a b : NodeState) : Prop where
  node : b.node = a.node
  allocatable : b.allocatable = a.allocatable
  requested : ∀ d, (a.requested.amount d).toInt ≤ (b.requested.amount d).toInt
  defaulted : ∀ d, (a.defaulted.amount d).toInt ≤ (b.defaulted.amount d).toInt
  pods : a.pods.length ≤ b.pods.length

namespace NodeState.LoadLE
variable {a b : NodeState}

theorem refl (a : NodeState) : a.LoadLE a :=
  ⟨rfl,rfl,fun _ => le_rfl,fun _ => le_rfl,le_rfl⟩

theorem requestedShare (h : a.LoadLE b) (name : String) :
    (b.requestedShare name).allocatable = (a.requestedShare name).allocatable ∧
      (a.requestedShare name).cost.toInt ≤ (b.requestedShare name).cost.toInt := by
  unfold NodeState.requestedShare
  rw [h.allocatable]
  split_ifs
  · exact ⟨rfl,h.defaulted .milliCpu⟩
  · exact ⟨rfl,h.defaulted .memory⟩
  · exact ⟨rfl,cap_mono (by exact_mod_cast h.pods)⟩
  · exact ⟨rfl,h.requested .ephemeralStorage⟩
  · exact ⟨rfl,h.requested (.scalar name)⟩
  · exact ⟨rfl,le_rfl⟩

/-- A reading stands for the cost of both states alike. -/
theorem share (h : a.LoadLE b) (name : String) (usage : Option Usage) :
    (b.share name usage).allocatable = (a.share name usage).allocatable ∧
      (a.share name usage).cost.toInt ≤ (b.share name usage).cost.toInt := by
  have hreading : b.readingShare? name usage = a.readingShare? name usage := by
    unfold readingShare?
    rw [h.allocatable]
  unfold NodeState.share
  rw [hreading]
  cases a.readingShare? name usage with
  | none => exact h.requestedShare name
  | some share => exact ⟨rfl,le_rfl⟩

theorem tally (h : a.LoadLE b) (w : Weights) (usage : Option Usage) :
    (Tally.ofTable w (b.share · usage)).allocatable =
        (Tally.ofTable w (a.share · usage)).allocatable ∧
      (Tally.ofTable w (a.share · usage)).cost.toInt ≤
        (Tally.ofTable w (b.share · usage)).cost.toInt :=
  ⟨Tally.allocatable_ofTable_congr w fun name => (h.share name usage).1,
    Tally.cost_ofTable_mono w fun name => (h.share name usage).2⟩

theorem scoreWith_least (h : a.LoadLE b) {s : Scorer} (hs : s.policy = .least)
    (usage : Option Usage) : s.scoreWith b usage ≤ s.scoreWith a usage := by
  obtain ⟨hallocatable,hcost⟩ := h.tally s.weights usage
  unfold Scorer.scoreWith
  dsimp only
  rw [hs, hallocatable]
  exact Policy.score_least_antitone hcost _

theorem scoreWith_most (h : a.LoadLE b) {s : Scorer} (hs : s.policy = .most)
    (usage : Option Usage) : s.scoreWith a usage ≤ s.scoreWith b usage := by
  obtain ⟨hallocatable,hcost⟩ := h.tally s.weights usage
  unfold Scorer.scoreWith
  dsimp only
  rw [hs, hallocatable]
  exact Policy.score_most_mono hcost _

end NodeState.LoadLE

namespace Pod

theorem amount_totalBy_nonneg {request : Container → Resources} {p : Pod} {d : Dimension}
    (h : ∀ x ∈ p.demands request d, 0 ≤ x) : 0 ≤ ((p.totalBy request).amount d).toInt := by
  rw [amount_totalBy, (show Mergeable 63 _ from .inl h).runningSum_eq]
  exact cap_nonneg (List.sum_nonneg h)

theorem amount_requests_nonneg {p : Pod} (hp : ∀ q ∈ p.quantities, 0 ≤ q.nanos) (d : Dimension) :
    0 ≤ (p.requests.amount d).toInt :=
  amount_totalBy_nonneg (demands_requests_nonneg hp d)

theorem amount_defaultedRequests_nonneg {p : Pod} (hp : ∀ q ∈ p.quantities, 0 ≤ q.nanos)
    (d : Dimension) : 0 ≤ (p.defaultedRequests.amount d).toInt :=
  amount_totalBy_nonneg (demands_defaulted_nonneg hp d)

end Pod

/-- Adding what is not negative never lowers a total, be it negative or at its cap. -/
theorem Resources.amount_le_amount_add (r : Resources) {s : Resources} {d : Dimension}
    (h : 0 ≤ (s.amount d).toInt) : (r.amount d).toInt ≤ ((r + s).amount d).toInt := by
  have hge := (r.amount d).ge
  have hlt := (r.amount d).lt
  rw [amount_add, toInt_add]
  unfold cap
  omega

theorem NodeState.loadLE_addPod (s : NodeState) {p : Pod}
    (hp : ∀ q ∈ p.quantities, 0 ≤ q.nanos) : s.LoadLE (s.addPod p) where
  node := rfl
  allocatable := rfl
  requested d := s.requested.amount_le_amount_add (p.amount_requests_nonneg hp d)
  defaulted d := s.defaulted.amount_le_amount_add (p.amount_defaultedRequests_nonneg hp d)
  pods := by
    rw [pods_addPod, List.length_append]
    omega

/-- Both calls fail, and alike, or both score, the first not above the second. -/
def NotAbove : Except ScoreError Int → Except ScoreError Int → Prop
  | .ok x, .ok y => x ≤ y
  | .error e, .error e' => e = e'
  | _, _ => False

theorem notAbove_refl (x : Except ScoreError Int) : NotAbove x x := by
  cases x with
  | ok n => exact le_refl n
  | error e => rfl

theorem notAbove_map {f g : Option Usage → Int} (h : ∀ usage, f usage ≤ g usage)
    (x : Except ScoreError (Option Usage)) : NotAbove (x.map f) (x.map g) := by
  cases x with
  | ok usage => exact h usage
  | error e => rfl

namespace NodeState.LoadLE
variable {a b : NodeState}

theorem score_least (h : a.LoadLE b) {s : Scorer} (hs : s.policy = .least) (c : Cancellation) :
    NotAbove (s.score b c).result (s.score a c).result := by
  rw [Scorer.result_score, Scorer.result_score, h.node]
  exact notAbove_map (h.scoreWith_least hs) _

theorem score_most (h : a.LoadLE b) {s : Scorer} (hs : s.policy = .most) (c : Cancellation) :
    NotAbove (s.score a c).result (s.score b c).result := by
  rw [Scorer.result_score, Scorer.result_score, h.node]
  exact notAbove_map (h.scoreWith_most hs) _

end NodeState.LoadLE

namespace Snapshot

theorem get?_addPod_of_some {s : Snapshot} {p : Pod} {name : String} {state : NodeState}
    (hp : ∀ q ∈ p.quantities, 0 ≤ q.nanos) (h : s.get? name = some state) :
    ∃ state', (s.addPod p).2.get? name = some state' ∧ state.LoadLE state' := by
  rw [get?_addPod]
  split
  · rename_i hname
    rw [hname, h]
    exact ⟨_,rfl,state.loadLE_addPod hp⟩
  · exact ⟨state,h,.refl state⟩

theorem get?_addPod_of_none {s : Snapshot} {p : Pod} {name : String} (h : s.get? name = none) :
    (s.addPod p).2.get? name = none := by
  rw [get?_addPod]
  split
  · rename_i hname
    rw [hname, h]
    rfl
  · exact h

end Snapshot

namespace Ranker

/-- Before and after a pod is added a call fares alike, or it scores a node before and under more
load. -/
theorem score_addPod {p : Pod} (hp : ∀ q ∈ p.quantities, 0 ≤ q.nanos) (r : Ranker) (s : Snapshot)
    (name : String) (c : Cancellation) :
    (r.score (s.addPod p).2 name c).result = (r.score s name c).result ∨
      ∃ a b : NodeState, a.LoadLE b ∧ (r.score s name c).result = (r.scorer.score a c).result ∧
        (r.score (s.addPod p).2 name c).result = (r.scorer.score b c).result := by
  unfold Ranker.score
  cases h : s.get? name with
  | none =>
    rw [Snapshot.get?_addPod_of_none h]
    exact .inl rfl
  | some state =>
    obtain ⟨state',hget,hload⟩ := Snapshot.get?_addPod_of_some hp h
    rw [hget]
    exact .inr ⟨state,state',hload,rfl,rfl⟩

theorem score_least_addPod {p : Pod} (hp : ∀ q ∈ p.quantities, 0 ≤ q.nanos) {r : Ranker}
    (hr : r.scorer.policy = .least) (s : Snapshot) (name : String) (c : Cancellation) :
    NotAbove (r.score (s.addPod p).2 name c).result (r.score s name c).result := by
  rcases r.score_addPod hp s name c with halike | ⟨a,b,hload,ha,hb⟩
  · rw [halike]
    exact notAbove_refl _
  · rw [ha, hb]
    exact hload.score_least hr c

theorem score_most_addPod {p : Pod} (hp : ∀ q ∈ p.quantities, 0 ≤ q.nanos) {r : Ranker}
    (hr : r.scorer.policy = .most) (s : Snapshot) (name : String) (c : Cancellation) :
    NotAbove (r.score s name c).result (r.score (s.addPod p).2 name c).result := by
  rcases r.score_addPod hp s name c with halike | ⟨a,b,hload,ha,hb⟩
  · rw [halike]
    exact notAbove_refl _
  · rw [ha, hb]
    exact hload.score_most hr c

/-- A known node of a snapshot that came about by changes has a score. -/
theorem exists_score_of_known {r : Ranker} (hw : r.scorer.weights.isEmpty = false)
    {past : List Change} {name : String}
    (h : ((Snapshot.empty.run past).get? name).isSome) :
    ∃ score, (r.score (Snapshot.empty.run past) name .never).result = .ok score := by
  obtain ⟨state,hstate⟩ := Option.isSome_iff_exists.mp h
  have hexplains := History.explains_run past name
  rw [hstate] at hexplains
  obtain ⟨t,_,rfl⟩ := Option.map_eq_some_iff.mp hexplains.symm
  unfold Ranker.score
  rw [hstate]
  exact ⟨_,(r.scorer.score_never t.node_state hw).1⟩

/-- Binding a pod that asks for nothing negative makes no node look emptier, whatever the weights,
the telemetry and the pods that are there already. -/
theorem addPod_never_looks_emptier {p : Pod} (hp : ∀ q ∈ p.quantities, 0 ≤ q.nanos)
    (past : List Change) (plugin : String) (w : Weights) (t : Telemetry) :
    let s := Snapshot.empty.run past
    let s' := (s.addPod p).2
    let least : Ranker := ⟨⟨plugin,.least,w,t⟩⟩
    let most : Ranker := ⟨⟨plugin,.most,w,t⟩⟩
    (∀ name c, NotAbove (least.score s' name c).result (least.score s name c).result ∧
      NotAbove (most.score s name c).result (most.score s' name c).result) ∧
    (∀ state, s.get? p.nodeName = some state → ∀ usage,
      least.scorer.scoreWith (state.addPod p) usage ≤ least.scorer.scoreWith state usage ∧
        most.scorer.scoreWith state usage ≤ most.scorer.scoreWith (state.addPod p) usage) ∧
    (w.isEmpty = false → (s.get? p.nodeName).isSome → ∃ l l' m m',
      (least.score s p.nodeName .never).result = .ok l ∧
        (least.score s' p.nodeName .never).result = .ok l' ∧
        (most.score s p.nodeName .never).result = .ok m ∧
        (most.score s' p.nodeName .never).result = .ok m' ∧ l' ≤ l ∧ m ≤ m') := by
  intro s s' least most
  have hleast (name : String) (c : Cancellation) :=
    score_least_addPod hp (show least.scorer.policy = .least from rfl) s name c
  have hmost (name : String) (c : Cancellation) :=
    score_most_addPod hp (show most.scorer.policy = .most from rfl) s name c
  refine ⟨fun name c => ⟨hleast name c,hmost name c⟩,?_,?_⟩
  · intro state _ usage
    have hload := state.loadLE_addPod hp
    exact ⟨hload.scoreWith_least rfl usage,hload.scoreWith_most rfl usage⟩
  · intro hw hknown
    have hrun : s' = Snapshot.empty.run (past ++ [.addPod p]) :=
      (Snapshot.run_append .empty past [.addPod p]).symm
    have hknown' : (s'.get? p.nodeName).isSome := by
      rw [Snapshot.get?_addPod, if_pos rfl, Option.isSome_map]
      exact hknown
    rw [hrun] at hknown'
    obtain ⟨l,hl⟩ := exists_score_of_known (r := least) hw hknown
    obtain ⟨l',hl'⟩ := exists_score_of_known (r := least) hw hknown'
    obtain ⟨m,hm⟩ := exists_score_of_known (r := most) hw hknown
    obtain ⟨m',hm'⟩ := exists_score_of_known (r := most) hw hknown'
    rw [← hrun] at hl' hm'
    have hle := hleast p.nodeName .never
    have hle' := hmost p.nodeName .never
    rw [hl, hl'] at hle
    rw [hm, hm'] at hle'
    exact ⟨l,l',m,m',hl,hl',hm,hm',hle,hle'⟩

/-- A pod that owes a gibibyte, and so lowers the total of its node. -/
def owing : Pod :=
  ⟨.zero,"p0",default,"n1",[],.ofList [("memory", ⟨"-1Gi",-(2 ^ 30 * 10 ^ 9)⟩)]⟩

def threeExbi : Pod :=
  ⟨.zero,"p1",default,"n1",[.requesting (.ofList [("memory", ⟨"3Ei",3 * 2 ^ 60 * 10 ^ 9⟩)])],∅⟩

theorem addPod_threeExbi_after_owing :
    let node : Node := ⟨"n1",.ofList [("memory", ⟨"4Ei",4 * 2 ^ 60 * 10 ^ 9⟩)],∅⟩
    let s := Snapshot.empty.run [.addNode node, .addPod owing]
    let s' := (s.addPod threeExbi).2
    let w : Weights := .ofList [("cpu", .ofInt 63 (-1)), ("memory", .ofInt 63 (2 ^ 62))]
    let least : Ranker := ⟨⟨"s",.least,w,.off⟩⟩
    let most : Ranker := ⟨⟨"s",.most,w,.off⟩⟩
    (∀ q ∈ threeExbi.quantities, 0 ≤ q.nanos) ∧ w.isEmpty = false ∧
      (s.get? threeExbi.nodeName).isSome ∧ ∃ l l' m m',
        (least.score s "n1" .never).result = .ok l ∧
          (least.score s' "n1" .never).result = .ok l' ∧
          (most.score s "n1" .never).result = .ok m ∧
          (most.score s' "n1" .never).result = .ok m' ∧ l' ≤ l ∧ m ≤ m' := by
  intro node s s' w least most
  have hp : ∀ q ∈ threeExbi.quantities, 0 ≤ q.nanos := by decide +kernel
  have hw : w.isEmpty = false := by decide +kernel
  have hknown : (s.get? threeExbi.nodeName).isSome := by decide +kernel
  have hscores := (addPod_never_looks_emptier hp [.addNode node, .addPod owing] "s" w .off).2.2
  exact ⟨hp,hw,hknown,hscores hw hknown⟩

end Ranker
end NodeRank
