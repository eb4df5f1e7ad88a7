import NodeRank.Proofs.Cluster.History
import NodeRank.Proofs.Cluster.Totals
import NodeRank.Proofs.Scoring.View

/-! # The order of binds

Pods may be bound in any order, and nodes may be put in again between the binds: as long as what
the pods of a node ask for is mergeable in every dimension, all that scoring looks at comes out the
same, and so does every ranking.
-/
namespace NodeRank
open Capped

/-- Node states that agree on all that scoring looks at: the pods count by their number only. -/
structure NodeState.Alike (a b : NodeState) : Prop where
  node : a.node = b.node
  requested : a.requested = b.requested
  defaulted : a.defaulted = b.defaulted
  allocatable : a.allocatable = b.allocatable
  pods : a.pods.length = b.pods.length

namespace NodeState.Alike
variable {a b : NodeState} (h : a.Alike b)
include h

theorem symm : b.Alike a where
  node := h.node.symm
  requested := h.requested.symm
  defaulted := h.defaulted.symm
  allocatable := h.allocatable.symm
  pods := h.pods.symm

theorem trans {c : NodeState} (h' : b.Alike c) : a.Alike c where
  node := h.node.trans h'.node
  requested := h.requested.trans h'.requested
  defaulted := h.defaulted.trans h'.defaulted
  allocatable := h.allocatable.trans h'.allocatable
  pods := h.pods.trans h'.pods

theorem sameView : a.SameView b where
  name := congrArg _ h.node
  requested := h.requested
  defaulted := h.defaulted
  allocatable := h.allocatable
  pods := h.pods

end NodeState.Alike

theorem NodeState.alike_of_perm (n : Node) {ps qs : List Pod} (hp : ps.Perm qs)
    (hr : ∀ d, Mergeable 63 (Pod.allDemands Container.requests d ps))
    (hd : ∀ d, Mergeable 63 (Pod.allDemands Container.defaultedRequests d ps)) :
    ((ofNode n).addPods ps).Alike ((ofNode n).addPods qs) where
  node := by rw [node_addPods, node_addPods]
  requested := by rw [requested_ofNode, requested_ofNode, Pod.totalOf_perm hp hr]
  defaulted := by rw [defaulted_ofNode, defaulted_ofNode, Pod.totalOf_perm hp hd]
  allocatable := by rw [allocatable_addPods, allocatable_addPods]
  pods := by
    rw [pods_addPods, pods_addPods]
    exact (hp.append_left _).length_eq

/-- Snapshots whose entries are alike rank every shortlist alike. -/
theorem Ranker.rank_eq_of_alike (r : Ranker) {s t : Snapshot}
    (h : ∀ name, Option.Rel NodeState.Alike (s.get? name) (t.get? name)) (names : List String)
    (c : Cancellation) : r.rank s names c = r.rank t names c :=
  r.rank_eq_of_sameView (fun name => (h name).imp fun _ _ => NodeState.Alike.sameView) names c

namespace History

def podsNaming (name : String) (pods : List Pod) : List Pod :=
  pods.filter fun p => p.nodeName == name

/-- Changes that bind the pods of a list in some order, and may put in nodes as they are. -/
structure Binds (s : Snapshot) (pods : List Pod) (changes : List Change) : Prop where
  perm : (changes.filterMap Change.pod?).Perm pods
  keeps : ∀ c ∈ changes, c.isRemoval = false
  unchanged : ∀ c ∈ changes, ∀ n ∈ c.node?, (s.get? n.name).bind NodeState.node = some n

theorem podsNaming_append (name : String) (changes : List Change) (c : Change) :
    podsNaming name ((changes ++ [c]).filterMap Change.pod?) =
      podsNaming name (changes.filterMap Change.pod?) ++
        podsNaming name ([c].filterMap Change.pod?) := by
  unfold podsNaming
  rw [List.filterMap_append, List.filter_append]

theorem podsNaming_of_ne {name : String} {c : Change} (h : c.name ≠ name) :
    podsNaming name ([c].filterMap Change.pod?) = [] := by
  cases c with
  | addPod p =>
    have hp : p.nodeName ≠ name := h
    exact List.filter_cons_of_neg (by simpa using hp)
  | addNode n => rfl
  | removeNode gone => rfl

theorem podsNaming_nodeName (p : Pod) : podsNaming p.nodeName [p] = [p] :=
  List.filter_cons_of_pos (by simp)

theorem tenancy?_append_binds {past changes : List Change}
    (hkeeps : ∀ c ∈ changes, c.isRemoval = false)
    (hsame : ∀ c ∈ changes, ∀ n ∈ c.node?,
      (tenancy? n.name past).map Tenancy.node = some n) (name : String) :
    tenancy? name (past ++ changes) = (tenancy? name past).map fun t =>
      ⟨t.node,t.pods ++ podsNaming name (changes.filterMap Change.pod?)⟩ := by
  induction changes using List.reverseRecOn with
  | nil =>
    rw [List.append_nil]
    cases tenancy? name past with
    | none => rfl
    | some t => simp [podsNaming]
  | append_singleton changes c ih =>
    have ih := ih (fun d hd => hkeeps d (List.mem_append_left _ hd))
      (fun d hd => hsame d (List.mem_append_left _ hd))
    have hc : c ∈ changes ++ [c] := List.mem_append_right _ List.mem_cons_self
    rw [← List.append_assoc, podsNaming_append]
    by_cases hne : c.name ≠ name
    · rw [tenancy?_append_of_ne hne, ih, podsNaming_of_ne hne]
      simp only [List.append_nil]
    · obtain rfl := not_not.mp hne
      cases c with
      | addNode n =>
        obtain ⟨t,ht,hn⟩ := Option.map_eq_some_iff.mp (hsame _ hc n rfl)
        have hput := tenancy?_append_addNode n (past ++ changes)
        rw [show tenancy? n.name (past ++ changes) = _ from ih] at hput
        refine hput.trans ?_
        rw [show tenancy? (Change.addNode n).name past = some t from ht, ← hn]
        simp [podsNaming, Change.pod?]
      | removeNode gone => exact absurd (hkeeps _ hc) (by simp [Change.isRemoval])
      | addPod p =>
        have hbind := tenancy?_append_addPod p (past ++ changes)
        rw [show tenancy? p.nodeName (past ++ changes) = _ from ih, Option.map_map] at hbind
        refine hbind.trans ?_
        rw [show podsNaming (Change.addPod p).name ([.addPod p].filterMap Change.pod?) = [p] from
          podsNaming_nodeName p]
        congr 1
        funext t
        exact congrArg _ (List.append_assoc t.pods _ [p])

/-- What the pods under every name of a snapshot and those of a list ask for is mergeable, with
and without the defaults. -/
def MergeableDemands (s : Snapshot) (pods : List Pod) : Prop :=
  ∀ name state, s.get? name = some state → ∀ d,
    Mergeable 63 (Pod.allDemands Container.requests d (state.pods ++ podsNaming name pods)) ∧
      Mergeable 63
        (Pod.allDemands Container.defaultedRequests d (state.pods ++ podsNaming name pods))

/-- Where no pod asks for a negative quantity, the demands are mergeable whatever their size. -/
theorem mergeableDemands_of_nonneg {past : List Change} {pods : List Pod}
    (h : ∀ p ∈ past.filterMap Change.pod? ++ pods, ∀ q ∈ p.quantities, 0 ≤ q.nanos) :
    MergeableDemands (Snapshot.empty.run past) pods := by
  intro name state hstate d
  rw [explains_run past name] at hstate
  obtain ⟨t,ht,rfl⟩ := Option.map_eq_some_iff.mp hstate
  rw [t.pods_state]
  refine Pod.mergeable_of_nonneg (fun p hp => ?_) d
  rcases List.mem_append.mp hp with hp | hp
  · exact h p (List.mem_append_left _ (pods_subset_of_tenancy? ht hp))
  · exact h p (List.mem_append_right _ (List.mem_of_mem_filter hp))

theorem get?_run_binds {past changes : List Change} {pods : List Pod}
    (h : Binds (Snapshot.empty.run past) pods changes) (name : String) :
    ((Snapshot.empty.run past).run changes).get? name = (tenancy? name past).map fun t =>
      Tenancy.state ⟨t.node,t.pods ++ podsNaming name (changes.filterMap Change.pod?)⟩ := by
  have hsame : ∀ c ∈ changes, ∀ n ∈ c.node?,
      (tenancy? n.name past).map Tenancy.node = some n := by
    intro c hc n hn
    have hu := h.unchanged c hc n hn
    rw [explains_run past n.name] at hu
    cases ht : tenancy? n.name past with
    | none => simp [ht] at hu
    | some t => simpa [ht] using hu
  rw [← Snapshot.run_append, explains_run (past ++ changes) name,
    tenancy?_append_binds h.keeps hsame name, Option.map_map]
  rfl

theorem get?_run_binds_of_none {past changes : List Change} {pods : List Pod}
    (h : Binds (Snapshot.empty.run past) pods changes) {name : String}
    (hnone : (Snapshot.empty.run past).get? name = none) :
    ((Snapshot.empty.run past).run changes).get? name = none := by
  rw [explains_run past name, Option.map_eq_none_iff] at hnone
  rw [get?_run_binds h, hnone]
  rfl

/-- What binding makes of an entry: the same node, with the new pods in some order. -/
theorem get?_run_binds_of_some {past changes : List Change} {pods : List Pod}
    (h : Binds (Snapshot.empty.run past) pods changes) {name : String} {state : NodeState}
    (hstate : (Snapshot.empty.run past).get? name = some state) :
    ∃ n ps, state = (NodeState.ofNode n).addPods state.pods ∧
      (state.pods ++ podsNaming name pods).Perm ps ∧
      ((Snapshot.empty.run past).run changes).get? name =
        some ((NodeState.ofNode n).addPods ps) := by
  rw [explains_run past name] at hstate
  obtain ⟨t,ht,rfl⟩ := Option.map_eq_some_iff.mp hstate
  have hpods : (podsNaming name pods).Perm (podsNaming name (changes.filterMap Change.pod?)) :=
    (h.perm.filter _).symm
  rw [t.pods_state]
  refine ⟨t.node,_,rfl,hpods.append_left t.pods,?_⟩
  rw [get?_run_binds h, ht]
  rfl

/-- A state that came about from another by binding pods, with every total exact up to its cap. -/
structure Gathers (before : NodeState) (new : List Pod) (after : NodeState) : Prop where
  node : after.node = before.node
  allocatable : after.allocatable = before.allocatable
  pods : (before.pods ++ new).Perm after.pods
  requested : ∀ d, (after.requested.amount d).toInt =
    min (Pod.allDemands Container.requests d (before.pods ++ new)).sum (2 ^ 63 - 1)
  defaulted : ∀ d, (after.defaulted.amount d).toInt =
    min (Pod.allDemands Container.defaultedRequests d (before.pods ++ new)).sum (2 ^ 63 - 1)

theorem gathers_of_perm (n : Node) {before pods ps : List Pod} (hp : (before ++ pods).Perm ps)
    (hm : ∀ d, Mergeable 63 (Pod.allDemands Container.requests d (before ++ pods)) ∧
      Mergeable 63 (Pod.allDemands Container.defaultedRequests d (before ++ pods))) :
    Gathers ((NodeState.ofNode n).addPods before) pods ((NodeState.ofNode n).addPods ps) := by
  have hpods (qs : List Pod) : ((NodeState.ofNode n).addPods qs).pods = qs :=
    (NodeState.pods_addPods _ qs).trans (List.nil_append qs)
  constructor
  · rw [NodeState.node_addPods, NodeState.node_addPods]
  · rw [NodeState.allocatable_addPods, NodeState.allocatable_addPods]
  · rw [hpods, hpods]
    exact hp
  · intro d
    rw [hpods, NodeState.requested_ofNode, ← Pod.totalOf_perm hp fun d => (hm d).1]
    exact Pod.amount_totalOf_eq_min (hm d).1
  · intro d
    rw [hpods, NodeState.defaulted_ofNode, ← Pod.totalOf_perm hp fun d => (hm d).2]
    exact Pod.amount_totalOf_eq_min (hm d).2

theorem get?_run_binds_alike {past xs ys : List Change} {pods : List Pod}
    (hxs : Binds (Snapshot.empty.run past) pods xs) (hys : Binds (Snapshot.empty.run past) pods ys)
    (hm : MergeableDemands (Snapshot.empty.run past) pods) {name : String} {before : NodeState}
    (hbefore : (Snapshot.empty.run past).get? name = some before) :
    ∃ a b, ((Snapshot.empty.run past).run xs).get? name = some a ∧
      ((Snapshot.empty.run past).run ys).get? name = some b ∧ a.Alike b ∧
      Gathers before (podsNaming name pods) a ∧ Gathers before (podsNaming name pods) b := by
  have hmerge := hm name before hbefore
  obtain ⟨n,ps,hn,hps,hget⟩ := get?_run_binds_of_some hxs hbefore
  obtain ⟨n',qs,hn',hqs,hget'⟩ := get?_run_binds_of_some hys hbefore
  have hnodes : some n = some n' := by
    have h := congrArg NodeState.node (hn.symm.trans hn')
    rwa [NodeState.node_addPods, NodeState.node_addPods] at h
  obtain rfl := Option.some.inj hnodes
  have hx := NodeState.alike_of_perm n hps (fun d => (hmerge d).1) fun d => (hmerge d).2
  have hy := NodeState.alike_of_perm n hqs (fun d => (hmerge d).1) fun d => (hmerge d).2
  have hgathers := gathers_of_perm n hps hmerge
  have hgathers' := gathers_of_perm n hqs hmerge
  rw [← hn] at hgathers hgathers'
  exact ⟨_,_,hget,hget',hx.symm.trans hy,hgathers,hgathers'⟩

/-- Binding pods in two orders, with nodes put in again anywhere between, comes to the same. -/
theorem binds_commute {past xs ys : List Change} {pods : List Pod}
    (hxs : Binds (Snapshot.empty.run past) pods xs) (hys : Binds (Snapshot.empty.run past) pods ys)
    (hm : MergeableDemands (Snapshot.empty.run past) pods) :
    let s := Snapshot.empty.run past
    (∀ name, s.get? name = none →
      (s.run xs).get? name = none ∧ (s.run ys).get? name = none) ∧
    (∀ name before, s.get? name = some before →
      ∃ a b, (s.run xs).get? name = some a ∧ (s.run ys).get? name = some b ∧ a.Alike b ∧
        Gathers before (podsNaming name pods) a ∧ Gathers before (podsNaming name pods) b) ∧
    ∀ (r : Ranker) names c, r.rank (s.run xs) names c = r.rank (s.run ys) names c := by
  intro s
  have hnone : ∀ name, s.get? name = none →
      (s.run xs).get? name = none ∧ (s.run ys).get? name = none :=
    fun name h => ⟨get?_run_binds_of_none hxs h,get?_run_binds_of_none hys h⟩
  have hsome : ∀ name before, s.get? name = some before →
      ∃ a b, (s.run xs).get? name = some a ∧ (s.run ys).get? name = some b ∧ a.Alike b ∧
        Gathers before (podsNaming name pods) a ∧ Gathers before (podsNaming name pods) b :=
    fun name before h => get?_run_binds_alike hxs hys hm h
  refine ⟨hnone,hsome,fun r names c => r.rank_eq_of_alike ?_ names c⟩
  intro name
  cases hbefore : s.get? name with
  | none =>
    obtain ⟨hx,hy⟩ := hnone name hbefore
    rw [hx, hy]
    exact .none
  | some before =>
    obtain ⟨a,b,hx,hy,halike,_⟩ := hsome name before hbefore
    rw [hx, hy]
    exact .some halike

def fourExbi : Node := ⟨"n1",.ofList [("memory", ⟨"4Ei",4 * 2 ^ 60 * 10 ^ 9⟩)],∅⟩

/-- A pod that asks for 5Ei in two containers, one of which asks for no processor time. -/
def fiveExbi (name : String) : Pod where
  id := .zero
  name := name
  createdAt := default
  nodeName := "n1"
  containers := [
    .requesting (.ofList [("memory", ⟨"4Ei",4 * 2 ^ 60 * 10 ^ 9⟩)]),
    .requesting (.ofList [("cpu", ⟨"1",10 ^ 9⟩), ("memory", ⟨"1Ei",2 ^ 60 * 10 ^ 9⟩)])]
  overhead := ∅

theorem binds_commute_beyond_cap :
    let past := [Change.addNode fourExbi, .addPod (fiveExbi "p0")]
    let xs := [Change.addPod (fiveExbi "p1"), .addNode fourExbi, .addPod (fiveExbi "p2")]
    let ys := [Change.addPod (fiveExbi "p2"), .addPod (fiveExbi "p1"), .addNode fourExbi]
    let pods := [fiveExbi "p1", fiveExbi "p2"]
    Binds (Snapshot.empty.run past) pods xs ∧ Binds (Snapshot.empty.run past) pods ys ∧
      MergeableDemands (Snapshot.empty.run past) pods ∧
      ∃ a b, ((Snapshot.empty.run past).run xs).get? "n1" = some a ∧
        ((Snapshot.empty.run past).run ys).get? "n1" = some b ∧ a.Alike b ∧
        (a.requested.amount .memory).toInt = 2 ^ 63 - 1 ∧
        (a.defaulted.amount .milliCpu).toInt = 3300 := by
  intro past xs ys pods
  have hxs : Binds (Snapshot.empty.run past) pods xs :=
    ⟨.refl _,by decide,by decide +kernel⟩
  have hys : Binds (Snapshot.empty.run past) pods ys :=
    ⟨.swap _ _ _,by decide,by decide +kernel⟩
  have hm : MergeableDemands (Snapshot.empty.run past) pods :=
    mergeableDemands_of_nonneg (by decide +kernel)
  have hbefore : (Snapshot.empty.run past).get? "n1" =
      some ((NodeState.ofNode fourExbi).addPods [fiveExbi "p0"]) := by decide +kernel
  obtain ⟨a,b,ha,hb,halike,hgathers,_⟩ := (binds_commute hxs hys hm).2.1 "n1" _ hbefore
  refine ⟨hxs,hys,hm,a,b,ha,hb,halike,?_,?_⟩
  · rw [hgathers.requested]
    decide +kernel
  · rw [hgathers.defaulted]
    decide +kernel

end History
end NodeRank
