import NodeRank.Cluster.Snapshot
import Mathlib.Data.List.Induction

/-! # Snapshots and their history

A snapshot is built by changes, in place or by rebuilding an entry. What it holds for a name can be
read off the changes alone: since the name was last vacant, the node that was put in last and the
pods that were bound, in their order. Every entry is the state of that node with those pods.
-/
namespace NodeRank

inductive Change where
  | addNode (n : Node)
  | removeNode (name : String)
  | addPod (p : Pod)

namespace Change

/-- The name of the node that a change is about. -/
def name : Change → String
  | addNode n => n.name
  | removeNode name => name
  | addPod p => p.nodeName

def isRemoval : Change → Bool
  | removeNode _ => true
  | _ => false

def node? : Change → Option Node
  | addNode n => some n
  | _ => none

def pod? : Change → Option Pod
  | addPod p => some p
  | _ => none

end Change

namespace Snapshot

def apply (s : Snapshot) : Change → Snapshot
  | .addNode n => s.addNode n
  | .removeNode name => s.removeNode name
  | .addPod p => (s.addPod p).2

def run (s : Snapshot) (changes : List Change) : Snapshot := changes.foldl apply s

theorem run_append (s : Snapshot) (xs ys : List Change) :
    s.run (xs ++ ys) = (s.run xs).run ys := List.foldl_append

/-- A change leaves the entries of all other names as they are. -/
theorem get?_apply_of_ne (s : Snapshot) {c : Change} {name : String} (h : c.name ≠ name) :
    (s.apply c).get? name = s.get? name := by
  cases c with
  | addNode n => exact (get?_addNode s n name).trans (if_neg h)
  | removeNode gone => exact (get?_removeNode s gone name).trans (if_neg h)
  | addPod p => exact (get?_addPod s p name).trans (if_neg h)

end Snapshot

structure Tenancy where
  node : Node
  pods : List Pod

namespace Tenancy

def state (t : Tenancy) : NodeState := (NodeState.ofNode t.node).addPods t.pods

@[simp] theorem node_state (t : Tenancy) : t.state.node = some t.node := NodeState.node_addPods _ _

@[simp] theorem pods_state (t : Tenancy) : t.state.pods = t.pods :=
  (NodeState.pods_addPods _ _).trans (List.nil_append _)

end Tenancy

namespace History

def sinceRemoval (changes : List Change) : List Change :=
  (changes.reverse.takeWhile fun c => !c.isRemoval).reverse

/-- The changes about a name since it was last vacant, the first of which puts a node in. -/
def tenure (name : String) (changes : List Change) : List Change :=
  (sinceRemoval (changes.filter fun c => c.name == name)).dropWhile fun c => c.node?.isNone

/-- The last node of a name and the pods bound since it was last vacant, in their order; none if
the name is vacant. -/
def tenancy? (name : String) (changes : List Change) : Option Tenancy :=
  ((tenure name changes).filterMap Change.node?).getLast?.map fun n =>
    ⟨n,(tenure name changes).filterMap Change.pod?⟩

theorem tenure_append_of_ne {name : String} {c : Change} (h : c.name ≠ name)
    (changes : List Change) : tenure name (changes ++ [c]) = tenure name changes := by
  unfold tenure
  rw [List.filter_append, List.filter_cons_of_neg (by simpa using h), List.filter_nil,
    List.append_nil]

theorem tenure_append_removeNode (name : String) (changes : List Change) :
    tenure name (changes ++ [.removeNode name]) = [] := by
  unfold tenure sinceRemoval
  rw [List.filter_append, List.filter_cons_of_pos (by simp [Change.name]), List.filter_nil,
    List.reverse_append]
  rfl

/-- A change about a name that takes nothing out goes on with the tenure, or begins one if it puts
a node in. -/
theorem tenure_append {c : Change} (hr : c.isRemoval = false) (changes : List Change) :
    tenure c.name (changes ++ [c]) =
      if tenure c.name changes = [] ∧ c.node? = none then []
      else tenure c.name changes ++ [c] := by
  unfold tenure sinceRemoval
  rw [List.filter_append, List.filter_cons_of_pos (by simp), List.filter_nil, List.reverse_append,
    List.reverse_singleton, List.singleton_append, List.takeWhile_cons_of_pos (by simp [hr]),
    List.reverse_cons, List.dropWhile_append]
  generalize List.dropWhile _ _ = l
  cases l with
  | nil => cases hc : c.node? <;> simp [hc]
  | cons d l => simp

theorem tenure_append_addNode (n : Node) (changes : List Change) :
    tenure n.name (changes ++ [.addNode n]) = tenure n.name changes ++ [.addNode n] :=
  (tenure_append (c := .addNode n) rfl changes).trans (if_neg fun h => nomatch h.2)

theorem tenure_append_addPod (p : Pod) {changes : List Change}
    (h : tenure p.nodeName changes ≠ []) :
    tenure p.nodeName (changes ++ [.addPod p]) = tenure p.nodeName changes ++ [.addPod p] :=
  (tenure_append (c := .addPod p) rfl changes).trans (if_neg fun hand => h hand.1)

theorem tenure_append_addPod_of_vacant (p : Pod) {changes : List Change}
    (h : tenure p.nodeName changes = []) : tenure p.nodeName (changes ++ [.addPod p]) = [] :=
  (tenure_append (c := .addPod p) rfl changes).trans (if_pos ⟨h,rfl⟩)

/-- A tenure begins with a node. -/
theorem tenure_eq_nil_iff (name : String) (changes : List Change) :
    tenure name changes = [] ↔ (tenure name changes).filterMap Change.node? = [] := by
  constructor
  · intro h
    rw [h]
    rfl
  · intro h
    have hhead := List.head?_dropWhile_not (fun c : Change => c.node?.isNone)
      (sinceRemoval (changes.filter fun c => c.name == name))
    cases ht : tenure name changes with
    | nil => rfl
    | cons c rest =>
      rw [show List.dropWhile _ _ = c :: rest from ht] at hhead
      rw [ht] at h
      have hc := List.filterMap_eq_nil_iff.mp h c List.mem_cons_self
      simp [hc] at hhead

theorem tenancy?_eq_none_iff (name : String) (changes : List Change) :
    tenancy? name changes = none ↔ tenure name changes = [] := by
  unfold tenancy?
  rw [Option.map_eq_none_iff, List.getLast?_eq_none_iff, tenure_eq_nil_iff]

theorem pods_tenancy? (name : String) (changes : List Change) :
    ((tenancy? name changes).map Tenancy.pods).getD [] =
      (tenure name changes).filterMap Change.pod? := by
  cases h : tenancy? name changes with
  | none =>
    rw [(tenancy?_eq_none_iff name changes).mp h]
    rfl
  | some t =>
    obtain ⟨n,_,rfl⟩ := Option.map_eq_some_iff.mp h
    rfl

theorem tenancy?_append_of_ne {name : String} {c : Change} (h : c.name ≠ name)
    (changes : List Change) : tenancy? name (changes ++ [c]) = tenancy? name changes := by
  unfold tenancy?
  rw [tenure_append_of_ne h]

theorem tenancy?_append_removeNode (name : String) (changes : List Change) :
    tenancy? name (changes ++ [.removeNode name]) = none :=
  (tenancy?_eq_none_iff _ _).mpr (tenure_append_removeNode name changes)

theorem tenancy?_append_addNode (n : Node) (changes : List Change) :
    tenancy? n.name (changes ++ [.addNode n]) =
      some ⟨n,((tenancy? n.name changes).map Tenancy.pods).getD []⟩ := by
  rw [pods_tenancy?]
  unfold tenancy?
  rw [tenure_append_addNode, List.filterMap_append, List.filterMap_append]
  simp [Change.node?, Change.pod?]

theorem tenancy?_append_addPod (p : Pod) (changes : List Change) :
    tenancy? p.nodeName (changes ++ [.addPod p]) =
      (tenancy? p.nodeName changes).map fun t => ⟨t.node,t.pods ++ [p]⟩ := by
  by_cases h : tenure p.nodeName changes = []
  · rw [(tenancy?_eq_none_iff _ _).mpr h,
      (tenancy?_eq_none_iff _ _).mpr (tenure_append_addPod_of_vacant p h)]
    rfl
  · unfold tenancy?
    rw [tenure_append_addPod p h, List.filterMap_append, List.filterMap_append, Option.map_map]
    have hnodes : [Change.addPod p].filterMap Change.node? = [] := rfl
    have hpods : [Change.addPod p].filterMap Change.pod? = [p] := rfl
    rw [hnodes, hpods, List.append_nil]
    rfl

def Named (name : String) (t : Tenancy) : Prop :=
  t.node.name = name ∧ ∀ p ∈ t.pods, p.nodeName = name

theorem mem_of_mem_tenure {name : String} {changes : List Change} {c : Change}
    (h : c ∈ tenure name changes) : c ∈ changes ∧ c.name = name := by
  have hsince := (List.dropWhile_sublist _).subset h
  have htake := (List.takeWhile_sublist _).subset (List.mem_reverse.mp hsince)
  simpa using List.mem_filter.mp (List.mem_reverse.mp htake)

theorem named_of_tenancy? {name : String} {changes : List Change} {t : Tenancy}
    (h : tenancy? name changes = some t) : Named name t := by
  obtain ⟨n,hn,rfl⟩ := Option.map_eq_some_iff.mp h
  constructor
  · obtain ⟨c,hc,hcn⟩ := List.mem_filterMap.mp (List.mem_of_getLast? hn)
    have hname := (mem_of_mem_tenure hc).2
    cases c <;> cases hcn
    exact hname
  · intro p hp
    obtain ⟨c,hc,hcp⟩ := List.mem_filterMap.mp hp
    have hname := (mem_of_mem_tenure hc).2
    cases c <;> cases hcp
    exact hname

theorem pods_subset_of_tenancy? {name : String} {changes : List Change} {t : Tenancy}
    (h : tenancy? name changes = some t) : t.pods ⊆ changes.filterMap Change.pod? := by
  obtain ⟨n,_,rfl⟩ := Option.map_eq_some_iff.mp h
  exact List.filterMap_subset _ fun c hc => (mem_of_mem_tenure hc).1

/-- A snapshot holds what the changes say, name by name. -/
def Explains (changes : List Change) (s : Snapshot) : Prop :=
  ∀ name, s.get? name = (tenancy? name changes).map Tenancy.state

theorem explains_nil : Explains [] .empty := fun _ => rfl

theorem Explains.podsOf {changes : List Change} {s : Snapshot} (h : Explains changes s)
    (name : String) :
    s.podsOf name = ((tenancy? name changes).map Tenancy.pods).getD [] := by
  unfold Snapshot.podsOf
  rw [h name]
  cases tenancy? name changes with
  | none => rfl
  | some t => exact t.pods_state

/-- Every change keeps the snapshot in line with the history, by whatever path it is made. -/
theorem Explains.apply {changes : List Change} {s : Snapshot} (h : Explains changes s)
    (c : Change) : Explains (changes ++ [c]) (s.apply c) := by
  intro name
  by_cases hne : c.name ≠ name
  · rw [Snapshot.get?_apply_of_ne s hne, tenancy?_append_of_ne hne, h name]
  · obtain rfl := not_not.mp hne
    cases c with
    | addNode n =>
      have hget := Snapshot.get?_addNode s n n.name
      rw [if_pos rfl, h.podsOf] at hget
      have htenancy := congrArg (Option.map Tenancy.state) (tenancy?_append_addNode n changes)
      exact hget.trans htenancy.symm
    | removeNode gone =>
      have hget := Snapshot.get?_removeNode s gone gone
      rw [if_pos rfl] at hget
      have htenancy := congrArg (Option.map Tenancy.state) (tenancy?_append_removeNode gone changes)
      exact hget.trans htenancy.symm
    | addPod p =>
      have hget := Snapshot.get?_addPod s p p.nodeName
      rw [if_pos rfl, h p.nodeName, Option.map_map] at hget
      have htenancy := congrArg (Option.map Tenancy.state) (tenancy?_append_addPod p changes)
      rw [Option.map_map] at htenancy
      refine hget.trans (Eq.trans ?_ htenancy.symm)
      congr 1
      funext t
      exact (NodeState.addPods_append _ t.pods [p]).symm

theorem explains_run (changes : List Change) : Explains changes (Snapshot.empty.run changes) := by
  induction changes using List.reverseRecOn with
  | nil => exact explains_nil
  | append_singleton changes c ih =>
    rw [Snapshot.run_append]
    exact ih.apply c

/-- Whatever changes led to a snapshot, it is the one that they describe. -/
theorem run_refines_history (changes : List Change) :
    let s := Snapshot.empty.run changes
    s.nodeNames.Pairwise (· < ·) ∧
    (∀ name, name ∈ s.nodeNames ↔ (tenancy? name changes).isSome) ∧
    (∀ name, s.get? name =
      (tenancy? name changes).map fun t => (NodeState.ofNode t.node).addPods t.pods) ∧
    (∀ name state, s.get? name = some state →
      state.node.map Node.name = some name ∧ ∀ p ∈ state.pods, p.nodeName = name) ∧
    (∀ p, (s.addPod p).1 = (tenancy? p.nodeName changes).isSome ∧
      ((s.addPod p).1 = false → (s.addPod p).2 = s)) ∧
    ∀ c name, c.name ≠ name → (s.apply c).get? name = s.get? name := by
  intro s
  have h := explains_run changes
  refine ⟨s.nodes.names_sorted,?_,h,?_,?_,fun c name hne => s.get?_apply_of_ne hne⟩
  · intro name
    have hmem : name ∈ s.nodeNames ↔ (s.get? name).isSome := NameMap.mem_names_iff
    rw [hmem, h name, Option.isSome_map]
  · intro name state hstate
    rw [h name] at hstate
    obtain ⟨t,ht,rfl⟩ := Option.map_eq_some_iff.mp hstate
    obtain ⟨hnode,hpods⟩ := named_of_tenancy? ht
    rw [t.node_state, t.pods_state]
    exact ⟨congrArg some hnode,hpods⟩
  · intro p
    constructor
    · rw [Snapshot.addPod_fst, h p.nodeName, Option.isSome_map]
    · intro hfalse
      rw [Snapshot.addPod_fst, Option.isSome_eq_false_iff, Option.isNone_iff_eq_none] at hfalse
      unfold Snapshot.addPod
      rw [hfalse]

end History
end NodeRank
