import NodeRank.Proofs.Cluster.History
import NodeRank.Proofs.Cluster.Totals
import NodeRank.Proofs.Quantity.Order
import NodeRank.Proofs.Scoring.View
import Mathlib.Data.List.Forall2

/-! # Notation does not matter

One number can be written in many ways, as `512`, `.5Ki` or `512e0`. What is read of them is one
amount, and only amounts are counted: nodes and pods whose quantities are written in other ways
have the same resources, the same totals and shares, the same scores and the same ranking.
-/
namespace NodeRank
open Text

namespace Quantity

/-- Quantities whose texts denote one number, each in a notation of its own. -/
structure Renoted (p q : Quantity) : Prop where
  left : Made p
  right : Made q
  number : ∃ x, Denotes p.text.toList x ∧ Denotes q.text.toList x

theorem Renoted.nanos_eq {p q : Quantity} (h : Renoted p q) : p.nanos = q.nanos := by
  obtain ⟨x,hp,hq⟩ := h.number
  rw [h.left.nanos_eq hp, h.right.nanos_eq hq]

theorem value_congr {p q : Quantity} (h : p.nanos = q.nanos) : p.value = q.value := by
  unfold value
  rw [h]

theorem milliValue_congr {p q : Quantity} (h : p.nanos = q.nanos) :
    p.milliValue = q.milliValue := by
  unfold milliValue
  rw [h]

end Quantity

/-- Lists that name the same resources, with quantities that are written in other ways at most. -/
def RenotedLists (l m : ResourceList) : Prop :=
  ∀ name, Option.Rel Quantity.Renoted (l.get? name) (m.get? name)

theorem RenotedLists.empty : RenotedLists ∅ ∅ := fun _ => .none

theorem RenotedLists.insert {l m : ResourceList} (h : RenotedLists l m) (name : String)
    {p q : Quantity} (hq : p.Renoted q) : RenotedLists (l.insert name p) (m.insert name q) := by
  intro other
  rw [NameMap.get?_insert, NameMap.get?_insert]
  split
  · exact .some hq
  · exact h other

namespace Resources

/-- The amounts of a list without the texts. -/
def nanosOf (l : ResourceList) : NameMap ℤ := l.mapEntries fun _ q => q.nanos

theorem ofList_eq_foldl_nanosOf (l : ResourceList) :
    ofList l = (nanosOf l).toList.foldl (fun r e => r.count e.1 ⟨"",e.2⟩) zero := by
  unfold ofList nanosOf NameMap.mapEntries
  rw [List.foldl_map]
  -- `count` reads a quantity by its billionths only, so any text will do.
  rfl

theorem nanosOf_eq {l m : ResourceList} (h : RenotedLists l m) : nanosOf l = nanosOf m := by
  refine NameMap.ext_get? fun name => ?_
  unfold nanosOf
  rw [NameMap.get?_mapEntries, NameMap.get?_mapEntries]
  exact (h name).map_eq fun _ _ => Quantity.Renoted.nanos_eq

/-- Resources are counted by amounts only. -/
theorem ofList_eq {l m : ResourceList} (h : RenotedLists l m) : ofList l = ofList m := by
  rw [ofList_eq_foldl_nanosOf, nanosOf_eq h, ← ofList_eq_foldl_nanosOf]

end Resources

structure Node.Renoted (n m : Node) : Prop where
  name : n.name = m.name
  capacity : RenotedLists n.capacity m.capacity
  reserved : RenotedLists n.reserved m.reserved

theorem Node.Renoted.allocatable_eq {n m : Node} (h : n.Renoted m) :
    n.allocatable = m.allocatable := by
  unfold allocatable
  rw [Resources.ofList_eq h.capacity, Resources.ofList_eq h.reserved]

structure Container.Renoted (c d : Container) : Prop where
  name : c.name = d.name
  image : c.image = d.image
  requests : RenotedLists c.resources.requests d.resources.requests
  limits : RenotedLists c.resources.limits d.resources.limits

namespace Container.Renoted
variable {c d : Container} (h : c.Renoted d)
include h

theorem requests_eq : c.requests = d.requests := Resources.ofList_eq h.requests

theorem orDefault_eq {amount : Quantity → Amount}
    (hamount : ∀ {p q : Quantity}, p.nanos = q.nanos → amount p = amount q) (name : String)
    (default : Amount) : c.orDefault name amount default = d.orDefault name amount default := by
  have hasked : (c.resources.requests.get? name).map amount =
      (d.resources.requests.get? name).map amount :=
    (h.requests name).map_eq fun _ _ hq => hamount hq.nanos_eq
  unfold orDefault
  rw [hasked]

theorem defaultedRequests_eq : c.defaultedRequests = d.defaultedRequests := by
  unfold defaultedRequests
  rw [h.requests_eq, h.orDefault_eq Quantity.milliValue_congr, h.orDefault_eq Quantity.value_congr]

end Container.Renoted

structure Pod.Renoted (p q : Pod) : Prop where
  id : p.id = q.id
  name : p.name = q.name
  createdAt : p.createdAt = q.createdAt
  nodeName : p.nodeName = q.nodeName
  containers : List.Forall₂ Container.Renoted p.containers q.containers
  overhead : RenotedLists p.overhead q.overhead

namespace Pod.Renoted
variable {p q : Pod} (h : p.Renoted q)
include h

theorem totalBy_eq {request : Container → Resources}
    (hrequest : ∀ {c d : Container}, c.Renoted d → request c = request d) :
    p.totalBy request = q.totalBy request := by
  have hcontainers : p.containers.map request = q.containers.map request := by
    rw [← List.forall₂_eq_eq_eq, List.forall₂_map_left_iff, List.forall₂_map_right_iff]
    exact h.containers.imp fun _ _ => hrequest
  have htotal (cs : List Container) (r : Resources) :
      cs.foldl (fun total c => total + request c) r = (cs.map request).foldl (· + ·) r :=
    (List.foldl_map ..).symm
  unfold totalBy
  rw [htotal, hcontainers, ← htotal, Resources.ofList_eq h.overhead]

theorem requests_eq : p.requests = q.requests := h.totalBy_eq Container.Renoted.requests_eq

theorem defaultedRequests_eq : p.defaultedRequests = q.defaultedRequests :=
  h.totalBy_eq Container.Renoted.defaultedRequests_eq

end Pod.Renoted

/-- States of nodes and pods that are written in other ways, with the same totals. -/
structure NodeState.Renoted (a b : NodeState) : Prop where
  node : Option.Rel Node.Renoted a.node b.node
  pods : List.Forall₂ Pod.Renoted a.pods b.pods
  requested : a.requested = b.requested
  defaulted : a.defaulted = b.defaulted
  allocatable : a.allocatable = b.allocatable

namespace NodeState

theorem renoted_ofNode {n m : Node} (h : n.Renoted m) : (ofNode n).Renoted (ofNode m) where
  node := .some h
  pods := .nil
  requested := rfl
  defaulted := rfl
  allocatable := h.allocatable_eq

namespace Renoted
variable {a b : NodeState}

theorem addPod (h : a.Renoted b) {p q : Pod} (hp : p.Renoted q) :
    (a.addPod p).Renoted (b.addPod q) where
  node := h.node
  pods := List.rel_append h.pods (.cons hp .nil)
  requested := congrArg₂ Resources.add h.requested hp.requests_eq
  defaulted := congrArg₂ Resources.add h.defaulted hp.defaultedRequests_eq
  allocatable := h.allocatable

theorem addPods (h : a.Renoted b) {ps qs : List Pod} (hps : List.Forall₂ Pod.Renoted ps qs) :
    (a.addPods ps).Renoted (b.addPods qs) := by
  induction hps generalizing a b with
  | nil => exact h
  | cons hp _ ih => exact ih (h.addPod hp)

theorem sameView (h : a.Renoted b) : a.SameView b where
  name := h.node.map_eq fun _ _ => Node.Renoted.name
  requested := h.requested
  defaulted := h.defaulted
  allocatable := h.allocatable
  pods := h.pods.length_eq

end Renoted
end NodeState

/-- A change and the same one with its quantities written in other ways. -/
inductive Change.Renoted : Change → Change → Prop
  | addNode {n m : Node} (h : n.Renoted m) : Renoted (.addNode n) (.addNode m)
  | removeNode (name : String) : Renoted (.removeNode name) (.removeNode name)
  | addPod {p q : Pod} (h : p.Renoted q) : Renoted (.addPod p) (.addPod q)

def Snapshot.Renoted (s t : Snapshot) : Prop :=
  ∀ name, Option.Rel NodeState.Renoted (s.get? name) (t.get? name)

namespace Snapshot.Renoted
variable {s t : Snapshot} (h : s.Renoted t)
include h

theorem podsOf (name : String) : List.Forall₂ Pod.Renoted (s.podsOf name) (t.podsOf name) := by
  have hname := h name
  unfold Snapshot.podsOf
  generalize s.get? name = a at hname
  generalize t.get? name = b at hname
  cases hname with
  | none => exact .nil
  | some hstate => exact hstate.pods

theorem addNode {n m : Node} (hn : n.Renoted m) : (s.addNode n).Renoted (t.addNode m) := by
  intro name
  rw [get?_addNode, get?_addNode, ← hn.name]
  split
  · exact .some ((NodeState.renoted_ofNode hn).addPods (h.podsOf n.name))
  · exact h name

theorem removeNode (gone : String) : (s.removeNode gone).Renoted (t.removeNode gone) := by
  intro name
  rw [get?_removeNode, get?_removeNode]
  split
  · exact .none
  · exact h name

theorem addPod {p q : Pod} (hp : p.Renoted q) : (s.addPod p).2.Renoted (t.addPod q).2 := by
  intro name
  rw [get?_addPod, get?_addPod, ← hp.nodeName]
  split
  · have hnode := h p.nodeName
    generalize s.get? p.nodeName = a at hnode
    generalize t.get? p.nodeName = b at hnode
    cases hnode with
    | none => exact .none
    | some hstate => exact .some (hstate.addPod hp)
  · exact h name

theorem apply {c d : Change} (hc : c.Renoted d) : (s.apply c).Renoted (t.apply d) := by
  cases hc with
  | addNode hn => exact h.addNode hn
  | removeNode name => exact h.removeNode name
  | addPod hp => exact h.addPod hp

theorem run {xs ys : List Change} (hxs : List.Forall₂ Change.Renoted xs ys) :
    (s.run xs).Renoted (t.run ys) := by
  induction hxs generalizing s t with
  | nil => exact h
  | cons hc _ ih => exact ih (h.apply hc)

end Snapshot.Renoted

theorem Snapshot.renoted_empty : Snapshot.empty.Renoted .empty := fun _ => .none

theorem Ranker.rank_eq_of_renoted (r : Ranker) {s t : Snapshot} (h : s.Renoted t)
    (names : List String) (c : Cancellation) : r.rank s names c = r.rank t names c :=
  r.rank_eq_of_sameView (fun name => (h name).imp fun _ _ => NodeState.Renoted.sameView) names c

/-- Quantities are ordered as the numbers that their texts denote, whatever the notations. What is
written in other ways has the same resources and shares, scores the same and is ranked the same. -/
theorem renoting_changes_nothing :
    (∀ s t p q, Quantity.parse s = .ok p → Quantity.parse t = .ok q → ∃ x y,
      (∀ z, Quantity.Denotes (trim s.toList) z ↔ z = x) ∧
      (∀ z, Quantity.Denotes (trim t.toList) z ↔ z = y) ∧
      (x ≤ y → p.nanos ≤ q.nanos ∧ p.value ≤ q.value ∧ p.milliValue ≤ q.milliValue) ∧
      (x = y → p.sameAmount q ∧ p.value = q.value ∧ p.milliValue = q.milliValue)) ∧
    (∀ l m, RenotedLists l m → Resources.ofList l = .ofList m) ∧
    (∀ p q : Pod, p.Renoted q →
      p.requests = q.requests ∧ p.defaultedRequests = q.defaultedRequests) ∧
    (∀ (n m : Node) ps qs, n.Renoted m → List.Forall₂ Pod.Renoted ps qs →
      let a := (NodeState.ofNode n).addPods ps
      let b := (NodeState.ofNode m).addPods qs
      n.allocatable = m.allocatable ∧ a.SameView b ∧
        a.requestedShare = b.requestedShare ∧ a.share = b.share ∧
        (∀ (t : Telemetry) name c, t.share a name c = t.share b name c) ∧
        ∀ (s : Scorer) c, s.score a c = s.score b c) ∧
    ∀ xs ys, List.Forall₂ Change.Renoted xs ys → ∀ (r : Ranker) names c,
      r.rank (Snapshot.empty.run xs) names c = r.rank (Snapshot.empty.run ys) names c := by
  refine ⟨?_,fun _ _ => Resources.ofList_eq,?_,?_,?_⟩
  -- What is read of two texts is ordered as the numbers that they denote.
  · intro s t p q hp hq
    obtain ⟨x,hx,_⟩ := Quantity.keeps_of_parse hp
    obtain ⟨y,hy,_⟩ := Quantity.keeps_of_parse hq
    have hpx : Quantity.Denotes p.text.toList x := by rwa [Quantity.toList_text_of_parse hp]
    have hqy : Quantity.Denotes q.text.toList y := by rwa [Quantity.toList_text_of_parse hq]
    refine ⟨x,y,hx.iff_eq,hy.iff_eq,fun hle => ?_,?_⟩
    · have hnanos := (Quantity.Made.read hp).nanos_le (.read hq) hpx hqy hle
      exact ⟨hnanos,Quantity.value_mono hnanos,Quantity.milliValue_mono hnanos⟩
    · rintro rfl
      have hnanos := (show p.Renoted q from ⟨.read hp,.read hq,x,hpx,hqy⟩).nanos_eq
      exact ⟨beq_iff_eq.mpr hnanos,Quantity.value_congr hnanos,Quantity.milliValue_congr hnanos⟩
  · intro p q h
    exact ⟨h.requests_eq,h.defaultedRequests_eq⟩
  · intro n m ps qs hn hps a b
    have hview : a.SameView b := ((NodeState.renoted_ofNode hn).addPods hps).sameView
    exact ⟨hn.allocatable_eq,hview,hview.requestedShare_eq,hview.share_eq,hview.telemetryShare_eq,
      hview.score_eq⟩
  · intro xs ys h r names c
    exact r.rank_eq_of_renoted (Snapshot.renoted_empty.run h) names c

theorem renoting_half_kibibyte :
    let p : Quantity := ⟨"512",512 * 10 ^ 9⟩
    let q : Quantity := ⟨".5Ki",512 * 10 ^ 9⟩
    let n (x : Quantity) : Node := ⟨"n1",NameMap.insert ∅ "memory" x,∅⟩
    let pod (x : Quantity) : Pod :=
      ⟨.zero,"p1",default,"n1",[.requesting (NameMap.insert ∅ "memory" x)],∅⟩
    Quantity.parse "512" = .ok p ∧ Quantity.parse " .5Ki" = .ok q ∧ p.value = q.value ∧
      (n p).Renoted (n q) ∧ (n p).allocatable = (n q).allocatable ∧
      (pod p).Renoted (pod q) ∧ (pod p).requests = (pod q).requests ∧
      ∀ (r : Ranker) c, r.rank (Snapshot.empty.run [.addNode (n p), .addPod (pod p)]) ["n1"] c =
        r.rank (Snapshot.empty.run [.addNode (n q), .addPod (pod q)]) ["n1"] c := by
  intro p q n pod
  have hp : Quantity.parse "512" = .ok p := rfl
  have hq : Quantity.parse " .5Ki" = .ok q := rfl
  have hpx : Quantity.Denotes "512".toList 512 :=
    @Quantity.denotes_ofChars _ false 512 0 ⟨1,0⟩ _ rfl rfl rfl rfl rfl
      (by norm_num [Quantity.signed])
  have hqx : Quantity.Denotes ".5Ki".toList 512 :=
    @Quantity.denotes_ofChars _ false 5 1 ⟨1024,0⟩ _ rfl rfl rfl rfl rfl
      (by norm_num [Quantity.signed])
  have hrenoted : p.Renoted q := ⟨.read hp,.read hq,512,hpx,hqx⟩
  have hlists : RenotedLists (NameMap.insert ∅ "memory" p) (NameMap.insert ∅ "memory" q) :=
    .insert .empty "memory" hrenoted
  have hn : (n p).Renoted (n q) := ⟨rfl,hlists,.empty⟩
  have hpod : (pod p).Renoted (pod q) :=
    ⟨rfl,rfl,rfl,rfl,.cons ⟨rfl,rfl,hlists,.empty⟩ .nil,.empty⟩
  obtain ⟨hread,_,hpods,hnodes,hranks⟩ := renoting_changes_nothing
  obtain ⟨x,y,hx,hy,_,hsame⟩ := hread _ _ _ _ hp hq
  have hxy : x = y := ((hx 512).mp hpx).symm.trans ((hy 512).mp hqx)
  refine ⟨hp,hq,(hsame hxy).2.1,hn,(hnodes _ _ [] [] hn .nil).1,hpod,(hpods _ _ hpod).1,?_⟩
  exact fun r c => hranks _ _ (.cons (.addNode hn) (.cons (.addPod hpod) .nil)) r _ c

end NodeRank
