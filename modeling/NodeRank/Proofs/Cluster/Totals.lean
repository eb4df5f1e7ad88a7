import NodeRank.Cluster.NodeState
import NodeRank.Proofs.Capped.Sum
import NodeRank.Proofs.Resource.Dimension

/-! # Totals over pods

What the pods of a node ask for is added up in two stages, container by container within a pod and
pod by pod on the node, with a cap at every step. `Pod.demands` lists the terms of both stages; if
they are mergeable, the total is one cap of their exact sum and does not depend on their order.
-/
namespace NodeRank
open Capped

namespace Pod

/-- The sum over the containers and the overhead, with `request` as what a container asks for. -/
def totalBy (request : Container → Resources) (p : Pod) : Resources :=
  p.containers.foldl (fun total c => total + request c) .zero + .ofList p.overhead

def demands (request : Container → Resources) (d : Dimension) (p : Pod) : List Int :=
  p.containers.map (fun c => ((request c).amount d).toInt) ++
    [((Resources.ofList p.overhead).amount d).toInt]

/-- What all pods of a list ask for in one dimension. -/
def allDemands (request : Container → Resources) (d : Dimension) (pods : List Pod) : List Int :=
  (pods.map (demands request d)).flatten

def totalOf (request : Container → Resources) (pods : List Pod) : Resources :=
  pods.foldl (fun total p => total + p.totalBy request) .zero

end Pod

namespace Resources

theorem amount_foldl_add {α : Type} (f : α → Resources) (l : List α) (r : Resources)
    (d : Dimension) :
    ((l.foldl (fun total x => total + f x) r).amount d).toInt =
      (l.map fun x => ((f x).amount d).toInt).foldl (fun s x => cap 63 (s + x))
        (r.amount d).toInt := by
  induction l generalizing r with
  | nil => rfl
  | cons x l ih => rw [List.foldl_cons, ih, amount_add, toInt_add, List.map_cons, List.foldl_cons]

theorem names_foldl_add {α : Type} (f : α → Resources) (l : List α) (r : Resources)
    (name : String) :
    (l.foldl (fun total x => total + f x) r).names name =
      (r.names name || l.any fun x => (f x).names name) := by
  induction l generalizing r with
  | nil => simp
  | cons x l ih => rw [List.foldl_cons, ih, names_add, List.any_cons, Bool.or_assoc]

end Resources

namespace Pod
variable {request : Container → Resources}

theorem amount_totalBy (request : Container → Resources) (p : Pod) (d : Dimension) :
    ((p.totalBy request).amount d).toInt = runningSum 63 (p.demands request d) := by
  unfold totalBy demands runningSum
  rw [Resources.amount_add, toInt_add, Resources.amount_foldl_add, Resources.amount_zero,
    toInt_zero, List.foldl_append]
  rfl

theorem map_amount_totalBy (request : Container → Resources) (pods : List Pod) (d : Dimension) :
    (pods.map fun p => ((p.totalBy request).amount d).toInt) =
      (pods.map (demands request d)).map (runningSum 63) := by
  rw [List.map_map]
  exact List.map_congr_left fun p _ => amount_totalBy request p d

/-- A total over pods is a running sum of running sums. -/
theorem amount_totalOf (request : Container → Resources) (pods : List Pod) (d : Dimension) :
    ((totalOf request pods).amount d).toInt =
      runningSum 63 ((pods.map (demands request d)).map (runningSum 63)) := by
  unfold totalOf
  rw [Resources.amount_foldl_add, Resources.amount_zero, toInt_zero, map_amount_totalBy]
  rfl

/-- Mergeable demands are capped once, at the upper end. -/
theorem amount_totalOf_eq_min {pods : List Pod} {d : Dimension}
    (h : Mergeable 63 (allDemands request d pods)) :
    ((totalOf request pods).amount d).toInt =
      min (allDemands request d pods).sum (span 63 - 1) := by
  rw [amount_totalOf, h.runningSum_flatten]
  exact h.cap_eq_min

theorem allDemands_perm (request : Container → Resources) {ps qs : List Pod} (hp : ps.Perm qs)
    (d : Dimension) : (allDemands request d ps).Perm (allDemands request d qs) := (hp.map _).flatten

/-- The total of mergeable demands is the same for every order of the pods. -/
theorem totalOf_perm {ps qs : List Pod} (hp : ps.Perm qs)
    (h : ∀ d, Mergeable 63 (allDemands request d ps)) :
    totalOf request ps = totalOf request qs := by
  apply Resources.ext_amount
  · intro d
    have hd := allDemands_perm request hp d
    apply Capped.ext
    rw [amount_totalOf_eq_min (h d), amount_totalOf_eq_min ((h d).perm hd), hd.sum_eq]
  · intro name
    unfold totalOf
    rw [Resources.names_foldl_add, Resources.names_foldl_add]
    congr 1
    rw [Bool.eq_iff_iff, List.any_eq_true, List.any_eq_true]
    simp only [hp.mem_iff]

end Pod

theorem Container.orDefault_nonneg (c : Container) {name : String} {amount : Quantity → Amount}
    {default : Amount} (hdefault : 0 ≤ default.toInt)
    (h : ∀ e ∈ c.resources.requests.toList, 0 ≤ (amount e.2).toInt) :
    0 ≤ (c.orDefault name amount default).toInt := by
  have hasked : 0 ≤ (((c.resources.requests.get? name).map amount).getD 0).toInt := by
    cases hget : c.resources.requests.get? name with
    | none => exact Int.le_of_eq toInt_zero.symm
    | some q =>
      have hmem := (NameMap.find?_eq_some_iff c.resources.requests.sorted).mp hget
      exact h _ hmem
  unfold orDefault
  dsimp only
  split
  · exact hdefault
  · exact hasked

theorem Container.defaultedRequests_nonneg (c : Container)
    (h : ∀ e ∈ c.resources.requests.toList, 0 ≤ e.2.nanos) (d : Dimension) :
    0 ≤ (c.defaultedRequests.amount d).toInt := by
  cases d with
  | milliCpu => exact c.orDefault_nonneg (by decide) fun e he => Quantity.milliValue_nonneg (h e he)
  | memory => exact c.orDefault_nonneg (by decide) fun e he => Quantity.value_nonneg (h e he)
  | ephemeralStorage => exact Resources.amount_ofList_nonneg h .ephemeralStorage
  | pods => exact Resources.amount_ofList_nonneg h .pods
  | scalar name => exact Resources.amount_ofList_nonneg h (.scalar name)

namespace Pod

def quantities (p : Pod) : List Quantity :=
  (p.containers.flatMap (fun c => c.resources.requests.toList) ++ p.overhead.toList).map Prod.snd

theorem nanos_nonneg_of_container {p : Pod} (hp : ∀ q ∈ p.quantities, 0 ≤ q.nanos) {c : Container}
    (hc : c ∈ p.containers) : ∀ e ∈ c.resources.requests.toList, 0 ≤ e.2.nanos := by
  intro e he
  apply hp
  apply List.mem_map_of_mem
  exact List.mem_append_left _ (List.mem_flatMap.mpr ⟨c,hc,he⟩)

theorem demands_nonneg {p : Pod} (hp : ∀ q ∈ p.quantities, 0 ≤ q.nanos) {d : Dimension}
    (hrequest : ∀ c ∈ p.containers, 0 ≤ ((request c).amount d).toInt) :
    ∀ x ∈ p.demands request d, 0 ≤ x := by
  intro x hx
  rcases List.mem_append.mp hx with hx | hx
  · obtain ⟨c,hc,rfl⟩ := List.mem_map.mp hx
    exact hrequest c hc
  · obtain rfl := List.mem_singleton.mp hx
    exact Resources.amount_ofList_nonneg
      (fun e he => hp _ (List.mem_map_of_mem (List.mem_append_right _ he))) d

theorem demands_requests_nonneg {p : Pod} (hp : ∀ q ∈ p.quantities, 0 ≤ q.nanos) (d : Dimension) :
    ∀ x ∈ p.demands Container.requests d, 0 ≤ x :=
  demands_nonneg hp fun _ hc => Resources.amount_ofList_nonneg (nanos_nonneg_of_container hp hc) d

theorem demands_defaulted_nonneg {p : Pod} (hp : ∀ q ∈ p.quantities, 0 ≤ q.nanos) (d : Dimension) :
    ∀ x ∈ p.demands Container.defaultedRequests d, 0 ≤ x :=
  demands_nonneg hp fun c hc => c.defaultedRequests_nonneg (nanos_nonneg_of_container hp hc) d

theorem allDemands_nonneg {pods : List Pod} {d : Dimension}
    (h : ∀ p ∈ pods, ∀ x ∈ p.demands request d, 0 ≤ x) :
    ∀ x ∈ allDemands request d pods, 0 ≤ x := by
  intro x hx
  obtain ⟨l,hl,hx⟩ := List.mem_flatten.mp hx
  obtain ⟨p,hp,rfl⟩ := List.mem_map.mp hl
  exact h p hp x hx

/-- Pods that ask for no negative quantity have mergeable demands, however many they are. -/
theorem mergeable_of_nonneg {pods : List Pod} (h : ∀ p ∈ pods, ∀ q ∈ p.quantities, 0 ≤ q.nanos)
    (d : Dimension) :
    Mergeable 63 (allDemands Container.requests d pods) ∧
      Mergeable 63 (allDemands Container.defaultedRequests d pods) :=
  ⟨.inl (allDemands_nonneg fun p hp => demands_requests_nonneg (h p hp) d),
    .inl (allDemands_nonneg fun p hp => demands_defaulted_nonneg (h p hp) d)⟩

end Pod

namespace NodeState

theorem requested_addPods (s : NodeState) (pods : List Pod) :
    (s.addPods pods).requested =
      pods.foldl (fun total p => total + p.requests) s.requested := by
  induction pods generalizing s with
  | nil => rfl
  | cons p pods ih => exact ih (s.addPod p)

theorem defaulted_addPods (s : NodeState) (pods : List Pod) :
    (s.addPods pods).defaulted =
      pods.foldl (fun total p => total + p.defaultedRequests) s.defaulted := by
  induction pods generalizing s with
  | nil => rfl
  | cons p pods ih => exact ih (s.addPod p)

theorem requested_ofNode (n : Node) (pods : List Pod) :
    ((ofNode n).addPods pods).requested = Pod.totalOf Container.requests pods :=
  requested_addPods _ pods

theorem defaulted_ofNode (n : Node) (pods : List Pod) :
    ((ofNode n).addPods pods).defaulted = Pod.totalOf Container.defaultedRequests pods :=
  defaulted_addPods _ pods

end NodeState
end NodeRank
