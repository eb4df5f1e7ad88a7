import NodeRank.Proofs.Cluster.Totals
import NodeRank.Proofs.Resource.List
import Mathlib.Algebra.BigOperators.Group.List.Basic

/-! # Requests with defaults

Pods are counted with and without the defaults of their containers. The two counts take the same
steps, and no step makes the second one fall behind the first or get farther ahead than the
defaults that are put in (`NodeState.InStep.addPods`). A pod that asks for none of a resource counts
for a default as soon as it has a container.
-/
namespace NodeRank
open Capped

/-- What a container counts for in a dimension in which it asks for nothing. -/
def Dimension.fallback : Dimension → Amount
  | .milliCpu => defaultMilliCpu
  | .memory => defaultMemory
  | _ => 0

theorem Dimension.fallback_nonneg (d : Dimension) : 0 ≤ d.fallback.toInt := by
  cases d with
  | milliCpu => decide
  | memory => decide
  | _ => exact Int.le_of_eq toInt_zero.symm

/-- The second resources name the same scalars as the first and have at least as much in every
dimension, but at most `gap` more. -/
structure Resources.Leads (r s : Resources) (gap : Dimension → Int) : Prop where
  le : ∀ d, (r.amount d).toInt ≤ (s.amount d).toInt
  gap_le : ∀ d, (s.amount d).toInt - (r.amount d).toInt ≤ gap d
  names : ∀ name, s.names name = r.names name

namespace Resources.Leads
variable {r s r' s' : Resources} {gap gap' : Dimension → Int}

theorem refl (r : Resources) : r.Leads r fun _ => 0 :=
  ⟨fun _ => le_rfl,fun _ => (Int.sub_self _).le,fun _ => rfl⟩

theorem add (h : r.Leads s gap) (h' : r'.Leads s' gap') :
    (r + r').Leads (s + s') fun d => gap d + gap' d := by
  refine ⟨fun d => ?_,fun d => ?_,fun name => ?_⟩
  · rw [amount_add, amount_add]
    exact cap_mono (Int.add_le_add (h.le d) (h'.le d))
  · have hcap := cap_sub_cap_le (b := 63) (Int.add_le_add (h.le d) (h'.le d))
    have hgap := h.gap_le d
    have hgap' := h'.gap_le d
    rw [amount_add, amount_add, toInt_add, toInt_add]
    omega
  · rw [names_add, names_add, h.names, h'.names]

theorem foldl_add {α : Type} {f g : α → Resources} {step : α → Dimension → Int}
    (h : ∀ x, (f x).Leads (g x) (step x)) (hrs : r.Leads s gap) (l : List α) :
    (l.foldl (fun total x => total + f x) r).Leads (l.foldl (fun total x => total + g x) s)
      fun d => gap d + (l.map (step · d)).sum := by
  induction l generalizing r s gap with
  | nil => simpa using hrs
  | cons x l ih =>
    have hrest := ih (hrs.add (h x))
    simpa only [List.foldl_cons, List.map_cons, List.sum_cons, add_assoc] using hrest

theorem amount_eq (h : r.Leads s gap) {d : Dimension} (hd : gap d = 0) :
    s.amount d = r.amount d := by
  have hle := h.le d
  have hgap := h.gap_le d
  apply Capped.ext
  omega

theorem scalars_eq (h : r.Leads s gap) (hgap : ∀ name, gap (.scalar name) = 0) :
    s.scalars = r.scalars :=
  scalars_ext (fun name => h.amount_eq (hgap name)) h.names

end Resources.Leads

namespace Container
variable (c : Container) (d : Dimension)

/-- Whether a container asks for none of a resource: it has no such request, or one that reads as
zero. -/
def lacks : Bool := (c.resources.requests.get? d.name).all fun q => d.measure q = 0

/-- What the defaults add to what a container asks for. -/
def surplus : Int := if c.lacks d then d.fallback.toInt else 0

theorem lacks_iff (hd : d.counts) : c.lacks d ↔ c.requests.amount d = 0 := by
  unfold lacks requests
  rw [Resources.amount_ofList _ hd]
  cases c.resources.requests.get? d.name <;> simp

theorem orDefault_eq (hd : d.counts) :
    (c.orDefault d.name d.measure d.fallback).toInt =
      (c.requests.amount d).toInt + c.surplus d := by
  have hasked : ((c.resources.requests.get? d.name).map d.measure).getD 0 = c.requests.amount d :=
    (Resources.amount_ofList _ hd).symm
  unfold orDefault surplus
  dsimp only
  rw [hasked]
  by_cases h : c.requests.amount d = 0
  · rw [if_pos h, if_pos ((c.lacks_iff d hd).mpr h), h, toInt_zero, Int.zero_add]
  · rw [if_neg h, if_neg (mt (c.lacks_iff d hd).mp h), Int.add_zero]

/-- The defaults stand in for what a container does not ask for, and change nothing else. -/
theorem toInt_amount_defaulted :
    (c.defaultedRequests.amount d).toInt = (c.requests.amount d).toInt + c.surplus d := by
  have hother (hd : d.fallback = 0) : c.surplus d = 0 := by
    unfold surplus
    rw [hd, toInt_zero, ite_self]
  cases d with
  | milliCpu => exact c.orDefault_eq .milliCpu rfl
  | memory => exact c.orDefault_eq .memory rfl
  | _ =>
    rw [hother rfl, Int.add_zero]
    rfl

theorem leads : c.requests.Leads c.defaultedRequests c.surplus := by
  have hsurplus (d : Dimension) : 0 ≤ c.surplus d := by
    unfold surplus
    split
    · exact d.fallback_nonneg
    · exact le_rfl
  refine ⟨fun d => ?_,fun d => ?_,fun name => rfl⟩
  · rw [toInt_amount_defaulted]
    have := hsurplus d
    omega
  · rw [toInt_amount_defaulted]
    omega

theorem sum_surplus (d : Dimension) (l : List Container) :
    (l.map (·.surplus d)).sum = d.fallback.toInt * l.countP (·.lacks d) := by
  induction l with
  | nil => simp
  | cons c l ih =>
    rw [List.map_cons, List.sum_cons, ih, List.countP_cons, surplus]
    split
    · rw [Nat.cast_add, Nat.cast_one, Int.mul_add, Int.mul_one, Int.add_comm]
    · rw [Nat.add_zero, Int.zero_add]

end Container

namespace Pod

theorem leads (p : Pod) : p.requests.Leads p.defaultedRequests
    fun d => d.fallback.toInt * p.containers.countP (·.lacks d) := by
  have hcontainers := Resources.Leads.foldl_add Container.leads (.refl .zero) p.containers
  have hpod := hcontainers.add (.refl (.ofList p.overhead))
  simp only [Container.sum_surplus, Int.zero_add, Int.add_zero] at hpod
  exact hpod

/-- No sum over the containers of a pod and none over the pods stops at an end of the range. -/
structure Unstopped (request : Container → Resources) (d : Dimension) (pods : List Pod) : Prop where
  within : ∀ p ∈ pods, Capped.Unstopped 63 (p.demands request d)
  across : Capped.Unstopped 63 (pods.map fun p => ((p.totalBy request).amount d).toInt)

theorem Unstopped.toInt_amount_totalOf {request : Container → Resources} {d : Dimension}
    {pods : List Pod} (h : Unstopped request d pods) :
    ((totalOf request pods).amount d).toInt = (allDemands request d pods).sum := by
  have hsums : (pods.map (demands request d)).map (runningSum 63) =
      (pods.map (demands request d)).map List.sum := by
    rw [List.map_map, List.map_map]
    exact List.map_congr_left fun p hp => (h.within p hp).runningSum_eq
  have hacross := h.across
  rw [map_amount_totalBy] at hacross
  rw [amount_totalOf, hacross.runningSum_eq, hsums, allDemands, List.sum_flatten]

theorem sum_demands_defaulted (p : Pod) (d : Dimension) :
    (p.demands Container.defaultedRequests d).sum =
      (p.demands Container.requests d).sum +
        d.fallback.toInt * p.containers.countP (·.lacks d) := by
  unfold demands
  rw [List.sum_append, List.sum_append, ← Container.sum_surplus, ← add_right_comm,
    ← List.sum_map_add]
  simp only [Container.toInt_amount_defaulted]

theorem sum_allDemands_defaulted (pods : List Pod) (d : Dimension) :
    (allDemands Container.defaultedRequests d pods).sum =
      (allDemands Container.requests d pods).sum +
        d.fallback.toInt * (pods.flatMap Pod.containers).countP (·.lacks d) := by
  induction pods with
  | nil => simp [allDemands]
  | cons p pods ih =>
    have hcons (request : Container → Resources) : (allDemands request d (p :: pods)).sum =
        (p.demands request d).sum + (allDemands request d pods).sum := List.sum_append
    rw [hcons, hcons, ih, sum_demands_defaulted, List.flatMap_cons, List.countP_append,
      Nat.cast_add, Int.mul_add]
    omega

end Pod

namespace NodeState

/-- How many containers of the bound pods ask for none of a resource. -/
def lacking (s : NodeState) (d : Dimension) : Nat :=
  (s.pods.flatMap Pod.containers).countP (·.lacks d)

/-- The total with defaults is ahead of the plain one by at most the defaults of the pods. -/
def InStep (s : NodeState) : Prop :=
  s.requested.Leads s.defaulted fun d => d.fallback.toInt * s.lacking d

theorem inStep_ofNode (n : Node) : (ofNode n).InStep := by
  have hgap : (fun d => d.fallback.toInt * ((ofNode n).lacking d : Int)) = fun _ => 0 :=
    funext fun d => Int.mul_zero _
  unfold InStep
  rw [hgap]
  exact .refl .zero

theorem InStep.addPod {s : NodeState} (h : s.InStep) (p : Pod) : (s.addPod p).InStep := by
  have hstep := Resources.Leads.add h p.leads
  have hlacking (d : Dimension) :
      (s.addPod p).lacking d = s.lacking d + p.containers.countP (·.lacks d) := by
    unfold lacking
    rw [pods_addPod, List.flatMap_append, List.countP_append, List.flatMap_singleton]
  simp only [← Int.mul_add, ← Nat.cast_add, ← hlacking] at hstep
  exact hstep

theorem InStep.addPods {s : NodeState} (h : s.InStep) (pods : List Pod) :
    (s.addPods pods).InStep := by
  induction pods generalizing s with
  | nil => exact h
  | cons p pods ih => exact ih (h.addPod p)

/-- Where no sum stops, the defaults are all added. -/
theorem gap_eq_of_unstopped (n : Node) {pods : List Pod} {d : Dimension}
    (hr : Pod.Unstopped Container.requests d pods)
    (hd : Pod.Unstopped Container.defaultedRequests d pods) :
    let s := (ofNode n).addPods pods
    (s.defaulted.amount d).toInt - (s.requested.amount d).toInt =
      d.fallback.toInt * s.lacking d := by
  intro s
  rw [requested_ofNode, defaulted_ofNode, hr.toInt_amount_totalOf, hd.toInt_amount_totalOf,
    Pod.sum_allDemands_defaulted]
  unfold lacking
  rw [pods_addPods]
  change _ = d.fallback.toInt * (pods.flatMap Pod.containers).countP (·.lacks d)
  omega

/-- The total with defaults is the plain one in all but processor time and memory, where it is ahead
by at most a default for each container that asks for none, and by just that if no sum stops. -/
theorem defaulted_leads_requested (n : Node) (pods : List Pod) :
    let s := (ofNode n).addPods pods
    (s.defaulted.ephemeralStorage = s.requested.ephemeralStorage ∧
      s.defaulted.pods = s.requested.pods ∧ s.defaulted.scalars = s.requested.scalars) ∧
    (s.requested.milliCpu ≤ s.defaulted.milliCpu ∧
      s.defaulted.milliCpu.toInt - s.requested.milliCpu.toInt ≤ 100 * s.lacking .milliCpu ∧
      (Pod.Unstopped Container.requests .milliCpu pods →
        Pod.Unstopped Container.defaultedRequests .milliCpu pods →
        s.defaulted.milliCpu.toInt - s.requested.milliCpu.toInt = 100 * s.lacking .milliCpu)) ∧
    (s.requested.memory ≤ s.defaulted.memory ∧
      s.defaulted.memory.toInt - s.requested.memory.toInt ≤
        200 * 1024 * 1024 * s.lacking .memory ∧
      (Pod.Unstopped Container.requests .memory pods →
        Pod.Unstopped Container.defaultedRequests .memory pods →
        s.defaulted.memory.toInt - s.requested.memory.toInt =
          200 * 1024 * 1024 * s.lacking .memory)) := by
  intro s
  have h : s.InStep := (inStep_ofNode n).addPods pods
  have hzero {d : Dimension} (hd : d.fallback = 0) : d.fallback.toInt * s.lacking d = 0 := by
    rw [hd, toInt_zero, Int.zero_mul]
  refine ⟨⟨?_,?_,?_⟩,⟨h.le .milliCpu,h.gap_le .milliCpu,?_⟩,⟨h.le .memory,h.gap_le .memory,?_⟩⟩
  · exact h.amount_eq (d := .ephemeralStorage) (hzero rfl)
  · exact h.amount_eq (d := .pods) (hzero rfl)
  · exact h.scalars_eq fun name => hzero rfl
  · exact gap_eq_of_unstopped n (d := .milliCpu)
  · exact gap_eq_of_unstopped n (d := .memory)

/-- A pod with a container that asks for nothing, one that asks for half a processor and owes
memory, and one that asks for no processor time. -/
def mixedPod : Pod where
  id := .zero
  name := "p"
  createdAt := default
  nodeName := "n1"
  containers := [
    .requesting ∅,
    .requesting (.ofList [("cpu", ⟨"500m",5 * 10 ^ 8⟩), ("memory", ⟨"-1Gi",-(2 ^ 30 * 10 ^ 9)⟩)]),
    .requesting (.ofList [("cpu", ⟨"0",0⟩), ("memory", ⟨"1Gi",2 ^ 30 * 10 ^ 9⟩)])]
  overhead := .ofList [("memory", ⟨"1Mi",2 ^ 20 * 10 ^ 9⟩)]

theorem defaulted_leads_two_mixed :
    let pods := [mixedPod, { mixedPod with name := "q" }]
    let s := (ofNode ⟨"n1",∅,∅⟩).addPods pods
    Pod.Unstopped Container.requests .milliCpu pods ∧
      Pod.Unstopped Container.defaultedRequests .milliCpu pods ∧
      Pod.Unstopped Container.requests .memory pods ∧
      Pod.Unstopped Container.defaultedRequests .memory pods ∧
      s.defaulted.milliCpu.toInt - s.requested.milliCpu.toInt = 400 ∧
      s.defaulted.memory.toInt - s.requested.memory.toInt = 400 * 1024 * 1024 := by
  intro pods s
  have hcpu : Pod.Unstopped Container.requests .milliCpu pods :=
    ⟨by decide +kernel,by decide +kernel⟩
  have hcpu' : Pod.Unstopped Container.defaultedRequests .milliCpu pods :=
    ⟨by decide +kernel,by decide +kernel⟩
  have hmemory : Pod.Unstopped Container.requests .memory pods :=
    ⟨by decide +kernel,by decide +kernel⟩
  have hmemory' : Pod.Unstopped Container.defaultedRequests .memory pods :=
    ⟨by decide +kernel,by decide +kernel⟩
  obtain ⟨_,⟨_,_,hgap⟩,_,_,hgap'⟩ := defaulted_leads_requested ⟨"n1",∅,∅⟩ pods
  have hlacking : s.lacking .milliCpu = 4 ∧ s.lacking .memory = 2 := by decide +kernel
  refine ⟨hcpu,hcpu',hmemory,hmemory',?_,?_⟩
  · rw [hgap hcpu hcpu', hlacking.1]
    rfl
  · rw [hgap' hmemory hmemory', hlacking.2]
    rfl

end NodeState

namespace Pod
variable {p : Pod}

/-- Where nothing is negative, a pod asks for none of a resource only if its containers ask for
none. -/
theorem lacks_of_amount_zero (hp : ∀ q ∈ p.quantities, 0 ≤ q.nanos) {d : Dimension}
    (hd : d.counts) (hzero : p.requests.amount d = 0) {c : Container} (hc : c ∈ p.containers) :
    c.lacks d := by
  have hdemands := demands_requests_nonneg hp d
  have hmergeable : Mergeable 63 (p.demands Container.requests d) := .inl hdemands
  have hsum : (p.demands Container.requests d).sum = 0 := by
    have hamount := amount_totalBy Container.requests p d
    rw [show p.totalBy Container.requests = p.requests from rfl, hzero, toInt_zero,
      hmergeable.runningSum_eq, hmergeable.cap_eq_min, span_63] at hamount
    omega
  have hmem : ((c.requests).amount d).toInt ∈ p.demands Container.requests d :=
    List.mem_append_left _ (List.mem_map_of_mem hc)
  have hle := List.single_le_sum hdemands _ hmem
  have hge := hdemands _ hmem
  rw [c.lacks_iff d hd]
  apply Capped.ext
  rw [toInt_zero]
  omega

theorem fallback_le_of_container (hp : ∀ q ∈ p.quantities, 0 ≤ q.nanos) {d : Dimension}
    (hd : d.counts) (hzero : p.requests.amount d = 0) {c : Container} (hc : c ∈ p.containers) :
    d.fallback ≤ p.defaultedRequests.amount d := by
  have hlacks := lacks_of_amount_zero hp hd hzero hc
  have hdemands := demands_defaulted_nonneg hp d
  have hmergeable : Mergeable 63 (p.demands Container.defaultedRequests d) := .inl hdemands
  have hmem : (c.defaultedRequests.amount d).toInt ∈ p.demands Container.defaultedRequests d :=
    List.mem_append_left _ (List.mem_map_of_mem hc)
  have hle := List.single_le_sum hdemands _ hmem
  rw [c.toInt_amount_defaulted, (c.lacks_iff d hd).mp hlacks, toInt_zero, Int.zero_add,
    Container.surplus, if_pos hlacks] at hle
  have hfallback := d.fallback.lt
  rw [le_iff, show p.defaultedRequests = p.totalBy Container.defaultedRequests from rfl,
    amount_totalBy, hmergeable.runningSum_eq, hmergeable.cap_eq_min]
  omega

/-- Without containers there is nothing to put a default in for. -/
theorem defaultedRequests_of_no_containers (h : p.containers = []) :
    p.defaultedRequests = p.requests := by
  unfold defaultedRequests requests
  rw [h]
  rfl

theorem fallback_le_iff (hp : ∀ q ∈ p.quantities, 0 ≤ q.nanos) {d : Dimension} (hd : d.counts)
    (hfallback : 0 < d.fallback.toInt) (hzero : p.requests.amount d = 0) :
    d.fallback ≤ p.defaultedRequests.amount d ↔ p.containers ≠ [] := by
  constructor
  · intro hle hnone
    rw [defaultedRequests_of_no_containers hnone, hzero, le_iff, toInt_zero] at hle
    omega
  · intro hsome
    obtain ⟨c,hc⟩ := List.exists_mem_of_ne_nil _ hsome
    exact fallback_le_of_container hp hd hzero hc

/-- A pod that asks for nothing negative, and for no processor time or no memory, counts for the
default of one container or more exactly if it has a container. -/
theorem counts_iff_has_container (hp : ∀ q ∈ p.quantities, 0 ≤ q.nanos) :
    (p.requests.milliCpu = 0 →
      (defaultMilliCpu ≤ p.defaultedRequests.milliCpu ↔ p.containers ≠ [])) ∧
    (p.requests.memory = 0 →
      (defaultMemory ≤ p.defaultedRequests.memory ↔ p.containers ≠ [])) :=
  ⟨fallback_le_iff (d := .milliCpu) hp rfl (by decide),
    fallback_le_iff (d := .memory) hp rfl (by decide)⟩

/-- A pod of two containers, of which one asks for zero processor time and one for nothing. -/
def idlePod : Pod where
  id := .zero
  name := "p"
  createdAt := default
  nodeName := "n1"
  containers := [.requesting (.ofList [("cpu", ⟨"0",0⟩)]), .requesting ∅]
  overhead := .ofList [("pods", ⟨"1",10 ^ 9⟩)]

theorem counts_idlePod :
    (∀ q ∈ idlePod.quantities, 0 ≤ q.nanos) ∧ idlePod.requests.milliCpu = 0 ∧
      idlePod.requests.memory = 0 ∧ idlePod.containers ≠ [] ∧
      defaultMilliCpu ≤ idlePod.defaultedRequests.milliCpu ∧
      defaultMemory ≤ idlePod.defaultedRequests.memory := by
  have hp : ∀ q ∈ idlePod.quantities, 0 ≤ q.nanos := by decide +kernel
  have hcpu : idlePod.requests.milliCpu = 0 := by decide +kernel
  have hmemory : idlePod.requests.memory = 0 := by decide +kernel
  have hsome : idlePod.containers ≠ [] := List.cons_ne_nil _ _
  obtain ⟨hcounts,hcounts'⟩ := counts_iff_has_container hp
  exact ⟨hp,hcpu,hmemory,hsome,(hcounts hcpu).mpr hsome,(hcounts' hmemory).mpr hsome⟩

/-- A pod without containers counts for nothing. -/
theorem not_counts_without_containers :
    let p : Pod := { idlePod with containers := [], overhead := ∅ }
    (∀ q ∈ p.quantities, 0 ≤ q.nanos) ∧ p.requests.milliCpu = 0 ∧ p.requests.memory = 0 ∧
      ¬ defaultMilliCpu ≤ p.defaultedRequests.milliCpu ∧
      ¬ defaultMemory ≤ p.defaultedRequests.memory := by
  decide +kernel

end Pod
end NodeRank
