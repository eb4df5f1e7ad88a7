import NodeRank.Cluster.Pod

/-! # Node states

A node together with the pods bound to it, and what these ask for in total.
-/
namespace NodeRank

/-- A node, its pods in the order of their binding, and the totals over them. -/
structure NodeState where
  node : Option Node
  pods : List Pod
  requested : Resources
  defaulted : Resources
  allocatable : Resources
deriving DecidableEq

namespace NodeState

def blank : NodeState := ⟨none,[],.zero,.zero,.zero⟩

instance : Inhabited NodeState := ⟨blank⟩

def ofNode (n : Node) : NodeState := { blank with node := some n, allocatable := n.allocatable }

def addPod (s : NodeState) (p : Pod) : NodeState :=
  { s with
    pods := s.pods ++ [p]
    requested := s.requested + p.requests
    defaulted := s.defaulted + p.defaultedRequests }

def addPods (s : NodeState) (pods : List Pod) : NodeState := pods.foldl addPod s

/-- The name of the node, empty if there is none. -/
def nodeName (s : NodeState) : String := (s.node.map Node.name).getD ""

@[simp] theorem pods_addPod (s : NodeState) (p : Pod) : (s.addPod p).pods = s.pods ++ [p] := rfl

theorem addPods_append (s : NodeState) (ps qs : List Pod) :
    s.addPods (ps ++ qs) = (s.addPods ps).addPods qs := List.foldl_append

@[simp] theorem pods_addPods (s : NodeState) (ps : List Pod) :
    (s.addPods ps).pods = s.pods ++ ps := by
  induction ps generalizing s with
  | nil => simp [addPods]
  | cons p ps ih => rw [addPods, List.foldl_cons, ← addPods, ih]; simp

@[simp] theorem node_addPods (s : NodeState) (ps : List Pod) : (s.addPods ps).node = s.node := by
  induction ps generalizing s with
  | nil => rfl
  | cons p ps ih => exact ih (s.addPod p)

@[simp] theorem allocatable_addPods (s : NodeState) (ps : List Pod) :
    (s.addPods ps).allocatable = s.allocatable := by
  induction ps generalizing s with
  | nil => rfl
  | cons p ps ih => exact ih (s.addPod p)

end NodeState
end NodeRank
