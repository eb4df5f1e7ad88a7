import NodeRank.Cluster.NodeState

/-! # Snapshots

The nodes that a scheduling cycle sees, by name. A node that is put in again keeps the pods that
are bound to it; a pod is bound only where its node is known.
-/
namespace NodeRank

structure Snapshot where
  nodes : NameMap NodeState
deriving DecidableEq

namespace Snapshot

def empty : Snapshot := ⟨∅⟩

instance : Inhabited Snapshot := ⟨empty⟩

def get? (s : Snapshot) (name : String) : Option NodeState := s.nodes.get? name

/-- The pods bound to the node of that name; none if it is not known. -/
def podsOf (s : Snapshot) (name : String) : List Pod := ((s.get? name).map NodeState.pods).getD []

/-- Puts a node in, or another one in its place, which takes over the pods. -/
def addNode (s : Snapshot) (n : Node) : Snapshot :=
  ⟨s.nodes.insert n.name ((NodeState.ofNode n).addPods (s.podsOf n.name))⟩

def removeNode (s : Snapshot) (name : String) : Snapshot := ⟨s.nodes.erase name⟩

/-- Binds a pod to the node that it names, and says whether that node is known. -/
def addPod (s : Snapshot) (p : Pod) : Bool × Snapshot :=
  match s.get? p.nodeName with
  | some state => (true, ⟨s.nodes.insert p.nodeName (state.addPod p)⟩)
  | none => (false, s)

def nodeNames (s : Snapshot) : List String := s.nodes.names

@[simp] theorem get?_addNode (s : Snapshot) (n : Node) (name : String) :
    (s.addNode n).get? name =
      if n.name = name then some ((NodeState.ofNode n).addPods (s.podsOf n.name))
      else s.get? name :=
  NameMap.get?_insert _ _ _ _

@[simp] theorem get?_removeNode (s : Snapshot) (gone name : String) :
    (s.removeNode gone).get? name = if gone = name then none else s.get? name :=
  NameMap.get?_erase _ _ _

theorem addPod_fst (s : Snapshot) (p : Pod) : (s.addPod p).1 = (s.get? p.nodeName).isSome := by
  unfold addPod; cases s.get? p.nodeName <;> rfl

theorem get?_addPod (s : Snapshot) (p : Pod) (name : String) :
    (s.addPod p).2.get? name =
      if p.nodeName = name then (s.get? p.nodeName).map (·.addPod p) else s.get? name := by
  unfold addPod
  cases h : s.get? p.nodeName with
  | none =>
    by_cases hn : p.nodeName = name
    · subst hn; simp [h]
    · simp [hn]
  | some state => exact NameMap.get?_insert _ _ _ _

end Snapshot
end NodeRank
