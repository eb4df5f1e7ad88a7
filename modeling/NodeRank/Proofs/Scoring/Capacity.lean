import NodeRank.Proofs.ReadBack
import NodeRank.Proofs.Resource.List
import NodeRank.Scoring.Share

/-! # What a node offers

What a share says that a node has of a resource is what the capacity lists of it, less what the
system keeps, between zero and the largest amount. The names that count in lists, in shares and as
supported are the same ones.
-/
namespace NodeRank
open Capped

namespace ResourceName

def isBasic (name : String) : Bool :=
  name == cpu || name == memory || name == pods || name == ephemeralStorage

end ResourceName

/-- What a list has of a resource, in thousandths of a processor or in whole units; zero if it has
no entry of that name. -/
def ResourceList.reading (list : ResourceList) (name : String) : Int :=
  match list.get? name with
  | some q => if name = ResourceName.cpu then q.milliValue.toInt else q.value.toInt
  | none => 0

namespace Node

/-- Whether a node has the resource at all: it has the basic ones, and the scalars that its
capacity lists. -/
def offers (n : Node) (name : String) : Bool :=
  ResourceName.isBasic name || ResourceName.isScalar name && (n.capacity.get? name).isSome

variable {n : Node} {d : Dimension}

theorem offers_name (hd : d.counts) : n.offers d.name = (Resources.ofList n.capacity).has d := by
  cases d with
  | scalar name =>
    change n.offers name = (Resources.ofList n.capacity).names name
    obtain ⟨hcpu,hmemory,hpods,hstorage⟩ := ResourceName.ne_basic_of_isScalar hd
    rw [Resources.names_ofList _ hd]
    simp [offers, ResourceName.isBasic, hcpu, hmemory, hpods, hstorage,
      show ResourceName.isScalar name from hd]
  | _ => rfl

theorem offers_of_not_supported {name : String} (h : ResourceName.isSupported name = false) :
    n.offers name = false := by
  unfold offers
  rw [show ResourceName.isSupported name = (ResourceName.isBasic name || ResourceName.isScalar name)
    from rfl, Bool.or_eq_false_iff] at h
  rw [h.1, h.2]
  rfl

end Node

theorem ResourceList.reading_name (list : ResourceList) {d : Dimension} (hd : d.counts) :
    list.reading d.name = (((list.get? d.name).map d.measure).getD 0).toInt := by
  unfold reading
  cases list.get? d.name with
  | none => exact toInt_zero.symm
  | some q =>
    cases d with
    | scalar name => exact if_neg (ResourceName.ne_basic_of_isScalar hd).1
    | _ => rfl

namespace NodeState

theorem allocatable_requestedShare (s : NodeState) {d : Dimension} (hd : d.counts) :
    (s.requestedShare d.name).allocatable = s.allocatable.amount d := by
  cases d with
  | scalar name =>
    obtain ⟨hcpu,hmemory,hpods,hstorage⟩ := ResourceName.ne_basic_of_isScalar hd
    change (s.requestedShare name).allocatable = _
    unfold requestedShare
    rw [if_neg hcpu, if_neg hmemory, if_neg hpods, if_neg hstorage,
      if_pos (show ResourceName.isScalar name from hd)]
    rfl
  | _ => rfl

theorem requestedShare_of_not_supported (s : NodeState) {name : String}
    (h : ResourceName.isSupported name = false) : s.requestedShare name = ⟨0,0⟩ := by
  simp only [ResourceName.isSupported, Bool.or_eq_false_iff, beq_eq_false_iff_ne] at h
  obtain ⟨⟨⟨⟨hcpu,hmemory⟩,hpods⟩,hstorage⟩,hscalar⟩ := h
  unfold requestedShare
  rw [if_neg hcpu, if_neg hmemory, if_neg hpods, if_neg hstorage, hscalar]
  rfl

theorem toInt_allocatable_ofNode (n : Node) {d : Dimension} (hd : d.counts) :
    ((ofNode n).allocatable.amount d).toInt =
      if n.offers d.name then
        min (2 ^ 63 - 1) (max 0 (n.capacity.reading d.name - n.reserved.reading d.name))
      else 0 := by
  change ((Resources.less _ _).amount d).toInt = _
  rw [Resources.amount_less, n.offers_name hd, n.capacity.reading_name hd,
    n.reserved.reading_name hd, Resources.amount_ofList _ hd, Resources.amount_ofList _ hd]
  split
  · rw [toInt_floorZero, toInt_sub]
    have hspan := span_63
    unfold cap
    omega
  · exact toInt_zero

/-- What a node offers is its capacity less what is reserved, within the range of amounts. -/
theorem allocatable_share_ofNode (n : Node) (name : String) :
    ((ofNode n).requestedShare name).allocatable.toInt =
      if n.offers name then
        min (2 ^ 63 - 1) (max 0 (n.capacity.reading name - n.reserved.reading name))
      else 0 := by
  cases h : ResourceName.isSupported name with
  | false =>
    rw [requestedShare_of_not_supported _ h, if_neg (by simp [n.offers_of_not_supported h])]
    exact toInt_zero
  | true =>
    obtain ⟨d,hd,rfl⟩ := Dimension.isSupported_iff.mp h
    rw [allocatable_requestedShare _ hd, toInt_allocatable_ofNode n hd]

-- what is owed to the system is offered on top of the capacity
example : ((ofNode ⟨"n1",.ofList [("cpu", ⟨"2",2 * 10 ^ 9⟩)],
    .ofList [("cpu", ⟨"-500m",-(5 * 10 ^ 8)⟩)]⟩).requestedShare "cpu").allocatable.toInt = 2500 := by
  decide +kernel

end NodeState

/-! ### The names that count -/

def Quantity.one : Quantity := ⟨"1",1000000000⟩

theorem Quantity.made_one : one.Made := .read (show parse "1" = .ok one from rfl)

def ResourceList.one (name : String) : ResourceList := NameMap.insert ∅ name .one

/-- A node that has one of a resource and keeps nothing of it. -/
def Node.withOne (name : String) : Node := ⟨"n1",.one name,∅⟩

theorem Node.made_withOne (name : String) : (withOne name).Made := by
  intro e he
  obtain rfl := List.mem_singleton.mp he
  exact Quantity.made_one

theorem ResourceList.reading_one (name : String) : 0 < (one name).reading name := by
  unfold reading one
  rw [NameMap.get?_insert, if_pos rfl]
  dsimp only
  split <;> decide

theorem Node.offers_withOne {name : String} (h : ResourceName.isSupported name) :
    (withOne name).offers name := by
  have hget : (withOne name).capacity.get? name = some .one :=
    (NameMap.get?_insert ∅ name name _).trans (if_pos rfl)
  unfold offers
  rw [hget, Option.isSome_some, Bool.and_true]
  exact h

theorem Node.share_withOne {name : String} (h : ResourceName.isSupported name) :
    (NodeState.ofNode (withOne name)).requestedShare name ≠ ⟨0,0⟩ := by
  have hread := ResourceList.reading_one name
  have hshare := NodeState.allocatable_share_ofNode (withOne name) name
  rw [if_pos (offers_withOne h)] at hshare
  change _ = min _ (max 0 ((ResourceList.one name).reading name - 0)) at hshare
  intro hzero
  rw [hzero, toInt_zero] at hshare
  omega

theorem Resources.ofList_one {name : String} (h : ResourceName.isSupported name) :
    ofList (.one name) ≠ ofList ∅ := by
  obtain ⟨d,hd,rfl⟩ := Dimension.isSupported_iff.mp h
  have hread := ResourceList.reading_one d.name
  rw [ResourceList.reading_name _ hd, ← amount_ofList _ hd] at hread
  intro heq
  rw [heq, show ofList ∅ = zero from rfl, amount_zero, toInt_zero] at hread
  exact Int.lt_irrefl 0 hread

/-- Lists, shares and the support of a name go by the same names. -/
theorem supported_tfae (name : String) : List.TFAE [
    ResourceName.isSupported name = true,
    ∃ n : Node, n.Made ∧ (NodeState.ofNode n).requestedShare name ≠ ⟨0,0⟩,
    ∃ s : NodeState, s.requestedShare name ≠ ⟨0,0⟩,
    ∃ (list : ResourceList) (q : Quantity),
      q.Made ∧ Resources.ofList (list.insert name q) ≠ Resources.ofList list] := by
  tfae_have 1 → 2 := fun h => ⟨.withOne name,Node.made_withOne name,Node.share_withOne h⟩
  tfae_have 2 → 3 := fun ⟨n,_,h⟩ => ⟨.ofNode n,h⟩
  tfae_have 3 → 1 := by
    rintro ⟨s,h⟩
    by_contra hname
    exact h (s.requestedShare_of_not_supported (by simpa using hname))
  tfae_have 1 → 4 := fun h => ⟨∅,.one,Quantity.made_one,Resources.ofList_one h⟩
  tfae_have 4 → 1 := by
    rintro ⟨list,q,_,h⟩
    by_contra hname
    exact h (Resources.ofList_insert_of_not_supported (by simpa using hname) list q)
  tfae_finish

/-- The capacity of a node is accounted exactly, by sums that never leave the range, and under the
names that count everywhere. -/
theorem capacity_accounted :
    (∀ (n : Node) (name : String),
      ((NodeState.ofNode n).requestedShare name).allocatable.toInt =
        if n.offers name then
          min (2 ^ 63 - 1) (max 0 (n.capacity.reading name - n.reserved.reading name))
        else 0) ∧
    (∀ list : ResourceList, Resources.ofListExact? list = some (Resources.ofList list)) ∧
    ∀ name : String, List.TFAE [
      ResourceName.isSupported name = true,
      ∃ n : Node, n.Made ∧ (NodeState.ofNode n).requestedShare name ≠ ⟨0,0⟩,
      ∃ s : NodeState, s.requestedShare name ≠ ⟨0,0⟩,
      ∃ (list : ResourceList) (q : Quantity),
        q.Made ∧ Resources.ofList (list.insert name q) ≠ Resources.ofList list] :=
  ⟨NodeState.allocatable_share_ofNode,Resources.ofListExact?_eq_some,supported_tfae⟩

end NodeRank
