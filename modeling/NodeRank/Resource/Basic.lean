import NodeRank.NameMap
import NodeRank.Quantity.Basic
import NodeRank.Resource.Name

/-! # Amounts of resources

`Resources` says how much of each resource is offered or asked for. Sums stop at the largest
amount, differences at zero.
-/
namespace NodeRank

abbrev ResourceList := NameMap Quantity

structure Resources where
  milliCpu : Amount
  memory : Amount
  ephemeralStorage : Amount
  pods : Amount
  scalars : NameMap Amount
deriving DecidableEq

namespace Resources

def zero : Resources := ⟨0,0,0,0,∅⟩

instance : Inhabited Resources := ⟨zero⟩

/-- How much there is of a scalar resource; nothing if it is not named. -/
def scalar (r : Resources) (name : String) : Amount := (r.scalars.get? name).getD 0

/-- Adds an amount to a scalar resource, which is named from then on. -/
def addScalar (scalars : NameMap Amount) (name : String) (x : Amount) : NameMap Amount :=
  scalars.insert name ((scalars.get? name).getD 0 + x)

/-- Counts one quantity of a list. The processor is counted in thousandths, all else in units, and
names that stand for no resource are passed over. -/
def count (r : Resources) (name : String) (q : Quantity) : Resources :=
  if name = ResourceName.cpu then { r with milliCpu := r.milliCpu + q.milliValue }
  else if name = ResourceName.memory then { r with memory := r.memory + q.value }
  else if name = ResourceName.ephemeralStorage then
    { r with ephemeralStorage := r.ephemeralStorage + q.value }
  else if name = ResourceName.pods then { r with pods := r.pods + q.value }
  else if ResourceName.isScalar name then { r with scalars := addScalar r.scalars name q.value }
  else r

def ofList (list : ResourceList) : Resources :=
  list.toList.foldl (fun r e => r.count e.1 e.2) zero

def add (r s : Resources) : Resources where
  milliCpu := r.milliCpu + s.milliCpu
  memory := r.memory + s.memory
  ephemeralStorage := r.ephemeralStorage + s.ephemeralStorage
  pods := r.pods + s.pods
  scalars := s.scalars.toList.foldl (fun m e => addScalar m e.1 e.2) r.scalars

/-- What is left of `r` when `s` is taken away: never below zero, and of `r`'s scalars only. -/
def less (r s : Resources) : Resources where
  milliCpu := (r.milliCpu - s.milliCpu).floorZero
  memory := (r.memory - s.memory).floorZero
  ephemeralStorage := (r.ephemeralStorage - s.ephemeralStorage).floorZero
  pods := (r.pods - s.pods).floorZero
  scalars := r.scalars.mapEntries fun name x => (x - s.scalar name).floorZero

instance : Add Resources := ⟨add⟩

theorem get?_addScalar (m : NameMap Amount) (name j : String) (x : Amount) :
    (addScalar m name x).get? j = if name = j then some ((m.get? name).getD 0 + x) else m.get? j :=
  NameMap.get?_insert m name j _

/-- Adding entries of distinct names adds to each name what its entry says. -/
theorem get?_foldl_addScalar {l : List (String × Amount)} (h : l.Pairwise (fun x y => x.1 < y.1))
    (m : NameMap Amount) (j : String) :
    (l.foldl (fun m e => addScalar m e.1 e.2) m).get? j =
      match NameMap.find? j l with
      | some x => some ((m.get? j).getD 0 + x)
      | none => m.get? j := by
  induction l generalizing m with
  | nil => rfl
  | cons e l ih =>
    rw [List.pairwise_cons] at h
    rw [List.foldl_cons, ih h.2]
    obtain ⟨k,x⟩ := e
    by_cases hk : k = j
    · subst hk
      simp [NameMap.find?_eq_none_of_lt h.1, NameMap.find?, get?_addScalar]
    · simp [NameMap.find?, hk, get?_addScalar]

theorem add_zero (x : Amount) : x + 0 = x := by
  apply Capped.ext
  rw [Capped.toInt_add, Capped.toInt_zero, Int.add_zero]
  exact Capped.cap_eq_self x.ge x.lt

@[simp] theorem scalar_add (r s : Resources) (name : String) :
    (r + s).scalar name = r.scalar name + s.scalar name := by
  have h := get?_foldl_addScalar s.scalars.sorted r.scalars name
  show ((s.scalars.toList.foldl _ r.scalars).get? name).getD 0 = _
  rw [h]
  unfold scalar
  rw [show s.scalars.get? name = NameMap.find? name s.scalars.toList from rfl]
  cases NameMap.find? name s.scalars.toList with
  | none => exact (add_zero _).symm
  | some x => rfl

theorem scalar_less (r s : Resources) (name : String) :
    (r.less s).scalar name =
      if (r.scalars.get? name).isSome then (r.scalar name - s.scalar name).floorZero else 0 := by
  unfold scalar less
  rw [NameMap.get?_mapEntries]
  cases r.scalars.get? name <;> rfl

end Resources
end NodeRank
