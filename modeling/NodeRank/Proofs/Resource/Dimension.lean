import NodeRank.Resource.Basic
import Mathlib.Tactic.SplitIfs

/-! # Amounts one dimension at a time

The four basic resources and every scalar are counted, added and taken away alike.
`Resources.amount` looks at one of them, `Resources.set` changes one of them, and two `Resources`
are the same if they agree on every amount and name the same scalars (`Resources.ext_amount`).
-/
namespace NodeRank

/-- What amounts are told apart by: a basic resource, or the name of a scalar. -/
inductive Dimension where
  | milliCpu
  | memory
  | ephemeralStorage
  | pods
  | scalar (name : String)
deriving DecidableEq

namespace Dimension

/-- The name under which quantities of a dimension are listed. -/
def name : Dimension → String
  | .milliCpu => ResourceName.cpu
  | .memory => ResourceName.memory
  | .ephemeralStorage => ResourceName.ephemeralStorage
  | .pods => ResourceName.pods
  | .scalar name => name

/-- The dimension that a name counts in; none if it stands for no resource. -/
def ofName? (name : String) : Option Dimension :=
  if name = ResourceName.cpu then some .milliCpu
  else if name = ResourceName.memory then some .memory
  else if name = ResourceName.ephemeralStorage then some .ephemeralStorage
  else if name = ResourceName.pods then some .pods
  else if ResourceName.isScalar name then some (.scalar name)
  else none

/-- What a quantity comes to in the measure of a dimension. -/
def measure (d : Dimension) (q : Quantity) : Amount :=
  match d with
  | .milliCpu => q.milliValue
  | _ => q.value

/-- Whether a quantity can count in a dimension: a scalar must have the name of one. -/
def counts : Dimension → Bool
  | .scalar name => ResourceName.isScalar name
  | _ => true

theorem ofName?_eq_some_iff {name : String} {d : Dimension} :
    ofName? name = some d ↔ d.name = name ∧ d.counts := by
  constructor
  · intro h
    unfold ofName? at h
    split_ifs at h with hcpu hmemory hstorage hpods hscalar
    · cases h; exact ⟨hcpu.symm,rfl⟩
    · cases h; exact ⟨hmemory.symm,rfl⟩
    · cases h; exact ⟨hstorage.symm,rfl⟩
    · cases h; exact ⟨hpods.symm,rfl⟩
    · cases h; exact ⟨rfl,hscalar⟩
  · rintro ⟨rfl,h⟩
    cases d with
    | scalar name =>
      change ResourceName.isScalar name at h
      change ofName? name = some (.scalar name)
      obtain ⟨hcpu,hmemory,hpods,hstorage⟩ := ResourceName.ne_basic_of_isScalar h
      unfold ofName?
      rw [if_neg hcpu, if_neg hmemory, if_neg hstorage, if_neg hpods, if_pos h]
    | _ => rfl

theorem name_of_ofName? {name : String} {d : Dimension} (h : ofName? name = some d) :
    d.name = name := (ofName?_eq_some_iff.mp h).1

theorem ofName?_name {d : Dimension} (h : d.counts) : ofName? d.name = some d :=
  ofName?_eq_some_iff.mpr ⟨rfl,h⟩

theorem isSome_ofName? (name : String) : (ofName? name).isSome = ResourceName.isSupported name := by
  unfold ofName? ResourceName.isSupported
  split_ifs <;> simp_all

/-- The supported names are those of the dimensions that count. -/
theorem isSupported_iff {name : String} :
    ResourceName.isSupported name ↔ ∃ d : Dimension, d.counts ∧ d.name = name := by
  rw [← isSome_ofName?, Option.isSome_iff_exists]
  simp only [ofName?_eq_some_iff, and_comm]

theorem measure_nonneg (d : Dimension) {q : Quantity} (hq : 0 ≤ q.nanos) :
    0 ≤ (d.measure q).toInt := by
  cases d with
  | milliCpu => exact Quantity.milliValue_nonneg hq
  | _ => exact Quantity.value_nonneg hq

end Dimension

namespace Resources

def amount (r : Resources) : Dimension → Amount
  | .milliCpu => r.milliCpu
  | .memory => r.memory
  | .ephemeralStorage => r.ephemeralStorage
  | .pods => r.pods
  | .scalar name => r.scalar name

/-- Whether a scalar is mentioned, be it with an amount of zero. -/
def names (r : Resources) (name : String) : Bool := (r.scalars.get? name).isSome

@[simp] theorem amount_zero (d : Dimension) : zero.amount d = 0 := by cases d <;> rfl

@[simp] theorem amount_add (r s : Resources) (d : Dimension) :
    (r + s).amount d = r.amount d + s.amount d := by
  cases d with
  | scalar name => exact scalar_add r s name
  | milliCpu => rfl
  | memory => rfl
  | ephemeralStorage => rfl
  | pods => rfl

@[simp] theorem names_zero (name : String) : zero.names name = false := rfl

@[simp] theorem names_add (r s : Resources) (name : String) :
    (r + s).names name = (r.names name || s.names name) := by
  have h := get?_foldl_addScalar s.scalars.sorted r.scalars name
  change ((s.scalars.toList.foldl (fun m e => addScalar m e.1 e.2) r.scalars).get? name).isSome = _
  rw [h]
  unfold names
  rw [show s.scalars.get? name = NameMap.find? name s.scalars.toList from rfl]
  cases NameMap.find? name s.scalars.toList <;> simp

/-- The resources with another amount in one dimension. -/
def set (r : Resources) (d : Dimension) (x : Amount) : Resources :=
  match d with
  | .milliCpu => { r with milliCpu := x }
  | .memory => { r with memory := x }
  | .ephemeralStorage => { r with ephemeralStorage := x }
  | .pods => { r with pods := x }
  | .scalar name => { r with scalars := r.scalars.insert name x }

@[simp] theorem amount_set (r : Resources) (d e : Dimension) (x : Amount) :
    (r.set d x).amount e = if d = e then x else r.amount e := by
  cases d with
  | scalar name =>
    cases e with
    | scalar other =>
      change ((r.scalars.insert name x).get? other).getD 0 = _
      rw [NameMap.get?_insert, apply_ite (Option.getD · 0)]
      simp only [Dimension.scalar.injEq]
      rfl
    | _ => rfl
  | _ => cases e <;> rfl

@[simp] theorem names_set (r : Resources) (d : Dimension) (x : Amount) (name : String) :
    (r.set d x).names name = (decide (d = .scalar name) || r.names name) := by
  cases d with
  | scalar other =>
    change ((r.scalars.insert other x).get? name).isSome = _
    rw [NameMap.get?_insert, apply_ite Option.isSome]
    by_cases h : other = name <;> simp [h, names]
  | _ => simp [set, names]

/-- A quantity is added in the dimension that its name counts in. -/
theorem count_eq (r : Resources) (name : String) (q : Quantity) :
    r.count name q = match Dimension.ofName? name with
      | some d => r.set d (r.amount d + d.measure q)
      | none => r := by
  unfold count Dimension.ofName?
  split_ifs <;> rfl

/-- Whether there is a dimension at all: a scalar is there only if it is named. -/
def has (r : Resources) : Dimension → Bool
  | .scalar name => r.names name
  | _ => true

theorem amount_less (r s : Resources) (d : Dimension) :
    (r.less s).amount d = if r.has d then (r.amount d - s.amount d).floorZero else 0 := by
  cases d with
  | scalar name => exact scalar_less r s name
  | _ => rfl

theorem amount_less_nonneg (r s : Resources) (d : Dimension) : 0 ≤ ((r.less s).amount d).toInt := by
  rw [amount_less]
  split
  · exact Capped.floorZero_nonneg _
  · exact Int.le_of_eq Capped.toInt_zero.symm

theorem amount_count_nonneg {r : Resources} {q : Quantity} (hq : 0 ≤ q.nanos) (name : String)
    (hr : ∀ d, 0 ≤ (r.amount d).toInt) (d : Dimension) :
    0 ≤ ((r.count name q).amount d).toInt := by
  rw [count_eq]
  cases Dimension.ofName? name with
  | none => exact hr d
  | some e =>
    rw [amount_set]
    split
    · exact Capped.cap_nonneg (Int.add_nonneg (hr e) (e.measure_nonneg hq))
    · exact hr d

theorem amount_foldl_count_nonneg {l : List (String × Quantity)} (h : ∀ e ∈ l, 0 ≤ e.2.nanos)
    {r : Resources} (hr : ∀ d, 0 ≤ (r.amount d).toInt) (d : Dimension) :
    0 ≤ ((l.foldl (fun r e => r.count e.1 e.2) r).amount d).toInt := by
  induction l generalizing r with
  | nil => exact hr d
  | cons e l ih =>
    exact ih (fun e' he' => h e' (List.mem_cons_of_mem _ he'))
      (amount_count_nonneg (h e List.mem_cons_self) e.1 hr)

/-- A list without negative quantities has no negative amount. -/
theorem amount_ofList_nonneg {list : ResourceList} (h : ∀ e ∈ list.toList, 0 ≤ e.2.nanos)
    (d : Dimension) : 0 ≤ ((ofList list).amount d).toInt := by
  have hzero (d : Dimension) : (zero.amount d).toInt = 0 := by
    rw [amount_zero, Capped.toInt_zero]
  exact amount_foldl_count_nonneg h (fun d => Int.le_of_eq (hzero d).symm) d

/-- The scalars that are mentioned and their amounts are all there is to them. -/
theorem scalars_ext {r s : Resources}
    (ha : ∀ name, r.amount (.scalar name) = s.amount (.scalar name))
    (hn : ∀ name, r.names name = s.names name) : r.scalars = s.scalars := by
  apply NameMap.ext_get?
  intro name
  have h := ha name
  have hname := hn name
  simp only [amount, scalar, names] at h hname
  cases hr : r.scalars.get? name <;> cases hr' : s.scalars.get? name <;> simp_all

/-- Amounts and mentioned scalars are all there is. -/
theorem ext_amount {r s : Resources} (ha : ∀ d, r.amount d = s.amount d)
    (hn : ∀ name, r.names name = s.names name) : r = s := by
  have hs := scalars_ext (fun name => ha (.scalar name)) hn
  have hcpu := ha .milliCpu
  have hmemory := ha .memory
  have hstorage := ha .ephemeralStorage
  have hpods := ha .pods
  obtain ⟨_,_,_,_,_⟩ := r
  obtain ⟨_,_,_,_,_⟩ := s
  simp only [amount] at hcpu hmemory hstorage hpods hs
  subst hcpu hmemory hstorage hpods hs
  rfl

end Resources
end NodeRank
