/-! # Maps from names

A map is the list of its entries in strictly increasing order of names, so equal maps are equal
lists: two maps with the same look-ups are the same map (`NameMap.ext_get?`). Names are compared by
code points, which is also the order of their UTF-8 bytes.
-/
namespace NodeRank

/-- A finite map from names, its entries in strictly increasing order of names. -/
structure NameMap (α : Type) where
  toList : List (String × α)
  sorted : toList.Pairwise (fun x y => x.1 < y.1)

namespace NameMap
variable {α β : Type}

theorem eq_of_toList {m n : NameMap α} (h : m.toList = n.toList) : m = n := by
  cases m; cases n; cases h; rfl

instance [DecidableEq α] : DecidableEq (NameMap α) := fun m n =>
  if h : m.toList = n.toList then .isTrue (eq_of_toList h) else .isFalse fun e => h (e ▸ rfl)

instance : EmptyCollection (NameMap α) := ⟨⟨[],.nil⟩⟩
instance : Inhabited (NameMap α) := ⟨∅⟩

/-- The first value that a list of entries gives to `k`. -/
def find? (k : String) : List (String × α) → Option α
  | [] => none
  | (j, v) :: rest => if j = k then some v else find? k rest

/-- Puts an entry in its place, instead of the one of that name if there is one. -/
def put (k : String) (v : α) : List (String × α) → List (String × α)
  | [] => [(k, v)]
  | (j, w) :: rest =>
    if k < j then (k, v) :: (j, w) :: rest
    else if k = j then (k, v) :: rest
    else (j, w) :: put k v rest

theorem mem_put {k : String} {v : α} {e : String × α} {l : List (String × α)}
    (h : e ∈ put k v l) : e = (k, v) ∨ e ∈ l := by
  induction l with
  | nil => simp_all [put]
  | cons hd tl ih => rw [put] at h; split at h <;> grind

theorem lt_of_not_lt_of_ne {j k : String} (h : ¬ k < j) (h' : k ≠ j) : j < k :=
  Classical.byContradiction fun hn =>
    h' (String.le_antisymm (String.not_lt.1 hn) (String.not_lt.1 h))

theorem put_sorted (k : String) (v : α) {l : List (String × α)}
    (h : l.Pairwise (fun x y => x.1 < y.1)) : (put k v l).Pairwise (fun x y => x.1 < y.1) := by
  induction l with
  | nil => simp [put]
  | cons hd tl ih =>
    obtain ⟨j,w⟩ := hd
    rw [List.pairwise_cons] at h
    rw [put]
    split
    · rename_i hlt
      rw [List.pairwise_cons, List.pairwise_cons]
      refine ⟨fun e he => ?_,h⟩
      rcases List.mem_cons.1 he with rfl | he
      · exact hlt
      · exact String.lt_trans hlt (h.1 e he)
    · split
      · rename_i heq
        subst heq
        exact List.pairwise_cons.2 h
      · rename_i hlt hne
        rw [List.pairwise_cons]
        refine ⟨fun e he => ?_,ih h.2⟩
        rcases mem_put he with rfl | he
        · exact lt_of_not_lt_of_ne hlt hne
        · exact h.1 e he

theorem find?_put (k j : String) (v : α) (l : List (String × α)) :
    find? j (put k v l) = if k = j then some v else find? j l := by
  induction l with
  | nil => simp [put, find?]
  | cons hd tl ih => rw [put]; split <;> grind [find?]

def get? (m : NameMap α) (k : String) : Option α := find? k m.toList

/-- Gives a name a value, in place of the one that it has. -/
def insert (m : NameMap α) (k : String) (v : α) : NameMap α :=
  ⟨put k v m.toList,put_sorted k v m.sorted⟩

def erase (m : NameMap α) (k : String) : NameMap α :=
  ⟨m.toList.filter (·.1 ≠ k),m.sorted.filter _⟩

def mapEntries (m : NameMap α) (f : String → α → β) : NameMap β :=
  ⟨m.toList.map fun e => (e.1, f e.1 e.2),by
    rw [List.pairwise_map]; exact m.sorted⟩

/-- The map of a list of entries; of entries with one name the last counts. -/
def ofList (entries : List (String × α)) : NameMap α :=
  entries.foldl (fun m e => m.insert e.1 e.2) ∅

def names (m : NameMap α) : List String := m.toList.map (·.1)

def isEmpty (m : NameMap α) : Bool := m.toList.isEmpty

def size (m : NameMap α) : Nat := m.toList.length

@[simp] theorem get?_insert (m : NameMap α) (k j : String) (v : α) :
    (m.insert k v).get? j = if k = j then some v else m.get? j := find?_put k j v m.toList

@[simp] theorem get?_erase (m : NameMap α) (k j : String) :
    (m.erase k).get? j = if k = j then none else m.get? j := by
  show find? j (m.toList.filter _) = if k = j then none else find? j m.toList
  induction m.toList with
  | nil => simp [find?]
  | cons hd tl ih => grind [find?]

@[simp] theorem get?_mapEntries (m : NameMap α) (f : String → α → β) (k : String) :
    (m.mapEntries f).get? k = (m.get? k).map (f k) := by
  show find? k (m.toList.map _) = (find? k m.toList).map (f k)
  induction m.toList with
  | nil => rfl
  | cons hd tl ih => by_cases h : hd.1 = k <;> simp_all [find?]

theorem find?_eq_some_iff {l : List (String × α)} (h : l.Pairwise (fun x y => x.1 < y.1))
    {k : String} {v : α} : find? k l = some v ↔ (k, v) ∈ l := by
  induction l with
  | nil => simp [find?]
  | cons hd tl ih =>
    obtain ⟨j,w⟩ := hd
    rw [List.pairwise_cons] at h
    have ih := ih h.2
    by_cases hj : j = k
    · subst hj
      have : (j, v) ∉ tl := fun hm => String.lt_irrefl j (h.1 (j, v) hm)
      simp [find?, this, eq_comm]
    · simp [find?, hj, ih, Ne.symm hj]

/-- Entries of greater names do not have the name. -/
theorem find?_eq_none_of_lt {k : String} {l : List (String × α)} (h : ∀ e ∈ l, k < e.1) :
    find? k l = none := by
  induction l with
  | nil => rfl
  | cons e l ih =>
    have hne : e.1 ≠ k := fun he => String.lt_irrefl k (he ▸ h e List.mem_cons_self)
    rw [find?, if_neg hne]
    exact ih fun e' he' => h e' (List.mem_cons_of_mem e he')

theorem get?_eq_some_iff {m : NameMap α} {k : String} {v : α} :
    m.get? k = some v ↔ (k, v) ∈ m.toList := find?_eq_some_iff m.sorted

/-- A new name adds its entry and leaves all others as they are. -/
theorem mem_insert_iff {m : NameMap α} {k : String} {v : α} (h : m.get? k = none)
    {e : String × α} : e ∈ (m.insert k v).toList ↔ e = (k, v) ∨ e ∈ m.toList := by
  obtain ⟨j,w⟩ := e
  rw [← get?_eq_some_iff, ← get?_eq_some_iff, get?_insert]
  split
  · rename_i hk
    subst hk
    simp [h, eq_comm]
  · rename_i hk
    simp [Ne.symm hk]

theorem names_sorted (m : NameMap α) : m.names.Pairwise (· < ·) := List.pairwise_map.mpr m.sorted

theorem mem_names_iff {m : NameMap α} {k : String} : k ∈ m.names ↔ (m.get? k).isSome := by
  unfold names
  rw [List.mem_map, Option.isSome_iff_exists]
  constructor
  · rintro ⟨e,he,rfl⟩
    exact ⟨e.2,get?_eq_some_iff.2 he⟩
  · rintro ⟨v,hv⟩
    exact ⟨(k, v),get?_eq_some_iff.1 hv,rfl⟩

theorem eq_of_mem_iff {l r : List (String × α)} (hl : l.Pairwise (fun x y => x.1 < y.1))
    (hr : r.Pairwise (fun x y => x.1 < y.1)) (h : ∀ e, e ∈ l ↔ e ∈ r) : l = r := by
  induction l generalizing r with
  | nil => exact (List.eq_nil_iff_forall_not_mem.2 fun e he => by simpa using (h e).2 he).symm
  | cons x l ih =>
    cases r with
    | nil => exact absurd ((h x).1 (by simp)) (by simp)
    | cons y r =>
      rw [List.pairwise_cons] at hl hr
      have hxy : x = y := by
        rcases List.mem_cons.1 ((h x).1 (by simp)) with e | hx
        · exact e
        · rcases List.mem_cons.1 ((h y).2 (by simp)) with e | hy
          · exact e.symm
          · exact absurd (hl.1 y hy) (String.lt_asymm (hr.1 x hx))
      subst hxy
      congr 1
      refine ih hl.2 hr.2 fun e => ?_
      constructor
      · intro he
        rcases List.mem_cons.1 ((h e).1 (by simp [he])) with rfl | h'
        · exact absurd (hl.1 _ he) (String.lt_irrefl _)
        · exact h'
      · intro he
        rcases List.mem_cons.1 ((h e).2 (by simp [he])) with rfl | h'
        · exact absurd (hr.1 _ he) (String.lt_irrefl _)
        · exact h'

theorem ext_get? {m n : NameMap α} (h : ∀ k, m.get? k = n.get? k) : m = n :=
  eq_of_toList <| eq_of_mem_iff m.sorted n.sorted fun e => by
    rw [← get?_eq_some_iff (m := m), ← get?_eq_some_iff (m := n), h]

theorem erase_insert {m : NameMap α} {k : String} (h : m.get? k = none) (v : α) :
    (m.insert k v).erase k = m := by
  apply ext_get?
  intro j
  rw [get?_erase, get?_insert]
  split
  · rename_i hk
    rw [← hk, h]
  · rfl

end NameMap
end NodeRank
