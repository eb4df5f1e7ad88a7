import NodeRank.Proofs.Resource.Dimension

/-! # What a list of quantities counts for

A list has one entry for a name, so every dimension gets at most one quantity and holds just that
(`Resources.amount_ofList`). The sums by which a list is counted are therefore plain ones:
`Resources.ofListExact?` has no cap and does not fail.
-/
namespace NodeRank
open Capped

namespace Resources

/-- Counts one quantity by a plain sum; there is no answer if the range does not hold it. -/
def countExact? (r : Resources) (name : String) (q : Quantity) : Option Resources :=
  match Dimension.ofName? name with
  | some d => (ofInt? 63 ((r.amount d).toInt + (d.measure q).toInt)).map (r.set d)
  | none => some r

def ofListExact? (list : ResourceList) : Option Resources :=
  list.toList.foldlM (fun r e => r.countExact? e.1 e.2) zero

variable {d : Dimension} {name : String} {r : Resources} {l : List (String × Quantity)}

theorem zero_add (x : Amount) : 0 + x = x := by
  apply Capped.ext
  rw [toInt_add, toInt_zero, Int.zero_add]
  exact cap_eq_self x.ge x.lt

theorem amount_count_of_ne (r : Resources) (q : Quantity) (h : name ≠ d.name) :
    (r.count name q).amount d = r.amount d := by
  rw [count_eq]
  cases he : Dimension.ofName? name with
  | none => rfl
  | some e =>
    rw [amount_set, if_neg]
    rintro rfl
    exact h (Dimension.name_of_ofName? he).symm

theorem amount_count (r : Resources) (q : Quantity) (h : d.counts) :
    (r.count d.name q).amount d = r.amount d + d.measure q := by
  rw [count_eq, Dimension.ofName?_name h]
  exact (amount_set r d d _).trans (if_pos rfl)

theorem names_count (r : Resources) (other : String) (q : Quantity)
    (h : ResourceName.isScalar name) :
    (r.count other q).names name = (decide (other = name) || r.names name) := by
  rw [count_eq]
  by_cases hother : other = name
  · subst hother
    have hd : Dimension.ofName? other = some (.scalar other) :=
      Dimension.ofName?_eq_some_iff.mpr ⟨rfl,h⟩
    simp [hd]
  · cases hd : Dimension.ofName? other with
    | none => simp [hother]
    | some d =>
      have hne : d ≠ .scalar name := by
        rintro rfl
        exact hother (Dimension.name_of_ofName? hd).symm
      simp [hother, hne]

theorem amount_foldl_count (hl : l.Pairwise fun x y => x.1 < y.1)
    (hd : d.counts) (r : Resources) :
    (l.foldl (fun r e => r.count e.1 e.2) r).amount d =
      r.amount d + ((NameMap.find? d.name l).map d.measure).getD 0 := by
  induction l generalizing r with
  | nil => exact (add_zero _).symm
  | cons e l ih =>
    obtain ⟨name,q⟩ := e
    rw [List.pairwise_cons] at hl
    rw [List.foldl_cons, ih hl.2]
    by_cases hname : name = d.name
    · subst hname
      rw [NameMap.find?_eq_none_of_lt hl.1, amount_count r q hd, NameMap.find?, if_pos rfl]
      exact add_zero _
    · rw [amount_count_of_ne r q hname, NameMap.find?, if_neg hname]

theorem count_of_not_supported (r : Resources) (q : Quantity)
    (h : ResourceName.isSupported name = false) : r.count name q = r := by
  rw [← Dimension.isSome_ofName?, Option.isSome_eq_false_iff, Option.isNone_iff_eq_none] at h
  rw [count_eq, h]

theorem foldl_count_put_of_not_supported (h : ResourceName.isSupported name = false)
    (q : Quantity) (l : List (String × Quantity)) (r : Resources) :
    (NameMap.put name q l).foldl (fun r e => r.count e.1 e.2) r =
      l.foldl (fun r e => r.count e.1 e.2) r := by
  induction l generalizing r with
  | nil => exact r.count_of_not_supported q h
  | cons e l ih =>
    rw [NameMap.put]
    split
    · rw [List.foldl_cons, r.count_of_not_supported q h]
    split
    · rename_i heq
      subst heq
      rw [List.foldl_cons, List.foldl_cons, r.count_of_not_supported q h,
        r.count_of_not_supported e.2 h]
    · rw [List.foldl_cons, List.foldl_cons, ih]

/-- An entry of a name that is not supported makes no difference to a list. -/
theorem ofList_insert_of_not_supported (h : ResourceName.isSupported name = false)
    (list : ResourceList) (q : Quantity) : ofList (list.insert name q) = ofList list :=
  foldl_count_put_of_not_supported h q list.toList zero

/-- The quantity of its name is all that a dimension holds. -/
theorem amount_ofList (list : ResourceList) (hd : d.counts) :
    (ofList list).amount d = ((list.get? d.name).map d.measure).getD 0 := by
  unfold ofList
  rw [amount_foldl_count list.sorted hd, amount_zero, zero_add]
  rfl

theorem names_foldl_count (h : ResourceName.isScalar name) (l : List (String × Quantity))
    (r : Resources) : (l.foldl (fun r e => r.count e.1 e.2) r).names name =
      (r.names name || (NameMap.find? name l).isSome) := by
  induction l generalizing r with
  | nil => simp [NameMap.find?]
  | cons e l ih =>
    obtain ⟨other,q⟩ := e
    rw [List.foldl_cons, ih, names_count r other q h]
    by_cases hname : other = name <;> simp [NameMap.find?, hname]

/-- A list names the scalars that it has an entry for. -/
theorem names_ofList (list : ResourceList) (h : ResourceName.isScalar name) :
    (ofList list).names name = (list.get? name).isSome := by
  unfold ofList
  rw [names_foldl_count h, names_zero, Bool.false_or]
  rfl

theorem countExact?_eq_some (q : Quantity)
    (h : ∀ d, Dimension.ofName? name = some d → r.amount d = 0) :
    r.countExact? name q = some (r.count name q) := by
  unfold countExact?
  rw [count_eq]
  cases hd : Dimension.ofName? name with
  | none => rfl
  | some d =>
    dsimp only
    rw [h d hd, zero_add, toInt_zero, Int.zero_add, ofInt?_eq_some.mpr rfl]
    rfl

/-- Entries that find their dimensions at zero are counted by plain sums. -/
theorem foldlM_countExact? (hl : l.Pairwise fun x y => x.1 < y.1)
    (h : ∀ e ∈ l, ∀ d, Dimension.ofName? e.1 = some d → r.amount d = 0) :
    l.foldlM (fun r e => r.countExact? e.1 e.2) r =
      some (l.foldl (fun r e => r.count e.1 e.2) r) := by
  induction l generalizing r with
  | nil => rfl
  | cons e l ih =>
    rw [List.pairwise_cons] at hl
    rw [List.foldlM_cons, countExact?_eq_some e.2 (h e List.mem_cons_self), List.foldl_cons]
    refine ih hl.2 fun e' he' d hd => ?_
    -- a later entry has another name, so its dimension is left alone
    have hne : e.1 ≠ d.name := by
      rw [Dimension.name_of_ofName? hd]
      rintro heq
      exact String.lt_irrefl _ (heq ▸ hl.1 e' he')
    rw [amount_count_of_ne r e.2 hne]
    exact h e' (List.mem_cons_of_mem e he') d hd

theorem ofListExact?_eq_some (list : ResourceList) : ofListExact? list = some (ofList list) :=
  foldlM_countExact? list.sorted fun _ _ d _ => amount_zero d

end Resources
end NodeRank
