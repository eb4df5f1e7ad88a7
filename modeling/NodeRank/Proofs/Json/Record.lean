import NodeRank.Json.Record
import Mathlib.Data.List.Basic
import Mathlib.Data.Option.Basic

/-! # Reading back what is written

A reader and a writer are lawful for some values if these are read back from what is written of
them, and if nothing else is ever read. Then what has been read once is read back, whatever was left
out, repeated or written otherwise in the text that was read first. Readers and writers of lists,
maps, optional values and records are lawful when those of their parts are.
-/
namespace NodeRank

variable {α : Type}

namespace NameMap

/-- What a map gets from a list is an entry of the list. -/
theorem mem_of_get?_foldl_insert {l : List (String × α)} {m : NameMap α} {k : String} {v : α}
    (h : (l.foldl (fun m e => m.insert e.1 e.2) m).get? k = some v) :
    (k, v) ∈ l ∨ m.get? k = some v := by
  induction l generalizing m with
  | nil => exact .inr h
  | cons e l ih =>
    rcases ih h with hmem | hget
    · exact .inl (List.mem_cons_of_mem e hmem)
    · rw [get?_insert] at hget
      split at hget
      · rename_i hk
        obtain rfl := Option.some.inj hget
        exact .inl (hk ▸ List.mem_cons_self)
      · exact .inr hget

theorem get?_foldl_insert {l : List (String × α)} (h : l.Pairwise fun x y => x.1 < y.1)
    (m : NameMap α) (k : String) :
    (l.foldl (fun m e => m.insert e.1 e.2) m).get? k = (find? k l).or (m.get? k) := by
  induction l generalizing m with
  | nil => rfl
  | cons e l ih =>
    rw [List.pairwise_cons] at h
    rw [List.foldl_cons, ih h.2, get?_insert, find?]
    split
    · rename_i hk
      have hnone : find? k l = none := by
        rw [← Option.not_isSome_iff_eq_none, Option.isSome_iff_exists]
        rintro ⟨v,hv⟩
        exact absurd (h.1 _ ((find?_eq_some_iff h.2).mp hv)) (hk ▸ String.lt_irrefl _)
      rw [hnone]
      rfl
    · rfl

theorem ofList_toList (m : NameMap α) : ofList m.toList = m := by
  apply ext_get?
  intro k
  exact (get?_foldl_insert m.sorted ∅ k).trans Option.or_none

end NameMap

namespace Json

/-- The `good` values are read back from what is written of them, and only these are read. -/
structure Lawful (good : α → Prop) (read : Json → Option α) (write : α → Json) : Prop where
  read_write : ∀ v, good v → read (write v) = some v
  good_of_read : ∀ j v, read j = some v → good v

variable {good : α → Prop} {read : Json → Option α} {write : α → Json}

theorem lawful_string : Lawful (fun _ => True) string? text := ⟨fun _ _ => rfl,fun _ _ _ => trivial⟩

theorem amount?_toInt (x : Amount) : amount? (.integer x.toInt) = some x :=
  Capped.ofInt?_eq_some.mpr rfl

theorem lawful_ofText {parse : String → Option α} {render : α → String}
    (h : ∀ v, good v → parse (render v) = some v) (hgood : ∀ s v, parse s = some v → good v) :
    Lawful good (fun j => j.string?.bind parse) fun v => text (render v) where
  read_write := h
  good_of_read j v hv := by
    obtain ⟨s,_,hs⟩ := Option.bind_eq_some_iff.mp hv
    exact hgood s v hs

/-- Every item of a list that is read is read from some item. -/
theorem mem_of_mapM {β : Type} {f : β → Option α} {items : List β} {l : List α}
    (h : items.mapM f = some l) {v : α} (hv : v ∈ l) : ∃ b ∈ items, f b = some v := by
  induction items generalizing l with
  | nil =>
    obtain rfl : l = [] := by simpa [eq_comm] using h
    cases hv
  | cons b items ih =>
    simp only [List.mapM_cons, Option.bind_eq_bind, Option.pure_def, Option.bind_eq_some_iff,
      Option.some.injEq] at h
    obtain ⟨w,hw,rest,hrest,rfl⟩ := h
    rcases List.mem_cons.mp hv with rfl | hv
    · exact ⟨b,List.mem_cons_self,hw⟩
    · obtain ⟨c,hc,hcv⟩ := ih hrest hv
      exact ⟨c,List.mem_cons_of_mem _ hc,hcv⟩

theorem mapM_map {β : Type} {f : β → Option α} {g : α → β} {l : List α}
    (h : ∀ v ∈ l, f (g v) = some v) : (l.map g).mapM f = some l := by
  induction l with
  | nil => rfl
  | cons v l ih =>
    rw [List.forall_mem_cons] at h
    rw [List.map_cons, List.mapM_cons, h.1, ih h.2]
    rfl

theorem Lawful.list (h : Lawful good read write) :
    Lawful (fun l => ∀ v ∈ l, good v) (list? read) fun l => .array (l.map write) where
  read_write l hl := mapM_map fun v hv => h.read_write v (hl v hv)
  good_of_read j l hl := by
    cases j <;> try contradiction
    intro v hv
    obtain ⟨b,_,hb⟩ := mem_of_mapM hl hv
    exact h.good_of_read b v hb

/-- Every value of a map that is read is read from some value. -/
theorem exists_read_of_map? {j : Json} {m : NameMap α} (h : map? read j = some m) {k : String}
    {v : α} (hv : m.get? k = some v) : ∃ value, read value = some v := by
  cases j <;> try contradiction
  obtain ⟨entries,hentries,rfl⟩ := Option.map_eq_some_iff.mp h
  rcases NameMap.mem_of_get?_foldl_insert hv with hmem | hget
  · obtain ⟨member,_,hmember⟩ := mem_of_mapM hentries hmem
    simp only [Option.bind_eq_bind, Option.bind_eq_some_iff, Option.some.injEq,
      Prod.mk.injEq] at hmember
    obtain ⟨_,_,_,hvalue,_,rfl⟩ := hmember
    exact ⟨_,hvalue⟩
  · cases hget

theorem map?_ofMap {m : NameMap α} (h : ∀ k v, m.get? k = some v → read (write v) = some v) :
    map? read (ofMap write m) = some m := by
  have hentries := mapM_map (l := m.toList) (g := fun e => (some e.1, write e.2))
    (f := fun member : JsonString × Json => do
      let key ← member.1
      let value ← read member.2
      some (key, value)) ?_
  · unfold ofMap record map?
    rw [List.map_map]
    exact (congrArg (Option.map _) hentries).trans (congrArg some m.ofList_toList)
  · intro e he
    have hread := h e.1 e.2 (NameMap.get?_eq_some_iff.mpr he)
    simp [hread]

theorem Lawful.map (h : Lawful good read write) :
    Lawful (fun m => ∀ e ∈ m.toList, good e.2) (map? read) (ofMap write) where
  read_write m hm := map?_ofMap fun k v hv =>
    h.read_write v (hm (k, v) (NameMap.get?_eq_some_iff.mp hv))
  good_of_read j m hm := by
    intro e he
    obtain ⟨value,hvalue⟩ := exists_read_of_map? hm (NameMap.get?_eq_some_iff.mpr he)
    exact h.good_of_read value e.2 hvalue

namespace Fields

theorem nullable_of_ne {j : Json} (h : j ≠ .null) : nullable read j = (read j).map some := by
  cases j with
  | null => exact absurd rfl h
  | _ => rfl

/-- A value that is never written as null is read back where null stands for none. -/
theorem lawful_nullable (h : Lawful good read write) (hnull : ∀ v, write v ≠ .null) :
    Lawful (fun o => ∀ v ∈ o, good v) (nullable read) (ofOption write) where
  read_write o ho := by
    cases o with
    | none => rfl
    | some v =>
      exact (nullable_of_ne (hnull v)).trans
        (congrArg (Option.map some) (h.read_write v (ho v rfl)))
  good_of_read j o ho := by
    rintro v rfl
    have hne : j ≠ .null := by
      rintro rfl
      cases ho
    rw [nullable_of_ne hne, Option.map_eq_some_iff] at ho
    obtain ⟨w,hw,hwv⟩ := ho
    obtain rfl := Option.some.inj hwv
    exact h.good_of_read j w hw

theorem valuesOf_record {members : List (String × Json)} (h : (members.map (·.1)).Nodup)
    {m : String × Json} (hm : m ∈ members) :
    valuesOf m.1 (members.map fun m => (some m.1, m.2)) = [m.2] := by
  unfold valuesOf
  rw [List.filterMap_map]
  induction members with
  | nil => cases hm
  | cons e members ih =>
    rw [List.map_cons, List.nodup_cons] at h
    rcases List.mem_cons.mp hm with rfl | hm
    · have hrest : members.filterMap ((fun n : JsonString × Json =>
          if n.1 = some m.1 then some n.2 else none) ∘ fun m => (some m.1, m.2)) = [] := by
        rw [List.filterMap_eq_nil_iff]
        intro e he
        have hne : e.1 ≠ m.1 := fun heq => h.1 (heq ▸ List.mem_map_of_mem he)
        simp [hne]
      rw [List.filterMap_cons, hrest]
      simp
    · have hne : e.1 ≠ m.1 := fun heq => h.1 (heq ▸ List.mem_map_of_mem hm)
      rw [List.filterMap_cons, ih h.2 hm]
      simp [hne]

/-- A record gives its fields when it is read for them. -/
theorem ofJson?_record {members : List (String × Json)} {names : List String}
    (hnames : members.map (·.1) = names) (h : names.Nodup) :
    ofJson? names (record members) = some ⟨false,members⟩ := by
  subst hnames
  have hfields (ms : List (String × Json)) (hms : ms ⊆ members) :
      ofMembers? (members.map fun m => (some m.1, m.2)) (ms.map (·.1)) = some ms := by
    induction ms with
    | nil => rfl
    | cons m ms ih =>
      rw [List.cons_subset] at hms
      rw [List.map_cons, ofMembers?, valuesOf_record h hms.1, ih hms.2]
  unfold record ofJson?
  dsimp only
  rw [if_pos (by simp), hfields members (List.Subset.refl _)]
  rfl

variable {f : Fields} {name : String} {j : Json} {v : α}

theorem required_eq_some (hj : f.values.lookup name = some j) (h : read j = some v) :
    f.required name read = some v := by
  unfold required
  rw [hj]
  exact h

theorem orElse_eq_some {default : α} (hj : f.values.lookup name = some j) (h : read j = some v) :
    f.orElse name read default = some v := by
  unfold orElse
  rw [hj]
  exact h

end Fields

variable {f : Fields} {name : String}

/-! A field in which a good value stands as it is written is read as this value. -/

theorem Lawful.required (h : Lawful good read write) (v : α) (hv : good v)
    (hf : f.values.lookup name = some (write v)) : f.required name read = some v :=
  Fields.required_eq_some hf (h.read_write v hv)

theorem Lawful.orElse (h : Lawful good read write) {default : α} (v : α) (hv : good v)
    (hf : f.values.lookup name = some (write v)) : f.orElse name read default = some v :=
  Fields.orElse_eq_some hf (h.read_write v hv)

theorem Lawful.optional (h : Lawful good read write) (hnull : ∀ v, write v ≠ .null) (o : Option α)
    (ho : ∀ v ∈ o, good v) (hf : f.values.lookup name = some (ofOption write o)) :
    f.optional name read = some o := by
  unfold Fields.optional
  rw [hf]
  exact (Fields.lawful_nullable h hnull).read_write o ho

/-! What is read from a field is good, also where it stands for a field that is left out. -/

theorem Lawful.good_of_required (h : Lawful good read write) {v : α}
    (hv : f.required name read = some v) : good v := by
  obtain ⟨j,_,hj⟩ := Option.bind_eq_some_iff.mp hv
  exact h.good_of_read j v hj

theorem Lawful.good_of_orElse (h : Lawful good read write) {default v : α}
    (hdefault : good default) (hv : f.orElse name read default = some v) : good v := by
  unfold Fields.orElse at hv
  split at hv
  · obtain rfl := Option.some.inj hv
    exact hdefault
  · exact h.good_of_read _ v hv

theorem Lawful.good_of_optional (h : Lawful good read write) (hnull : ∀ v, write v ≠ .null)
    {o : Option α} (ho : f.optional name read = some o) : ∀ v ∈ o, good v := by
  unfold Fields.optional at ho
  split at ho
  · split at ho
    · cases ho
    · obtain rfl := Option.some.inj ho
      exact nofun
  · exact (Fields.lawful_nullable h hnull).good_of_read _ o ho

end Json
end NodeRank
