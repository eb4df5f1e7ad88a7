import NodeRank.Proofs.Scoring.Basis
import NodeRank.Scoring.Ranker
import Mathlib.Data.List.Basic
import Mathlib.Data.List.Nodup

/-! # Which lists make a weight table

A list is taken up entry by entry, but whether it is accepted and what table it makes depends on its
entries only: all are `Admissible` together, and one of them has a positive weight. Of a list that
is not admissible the first entry is reported with which it stops being so.
-/
namespace NodeRank
namespace Weights

/-- Entries that may stand in one list: each has a name, no two have the same one, and no weight is
negative. An entry of weight zero counts like any other. -/
structure Admissible (specs : List WeightSpec) : Prop where
  named : ∀ s ∈ specs, s.name ≠ ""
  nonneg : ∀ s ∈ specs, 0 ≤ s.weight.toInt
  distinct : (specs.map WeightSpec.name).Nodup

/-- What is wrong with an entry that comes after others. An entry without a name is called that
whatever its weight, and a negative weight is called that however often the name is used. -/
inductive Fault (before : List WeightSpec) (spec : WeightSpec) : ConfigError → Prop where
  | unnamed : spec.name = "" → Fault before spec .emptyResourceName
  | negative : spec.name ≠ "" → spec.weight.toInt < 0 →
      Fault before spec (.negativeWeight spec.name spec.weight)
  | duplicate : spec.name ≠ "" → 0 ≤ spec.weight.toInt →
      spec.name ∈ before.map WeightSpec.name → Fault before spec (.duplicateResource spec.name)

/-- The fault at the first position at which the list up to there stops being admissible. -/
def FirstFault (specs : List WeightSpec) (e : ConfigError) : Prop :=
  ∃ i spec, specs[i]? = some spec ∧ Admissible (specs.take i) ∧
    ¬ Admissible (specs.take (i + 1)) ∧ Fault (specs.take i) spec e

/-- The table has the entries of positive weight and no others. -/
def Holds (table : Weights) (specs : List WeightSpec) : Prop :=
  ∀ e, e ∈ table.toList ↔ ∃ s ∈ specs, 0 < s.weight.toInt ∧ e = (s.name, s.weight)

theorem Admissible.nil : Admissible [] := ⟨by simp,by simp,by simp⟩

theorem Admissible.sublist {l l' : List WeightSpec} (h : Admissible l') (hl : l.Sublist l') :
    Admissible l where
  named s hs := h.named s (hl.subset hs)
  nonneg s hs := h.nonneg s (hl.subset hs)
  distinct := h.distinct.sublist (hl.map WeightSpec.name)

theorem admissible_perm {l l' : List WeightSpec} (hl : l.Perm l') :
    Admissible l ↔ Admissible l' := by
  have himp {l l' : List WeightSpec} (hl : l.Perm l') (h : Admissible l) : Admissible l' :=
    ⟨fun s hs => h.named s (hl.mem_iff.mpr hs),fun s hs => h.nonneg s (hl.mem_iff.mpr hs),
      (hl.map WeightSpec.name).nodup_iff.mp h.distinct⟩
  exact ⟨himp hl,himp hl.symm⟩

theorem admissible_concat_iff {before : List WeightSpec} {spec : WeightSpec} :
    Admissible (before ++ [spec]) ↔ Admissible before ∧ spec.name ≠ "" ∧
      0 ≤ spec.weight.toInt ∧ spec.name ∉ before.map WeightSpec.name := by
  constructor
  · intro h
    have hspec : spec ∈ before ++ [spec] := List.mem_append_right _ List.mem_cons_self
    have hdistinct := h.distinct
    rw [List.map_append, List.map_singleton, ← List.concat_eq_append, List.nodup_concat]
      at hdistinct
    exact ⟨h.sublist (List.sublist_append_left _ _),h.named _ hspec,h.nonneg _ hspec,hdistinct.1⟩
  · rintro ⟨h,hname,hweight,hnew⟩
    refine ⟨?_,?_,?_⟩
    · simpa [or_imp, forall_and] using ⟨h.named,hname⟩
    · simpa [or_imp, forall_and] using ⟨h.nonneg,hweight⟩
    · rw [List.map_append, List.map_singleton, ← List.concat_eq_append, List.nodup_concat]
      exact ⟨hnew,h.distinct⟩

theorem holds_perm {l l' : List WeightSpec} (hl : l.Perm l') (table : Weights) :
    Holds table l ↔ Holds table l' := by
  unfold Holds
  simp only [hl.mem_iff]

theorem Holds.unique {w w' : Weights} {specs : List WeightSpec} (h : Holds w specs)
    (h' : Holds w' specs) : w = w' :=
  NameMap.eq_of_toList <| NameMap.eq_of_mem_iff w.sorted w'.sorted fun e => (h e).trans (h' e).symm

theorem Holds.isEmpty_iff {w : Weights} {specs : List WeightSpec} (h : Holds w specs) :
    w.isEmpty = false ↔ ∃ s ∈ specs, 0 < s.weight.toInt := by
  unfold NameMap.isEmpty
  rw [List.isEmpty_eq_false_iff_exists_mem]
  constructor
  · rintro ⟨e,he⟩
    obtain ⟨s,hs,hpos,_⟩ := (h e).mp he
    exact ⟨s,hs,hpos⟩
  · rintro ⟨s,hs,hpos⟩
    exact ⟨_,(h _).mpr ⟨s,hs,hpos,rfl⟩⟩

section Fault
variable {before : List WeightSpec} {seen : List String} {spec : WeightSpec}
variable (hseen : ∀ name, name ∈ seen ↔ name ∈ before.map WeightSpec.name)
include hseen

theorem fault?_eq_some_iff {e : ConfigError} : fault? seen spec = some e ↔ Fault before spec e := by
  simp only [fault?, Capped.lt_iff, Capped.toInt_zero, hseen]
  constructor
  · intro h
    split at h
    · rename_i hname
      cases h
      exact .unnamed hname
    split at h
    · rename_i hname hweight
      cases h
      exact .negative hname hweight
    split at h
    · rename_i hname hweight hold
      cases h
      exact .duplicate hname (Int.not_lt.mp hweight) hold
    · cases h
  · rintro (hname | ⟨hname,hweight⟩ | ⟨hname,hweight,hold⟩)
    · rw [if_pos hname]
    · rw [if_neg hname, if_pos hweight]
    · rw [if_neg hname, if_neg (Int.not_lt.mpr hweight), if_pos hold]

theorem fault?_eq_none_iff (h : Admissible before) :
    fault? seen spec = none ↔ Admissible (before ++ [spec]) := by
  rw [admissible_concat_iff]
  simp only [fault?, Capped.lt_iff, Capped.toInt_zero, hseen]
  split_ifs with hname hweight hold
  · exact iff_of_false nofun fun hall => hall.2.1 hname
  · exact iff_of_false nofun fun hall => absurd hweight (Int.not_lt.mpr hall.2.2.1)
  · exact iff_of_false nofun fun hall => hall.2.2.2 hold
  · exact iff_of_true rfl ⟨h,hname,Int.not_lt.mp hweight,hold⟩

end Fault

theorem Fault.unique {before : List WeightSpec} {spec : WeightSpec} {e e' : ConfigError}
    (h : Fault before spec e) (h' : Fault before spec e') : e = e' := by
  rw [← fault?_eq_some_iff fun _ => Iff.rfl] at h h'
  exact Option.some.inj (h.symm.trans h')

theorem FirstFault.not_admissible {specs : List WeightSpec} {e : ConfigError}
    (h : FirstFault specs e) : ¬ Admissible specs := by
  obtain ⟨i,_,_,_,hnot,_⟩ := h
  exact fun hall => hnot (hall.sublist (List.take_sublist _ _))

theorem FirstFault.unique {specs : List WeightSpec} {e e' : ConfigError} (h : FirstFault specs e)
    (h' : FirstFault specs e') : e = e' := by
  obtain ⟨i,spec,hspec,hbefore,hnot,hfault⟩ := h
  obtain ⟨j,spec',hspec',hbefore',hnot',hfault'⟩ := h'
  have htake {m n : ℕ} (h : m < n) : (specs.take (m + 1)).Sublist (specs.take n) :=
    (List.take_prefix_take_left h).sublist
  rcases Nat.lt_trichotomy i j with hlt | rfl | hlt
  · exact absurd (hbefore'.sublist (htake hlt)) hnot
  · rw [hspec] at hspec'
    cases hspec'
    exact hfault.unique hfault'
  · exact absurd (hbefore.sublist (htake hlt)) hnot'

theorem firstFault_append {before rest : List WeightSpec} {spec : WeightSpec} {e : ConfigError}
    (hbefore : Admissible before) (hnot : ¬ Admissible (before ++ [spec]))
    (h : Fault before spec e) : FirstFault (before ++ spec :: rest) e := by
  refine ⟨before.length,spec,?_,?_,?_,?_⟩
  · simp
  · rwa [List.take_left]
  · rwa [List.append_cons, List.take_left' (by simp)]
  · rwa [List.take_left]

/-- What is known once some entries are taken up: they are admissible, their names are seen and
those of positive weight are in the table. -/
structure Taken (before : List WeightSpec) (seen : List String) (table : Weights) : Prop where
  admissible : Admissible before
  seen : ∀ name, name ∈ seen ↔ name ∈ before.map WeightSpec.name
  table : Holds table before

theorem taken_nil : Taken [] [] ∅ := ⟨.nil,fun _ => Iff.rfl,fun e => by
  show e ∈ [] ↔ _
  simp⟩

theorem Taken.step {before : List WeightSpec} {seen : List String} {table : Weights}
    (h : Taken before seen table) {spec : WeightSpec} (hspec : fault? seen spec = none) :
    Taken (before ++ [spec]) (spec.name :: seen)
      (if spec.weight = 0 then table else table.insert spec.name spec.weight) := by
  have hall := (fault?_eq_none_iff h.seen h.admissible).mp hspec
  obtain ⟨_,_,hweight,hnew⟩ := admissible_concat_iff.mp hall
  refine ⟨hall,fun name => ?_,fun e => ?_⟩
  · rw [List.mem_cons, h.seen, List.map_append, List.mem_append, List.map_singleton,
      List.mem_singleton, or_comm]
  · have hsplit : (∃ s ∈ before ++ [spec], 0 < s.weight.toInt ∧ e = (s.name, s.weight)) ↔
        e ∈ table.toList ∨ 0 < spec.weight.toInt ∧ e = (spec.name, spec.weight) := by
      rw [h.table e]
      simp [or_and_right, exists_or]
    have hzero : spec.weight = 0 ↔ spec.weight.toInt = 0 := by
      rw [Capped.ext_iff, Capped.toInt_zero]
    rw [hsplit]
    split
    · rename_i hw
      have : ¬ 0 < spec.weight.toInt := by rw [hzero.mp hw]; exact Int.lt_irrefl 0
      simp [this]
    · rename_i hw
      have hpos : 0 < spec.weight.toInt := by rw [hzero] at hw; omega
      have hfresh : table.get? spec.name = none := by
        cases hget : table.get? spec.name with
        | none => rfl
        | some x =>
          obtain ⟨s,hs,_,he⟩ := (h.table _).mp (NameMap.get?_eq_some_iff.mp hget)
          rw [(Prod.mk.inj he).1] at hnew
          exact absurd (List.mem_map_of_mem hs) hnew
      rw [NameMap.mem_insert_iff hfresh, or_comm]
      simp [hpos]

section Collect
variable {before specs : List WeightSpec} {seen : List String} {table : Weights}

theorem collect_eq_ok_iff (h : Taken before seen table) {w : Weights} :
    collect seen table specs = .ok w ↔
      Admissible (before ++ specs) ∧ w.isEmpty = false ∧ Holds w (before ++ specs) := by
  induction specs generalizing before seen table with
  | nil =>
    rw [List.append_nil, collect]
    split
    · rename_i hempty
      refine iff_of_false nofun fun ⟨_,hw,hholds⟩ => ?_
      rw [hholds.unique h.table, hempty] at hw
      cases hw
    · rename_i hempty
      constructor
      · intro hw
        cases hw
        exact ⟨h.admissible,Bool.eq_false_iff.mpr hempty,h.table⟩
      · rintro ⟨_,_,hholds⟩
        rw [hholds.unique h.table]
  | cons spec rest ih =>
    rw [collect]
    cases hfault : fault? seen spec with
    | none =>
      have hnext := ih (h.step hfault)
      rwa [List.append_assoc, List.singleton_append] at hnext
    | some e =>
      refine iff_of_false nofun fun ⟨hall,_⟩ => ?_
      have hspec : Admissible (before ++ [spec]) := by
        rw [List.append_cons] at hall
        exact hall.sublist (List.sublist_append_left _ _)
      rw [← fault?_eq_none_iff h.seen h.admissible, hfault] at hspec
      cases hspec

theorem collect_eq_error_iff (h : Taken before seen table) {e : ConfigError} :
    collect seen table specs = .error e ↔ FirstFault (before ++ specs) e ∨
      e = .noResources ∧ Admissible (before ++ specs) ∧
        ∀ s ∈ before ++ specs, s.weight.toInt = 0 := by
  induction specs generalizing before seen table with
  | nil =>
    rw [List.append_nil, collect]
    have hnot : ¬ FirstFault before e := fun hfirst => hfirst.not_admissible h.admissible
    have hzero : table.isEmpty ↔ ∀ s ∈ before, s.weight.toInt = 0 := by
      rw [← Bool.not_eq_false, h.table.isEmpty_iff]
      simp only [not_exists, not_and, Int.not_lt]
      refine forall₂_congr fun s hs => ?_
      have hnonneg := h.admissible.nonneg s hs
      omega
    split
    · rename_i hempty
      rw [hzero] at hempty
      simp [hnot, h.admissible, eq_true hempty, eq_comm]
    · rename_i hempty
      rw [hzero] at hempty
      simp [hnot, hempty]
  | cons spec rest ih =>
    rw [collect]
    cases hfault : fault? seen spec with
    | none =>
      have hnext := ih (h.step hfault)
      rwa [List.append_assoc, List.singleton_append] at hnext
    | some e' =>
      have hspec : ¬ Admissible (before ++ [spec]) := by
        rw [← fault?_eq_none_iff h.seen h.admissible, hfault]
        exact nofun
      have hfirst : FirstFault (before ++ spec :: rest) e' :=
        firstFault_append h.admissible hspec ((fault?_eq_some_iff h.seen).mp hfault)
      constructor
      · intro he
        cases he
        exact .inl hfirst
      · rintro (he | ⟨_,hall,_⟩)
        · rw [he.unique hfirst]
        · exact absurd hall hfirst.not_admissible

end Collect

section OfSpecs
variable {specs : List WeightSpec}

theorem ofSpecs_eq_collect (hspecs : specs ≠ []) : ofSpecs specs = collect [] ∅ specs :=
  if_neg (by simpa using hspecs)

theorem ofSpecs_eq_ok_iff (hspecs : specs ≠ []) {w : Weights} :
    ofSpecs specs = .ok w ↔ Admissible specs ∧ w.isEmpty = false ∧ Holds w specs := by
  rw [ofSpecs_eq_collect hspecs, collect_eq_ok_iff taken_nil, List.nil_append]

theorem ofSpecs_eq_error_iff (hspecs : specs ≠ []) {e : ConfigError} :
    ofSpecs specs = .error e ↔ FirstFault specs e ∨
      e = .noResources ∧ Admissible specs ∧ ∀ s ∈ specs, s.weight.toInt = 0 := by
  rw [ofSpecs_eq_collect hspecs, collect_eq_error_iff taken_nil, List.nil_append]

theorem exists_ofSpecs_iff (hspecs : specs ≠ []) :
    (∃ w, ofSpecs specs = .ok w) ↔ Admissible specs ∧ ∃ s ∈ specs, 0 < s.weight.toInt := by
  constructor
  · rintro ⟨w,hw⟩
    obtain ⟨hall,hne,hholds⟩ := (ofSpecs_eq_ok_iff hspecs).mp hw
    exact ⟨hall,hholds.isEmpty_iff.mp hne⟩
  · rintro ⟨hall,s,hs,hpos⟩
    cases hspecs' : ofSpecs specs with
    | ok w => exact ⟨w,rfl⟩
    | error e =>
      rcases (ofSpecs_eq_error_iff hspecs).mp hspecs' with hfirst | ⟨_,_,hzero⟩
      · exact absurd hall hfirst.not_admissible
      · exact absurd (hzero s hs) (Int.ne_of_gt hpos)

theorem isEmpty_of_ofSpecs {w : Weights} (h : ofSpecs specs = .ok w) : w.isEmpty = false := by
  by_cases hspecs : specs = []
  · subst hspecs
    cases h
    decide +kernel
  · exact ((ofSpecs_eq_ok_iff hspecs).mp h).2.1

theorem FirstFault.ne_noResources {e : ConfigError} (h : FirstFault specs e) :
    e ≠ .noResources := by
  obtain ⟨_,_,_,_,_,hfault⟩ := h
  cases hfault <;> exact nofun

theorem ofSpecs_perm {specs' : List WeightSpec} (h : specs.Perm specs') (w : Weights) :
    ofSpecs specs = .ok w ↔ ofSpecs specs' = .ok w := by
  by_cases hspecs : specs = []
  · subst hspecs
    rw [List.nil_perm.mp h]
  · have hspecs' : specs' ≠ [] := fun hnil => hspecs (List.perm_nil.mp (hnil ▸ h))
    rw [ofSpecs_eq_ok_iff hspecs, ofSpecs_eq_ok_iff hspecs', admissible_perm h, holds_perm h]

end OfSpecs
end Weights

theorem Ranker.isEmpty_of_ofArgs {a : Args} {t : Telemetry} {r : Ranker} (h : ofArgs a t = .ok r) :
    r.scorer.weights.isEmpty = false := by
  unfold ofArgs at h
  cases hw : Weights.ofSpecs a.resources with
  | error e =>
    rw [hw] at h
    cases h
  | ok w =>
    rw [hw] at h
    cases h
    exact Weights.isEmpty_of_ofSpecs hw

namespace Weights

/-- What becomes of a list is said by its entries: which lists make a table and which table, the
same in every order, and which entry is to blame for a list that makes none. A table that is made
is never found empty later. -/
theorem ofSpecs_by_entries (specs : List WeightSpec) :
    (specs = [] → ofSpecs specs = .ok standard) ∧
    (specs ≠ [] →
      ((∃ w, ofSpecs specs = .ok w) ↔ Admissible specs ∧ ∃ s ∈ specs, 0 < s.weight.toInt) ∧
      (∀ w, ofSpecs specs = .ok w → Holds w specs) ∧
      (∀ e, e ≠ .noResources → (ofSpecs specs = .error e ↔ FirstFault specs e)) ∧
      (ofSpecs specs = .error .noResources ↔
        Admissible specs ∧ ∀ s ∈ specs, s.weight.toInt = 0)) ∧
    (∀ specs', specs.Perm specs' → ∀ w, ofSpecs specs = .ok w ↔ ofSpecs specs' = .ok w) ∧
    ∀ mode enabled t r, Ranker.ofArgs ⟨mode,specs,enabled⟩ t = .ok r →
      (∀ state c, (r.scorer.score state c).result ≠ .error .noResourcesConfigured) ∧
        ∀ s name c, (r.score s name c).result ≠ .error .noResourcesConfigured := by
  refine ⟨?_,fun hspecs => ⟨exists_ofSpecs_iff hspecs,?_,?_,?_⟩,fun _ h => ofSpecs_perm h,?_⟩
  · rintro rfl
    rfl
  · intro w hw
    exact ((ofSpecs_eq_ok_iff hspecs).mp hw).2.2
  · intro e he
    rw [ofSpecs_eq_error_iff hspecs]
    exact ⟨fun h => h.resolve_right fun hzero => he hzero.1,.inl⟩
  · rw [ofSpecs_eq_error_iff hspecs]
    exact ⟨fun h => (h.resolve_left fun hfirst => hfirst.ne_noResources rfl).2,fun h => .inr ⟨rfl,h⟩⟩
  · intro mode enabled t r hr
    have hscorer := Scorer.result_ne_noResourcesConfigured (Ranker.isEmpty_of_ofArgs hr)
    refine ⟨hscorer,fun s name c => ?_⟩
    unfold Ranker.score
    cases s.get? name with
    | none => exact nofun
    | some state => exact hscorer state c

/-- A weight of zero does not free the name for a second entry, but a negative weight there is
reported before the name is. The entry without a name comes too late. -/
example : ofSpecs [⟨"cpu",0⟩, ⟨"memory",1⟩, ⟨"cpu",.ofInt 63 (-1)⟩, ⟨"",1⟩] =
    .error (.negativeWeight "cpu" (.ofInt 63 (-1))) := by rfl

end Weights
end NodeRank
