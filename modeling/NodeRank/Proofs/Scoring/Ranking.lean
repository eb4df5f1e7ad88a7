import NodeRank.Proofs.Text.ByteOrder
import NodeRank.Scoring.Ranker

/-! # The ranking of a shortlist

A ranking holds the scored nodes of a shortlist, each as often as the shortlist does, by score and
then by name. Such a list is determined by how often it holds each entry, so neither the order of
the shortlist nor what else is in it or in the snapshot makes a difference to an entry.
-/
namespace NodeRank.Ranker

theorem entry?_eq_some_iff {r : Ranker} {s : Snapshot} {c : Cancellation} {name : String}
    {e : Ranked} :
    r.entry? s c name = some e ↔ name = e.name ∧ (r.score s e.name c).result = .ok e.score := by
  unfold entry?
  constructor
  · intro h
    cases hresult : (r.score s name c).result with
    | error cause => simp [hresult] at h
    | ok score =>
      simp only [hresult, Option.some.injEq] at h
      subst h
      exact ⟨rfl,hresult⟩
  · rintro ⟨rfl,hresult⟩
    rw [hresult]

theorem best_perm (r : Ranker) (s : Snapshot) (names : List String) (c : Cancellation) :
    (r.rank s names c).best.Perm (names.filterMap (r.entry? s c)) := List.mergeSort_perm _ _

theorem best_sorted (r : Ranker) (s : Snapshot) (names : List String) (c : Cancellation) :
    (r.rank s names c).best.Pairwise fun a b => a.precedes b := by
  apply List.pairwise_mergeSort
  · intro a b c
    exact Ranked.precedes_trans
  · exact Ranked.precedes_total

/-- Rankings with the same entries are the same. -/
theorem best_eq_of_perm {r r' : Ranker} {s s' : Snapshot} {names names' : List String}
    {c c' : Cancellation} (h : (r.rank s names c).best.Perm (r'.rank s' names' c').best) :
    (r.rank s names c).best = (r'.rank s' names' c').best :=
  h.eq_of_pairwise (fun _ _ _ _ => Ranked.eq_of_precedes) (r.best_sorted s names c)
    (r'.best_sorted s' names' c')

theorem best_perm_shortlist (r : Ranker) (s : Snapshot) {names names' : List String}
    (h : names.Perm names') (c : Cancellation) :
    (r.rank s names c).best = (r.rank s names' c).best := by
  apply best_eq_of_perm
  have hentries := h.filterMap (r.entry? s c)
  exact (r.best_perm s names c).trans (hentries.trans (r.best_perm s names' c).symm)

/-- An entry is there once for each time that the shortlist names a node with that score. -/
theorem count_best {r : Ranker} {s : Snapshot} {c : Cancellation} {e : Ranked}
    (h : (r.score s e.name c).result = .ok e.score) (names : List String) :
    (r.rank s names c).best.count e = names.count e.name := by
  rw [(r.best_perm s names c).count_eq, List.count_filterMap, List.count]
  apply List.countP_congr
  intro name _
  rw [beq_iff_eq, beq_iff_eq, entry?_eq_some_iff]
  exact ⟨And.left,fun hname => ⟨hname,h⟩⟩

theorem count_best_of_ne {r : Ranker} {s : Snapshot} {c : Cancellation} {e : Ranked}
    (h : (r.score s e.name c).result ≠ .ok e.score) (names : List String) :
    (r.rank s names c).best.count e = 0 := by
  rw [(r.best_perm s names c).count_eq, List.count_filterMap, List.countP_eq_zero]
  intro name _ hentry
  exact h (entry?_eq_some_iff.mp (beq_iff_eq.mp hentry)).2

theorem score_eq_of_get? (r : Ranker) {s s' : Snapshot} {name : String}
    (h : s'.get? name = s.get? name) (c : Cancellation) : r.score s' name c = r.score s name c := by
  unfold score
  rw [h]

/-- An entry depends on its own node and on how often that is asked for, and on nothing else. -/
theorem count_best_congr (r : Ranker) {s s' : Snapshot} {names names' : List String} {e : Ranked}
    (hget : s'.get? e.name = s.get? e.name) (hcount : names'.count e.name = names.count e.name)
    (c : Cancellation) : (r.rank s' names' c).best.count e = (r.rank s names c).best.count e := by
  have hscore := r.score_eq_of_get? hget c
  by_cases h : (r.score s e.name c).result = .ok e.score
  · rw [count_best h, count_best (hscore ▸ h), hcount]
  · rw [count_best_of_ne h, count_best_of_ne (hscore ▸ h)]

theorem score_beforehand (r : Ranker) (s : Snapshot) (name : String) (score : Int) :
    (r.score s name .beforehand).result ≠ .ok score := by
  unfold Ranker.score
  cases s.get? name with
  | none => exact nofun
  | some state =>
    simp only [Scorer.score, Cancellation.isBeforehand]
    split
    · exact nofun
    · exact nofun

/-- The ranking of a shortlist is the ordered list of the scores that its nodes get one by one. -/
theorem rank_sorted_image (r : Ranker) (s : Snapshot) (names : List String) (c : Cancellation) :
    let best := (r.rank s names c).best
    best.Pairwise (fun a b => b.score < a.score ∨
      a.score = b.score ∧ Text.bytes a.name ≤ Text.bytes b.name) ∧
    (∀ e : Ranked, (r.score s e.name c).result = .ok e.score →
      best.count e = names.count e.name) ∧
    (∀ e : Ranked, (r.score s e.name c).result ≠ .ok e.score → best.count e = 0) ∧
    (∀ names', names.Perm names' → (r.rank s names' c).best = best) ∧
    (∀ (s' : Snapshot) names' (e : Ranked), s'.get? e.name = s.get? e.name →
      names'.count e.name = names.count e.name → (r.rank s' names' c).best.count e = best.count e) ∧
    (c = .beforehand → best = []) := by
  intro best
  refine ⟨?_,fun e h => count_best h names,fun e h => count_best_of_ne h names,?_,?_,?_⟩
  · apply (r.best_sorted s names c).imp
    intro a b hab
    rwa [Ranked.precedes_iff, Text.le_iff_bytes_le] at hab
  · intro names' hnames
    exact (r.best_perm_shortlist s hnames c).symm
  · intro s' names' e hget hcount
    exact r.count_best_congr hget hcount c
  · rintro rfl
    rw [List.eq_nil_iff_forall_not_mem]
    intro e he
    have hzero := count_best_of_ne (r.score_beforehand s e.name e.score) names
    exact List.count_eq_zero.mp hzero he

end NodeRank.Ranker
