import NodeRank.Uuid
import NodeRank.Proofs.Json.Record
import Mathlib.Algebra.GroupWithZero.Nat

/-! # Identifiers read back

An identifier is written with hyphens between the groups of its digits, and is read as itself.
-/
namespace NodeRank.Uuid

theorem length_hyphenate (n : Nat) (ns : List Nat) (cs : List Char) :
    (hyphenate (n :: ns) cs).length = cs.length + ns.length := by
  induction ns generalizing n cs with
  | nil => rfl
  | cons m ns ih =>
    rw [hyphenate, List.length_append, List.length_cons, ih, List.length_take, List.length_drop,
      List.length_cons]
    · omega
    · simp

/-- Hyphens are taken out again where they have been put between groups that are long enough. -/
theorem unhyphenate?_hyphenate {ns : List Nat} {cs : List Char} (h : ns.sum ≤ cs.length) :
    unhyphenate? ns (hyphenate ns cs) = some cs := by
  induction ns generalizing cs with
  | nil => rfl
  | cons n ns ih =>
    cases ns with
    | nil => rfl
    | cons m ns =>
      rw [List.sum_cons] at h
      have htake : (cs.take n).length = n := List.length_take_of_le (by omega)
      have hrest : unhyphenate? (m :: ns) (hyphenate (m :: ns) (cs.drop n)) = some (cs.drop n) :=
        ih (by rw [List.length_drop]; omega)
      rw [hyphenate, unhyphenate?, List.drop_left' htake, List.take_left' htake]
      · change (unhyphenate? (m :: ns) (hyphenate (m :: ns) (cs.drop n))).map _ = _
        rw [hrest, Option.map_some, List.take_append_drop]
      · simp
      · simp

theorem ofDigits?_map_digitChar (u : Uuid) : ofDigits? (u.digits.map digitChar) = some u := by
  have hdigits : (u.digits.map digitChar).mapM digit? = some u.digits :=
    Json.mapM_map fun d _ => digit?_digitChar d
  unfold ofDigits?
  rw [hdigits]
  exact dif_pos u.length_eq

theorem parse?_render (u : Uuid) : parse? u.render = some u := by
  have hlength : (u.digits.map digitChar).length = 32 := (List.length_map _).trans u.length_eq
  have hhyphens : (hyphenate groups (u.digits.map digitChar)).length = 36 :=
    (length_hyphenate 8 [4, 4, 4, 12] _).trans (by rw [hlength]; rfl)
  have hbare : bare (hyphenate groups (u.digits.map digitChar)) =
      hyphenate groups (u.digits.map digitChar) := by
    unfold bare
    rw [hhyphens]
    rfl
  unfold parse? render
  rw [String.toList_ofList]
  dsimp only
  rw [hhyphens, hbare, unhyphenate?_hyphenate (by rw [hlength]; decide)]
  exact ofDigits?_map_digitChar u

end NodeRank.Uuid
