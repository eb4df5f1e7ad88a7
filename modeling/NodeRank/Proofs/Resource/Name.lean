import NodeRank.Resource.Name
import NodeRank.Proofs.Text.Cut
import Mathlib.Data.List.Infix

/-! # Names of scalar resources

The names of scalar resources have a grammar: three ways in which a name may start, and extended
names `domain/local`. All names of the grammar count as scalar, and so does one more family of
names, the `Stray` ones, in which the native domain stands farther inside.
-/
namespace NodeRank.ResourceName

/-- The native domain with the slash behind it. -/
def nativeDomain : List Char := "kubernetes.io/".toList

/-- A name `domain/local` with one slash and text on both sides of it. The domain is not the native
one, and the name is not that of a quota on requests. -/
structure Extended (name : String) : Prop where
  parts : ∃ domain rest, name.toList = domain ++ '/' :: rest ∧ '/' ∉ domain ∧ '/' ∉ rest ∧
    domain ≠ [] ∧ rest ≠ [] ∧ domain ++ ['/'] ≠ nativeDomain
  not_quota : ¬ "requests.".toList <+: name.toList

/-- The grammar of the names of scalar resources. -/
inductive Scalar (name : String) : Prop
  | hugePage (h : "hugepages-".toList <+: name.toList)
  | attachableVolume (h : "attachable-volumes-".toList <+: name.toList)
  | native (h : nativeDomain <+: name.toList)
  | extended (h : Extended name)

/-- A name outside the grammar in which the native domain stands farther inside: that of a quota on
requests, or one with a second slash, or one with nothing behind its slash. -/
structure Stray (name : String) : Prop where
  inside : nativeDomain <:+: name.toList
  not_native : ¬ nativeDomain <+: name.toList
  not_hugePage : ¬ "hugepages-".toList <+: name.toList
  not_volume : ¬ "attachable-volumes-".toList <+: name.toList
  shape : "requests.".toList <+: name.toList ∨ 2 ≤ name.toList.count '/' ∨ ['/'] <:+ name.toList

instance (name : String) : Decidable (Stray name) :=
  decidable_of_iff (nativeDomain <:+: name.toList ∧ ¬ nativeDomain <+: name.toList ∧
      ¬ "hugepages-".toList <+: name.toList ∧ ¬ "attachable-volumes-".toList <+: name.toList ∧
      ("requests.".toList <+: name.toList ∨ 2 ≤ name.toList.count '/' ∨ ['/'] <:+ name.toList))
    ⟨fun ⟨h,h',hpage,hvolume,hshape⟩ => ⟨h,h',hpage,hvolume,hshape⟩,
      fun ⟨h,h',hpage,hvolume,hshape⟩ => ⟨h,h',hpage,hvolume,hshape⟩⟩

variable {name : String}

theorem holds_iff {part cs : List Char} : holds part cs ↔ part <:+: cs := by
  induction cs with
  | nil => simp [holds]
  | cons c cs ih => rw [holds, Bool.or_eq_true, List.isPrefixOf_iff_prefix, ih, List.infix_cons_iff]

theorem startsWith_iff {start : String} : startsWith start name ↔ start.toList <+: name.toList :=
  List.isPrefixOf_iff_prefix

theorem isPrefixedNative_iff : isPrefixedNative name ↔ nativeDomain <:+: name.toList := holds_iff

/-- A name is taken apart at its first slash. -/
theorem eq_parts {domain rest : List Char} (h : name.toList = domain ++ '/' :: rest)
    (hdomain : '/' ∉ domain) :
    name.toList.takeWhile (· != '/') = domain ∧
      (name.toList.dropWhile (· != '/')).drop 1 = rest := by
  have hcut : Text.Cut (· != '/') name.toList domain ('/' :: rest) := by
    refine ⟨h.symm,fun c hc => ?_,by simp⟩
    rw [bne_iff_ne]
    rintro rfl
    exact hdomain hc
  obtain ⟨htake,hdrop⟩ := Text.cut_iff.mp hcut
  exact ⟨htake.symm,by rw [← hdrop, List.drop_one, List.tail_cons]⟩

/-- The test for extended names passes those of the grammar that do not hold the native domain. -/
theorem isExtended_iff : isExtended name ↔ Extended name ∧ ¬ nativeDomain <:+: name.toList := by
  have hnative : (!isNative name) = true ↔ '/' ∈ name.toList ∧ ¬ nativeDomain <:+: name.toList := by
    unfold isNative
    rw [← isPrefixedNative_iff]
    simp
  unfold isExtended
  simp only [Bool.and_eq_true, hnative, Bool.not_eq_true', ← Bool.not_eq_true, startsWith_iff,
    List.isEmpty_iff, List.contains_iff_mem]
  constructor
  · rintro ⟨⟨⟨⟨⟨hslash,hnative⟩,hquota⟩,hne⟩,hne'⟩,hrest⟩
    obtain ⟨domain,rest,happend,hdomain⟩ := List.eq_append_cons_of_mem hslash
    obtain ⟨htake,hdrop⟩ := eq_parts happend hdomain
    rw [htake] at hne
    rw [hdrop] at hne' hrest
    refine ⟨⟨⟨domain,rest,happend,hdomain,hrest,hne,hne',?_⟩,hquota⟩,hnative⟩
    intro heq
    apply hnative
    rw [happend, ← heq]
    exact ⟨[],rest,by simp⟩
  · rintro ⟨⟨⟨domain,rest,happend,hdomain,hrest,hne,hne',_⟩,hquota⟩,hnative⟩
    obtain ⟨htake,hdrop⟩ := eq_parts happend hdomain
    have hslash : '/' ∈ name.toList := by simp [happend]
    rw [htake, hdrop]
    exact ⟨⟨⟨⟨⟨hslash,hnative⟩,hquota⟩,hne⟩,hne'⟩,hrest⟩

/-- What counts as scalar is the grammar, with the native domain anywhere instead of in front. -/
theorem isScalar_iff : isScalar name ↔ Scalar name ∨ nativeDomain <:+: name.toList := by
  unfold isScalar isHugePage isAttachableVolume
  rw [Bool.or_eq_true, Bool.or_eq_true, Bool.or_eq_true, isExtended_iff, isPrefixedNative_iff,
    startsWith_iff, startsWith_iff]
  constructor
  · rintro (((h | h) | h) | h)
    · exact .inl (.extended h.1)
    · exact .inl (.hugePage h)
    · exact .inr h
    · exact .inl (.attachableVolume h)
  · rintro (h | h)
    · by_cases hinside : nativeDomain <:+: name.toList
      · exact .inl (.inr hinside)
      cases h with
      | hugePage h => exact .inl (.inl (.inr h))
      | attachableVolume h => exact .inr h
      | native h => exact absurd h.isInfix hinside
      | extended h => exact .inl (.inl (.inl ⟨h,hinside⟩))
    · exact .inl (.inr h)

/-- A name with its only slash behind the native domain has a longer domain, of which that is the
end. -/
theorem extended_of_inside (h : nativeDomain <:+: name.toList)
    (hnative : ¬ nativeDomain <+: name.toList)
    (hshape : ¬ ("requests.".toList <+: name.toList ∨ 2 ≤ name.toList.count '/' ∨
      ['/'] <:+ name.toList)) : Extended name := by
  obtain ⟨hquota,hcount,hlast⟩ : ¬ "requests.".toList <+: name.toList ∧
      ¬ 2 ≤ name.toList.count '/' ∧ ¬ ['/'] <:+ name.toList := by simpa [not_or] using hshape
  obtain ⟨front,back,happend⟩ := h
  have hdomain : nativeDomain = "kubernetes.io".toList ++ ['/'] := rfl
  have hparts : name.toList = (front ++ "kubernetes.io".toList) ++ '/' :: back := by
    rw [← happend, hdomain]
    simp
  have hslashes : front.count '/' + (1 + back.count '/') = name.toList.count '/' := by
    rw [hparts, List.count_append, List.count_append, List.count_cons_self,
      show "kubernetes.io".toList.count '/' = 0 by decide]
    omega
  have hfront : front ≠ [] := by
    rintro rfl
    exact hnative ⟨back,happend⟩
  refine ⟨⟨front ++ "kubernetes.io".toList,back,hparts,?_,?_,by simp [hfront],?_,?_⟩,hquota⟩
  · rw [List.mem_append, not_or]
    exact ⟨List.count_eq_zero.mp (by omega),by decide⟩
  · exact List.count_eq_zero.mp (by omega)
  · rintro rfl
    exact hlast ⟨_,hparts.symm⟩
  · intro heq
    apply hfront
    rw [hdomain, List.append_cancel_right_eq] at heq
    exact List.append_left_eq_self.mp heq

theorem Extended.count_slash (h : Extended name) : name.toList.count '/' = 1 := by
  obtain ⟨domain,rest,happend,hdomain,hrest,_⟩ := h.parts
  rw [happend, List.count_append, List.count_cons_self, List.count_eq_zero.mpr hdomain,
    List.count_eq_zero.mpr hrest]

theorem Extended.not_slash_last (h : Extended name) : ¬ ['/'] <:+ name.toList := by
  obtain ⟨domain,rest,happend,_,hrest,_,hne,_⟩ := h.parts
  intro hlast
  have hsuffix : ['/'] <:+ rest := by
    have hlength : ['/'].length ≤ rest.length := List.length_pos_iff.mpr hne
    refine List.suffix_of_suffix_length_le hlast ?_ hlength
    rw [happend]
    exact ⟨domain ++ ['/'],by simp⟩
  exact hrest (hsuffix.subset List.mem_cons_self)

theorem Stray.not_scalar (h : Stray name) : ¬ Scalar name := by
  intro hscalar
  cases hscalar with
  | hugePage h' => exact h.not_hugePage h'
  | attachableVolume h' => exact h.not_volume h'
  | native h' => exact h.not_native h'
  | extended h' =>
    rcases h.shape with hquota | hslashes | hlast
    · exact h'.not_quota hquota
    · rw [h'.count_slash] at hslashes
      omega
    · exact h'.not_slash_last hlast

theorem scalar_or_stray_of_inside (h : nativeDomain <:+: name.toList) :
    Scalar name ∨ Stray name := by
  by_cases hnative : nativeDomain <+: name.toList
  · exact .inl (.native hnative)
  by_cases hpage : "hugepages-".toList <+: name.toList
  · exact .inl (.hugePage hpage)
  by_cases hvolume : "attachable-volumes-".toList <+: name.toList
  · exact .inl (.attachableVolume hvolume)
  by_cases hshape : "requests.".toList <+: name.toList ∨ 2 ≤ name.toList.count '/' ∨
      ['/'] <:+ name.toList
  · exact .inr ⟨h,hnative,hpage,hvolume,hshape⟩
  · exact .inl (.extended (extended_of_inside h hnative hshape))

/-- The names that count as scalar are those of the grammar and the stray ones, which it does not
have. -/
theorem isScalar_iff_scalar_or_stray (name : String) :
    (isScalar name ↔ Scalar name ∨ Stray name) ∧
      ((isScalar name ↔ Scalar name) ↔ ¬ Stray name) := by
  have hiff : isScalar name ↔ Scalar name ∨ Stray name := by
    rw [isScalar_iff]
    constructor
    · rintro (h | h)
      · exact .inl h
      · exact scalar_or_stray_of_inside h
    · rintro (h | h)
      · exact .inl h
      · exact .inr h.inside
  refine ⟨hiff,?_⟩
  constructor
  · intro h hstray
    exact hstray.not_scalar (h.mp (hiff.mpr (.inr hstray)))
  · intro hstray
    rw [hiff, or_iff_left hstray]

theorem Stray.isScalar_and_not_scalar (h : Stray name) : isScalar name ∧ ¬ Scalar name :=
  ⟨isScalar_iff.mpr (.inr h.inside),h.not_scalar⟩

/-- Names outside the grammar that count as scalar: of a quota on requests, with two slashes, and
with no text behind the slash. -/
theorem not_scalar_of_native_inside :
    (isScalar "requests.kubernetes.io/foo" ∧ ¬ Scalar "requests.kubernetes.io/foo") ∧
      (isScalar "example.com/kubernetes.io/foo" ∧ ¬ Scalar "example.com/kubernetes.io/foo") ∧
      (isScalar "my-kubernetes.io/" ∧ ¬ Scalar "my-kubernetes.io/") := by
  have hquota : Stray "requests.kubernetes.io/foo" := by decide
  have hslashes : Stray "example.com/kubernetes.io/foo" := by decide
  have hlast : Stray "my-kubernetes.io/" := by decide
  exact ⟨hquota.isScalar_and_not_scalar,hslashes.isScalar_and_not_scalar,
    hlast.isScalar_and_not_scalar⟩

end NodeRank.ResourceName
