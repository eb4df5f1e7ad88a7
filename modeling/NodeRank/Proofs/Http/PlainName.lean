import NodeRank.Proofs.Http.Target

/-! # Plain names

A name behind the last slash of a URL is not always the last segment of its target. Blanks at the
end of the name and line breaks in it are lost, the path ends within it where a question or a
fragment begins, its slashes begin segments of their own, and dots are resolved. A name that is none
of these and that has no percent sign before two digits is plain, and only such a name is what the
last segment stands for.
-/
namespace NodeRank.Http
open Text

/-- The segment that a name ends in. -/
def ownSegment (name : List Char) : List Char :=
  ((cleanedEnd name).takeWhile (!endsPath ·)).rtakeWhile (!isSlash ·)

/-- The part of a name that the last segment of a target is left with. -/
def lastPart (name : List Char) : List Char := settled (ownSegment name)

theorem cleanedEnd_sublist (name : List Char) : (cleanedEnd name).Sublist name :=
  List.filter_sublist.trans (List.rdropWhile_prefix _ _).sublist

theorem ownSegment_sublist (name : List Char) :
    (ownSegment name).Sublist ((cleanedEnd name).takeWhile (!endsPath ·)) :=
  (List.rtakeWhile_suffix _ _).sublist

theorem lastPart_sublist (name : List Char) : (lastPart name).Sublist name := by
  unfold lastPart settled
  split_ifs
  · exact List.nil_sublist name
  · exact (ownSegment_sublist name).trans
      ((List.takeWhile_sublist _).trans (cleanedEnd_sublist name))

theorem slash_notMem_lastPart (name : List Char) : '/' ∉ lastPart name := by
  unfold lastPart settled
  split_ifs
  · exact List.not_mem_nil
  · intro h
    exact absurd (List.mem_rtakeWhile_imp h) (by decide)

/-- Whatever the path before a name, the last segment is what is left of the name. -/
theorem lastSegment_append_slash {xs path : List Char} (h : pathOf? (cleanedStart xs) = some path)
    (name : List Char) :
    (target? (String.ofList (xs ++ '/' :: name))).map lastSegment =
      some (unescape (lastPart name)) := by
  obtain ⟨init,hinit⟩ :=
    splitOnP_eq_concat isSlash ((cleanedEnd name).takeWhile (!endsPath ·))
  rw [target?_append_slash h, renderPath_append_slash, hinit, ← List.append_assoc]
  obtain ⟨segments,hsegments⟩ := resolve_concat [] (segmentsOf path ++ init) (ownSegment name)
  rw [← ownSegment, hsegments, Option.map_some]
  exact congrArg some (lastSegment_render (slash_notMem_lastPart name) segments _)

/-- A name of which nothing is read as a part of a URL. -/
structure Plain (name : List Char) : Prop where
  noSlash : ∀ c ∈ name, isSlash c = false
  noEnd : ∀ c ∈ name, endsPath c = false
  noBreak : ∀ c ∈ name, isKept c
  noBlank : ∀ c ∈ name.getLast?, isOutside c = false
  noDot : isDot name = false
  noDoubleDot : isDoubleDot name = false
  literal : Literal name

theorem plain_iff_all {name : List Char} :
    Plain name ↔
      (name.all fun c => !isSlash c && !endsPath c && isKept c) ∧
        name.getLast?.all (!isOutside ·) ∧ !isDot name ∧ !isDoubleDot name ∧ Literal name := by
  simp only [List.all_eq_true, Option.all_eq_true, Bool.and_eq_true, Bool.not_eq_true']
  constructor
  · intro h
    exact ⟨fun c hc => ⟨⟨h.noSlash c hc,h.noEnd c hc⟩,h.noBreak c hc⟩,
      fun c hc => h.noBlank c hc,h.noDot,h.noDoubleDot,h.literal⟩
  · rintro ⟨hall,hblank,hdot,hdouble,hliteral⟩
    exact ⟨fun c hc => (hall c hc).1.1,fun c hc => (hall c hc).1.2,fun c hc => (hall c hc).2,
      fun c hc => hblank c hc,hdot,hdouble,hliteral⟩

instance (name : List Char) : Decidable (Plain name) := decidable_of_iff _ plain_iff_all.symm

example : Plain "n1".toList ∧ Plain "50%".toList ∧ ¬ Plain "n%31".toList := by decide

theorem rdropWhile_isOutside_eq_iff {name : List Char} :
    name.rdropWhile isOutside = name ↔ ∀ c ∈ name.getLast?, isOutside c = false := by
  rw [List.rdropWhile_eq_self_iff]
  by_cases hnil : name = []
  · simp [hnil]
  · simp [List.getLast?_eq_some_getLast hnil, hnil]

theorem cleanedEnd_eq_iff {name : List Char} :
    cleanedEnd name = name ↔
      (∀ c ∈ name, isKept c) ∧ ∀ c ∈ name.getLast?, isOutside c = false := by
  constructor
  · intro h
    have hsub : name.Sublist (name.rdropWhile isOutside) := by
      nth_rewrite 1 [← h]
      exact List.filter_sublist
    have hdrop := (List.rdropWhile_prefix isOutside name).sublist.antisymm hsub
    rw [cleanedEnd, hdrop] at h
    exact ⟨List.filter_eq_self.mp h,rdropWhile_isOutside_eq_iff.mp hdrop⟩
  · rintro ⟨hkept,hblank⟩
    rw [cleanedEnd, rdropWhile_isOutside_eq_iff.mpr hblank]
    exact List.filter_eq_self.mpr hkept

theorem Plain.cleanedEnd_eq {name : List Char} (h : Plain name) : cleanedEnd name = name :=
  cleanedEnd_eq_iff.mpr ⟨h.noBreak,h.noBlank⟩

theorem Plain.cut {name : List Char} (h : Plain name) : Cut (!endsPath ·) name name [] :=
  ⟨List.append_nil name,fun c hc => by simp [h.noEnd c hc],by simp⟩

theorem ownSegment_eq_iff {name : List Char} :
    ownSegment name = name ↔
      cleanedEnd name = name ∧ (∀ c ∈ name, endsPath c = false) ∧
        ∀ c ∈ name, isSlash c = false := by
  constructor
  · intro h
    have hseg := ownSegment_sublist name
    have htake : ((cleanedEnd name).takeWhile (!endsPath ·)).Sublist (cleanedEnd name) :=
      List.takeWhile_sublist _
    rw [h] at hseg
    have hclean := (cleanedEnd_sublist name).antisymm (hseg.trans htake)
    rw [hclean] at hseg htake
    have htaken := htake.antisymm hseg
    rw [ownSegment, hclean, htaken] at h
    exact ⟨hclean,fun c hc => by simpa using List.takeWhile_eq_self_iff.mp htaken c hc,
      fun c hc => by simpa using List.rtakeWhile_eq_self_iff.mp h c hc⟩
  · rintro ⟨hclean,hend,hslash⟩
    rw [ownSegment, hclean, List.takeWhile_eq_self_iff.mpr fun c hc => by simp [hend c hc]]
    exact List.rtakeWhile_eq_self_iff.mpr fun c hc => by simp [hslash c hc]

theorem lastPart_eq_iff {name : List Char} :
    lastPart name = name ↔
      ownSegment name = name ∧ isDot name = false ∧ isDoubleDot name = false := by
  unfold lastPart settled
  constructor
  · intro h
    split_ifs at h with hdots
    · subst h
      exact absurd hdots (by decide)
    · rw [h, Bool.or_eq_true, not_or, Bool.not_eq_true, Bool.not_eq_true] at hdots
      exact ⟨h,hdots.2,hdots.1⟩
  · rintro ⟨h,hdot,hdouble⟩
    rw [h, hdot, hdouble]
    rfl

/-- All of a name is left exactly if the name is plain but for percent signs. -/
theorem plain_iff {name : List Char} : Plain name ↔ lastPart name = name ∧ Literal name := by
  rw [lastPart_eq_iff, ownSegment_eq_iff, cleanedEnd_eq_iff]
  constructor
  · intro h
    exact ⟨⟨⟨⟨h.noBreak,h.noBlank⟩,h.noEnd,h.noSlash⟩,h.noDot,h.noDoubleDot⟩,h.literal⟩
  · rintro ⟨⟨⟨⟨hbreak,hblank⟩,hend,hslash⟩,hdot,hdouble⟩,hliteral⟩
    exact ⟨hslash,hend,hbreak,hblank,hdot,hdouble,hliteral⟩

/-- A plain name is sent as the last segment, behind the whole path. -/
theorem target?_of_plain {xs path name : List Char} (h : pathOf? (cleanedStart xs) = some path)
    (hname : Plain name) :
    target? (String.ofList (xs ++ '/' :: name)) =
      some (String.ofList (sentPath path ++ '/' :: escape isEscapedInPath name)) := by
  rw [target?_append_slash h, hname.cleanedEnd_eq, ← (cut_iff.mp hname.cut).1,
    queryOf_of_forall hname.noEnd, List.append_nil, renderPath_append_slash,
    List.splitOnP_eq_singleton hname.noSlash,
    resolve_concat_of_not_dots _ _ hname.noDot hname.noDoubleDot]
  simp [sentPath, render]

/-- What a fragment behind a plain name says is not sent. -/
theorem target?_append_fragment {xs path name : List Char}
    (h : pathOf? (cleanedStart xs) = some path) (hname : Plain name) (cs : List Char) :
    target? (String.ofList (xs ++ '/' :: (name ++ '#' :: cs))) =
      target? (String.ofList (xs ++ '/' :: name)) := by
  have hfragment : cleanedEnd (name ++ '#' :: cs) = name ++ '#' :: cleanedEnd cs := by
    unfold cleanedEnd
    rw [rdropWhile_append_cons (by decide), List.filter_append,
      List.filter_cons_of_pos (by decide), List.filter_eq_self.mpr hname.noBreak]
  obtain ⟨htake,hdrop⟩ := cut_iff.mp (hname.cut.append_cons (c := '#') (by decide) (cleanedEnd cs))
  have hquery : queryOf (name ++ '#' :: cleanedEnd cs) = [] := by
    simp [queryOf, ← hdrop]
  rw [target?_append_slash h, target?_append_slash h, hname.cleanedEnd_eq, hfragment, ← htake,
    hquery, ← (cut_iff.mp hname.cut).1, queryOf_of_forall hname.noEnd]

/-- What is left of a name stands for the octets of the name exactly if the name is plain. -/
theorem unescape_lastPart_iff {name : List Char} :
    unescape (lastPart name) = name.flatMap octets ↔ Plain name :=
  (unescape_eq_octets_iff (lastPart_sublist name)).trans plain_iff.symm

end NodeRank.Http
