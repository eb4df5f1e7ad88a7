import NodeRank.Http.Target
import NodeRank.Proofs.Http.Percent
import NodeRank.Proofs.Text.Cut
import Mathlib.Data.List.DropRight
import Mathlib.Data.List.Infix

/-! # Targets segment by segment

What stands behind a slash of a URL is read by itself: nothing in it reaches back to the scheme, the
server or the blanks in front. It is the rest of the path up to where a question or a fragment
begins, and its segments follow those of the path before it, which dots may take away again.
-/
namespace NodeRank.Http

open Text

theorem dropWhile_append_cons {p : Char → Bool} {c : Char} (hc : ¬ p c) (xs ys : List Char) :
    (xs ++ c :: ys).dropWhile p = xs.dropWhile p ++ c :: ys :=
  (cut_iff.mp ((cut_while p xs).append_cons hc ys)).2.symm

theorem rdropWhile_append_cons {p : Char → Bool} {c : Char} (hc : ¬ p c) (xs ys : List Char) :
    (xs ++ c :: ys).rdropWhile p = xs ++ c :: ys.rdropWhile p := by
  unfold List.rdropWhile
  rw [List.reverse_append, List.reverse_cons, List.append_assoc, List.singleton_append,
    dropWhile_append_cons hc]
  simp

/-! ## Blanks and line breaks -/

def isOutside (c : Char) : Bool := c.toNat ≤ 0x20

def isKept (c : Char) : Bool := c != '\t' && c != '\n' && c != '\r'

/-- What is left of the start of a URL. -/
def cleanedStart (cs : List Char) : List Char := (cs.dropWhile isOutside).filter isKept

/-- What is left of the end of a URL. -/
def cleanedEnd (cs : List Char) : List Char := (cs.rdropWhile isOutside).filter isKept

theorem cleanedStart_append_slash (xs ys : List Char) :
    cleanedStart (xs ++ '/' :: ys) = cleanedStart xs ++ '/' :: ys.filter isKept := by
  unfold cleanedStart
  rw [dropWhile_append_cons (by decide), List.filter_append, List.filter_cons_of_pos (by decide)]

theorem cleaned_append_slash (xs ys : List Char) :
    cleaned (xs ++ '/' :: ys) = cleanedStart xs ++ '/' :: cleanedEnd ys := by
  calc cleaned (xs ++ '/' :: ys)
      = (((xs ++ '/' :: ys).dropWhile isOutside).rdropWhile isOutside).filter isKept := rfl
    _ = cleanedStart xs ++ '/' :: cleanedEnd ys := by
        rw [dropWhile_append_cons (by decide), rdropWhile_append_cons (by decide),
          List.filter_append, List.filter_cons_of_pos (by decide)]
        rfl

theorem cleanedEnd_append_blank (cs : List Char) : cleanedEnd (cs ++ [' ']) = cleanedEnd cs := by
  unfold cleanedEnd
  rw [List.rdropWhile_concat_pos _ _ _ (by decide)]

/-! ## Scheme and server -/

/-- What follows the scheme and the slashes behind it does not reach into them. -/
theorem afterScheme?_append {cs rest : List Char} (h : afterScheme? cs = some rest)
    (hne : rest ≠ []) (zs : List Char) : afterScheme? (cs ++ zs) = some (rest ++ zs) := by
  have hcolon : ':' ∈ cs := by
    by_contra hcolon
    have hall : ∀ c ∈ cs, (c != ':') = true := fun c hc => by
      simpa using ne_of_mem_of_not_mem hc hcolon
    have hdrop := List.dropWhile_eq_nil_iff.mpr hall
    simp only [afterScheme?, hdrop] at h
    split_ifs at h
    exact hne (Option.some.inj h).symm
  obtain ⟨scheme,xs,rfl,hscheme⟩ := List.eq_append_cons_of_mem hcolon
  have hcut (ys : List Char) : Cut (· != ':') (scheme ++ ':' :: ys) scheme (':' :: ys) :=
    ⟨rfl,fun c hc => by simpa using ne_of_mem_of_not_mem hc hscheme,by simp⟩
  have htake (ys : List Char) := (cut_iff.mp (hcut ys)).1.symm
  have hdrop (ys : List Char) := (cut_iff.mp (hcut ys)).2.symm
  simp only [afterScheme?, htake, hdrop, List.append_assoc, List.cons_append] at h ⊢
  split_ifs at h ⊢
  obtain rfl := Option.some.inj h
  have hempty : ¬ (xs.dropWhile isSlash).isEmpty := by simpa using hne
  simp only [List.drop_succ_cons, List.drop_zero]
  rw [List.dropWhile_append, if_neg hempty]

theorem drop_length_takeWhile (p : Char → Bool) (cs : List Char) :
    cs.drop (cs.takeWhile p).length = cs.dropWhile p := by
  have h : (cs.takeWhile p ++ cs.dropWhile p).drop (cs.takeWhile p).length = cs.dropWhile p :=
    List.drop_left
  rwa [List.takeWhile_append_dropWhile] at h

/-- The path of a URL that ends with its path, if the URL names a server. -/
def pathOf? (cs : List Char) : Option (List Char) := do
  let rest ← afterScheme? cs
  let authority := rest.takeWhile (!isSlash ·)
  if isAuthority authority && !rest.any endsPath then some (rest.drop authority.length) else none

theorem pathOf?_eq_some_iff {cs path : List Char} :
    pathOf? cs = some path ↔
      ∃ rest authority, afterScheme? cs = some rest ∧ Cut (!isSlash ·) rest authority path ∧
        isAuthority authority ∧ ∀ c ∈ rest, endsPath c = false := by
  unfold pathOf?
  simp only [drop_length_takeWhile]
  constructor
  · intro h
    obtain ⟨rest,hrest,h⟩ := Option.bind_eq_some_iff.mp h
    split_ifs at h with hfits
    obtain rfl := Option.some.inj h
    obtain ⟨hauthority,hends⟩ := Bool.and_eq_true_iff.mp hfits
    exact ⟨rest,_,hrest,cut_while _ rest,hauthority,by simpa using hends⟩
  · rintro ⟨rest,authority,hrest,hcut,hauthority,hends⟩
    obtain ⟨rfl,rfl⟩ := cut_iff.mp hcut
    simpa [hrest, hauthority] using hends

theorem ne_nil_of_isAuthority {rest authority path : List Char}
    (hcut : Cut (!isSlash ·) rest authority path) (h : isAuthority authority) : rest ≠ [] := by
  rintro rfl
  obtain rfl := (List.append_eq_nil_iff.mp hcut.append).1
  exact absurd h (by decide)

theorem pathOf?_append_slash {cs path : List Char} (h : pathOf? cs = some path) {zs : List Char}
    (hzs : ∀ c ∈ zs, endsPath c = false) :
    pathOf? (cs ++ '/' :: zs) = some (path ++ '/' :: zs) := by
  obtain ⟨rest,authority,hrest,hcut,hauthority,hends⟩ := pathOf?_eq_some_iff.mp h
  refine pathOf?_eq_some_iff.mpr ⟨rest ++ '/' :: zs,authority,
    afterScheme?_append hrest (ne_nil_of_isAuthority hcut hauthority) _,
    hcut.append_cons (by decide) zs,hauthority,fun c hc => ?_⟩
  obtain hc | rfl | hc := by simpa using hc
  · exact hends c hc
  · rfl
  · exact hzs c hc

/-- What a URL asks for behind its path. -/
def queryOf (cs : List Char) : List Char :=
  let rest := cs.dropWhile (!endsPath ·)
  if rest.head? == some '?' then
    '?' :: escape isEscapedInQuery ((rest.drop 1).takeWhile (· != '#'))
  else []

theorem queryOf_eq (cs : List Char) : queryOf cs = [] ∨ ∃ xs, queryOf cs = '?' :: xs := by
  unfold queryOf
  dsimp only
  split_ifs
  · exact .inr ⟨_,rfl⟩
  · exact .inl rfl

theorem queryOf_of_forall {cs : List Char} (h : ∀ c ∈ cs, endsPath c = false) :
    queryOf cs = [] := by
  have hdrop : cs.dropWhile (!endsPath ·) = [] :=
    List.dropWhile_eq_nil_iff.mpr fun c hc => by simpa using h c hc
  simp [queryOf, hdrop]

/-- A name behind a slash is read as the rest of a path. -/
theorem target?_append_slash {xs path : List Char} (h : pathOf? (cleanedStart xs) = some path)
    (name : List Char) :
    target? (String.ofList (xs ++ '/' :: name)) =
      some (String.ofList (renderPath (path ++ '/' :: (cleanedEnd name).takeWhile (!endsPath ·)) ++
        queryOf (cleanedEnd name))) := by
  obtain ⟨rest,authority,hrest,hcut,hauthority,hends⟩ := pathOf?_eq_some_iff.mp h
  have hslash : Cut (fun c => !isSlash c && !endsPath c) (rest ++ '/' :: cleanedEnd name)
      authority (path ++ '/' :: cleanedEnd name) :=
    (hcut.congr fun c hc => by simp [hends c hc]).append_cons (by decide) _
  have hend : Cut (!endsPath ·) (path ++ '/' :: cleanedEnd name)
      (path ++ '/' :: (cleanedEnd name).takeWhile (!endsPath ·))
      ((cleanedEnd name).dropWhile (!endsPath ·)) := by
    have hname := cut_while (!endsPath ·) (cleanedEnd name)
    refine ⟨by simp,fun c hc => ?_,hname.back⟩
    rw [List.mem_append, List.mem_cons] at hc
    obtain hc | rfl | hc := hc
    · simpa using hends c (hcut.append ▸ List.mem_append_right _ hc)
    · decide
    · exact hname.front c hc
  obtain ⟨htake,hdrop⟩ := cut_iff.mp hslash
  obtain ⟨htake',hdrop'⟩ := cut_iff.mp hend
  unfold target?
  rw [String.toList_ofList, cleaned_append_slash,
    afterScheme?_append hrest (ne_nil_of_isAuthority hcut hauthority)]
  simp only [Option.bind_eq_bind, Option.bind_some, drop_length_takeWhile, ← htake, ← hdrop,
    ← htake', ← hdrop', hauthority]
  rfl

/-! ## Segments -/

/-- Takes a segment of a path up that is not its last. -/
def push (done : List (List Char)) (seg : List Char) : List (List Char) :=
  if isDoubleDot seg then done.tail else if isDot seg then done else seg :: done

theorem resolve_append (done xs : List (List Char)) {ys : List (List Char)} (h : ys ≠ []) :
    resolve done (xs ++ ys) = resolve (xs.foldl push done) ys := by
  induction xs generalizing done with
  | nil => rfl
  | cons seg xs ih =>
    have hrest : (xs ++ ys).isEmpty = false := by simp [h]
    rw [List.cons_append, resolve, List.foldl_cons, ← ih]
    simp only [hrest, push, Bool.false_eq_true, if_false]
    split_ifs <;> rfl

/-- A last segment of dots is empty. -/
def settled (seg : List Char) : List Char := if isDoubleDot seg || isDot seg then [] else seg

theorem resolve_concat (done xs : List (List Char)) (seg : List Char) :
    ∃ init, resolve done (xs ++ [seg]) = init ++ [settled seg] := by
  rw [resolve_append _ _ (List.cons_ne_nil _ _)]
  unfold resolve settled resolve
  cases isDoubleDot seg <;> cases isDot seg <;> simp

theorem resolve_concat_of_not_dots (done xs : List (List Char)) {seg : List Char}
    (hdot : isDot seg = false) (hdouble : isDoubleDot seg = false) :
    resolve done (xs ++ [seg]) = (xs.foldl push done).reverse ++ [seg] := by
  rw [resolve_append _ _ (List.cons_ne_nil _ _)]
  simp [resolve, hdot, hdouble]

theorem splitOnP_eq_concat (p : Char → Bool) (cs : List Char) :
    ∃ init, cs.splitOnP p = init ++ [cs.rtakeWhile (!p ·)] := by
  have hlast : (cs.rtakeWhile (!p ·)).splitOnP p = [cs.rtakeWhile (!p ·)] :=
    List.splitOnP_eq_singleton fun c hc => by simpa using List.mem_rtakeWhile_imp hc
  have happend : cs.rdropWhile (!p ·) ++ cs.rtakeWhile (!p ·) = cs :=
    List.rdropWhile_append_rtakeWhile
  obtain hnil | ⟨init,sep,hconcat⟩ := List.eq_nil_or_concat (cs.rdropWhile (!p ·))
  · rw [hnil, List.nil_append] at happend
    rw [happend] at hlast
    exact ⟨[],by rw [hlast, happend, List.nil_append]⟩
  · rw [List.concat_eq_append] at hconcat
    have hsep := List.rdropWhile_last_not (!p ·) cs (by simp [hconcat])
    simp only [hconcat, List.getLast_append_singleton] at hsep
    rw [hconcat, List.append_assoc, List.singleton_append] at happend
    refine ⟨init.splitOnP p,?_⟩
    nth_rewrite 1 [← happend]
    rw [List.splitOnP_append_cons _ _ (by simpa using hsep), hlast]

/-- The segments of a path. -/
def segmentsOf (path : List Char) : List (List Char) := (path.splitOnP isSlash).drop 1

def render (segments : List (List Char)) : List Char :=
  segments.flatMap fun seg => '/' :: escape isEscapedInPath seg

theorem segmentsOf_append_slash (path cs : List Char) :
    segmentsOf (path ++ '/' :: cs) = segmentsOf path ++ cs.splitOnP isSlash := by
  unfold segmentsOf
  rw [List.splitOnP_append_cons _ _ (by decide), List.drop_one, List.drop_one,
    List.tail_append_of_ne_nil (List.splitOnP_ne_nil _ _)]

theorem renderPath_append_slash (path cs : List Char) :
    renderPath (path ++ '/' :: cs) =
      render (resolve [] (segmentsOf path ++ cs.splitOnP isSlash)) := by
  have hpath : (path ++ '/' :: cs).isEmpty = false := by simp
  rw [← segmentsOf_append_slash]
  simp [renderPath, hpath, render, segmentsOf]

/-- A path of segments as they are is sent as it is. -/
theorem render_splitOnP {cs : List Char} (h : ∀ c ∈ cs, c ≠ '\\' ∧ isEscapedInPath c = false) :
    render (cs.splitOnP isSlash) = '/' :: cs := by
  induction cs with
  | nil => rfl
  | cons c cs ih =>
    obtain ⟨⟨hback,hescaped⟩,hcs⟩ := List.forall_mem_cons.mp h
    have ih := ih hcs
    cases hslash : isSlash c with
    | true =>
      obtain rfl : c = '/' := by simpa [isSlash, hback] using hslash
      rw [List.splitOnP_cons_eq_if_modifyHead, if_pos hslash]
      simpa [render, escape] using ih
    | false =>
      obtain ⟨seg,segs,hsegs⟩ := List.exists_cons_of_ne_nil (List.splitOnP_ne_nil isSlash cs)
      rw [hsegs] at ih
      rw [List.splitOnP_cons_eq_if_modifyHead, hslash, hsegs]
      simp only [render, List.flatMap_cons, List.cons_append, List.cons.injEq, true_and] at ih
      simp [render, escape_cons_of_not hescaped, ih]

/-- The path in front of further segments as it is sent. -/
def sentPath (path : List Char) : List Char := render ((segmentsOf path).foldl push []).reverse

theorem foldl_push_of_forall {segments : List (List Char)}
    (h : ∀ seg ∈ segments, isDot seg = false ∧ isDoubleDot seg = false)
    (done : List (List Char)) : segments.foldl push done = segments.reverse ++ done := by
  induction segments generalizing done with
  | nil => rfl
  | cons seg segments ih =>
    obtain ⟨⟨hdot,hdouble⟩,hrest⟩ := List.forall_mem_cons.mp h
    rw [List.foldl_cons, ih hrest]
    simp [push, hdot, hdouble]

/-- Segments that are neither dots nor escaped are sent as they are behind any path. -/
theorem sentPath_append_slash {zs : List Char}
    (hdots : ∀ seg ∈ zs.splitOnP isSlash, isDot seg = false ∧ isDoubleDot seg = false)
    (hzs : ∀ c ∈ zs, c ≠ '\\' ∧ isEscapedInPath c = false) (path : List Char) :
    sentPath (path ++ '/' :: zs) = sentPath path ++ '/' :: zs := by
  unfold sentPath
  rw [segmentsOf_append_slash, List.foldl_append, foldl_push_of_forall hdots, List.reverse_append,
    List.reverse_reverse, ← render_splitOnP hzs]
  exact List.flatMap_append

theorem question_notMem_render (segments : List (List Char)) : '?' ∉ render segments := by
  intro h
  obtain ⟨seg,_,h⟩ := List.mem_flatMap.mp h
  cases h with
  | tail _ h => exact question_notMem_escape seg h

/-- What the last segment of a target stands for, whatever the segments before it and the query. -/
theorem lastSegment_render {seg : List Char} (hseg : '/' ∉ seg) (segments : List (List Char))
    (cs : List Char) :
    lastSegment (String.ofList (render (segments ++ [seg]) ++ queryOf cs)) = unescape seg := by
  have hpath : Cut (· != '?') (render (segments ++ [seg]) ++ queryOf cs)
      (render (segments ++ [seg])) (queryOf cs) := by
    refine ⟨rfl,fun c hc => ?_,fun c hc => ?_⟩
    · simpa using ne_of_mem_of_not_mem hc (question_notMem_render _)
    · obtain hquery | ⟨xs,hquery⟩ := queryOf_eq cs
      · simp [hquery] at hc
      · obtain rfl : '?' = c := by simpa [hquery] using hc
        decide
  have hrender : render (segments ++ [seg]) =
      render segments ++ '/' :: escape isEscapedInPath seg := by
    simp [render]
  have hlast : Cut (· != '/') (render (segments ++ [seg])).reverse
      (escape isEscapedInPath seg).reverse ('/' :: (render segments).reverse) := by
    refine ⟨by simp [hrender],fun c hc => ?_,by simp⟩
    simpa using ne_of_mem_of_not_mem (List.mem_reverse.mp hc) (slash_notMem_escape hseg)
  unfold lastSegment
  rw [String.toList_ofList, ← (cut_iff.mp hpath).1, ← (cut_iff.mp hlast).1, List.reverse_reverse,
    unescape_escape]

end NodeRank.Http
