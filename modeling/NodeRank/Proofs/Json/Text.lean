import NodeRank.Json.Parser
import NodeRank.Json.Printer
import NodeRank.Proofs.Text.Cut
import NodeRank.Proofs.Text.Decimal
import Mathlib.Data.List.TakeDrop
import Mathlib.Logic.Relation

/-! # Values read back from their text

Every value that has a text of its own is read back from it. The text is read in steps, each of
which takes one token off and hands it to the reader; a value is read by the steps of its parts.
-/
namespace NodeRank.Json

namespace Token

/-! ### Strings -/

section Strings
variable {done : Option (List Char)} {rest : List Char}

theorem string?_shortEscape {c r : Char} (h : shortEscape? c = some r) :
    string? done ('\\' :: c :: rest) = string? (done.map (r :: ·)) rest := by
  have hc : c ≠ 'u' := by
    rintro rfl
    cases h
  rw [string?.eq_def]
  -- Only an escape of two characters begins like this.
  split
  case h_4 heq =>
    obtain ⟨rfl,rfl⟩ := List.cons.inj (List.cons.inj heq).2
    rw [h]
  all_goals grind

theorem string?_of_unit?_eq_none {a b c d : Char} (h : unit? a b c d = none) :
    string? done ('\\' :: 'u' :: a :: b :: c :: d :: rest) = none := by
  rw [string?.eq_def]
  split <;> grind

theorem string?_unit {a b c d : Char} {n : Nat} (hunit : unit? a b c d = some n)
    (hhigh : isHighSurrogate n = false) (hlow : isLowSurrogate n = false) :
    string? done ('\\' :: 'u' :: a :: b :: c :: d :: rest) =
      string? (done.map (Char.ofNat n :: ·)) rest := by
  conv_lhs => rw [string?.eq_def]
  split
  case h_2 e f g h rest heq =>
    simp only [List.cons.injEq, true_and] at heq
    obtain ⟨rfl,rfl,rfl,rfl,rfl⟩ := heq
    rw [hunit]
    -- The escape that follows is read with this one, and is refused as it is on its own.
    cases hnext : unit? e f g h with
    | some m => simp [hhigh, hlow]
    | none => exact (string?_of_unit?_eq_none hnext).symm
  case h_3 heq =>
    simp only [List.cons.injEq, true_and] at heq
    obtain ⟨rfl,rfl,rfl,rfl,rfl⟩ := heq
    rw [hunit]
    simp [hhigh, hlow]
  all_goals grind

theorem string?_plain {c : Char} (hquote : c ≠ '"') (hescape : c ≠ '\\') (hc : ¬ c.toNat < 0x20) :
    string? done (c :: rest) = string? (done.map (c :: ·)) rest := by
  rw [string?.eq_def]
  split <;> simp_all

theorem unit?_control : ∀ n < 0x20,
    unit? '0' '0' (Nat.digitChar (n / 16)) (Nat.digitChar (n % 16)) = some n := by
  decide

theorem string?_escapeChar (c : Char) :
    string? done (escapeChar c ++ rest) = string? (done.map (c :: ·)) rest := by
  unfold escapeChar
  split_ifs with hquote hescape hb hf hn hr ht hcontrol
  · rw [hquote]; exact string?_shortEscape rfl
  · rw [hescape]; exact string?_shortEscape rfl
  · rw [hb]; exact string?_shortEscape rfl
  · rw [hf]; exact string?_shortEscape rfl
  · rw [hn]; exact string?_shortEscape rfl
  · rw [hr]; exact string?_shortEscape rfl
  · rw [ht]; exact string?_shortEscape rfl
  · have hhigh : isHighSurrogate c.toNat = false := by
      unfold isHighSurrogate
      rw [decide_eq_false (by omega), Bool.false_and]
    have hlow : isLowSurrogate c.toNat = false := by
      unfold isLowSurrogate
      rw [decide_eq_false (by omega), Bool.false_and]
    have hunit := unit?_control c.toNat hcontrol
    conv_rhs => rw [← Char.ofNat_toNat c]
    exact string?_unit hunit hhigh hlow
  · exact string?_plain hquote hescape hcontrol

theorem string?_flatMap_escapeChar (cs acc : List Char) :
    string? (some acc) (cs.flatMap escapeChar ++ '"' :: rest) =
      some (some (String.ofList (acc.reverse ++ cs)), rest) := by
  induction cs generalizing acc with
  | nil =>
    rw [List.append_nil, List.flatMap_nil, List.nil_append, string?.eq_1]
    rfl
  | cons c cs ih =>
    rw [List.flatMap_cons, List.append_assoc, string?_escapeChar, Option.map_some, ih,
      List.reverse_cons, List.append_assoc, List.singleton_append]

/-- A string is one token. -/
theorem next?_renderText (s : String) :
    next? ((renderText s).toList ++ rest) = some (.string (some s), rest) := by
  have htext : (renderText s).toList ++ rest =
      '"' :: (s.toList.flatMap escapeChar ++ '"' :: rest) := by
    unfold renderText
    rw [String.toList_ofList, List.cons_append, List.cons_append, List.append_assoc,
      List.singleton_append]
  rw [htext]
  show (string? (some []) _).map _ = _
  rw [string?_flatMap_escapeChar]
  simp

end Strings

/-! ### Numbers -/

section Numbers
variable {rest : List Char}

/-- Ends a number: what comes next is no part of one. -/
def Ends (rest : List Char) : Prop := ∀ c ∈ rest.head?, c = ',' ∨ c = ']' ∨ c = '\x7d'

theorem fraction?_of_ends (h : Ends rest) : fraction? rest = some ([], rest) := by
  unfold fraction?
  split
  · rcases h '.' rfl with h | h | h <;> cases h
  · rfl

theorem exponent?_of_ends (h : Ends rest) : exponent? rest = some ([], rest) := by
  unfold exponent?
  split
  · rename_i c rest
    have hc : ¬ (c = 'e' ∨ c = 'E') := by
      rcases h c rfl with rfl | rfl | rfl <;> decide
    rw [if_neg hc]
  · rfl

theorem isDigit_of_toDigits_append {n : Nat} {c : Char} {cs : List Char}
    (h : Nat.toDigits 10 n ++ rest = c :: cs) : c.isDigit := by
  obtain ⟨d,ds,hds⟩ := List.exists_cons_of_ne_nil (Nat.toDigits_ne_nil (b := 10) (n := n))
  rw [hds, List.cons_append] at h
  obtain ⟨rfl,_⟩ := List.cons.inj h
  exact Text.isDigit_toDigits d (hds ▸ List.mem_cons_self)

theorem integerPart_toDigits (n : Nat) (h : Ends rest) :
    integerPart (Nat.toDigits 10 n ++ rest) = (Nat.toDigits 10 n, rest) := by
  have hcut : Text.Cut Char.isDigit (Nat.toDigits 10 n ++ rest) (Nat.toDigits 10 n) rest := by
    refine ⟨rfl,Text.isDigit_toDigits,fun c hc => ?_⟩
    rcases h c hc with rfl | rfl | rfl <;> decide
  unfold integerPart
  split
  · rename_i tail heq
    obtain ⟨c,cs,hcs⟩ := List.exists_cons_of_ne_nil (Nat.toDigits_ne_nil (b := 10) (n := n))
    rw [hcs, List.cons_append] at heq
    obtain ⟨rfl,rfl⟩ := List.cons.inj heq
    obtain rfl := Text.eq_nil_of_toDigits hcs
    rw [hcs]
    rfl
  · rw [List.span_eq_takeWhile_dropWhile, ← (Text.cut_iff.mp hcut).1, ← (Text.cut_iff.mp hcut).2]

theorem number?_toString (n : Int) (h : Ends rest) :
    number? ((toString n).toList ++ rest) = some (.integer n, rest) := by
  have hint := Text.int?_eq_some_iff.mpr (Text.writesInt_toString n)
  rw [Int.toString_eq_repr, Int.repr_eq_if] at hint ⊢
  split_ifs at hint ⊢ with hsign
  · rw [Nat.toList_repr] at hint ⊢
    unfold number?
    split
    rename_i sign tail heq
    have hbare : ([], Nat.toDigits 10 n.toNat ++ rest) = (sign, tail) := by
      split at heq
      · rename_i hminus
        exact absurd (isDigit_of_toDigits_append hminus) (by decide)
      · exact heq
    obtain ⟨rfl,rfl⟩ := Prod.mk.inj hbare
    have hminus : Nat.toDigits 10 n.toNat ≠ ['-', '0'] := by
      intro hminus
      exact absurd (Text.isDigit_toDigits '-' (hminus ▸ List.mem_cons_self)) (by decide)
    simp [integerPart_toDigits _ h, fraction?_of_ends h, exponent?_of_ends h, hint, hminus]
  · have hzero : Nat.toDigits 10 (-n).toNat ≠ ['0'] := by
      intro hzero
      have hn := Text.decimal_toDigits (-n).toNat
      rw [hzero, show Text.decimal ['0'] = 0 from rfl] at hn
      omega
    have hminus : "-".toList = ['-'] := rfl
    rw [String.toList_append, Nat.toList_repr, hminus] at hint ⊢
    unfold number?
    simp [integerPart_toDigits _ h, fraction?_of_ends h, exponent?_of_ends h, hzero]
    rw [← List.singleton_append, hint]
    rfl

theorem next?_of_number {c : Char} {cs : List Char} (hc : c.isDigit ∨ c = '-') :
    next? (c :: cs) = (number? (c :: cs)).map fun (v, rest) => (.scalar v, rest) := by
  unfold next?
  split
  case h_11 => rfl
  all_goals
    rename_i heq
    obtain ⟨rfl,_⟩ := List.cons.inj heq
    exact absurd hc (by decide)

theorem exists_toString_eq_cons (n : Int) :
    ∃ c cs, (toString n).toList = c :: cs ∧ (c.isDigit ∨ c = '-') := by
  rw [Int.toString_eq_repr, Int.repr_eq_if]
  split_ifs
  · rw [Nat.toList_repr]
    obtain ⟨c,cs,hcs⟩ := List.exists_cons_of_ne_nil (Nat.toDigits_ne_nil (b := 10) (n := n.toNat))
    exact ⟨c,cs,hcs,.inl (Text.isDigit_toDigits c (hcs ▸ List.mem_cons_self))⟩
  · exact ⟨'-',_,String.toList_append,.inr rfl⟩

/-- An integer is one token where no more of a number follows. -/
theorem next?_toString (n : Int) (h : Ends rest) :
    next? ((toString n).toList ++ rest) = some (.scalar (.integer n), rest) := by
  have hnumber := number?_toString n h
  obtain ⟨c,cs,hcs,hc⟩ := exists_toString_eq_cons n
  rw [hcs, List.cons_append] at hnumber ⊢
  rw [next?_of_number hc, hnumber]
  rfl

end Numbers

end Token

open Token

/-! ### Steps -/

/-- Where reading is: what the reader holds, and the text that is left. -/
abbrev Config := State × List Char

/-- Takes one token off the text, which does not begin with a blank, and hands it to the reader. -/
inductive Step : Config → Config → Prop
  | token {s s' : State} {c : Char} {cs rest : List Char} {t : Token} (hblank : ¬ isBlank c)
    (hnext : next? (c :: (cs ++ rest)) = some (t, rest)) (hstep : s.step? t = some s') :
    Step (s, c :: (cs ++ rest)) (s', rest)

/-- A token of one character. -/
theorem Step.mark {s s' : State} {c : Char} {cs : List Char} {t : Token} (hblank : ¬ isBlank c)
    (hnext : next? (c :: cs) = some (t, cs)) (hstep : s.step? t = some s') :
    Step (s, c :: cs) (s', cs) := by
  show Step (s, c :: ([] ++ cs)) (s', cs)
  exact .token hblank hnext hstep

abbrev Steps : Config → Config → Prop := Relation.ReflTransGen Step

theorem scanUpTo_nil (fuel : Nat) (done : List Token) :
    scanUpTo fuel done [] = some done.reverse := by
  unfold scanUpTo
  rfl

theorem scanUpTo_cons {fuel : Nat} {c : Char} {cs rest : List Char} {t : Token} (done : List Token)
    (hblank : ¬ isBlank c) (hnext : next? (c :: cs) = some (t, rest)) :
    scanUpTo (fuel + 1) done (c :: cs) = scanUpTo fuel (t :: done) rest := by
  conv_lhs => unfold scanUpTo
  rw [List.dropWhile_cons_of_neg hblank]
  dsimp only
  rw [hnext]

theorem scanUpTo_of_steps {a b : Config} (h : Steps a b) (hb : b.2 = []) {fuel : Nat}
    (hfuel : a.2.length ≤ fuel) (done : List Token) :
    ∃ tokens, scanUpTo fuel done a.2 = some (done.reverse ++ tokens) ∧
      tokens.foldlM State.step? a.1 = some b.1 := by
  induction h using Relation.ReflTransGen.head_induction_on generalizing fuel done with
  | refl =>
    refine ⟨[],?_,rfl⟩
    rw [hb, scanUpTo_nil, List.append_nil]
  | head hstep _ ih =>
    obtain @⟨s,s',c,cs,rest,t,hblank,hnext,ht⟩ := hstep
    rw [List.length_cons, List.length_append] at hfuel
    obtain ⟨fuel,rfl⟩ : ∃ k, fuel = k + 1 := ⟨fuel - 1,by omega⟩
    obtain ⟨tokens,hscan,hfold⟩ := ih (show rest.length ≤ fuel by omega) (t :: done)
    refine ⟨t :: tokens,?_,?_⟩
    · rw [scanUpTo_cons done hblank hnext, hscan, List.reverse_cons, List.append_assoc,
        List.singleton_append]
    · rw [List.foldlM_cons, ht]
      exact hfold

/-- A text is read if steps lead from its start to a value with nothing left. -/
theorem parse?_of_steps {s : String} {v : Json}
    (h : Steps (.wantsValue [], s.toList) (.holds v [], [])) : parse? s = some v := by
  obtain ⟨tokens,hscan,hfold⟩ := scanUpTo_of_steps h rfl (String.length_toList (s := s)).le []
  rw [List.reverse_nil, List.nil_append] at hscan
  unfold parse? scan
  rw [hscan]
  show ofTokens? tokens = some v
  unfold ofTokens?
  rw [hfold]
  rfl

/-! ### Values -/

/-- In state `s` a value may begin, above the open containers `stack`. -/
def Awaits (s : State) (stack : List Open) : Prop :=
  ∀ t : Token, t ≠ .closeArray → s.step? t = State.begin? stack t

theorem awaits_value (stack : List Open) : Awaits (.wantsValue stack) stack := fun _ _ => rfl

theorem awaits_item (stack : List Open) : Awaits (.wantsItem stack) (.array [] :: stack) := by
  intro t ht
  cases t with
  | closeArray => exact absurd rfl ht
  | _ => rfl

/-- A value is read off the front of a text wherever a value may begin. -/
def ReadsOff (v : Json) : Prop :=
  ∀ s stack rest, Awaits s stack → Ends rest →
    Steps (s, v.render.toList ++ rest) (.holds v stack, rest)

theorem readsOff_null : ReadsOff .null := by
  intro s stack rest hs _
  have hstep : Step (s, 'n' :: (['u', 'l', 'l'] ++ rest)) (.holds .null stack, rest) :=
    .token (by decide) rfl (hs (.scalar .null) nofun)
  exact .single hstep

theorem readsOff_bool (b : Bool) : ReadsOff (.bool b) := by
  intro s stack rest hs _
  cases b with
  | true =>
    have hstep : Step (s, 't' :: (['r', 'u', 'e'] ++ rest)) (.holds (.bool true) stack, rest) :=
      .token (by decide) rfl (hs (.scalar (.bool true)) nofun)
    exact .single hstep
  | false =>
    have hstep :
        Step (s, 'f' :: (['a', 'l', 's', 'e'] ++ rest)) (.holds (.bool false) stack, rest) :=
      .token (by decide) rfl (hs (.scalar (.bool false)) nofun)
    exact .single hstep

theorem readsOff_integer (n : Int) : ReadsOff (.integer n) := by
  intro s stack rest hs hrest
  have hnext := next?_toString n hrest
  obtain ⟨c,cs,hcs,hc⟩ := exists_toString_eq_cons n
  have htext : (render (.integer n)).toList ++ rest = c :: (cs ++ rest) := by
    unfold render
    rw [hcs, List.cons_append]
  rw [hcs, List.cons_append] at hnext
  have hblank : ¬ isBlank c := by
    simp only [isBlank, Bool.or_eq_true, beq_iff_eq]
    rintro (((rfl | rfl) | rfl) | rfl) <;> exact absurd hc (by decide)
  rw [htext]
  exact .single (.token hblank hnext (hs _ nofun))

/-- A string is taken off by one step where a string is taken. -/
theorem steps_text {s s' : State} {k : String} {rest : List Char}
    (hstep : s.step? (.string (some k)) = some s') :
    Steps (s, (renderText k).toList ++ rest) (s', rest) := by
  have hnext : next? ((renderText k).toList ++ rest) = some (.string (some k), rest) :=
    next?_renderText k
  unfold renderText at *
  rw [String.toList_ofList, List.cons_append, List.cons_append] at *
  exact .single (.token (by decide) hnext hstep)

theorem readsOff_text (k : String) : ReadsOff (.text k) :=
  fun _ _ _ hs _ => steps_text (hs _ nofun)

/-- Parts that follow, each behind a comma, and the end of their container end a number. -/
theorem ends_parts {α : Type} (parts : List α) (f : α → List Char) {close : Char}
    (hclose : close = ']' ∨ close = '\x7d') (rest : List Char) :
    Ends (parts.flatMap (fun x => ',' :: f x) ++ close :: rest) := by
  intro c hc
  cases parts with
  | nil =>
    obtain rfl : close = c := Option.some.inj hc
    exact .inr hclose
  | cons x parts =>
    obtain rfl : ',' = c := Option.some.inj hc
    exact .inl rfl

theorem toList_renderItems (v : Json) (items : List Json) :
    (renderItems (v :: items)).toList =
      v.render.toList ++ items.flatMap fun w => ',' :: w.render.toList := by
  induction items generalizing v with
  | nil => simp [renderItems]
  | cons w items ih => simp [renderItems, ih]

theorem steps_items {items : List Json} (h : ∀ v ∈ items, ReadsOff v) (v : Json)
    (done : List Json) (stack : List Open) (rest : List Char) :
    Steps (.holds v (.array done :: stack),
        (items.flatMap fun w => ',' :: w.render.toList) ++ ']' :: rest)
      (.holds (.array (done.reverse ++ v :: items)) stack, rest) := by
  induction items generalizing v done with
  | nil =>
    have hstep : Step (.holds v (.array done :: stack), ']' :: rest)
        (.holds (.array (v :: done).reverse) stack, rest) :=
      .mark (by decide) rfl rfl
    rw [List.reverse_cons] at hstep
    exact .single hstep
  | cons w items ih =>
    rw [List.forall_mem_cons] at h
    have hcomma (cs : List Char) : Step (.holds v (.array done :: stack), ',' :: cs)
        (.wantsValue (.array (v :: done) :: stack), cs) :=
      .mark (by decide) rfl rfl
    have hitems := ih h.2 w (v :: done)
    rw [List.reverse_cons, List.append_assoc, List.singleton_append] at hitems
    rw [List.flatMap_cons, List.cons_append, List.cons_append, List.append_assoc]
    exact .head (hcomma _)
      ((h.1 _ _ _ (awaits_value _) (ends_parts items _ (.inl rfl) rest)).trans hitems)

theorem readsOff_array {items : List Json} (h : ∀ v ∈ items, ReadsOff v) :
    ReadsOff (.array items) := by
  intro s stack rest hs hrest
  have hopen (cs : List Char) : Step (s, '[' :: cs) (.wantsItem stack, cs) :=
    .mark (by decide) rfl (hs .openArray nofun)
  have htext : (render (.array items)).toList ++ rest =
      '[' :: ((renderItems items).toList ++ ']' :: rest) := by
    unfold render
    simp
  rw [htext]
  refine .head (hopen ((renderItems items).toList ++ ']' :: rest)) ?_
  cases items with
  | nil =>
    have hclose : Step (.wantsItem stack, ']' :: rest) (.holds (.array []) stack, rest) :=
      .mark (by decide) rfl rfl
    exact .single hclose
  | cons v items =>
    rw [List.forall_mem_cons] at h
    rw [toList_renderItems, List.append_assoc]
    exact (h.1 _ _ _ (awaits_item stack) (ends_parts items _ (.inl rfl) rest)).trans
      (steps_items h.2 v [] stack rest)

/-- A member as it is written. -/
def memberText (m : String × Json) : List Char :=
  (renderText m.1).toList ++ ':' :: m.2.render.toList

theorem toList_renderMembers (m : String × Json) (members : List (String × Json)) :
    (renderMembers ((m :: members).map fun m => (some m.1, m.2))).toList =
      memberText m ++ members.flatMap fun m => ',' :: memberText m := by
  induction members generalizing m with
  | nil => simp [renderMembers, memberText, renderString]
  | cons n members ih =>
    have h := ih n
    rw [List.map_cons] at h
    simp [renderMembers, memberText, renderString, h]

/-- A member is read where a key may stand. -/
theorem steps_member {m : String × Json} (h : ReadsOff m.2) (first : Bool)
    (done : List (JsonString × Json)) (stack : List Open) {rest : List Char} (hrest : Ends rest) :
    Steps (.wantsKey first done stack, memberText m ++ rest)
      (.holds m.2 (.object done (some m.1) :: stack), rest) := by
  have hcolon (cs : List Char) : Step (.wantsColon done (some m.1) stack, ':' :: cs)
      (.wantsValue (.object done (some m.1) :: stack), cs) :=
    .mark (by decide) rfl rfl
  unfold memberText
  rw [List.append_assoc, List.cons_append]
  exact (steps_text rfl).trans (.head (hcolon _) (h _ _ _ (awaits_value _) hrest))

theorem steps_members {members : List (String × Json)} (h : ∀ m ∈ members, ReadsOff m.2) (v : Json)
    (key : JsonString) (done : List (JsonString × Json)) (stack : List Open) (rest : List Char) :
    Steps (.holds v (.object done key :: stack),
        (members.flatMap fun m => ',' :: memberText m) ++ '\x7d' :: rest)
      (.holds (.object (done.reverse ++ (key, v) :: members.map fun m => (some m.1, m.2))) stack,
        rest) := by
  induction members generalizing v key done with
  | nil =>
    have hstep : Step (.holds v (.object done key :: stack), '\x7d' :: rest)
        (.holds (.object ((key, v) :: done).reverse) stack, rest) :=
      .mark (by decide) rfl rfl
    rw [List.reverse_cons] at hstep
    exact .single hstep
  | cons m members ih =>
    rw [List.forall_mem_cons] at h
    have hcomma (cs : List Char) : Step (.holds v (.object done key :: stack), ',' :: cs)
        (.wantsKey false ((key, v) :: done) stack, cs) :=
      .mark (by decide) rfl rfl
    have hmembers := ih h.2 m.2 (some m.1) ((key, v) :: done)
    rw [List.reverse_cons, List.append_assoc, List.singleton_append] at hmembers
    have hmember := steps_member h.1 false ((key, v) :: done) stack
      (ends_parts members memberText (.inr rfl) rest)
    rw [List.map_cons, List.flatMap_cons, List.cons_append, List.cons_append, List.append_assoc]
    exact .head (hcomma _) (hmember.trans hmembers)

theorem readsOff_record {members : List (String × Json)} (h : ∀ m ∈ members, ReadsOff m.2) :
    ReadsOff (record members) := by
  intro s stack rest hs hrest
  have hopen (cs : List Char) : Step (s, '\x7b' :: cs) (.wantsKey true [] stack, cs) :=
    .mark (by decide) rfl (hs .openObject nofun)
  have htext : (render (record members)).toList ++ rest =
      '\x7b' ::
        ((renderMembers (members.map fun m => (some m.1, m.2))).toList ++ '\x7d' :: rest) := by
    unfold record render
    simp
  rw [htext]
  refine .head (hopen ((renderMembers _).toList ++ '\x7d' :: rest)) ?_
  cases members with
  | nil =>
    have hclose : Step (.wantsKey true [] stack, '\x7d' :: rest)
        (.holds (.object []) stack, rest) :=
      .mark (by decide) rfl rfl
    exact .single hclose
  | cons m members =>
    rw [List.forall_mem_cons] at h
    rw [toList_renderMembers, List.append_assoc]
    exact (steps_member h.1 true [] stack (ends_parts members _ (.inr rfl) rest)).trans
      (steps_members h.2 m.2 (some m.1) [] stack rest)

/-- The values that have a text of their own: no number in them has a fraction or an exponent, and
no string half a surrogate pair. -/
inductive Plain : Json → Prop
  | null : Plain .null
  | bool (b : Bool) : Plain (.bool b)
  | integer (n : Int) : Plain (.integer n)
  | text (s : String) : Plain (.text s)
  | array {items : List Json} (h : ∀ v ∈ items, Plain v) : Plain (.array items)
  | record {members : List (String × Json)} (h : ∀ m ∈ members, Plain m.2) : Plain (record members)

theorem Plain.readsOff {v : Json} (h : Plain v) : ReadsOff v := by
  induction h with
  | null => exact readsOff_null
  | bool b => exact readsOff_bool b
  | integer n => exact readsOff_integer n
  | text s => exact readsOff_text s
  | array _ ih => exact readsOff_array ih
  | record _ ih => exact readsOff_record ih

theorem Plain.parse?_render {v : Json} (h : Plain v) : parse? v.render = some v := by
  have hsteps := h.readsOff (.wantsValue []) [] [] (awaits_value []) (by simp [Ends])
  rw [List.append_nil] at hsteps
  exact parse?_of_steps hsteps

end NodeRank.Json
