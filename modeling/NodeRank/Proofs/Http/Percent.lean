import NodeRank.Http.Percent
import Mathlib.Data.List.Basic
import Mathlib.Tactic.SplitIfs

/-! # What an escaped text stands for

A text that is escaped stands for the octets that it stands for unescaped. These are the octets of
its characters exactly if it has no percent sign with two digits behind it; each such sign makes
them fewer.
-/
namespace NodeRank.Http
open Text

/-- The octet that the first two characters of a text write, if they are digits. -/
def digits? : List Char → Option Nat
  | a :: b :: _ => nat? 16 [a, b]
  | _ => none

theorem nat?_pair {a b : Char} {n : Nat} :
    nat? 16 [a, b] = some n ↔
      ∃ x y, digitOf? 16 a = some x ∧ digitOf? 16 b = some y ∧ x * 16 + y = n := by
  unfold nat? natFrom? natFrom? natFrom?
  cases digitOf? 16 a <;> cases digitOf? 16 b <;> simp

theorem nat?_pair_percent_left (b : Char) : nat? 16 ['%', b] = none := by
  rw [Option.eq_none_iff_forall_ne_some]
  intro n hn
  obtain ⟨_,_,h,_⟩ := nat?_pair.mp hn
  cases h

theorem nat?_pair_percent_right (a : Char) : nat? 16 [a, '%'] = none := by
  rw [Option.eq_none_iff_forall_ne_some]
  intro n hn
  obtain ⟨_,_,_,h,_⟩ := nat?_pair.mp hn
  cases h

@[simp] theorem unescape_nil : unescape [] = [] := by
  rw [unescape]

theorem unescape_pair {a b : Char} {n : Nat} (h : nat? 16 [a, b] = some n) (cs : List Char) :
    unescape ('%' :: a :: b :: cs) = n :: unescape cs := by
  rw [unescape, h]

theorem unescape_single {c : Char} {cs : List Char} (h : c = '%' → digits? cs = none) :
    unescape (c :: cs) = octets c ++ unescape cs := by
  rw [unescape.eq_def]
  split
  · rename_i a b rest heq
    obtain ⟨rfl,rfl⟩ := List.cons.inj heq
    rw [show nat? 16 [a, b] = none from h rfl]
  · rename_i heq
    obtain ⟨rfl,rfl⟩ := List.cons.inj heq
    rfl
  · rename_i heq
    cases heq

/-- A text is taken apart as it is read: two digits behind a percent sign belong to it. -/
@[elab_as_elim] theorem induction_by_escapes {P : List Char → Prop} (nil : P [])
    (pair : ∀ a b n cs, nat? 16 [a, b] = some n → P cs → P ('%' :: a :: b :: cs))
    (single : ∀ c cs, (c = '%' → digits? cs = none) → P cs → P (c :: cs)) (cs : List Char) :
    P cs := by
  induction cs using unescape.induct with
  | case1 a b cs n h ih => exact pair a b n cs h ih
  | case2 a b cs h ih => exact single '%' (a :: b :: cs) (fun _ => h) ih
  | case3 c cs h ih =>
    refine single c cs (fun hc => ?_) ih
    match cs with
    | [] => rfl
    | [_] => rfl
    | a :: b :: cs => exact (h a b cs hc rfl).elim
  | case4 => exact nil

/-- No percent sign has two digits behind it. -/
def Literal (cs : List Char) : Prop := ∀ xs ys, cs = xs ++ '%' :: ys → digits? ys = none

theorem literal_cons {c : Char} {cs : List Char} :
    Literal (c :: cs) ↔ (c = '%' → digits? cs = none) ∧ Literal cs := by
  constructor
  · intro h
    refine ⟨fun hc => h [] cs (by rw [hc]; rfl),fun xs ys heq => h (c :: xs) ys (by rw [heq]; rfl)⟩
  · rintro ⟨hc,hcs⟩ xs ys heq
    cases xs with
    | nil =>
      obtain ⟨rfl,rfl⟩ := List.cons.inj heq
      exact hc rfl
    | cons x xs => exact hcs xs ys (List.cons.inj heq).2

instance decidableLiteral : (cs : List Char) → Decidable (Literal cs)
  | [] => isTrue fun xs ys h => by simp at h
  | _ :: cs =>
    have := decidableLiteral cs
    decidable_of_iff _ literal_cons.symm

theorem length_octets_pos (c : Char) : 0 < (octets c).length := by
  rw [octets, List.length_map]
  exact List.length_pos_iff.mpr String.utf8EncodeChar_ne_nil

theorem length_unescape_le (cs : List Char) :
    (unescape cs).length ≤ (cs.flatMap octets).length := by
  induction cs using induction_by_escapes with
  | nil => simp
  | pair a b n cs h ih =>
    rw [unescape_pair h]
    simp only [List.flatMap_cons, List.length_append, List.length_cons]
    have := length_octets_pos '%'
    omega
  | single c cs h ih =>
    rw [unescape_single h]
    simpa only [List.flatMap_cons, List.length_append, Nat.add_le_add_iff_left] using ih

theorem length_unescape_lt {cs : List Char} (h : ¬ Literal cs) :
    (unescape cs).length < (cs.flatMap octets).length := by
  induction cs using induction_by_escapes with
  | nil => exact absurd (fun xs ys heq => by simp at heq) h
  | pair a b n cs hn _ =>
    have hle := length_unescape_le cs
    have hpercent := length_octets_pos '%'
    have ha := length_octets_pos a
    rw [unescape_pair hn]
    simp only [List.flatMap_cons, List.length_append, List.length_cons]
    omega
  | single c cs hc ih =>
    rw [unescape_single hc]
    have hlt := ih fun hcs => h (literal_cons.mpr ⟨hc,hcs⟩)
    simpa only [List.flatMap_cons, List.length_append, Nat.add_lt_add_iff_left] using hlt

theorem unescape_of_literal {cs : List Char} (h : Literal cs) :
    unescape cs = cs.flatMap octets := by
  induction cs with
  | nil => simp
  | cons c cs ih =>
    obtain ⟨hc,hcs⟩ := literal_cons.mp h
    rw [unescape_single hc, ih hcs, List.flatMap_cons]

theorem octets_lt {c : Char} {n : Nat} (h : n ∈ octets c) : n < 256 := by
  obtain ⟨b,_,rfl⟩ := List.mem_map.mp h
  exact b.toNat_lt

theorem upperDigit_pair :
    ∀ n < 256, nat? 16 [upperDigit (n / 16), upperDigit (n % 16)] = some n := by
  decide +kernel

theorem unescape_escapeOctets {ns : List Nat} (h : ∀ n ∈ ns, n < 256) (cs : List Char) :
    unescape (ns.flatMap escapeOctet ++ cs) = ns ++ unescape cs := by
  induction ns with
  | nil => rfl
  | cons n ns ih =>
    obtain ⟨hn,hns⟩ := List.forall_mem_cons.mp h
    rw [List.flatMap_cons, List.append_assoc]
    exact (unescape_pair (upperDigit_pair n hn) _).trans (congrArg (n :: ·) (ih hns))

theorem escape_cons (inSet : Char → Bool) (c : Char) (cs : List Char) :
    escape inSet (c :: cs) =
      (if inSet c then (octets c).flatMap escapeOctet else [c]) ++ escape inSet cs :=
  List.flatMap_cons

theorem escape_cons_of_not {inSet : Char → Bool} {c : Char} (h : inSet c = false)
    (cs : List Char) : escape inSet (c :: cs) = c :: escape inSet cs := by
  rw [escape_cons, h]
  rfl

/-- An escaped character begins with a percent sign. -/
theorem escape_cons_of {inSet : Char → Bool} {c : Char} (h : inSet c) (cs : List Char) :
    ∃ xs, escape inSet (c :: cs) = '%' :: xs := by
  rw [escape_cons, if_pos h]
  obtain ⟨n,ns,hns⟩ := List.exists_cons_of_length_pos (length_octets_pos c)
  rw [hns]
  exact ⟨_,rfl⟩

theorem toNat_lt_of_digit {c : Char} {n : Nat} (h : digitOf? 16 c = some n) : c.toNat < 128 := by
  obtain ⟨h,_⟩ := Option.filter_eq_some_iff.mp h
  unfold digit? at h
  simp only [Char.le_def, UInt32.le_iff_toNat_le] at h
  have hval : c.toNat = c.val.toNat := rfl
  split_ifs at h with hten hlower hupper
  · have : '9'.val.toNat = 57 := rfl
    omega
  · have : 'f'.val.toNat = 102 := rfl
    omega
  · have : 'F'.val.toNat = 70 := rfl
    omega

/-- Digits are not escaped. -/
theorem not_escaped_of_digit {c : Char} {n : Nat} (h : digitOf? 16 c = some n) :
    isEscapedInPath c = false := by
  have hall : ∀ k < 128, (digitOf? 16 (Char.ofNat k)).isSome →
      isEscapedInPath (Char.ofNat k) = false := by decide +kernel
  have hc := hall c.toNat (toNat_lt_of_digit h)
  rw [Char.ofNat_toNat, h] at hc
  exact hc rfl

theorem digits?_escape {cs : List Char} (h : digits? cs = none) :
    digits? (escape isEscapedInPath cs) = none := by
  cases cs with
  | nil => rfl
  | cons a cs =>
    cases ha : isEscapedInPath a with
    | true =>
      obtain ⟨xs,hxs⟩ := escape_cons_of ha cs
      rw [hxs]
      cases xs with
      | nil => rfl
      | cons b xs => exact nat?_pair_percent_left b
    | false =>
      rw [escape_cons_of_not ha]
      cases cs with
      | nil => rfl
      | cons b cs =>
        cases hb : isEscapedInPath b with
        | true =>
          obtain ⟨xs,hxs⟩ := escape_cons_of hb cs
          rw [hxs]
          exact nat?_pair_percent_right a
        | false =>
          rw [escape_cons_of_not hb]
          exact h

/-- Escaping a text leaves what it stands for. -/
theorem unescape_escape (cs : List Char) :
    unescape (escape isEscapedInPath cs) = unescape cs := by
  induction cs using induction_by_escapes with
  | nil => rfl
  | pair a b n cs h ih =>
    obtain ⟨x,y,ha,hb,_⟩ := nat?_pair.mp h
    rw [escape_cons_of_not (by decide), escape_cons_of_not (not_escaped_of_digit ha),
      escape_cons_of_not (not_escaped_of_digit hb), unescape_pair h, unescape_pair h, ih]
  | single c cs h ih =>
    rw [unescape_single h]
    cases hc : isEscapedInPath c with
    | true => rw [escape_cons, if_pos hc, unescape_escapeOctets fun n hn => octets_lt hn, ih]
    | false => rw [escape_cons_of_not hc, unescape_single fun hc => digits?_escape (h hc), ih]

theorem mem_escape {inSet : Char → Bool} {c : Char} {cs : List Char} (h : c ∈ escape inSet cs) :
    (c ∈ cs ∧ inSet c = false) ∨ c = '%' ∨ ∃ n < 16, c = upperDigit n := by
  obtain ⟨d,hd,hc⟩ := List.mem_flatMap.mp h
  split_ifs at hc with hset
  · obtain ⟨n,hn,hc⟩ := List.mem_flatMap.mp hc
    have hlt := octets_lt hn
    simp only [escapeOctet, List.mem_cons, List.not_mem_nil, or_false] at hc
    obtain rfl | rfl | rfl := hc
    · exact .inr (.inl rfl)
    · exact .inr (.inr ⟨n / 16,by omega,rfl⟩)
    · exact .inr (.inr ⟨n % 16,by omega,rfl⟩)
  · obtain rfl := List.mem_singleton.mp hc
    exact .inl ⟨hd,by simpa using hset⟩

theorem slash_notMem_escape {cs : List Char} (h : '/' ∉ cs) :
    '/' ∉ escape isEscapedInPath cs := by
  intro hmem
  obtain ⟨hcs,_⟩ | hpercent | ⟨n,hn,hdigit⟩ := mem_escape hmem
  · exact h hcs
  · cases hpercent
  · revert n
    decide

theorem question_notMem_escape (cs : List Char) : '?' ∉ escape isEscapedInPath cs := by
  intro hmem
  obtain ⟨_,hset⟩ | hpercent | ⟨n,hn,hdigit⟩ := mem_escape hmem
  · cases hset
  · cases hpercent
  · revert n
    decide

/-- Less of a text has fewer octets. -/
theorem length_octets_lt_of_sublist {xs ys : List Char} (h : xs.Sublist ys) (hne : xs ≠ ys) :
    (xs.flatMap octets).length < (ys.flatMap octets).length := by
  induction h with
  | slnil => exact absurd rfl hne
  | @cons xs ys c h ih =>
    have hc := length_octets_pos c
    have hle : (xs.flatMap octets).length ≤ (ys.flatMap octets).length := by
      by_cases heq : xs = ys
      · exact Nat.le_of_eq (by rw [heq])
      · exact Nat.le_of_lt (ih heq)
    rw [List.flatMap_cons, List.length_append]
    omega
  | @cons_cons xs ys c h ih =>
    have hlt := ih fun heq => hne (by rw [heq])
    simpa only [List.flatMap_cons, List.length_append, Nat.add_lt_add_iff_left] using hlt

/-- A part of a text stands for the octets of the text only if it is all of it, and literal. -/
theorem unescape_eq_octets_iff {xs ys : List Char} (h : xs.Sublist ys) :
    unescape xs = ys.flatMap octets ↔ xs = ys ∧ Literal ys := by
  constructor
  · intro heq
    have hlength := congrArg List.length heq
    have hxs : xs = ys := by
      by_contra hne
      have hlt := length_octets_lt_of_sublist h hne
      have hle := length_unescape_le xs
      omega
    subst hxs
    refine ⟨rfl,?_⟩
    by_contra hliteral
    have hlt := length_unescape_lt hliteral
    omega
  · rintro ⟨rfl,hliteral⟩
    exact unescape_of_literal hliteral

end NodeRank.Http
