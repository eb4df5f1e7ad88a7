import NodeRank.Quantity.Parser
import NodeRank.Proofs.Text.Cut
import NodeRank.Proofs.Text.Decimal

/-! # The grammar of quantities

A quantity is a sign, digits with at most one point among them, and a suffix. Each part is described
by a relation that says which texts it may be and what they mean; what the reader takes a text apart
into are the parts that the relations allow, and it finds them whenever there are some.
-/
namespace NodeRank.Quantity
open Text

/-- A text is a sign, the longest run of digits and points behind it, and the rest. A second sign
belongs to the rest. -/
inductive Spelled : List Char → Spelling → Prop
  | minus {cs number suffix : List Char} (h : Cut Spelling.isNumberChar cs number suffix) :
    Spelled ('-' :: cs) ⟨true,number,suffix⟩
  | plus {cs number suffix : List Char} (h : Cut Spelling.isNumberChar cs number suffix) :
    Spelled ('+' :: cs) ⟨false,number,suffix⟩
  | bare {cs number suffix : List Char} (hminus : cs.head? ≠ some '-') (hplus : cs.head? ≠ some '+')
    (h : Cut Spelling.isNumberChar cs number suffix) : Spelled cs ⟨false,number,suffix⟩

theorem spelled_iff {cs : List Char} {s : Spelling} : Spelled cs s ↔ s = .ofChars cs := by
  constructor
  · intro h
    cases h with
    | minus h =>
      obtain ⟨rfl,rfl⟩ := cut_iff.mp h
      rfl
    | plus h =>
      obtain ⟨rfl,rfl⟩ := cut_iff.mp h
      rfl
    | bare hminus hplus h =>
      obtain ⟨rfl,rfl⟩ := cut_iff.mp h
      unfold Spelling.ofChars
      split
      · exact absurd rfl hminus
      · exact absurd rfl hplus
      · rfl
  · rintro rfl
    unfold Spelling.ofChars
    split
    · exact .minus (cut_while _ _)
    · exact .plus (cut_while _ _)
    · rename_i hminus hplus
      refine .bare ?_ ?_ (cut_while _ _)
      · intro h
        obtain ⟨rest,hrest⟩ := List.head?_eq_some_iff.mp h
        exact hminus rest hrest
      · intro h
        obtain ⟨rest,hrest⟩ := List.head?_eq_some_iff.mp h
        exact hplus rest hrest

theorem Spelled.number_chars {cs : List Char} {s : Spelling} (h : Spelled cs s) :
    ∀ c ∈ s.number, Spelling.isNumberChar c := by
  cases h with
  | minus h => exact h.front
  | plus h => exact h.front
  | bare _ _ h => exact h.front

/-- A run of digits and points that is no number. -/
def Malformed (number : List Char) : Prop := (∀ c ∈ number, ¬ c.isDigit) ∨ 1 < number.count '.'

/-- At least one digit, with at most one point, behind which they count for parts of one. -/
inductive Pointed : List Char → List Char → List Char → Prop
  | bare {whole : List Char} (hne : whole ≠ []) (hw : ∀ c ∈ whole, c.isDigit) :
    Pointed whole whole []
  | point {whole fraction : List Char} (hne : whole ++ fraction ≠ [])
    (hw : ∀ c ∈ whole, c.isDigit) (hf : ∀ c ∈ fraction, c.isDigit) :
    Pointed (whole ++ '.' :: fraction) whole fraction

namespace Spelling
variable {s : Spelling}

theorem bne_point {cs : List Char} (h : '.' ∉ cs) : ∀ c ∈ cs, (c != '.') = true := by
  intro c hc
  rw [bne_iff_ne]
  rintro rfl
  exact h hc

theorem parts_of_no_point (h : '.' ∉ s.number) : s.whole = s.number ∧ s.fraction = [] := by
  have hall := bne_point h
  constructor
  · exact List.takeWhile_eq_self_iff.mpr hall
  · rw [fraction, List.dropWhile_eq_nil_iff.mpr hall]
    rfl

theorem parts_of_point {front back : List Char} (h : s.number = front ++ '.' :: back)
    (hfront : '.' ∉ front) : s.whole = front ∧ s.fraction = back := by
  have hcut : Cut (· != '.') s.number front ('.' :: back) :=
    ⟨h.symm,bne_point hfront,by simp⟩
  obtain ⟨hwhole,hback⟩ := cut_iff.mp hcut
  refine ⟨hwhole.symm,?_⟩
  rw [fraction, ← hback]
  rfl

theorem digit_of_ne_point {cs : List Char} (hn : ∀ c ∈ cs, isNumberChar c) (h : '.' ∉ cs) :
    ∀ c ∈ cs, c.isDigit := by
  intro c hc
  have hchar := hn c hc
  rw [isNumberChar, Bool.or_eq_true, beq_iff_eq] at hchar
  refine hchar.resolve_right ?_
  rintro rfl
  exact h hc

theorem point_notMem {cs : List Char} (h : ∀ c ∈ cs, c.isDigit) : '.' ∉ cs := by
  intro hc
  exact absurd (h '.' hc) (by decide)

theorem pointed_of_hasNumber (hn : ∀ c ∈ s.number, isNumberChar c) (h : s.hasNumber) :
    Pointed s.number s.whole s.fraction := by
  simp only [hasNumber, Bool.and_eq_true, Bool.not_eq_true', Bool.and_eq_false_iff,
    List.isEmpty_eq_false_iff, List.contains_eq_mem, decide_eq_false_iff_not] at h
  obtain ⟨hne,hpoint⟩ := h
  by_cases hmem : '.' ∈ s.number
  · obtain ⟨front,back,hsplit,hfront⟩ := List.eq_append_cons_of_mem hmem
    obtain ⟨hwhole,hfraction⟩ := parts_of_point hsplit hfront
    rw [hwhole, hfraction] at hne ⊢
    rw [hfraction] at hpoint
    rw [hsplit] at hn ⊢
    refine .point ?_ (digit_of_ne_point (fun c hc => hn c ?_) hfront)
      (digit_of_ne_point (fun c hc => hn c ?_) hpoint)
    · rw [Ne, List.append_eq_nil_iff]
      tauto
    · exact List.mem_append_left _ hc
    · exact List.mem_append_right _ (List.mem_cons_of_mem _ hc)
  · obtain ⟨hwhole,hfraction⟩ := parts_of_no_point hmem
    rw [hwhole, hfraction] at hne ⊢
    exact .bare (by simpa using hne) (digit_of_ne_point hn hmem)

theorem pointed_iff (hn : ∀ c ∈ s.number, isNumberChar c) {whole fraction : List Char} :
    Pointed s.number whole fraction ↔
      s.hasNumber ∧ whole = s.whole ∧ fraction = s.fraction := by
  constructor
  · intro h
    generalize hnumber : s.number = number at h
    cases h with
    | bare hne hw =>
      obtain ⟨hwhole,hfraction⟩ := parts_of_no_point (hnumber ▸ point_notMem hw)
      simp [hasNumber, hwhole, hfraction, hnumber, hne]
    | point hne hw hf =>
      obtain ⟨rfl,rfl⟩ := parts_of_point hnumber (point_notMem hw)
      refine ⟨?_,rfl,rfl⟩
      have hpoint := point_notMem hf
      simp [hasNumber, hpoint] at hne ⊢
      tauto
  · rintro ⟨h,rfl,rfl⟩
    exact pointed_of_hasNumber hn h

end Spelling

theorem Pointed.not_malformed {number whole fraction : List Char}
    (h : Pointed number whole fraction) : ¬ Malformed number := by
  cases h with
  | bare hne hw =>
    rintro (hnone | hmany)
    · exact hnone _ (List.head_mem hne) (hw _ (List.head_mem hne))
    · rw [List.count_eq_zero_of_not_mem (Spelling.point_notMem hw)] at hmany
      omega
  | point hne hw hf =>
    rintro (hnone | hmany)
    · obtain ⟨c,hc⟩ := List.exists_mem_of_ne_nil _ hne
      have hmem : c ∈ whole ++ '.' :: fraction := by
        simp only [List.mem_append, List.mem_cons] at hc ⊢
        tauto
      refine hnone c hmem ?_
      exact (List.mem_append.mp hc).elim (hw c) (hf c)
    · rw [List.count_append, List.count_cons_self,
        List.count_eq_zero_of_not_mem (Spelling.point_notMem hw),
        List.count_eq_zero_of_not_mem (Spelling.point_notMem hf)] at hmany
      omega

theorem Pointed.countP_isDigit {number whole fraction : List Char}
    (h : Pointed number whole fraction) :
    number.countP Char.isDigit = whole.length + fraction.length := by
  cases h with
  | bare _ hw => simpa using List.countP_eq_length.mpr hw
  | point _ hw hf =>
    rw [List.countP_append, List.countP_cons_of_neg (by decide), List.countP_eq_length.mpr hw,
      List.countP_eq_length.mpr hf]

theorem Spelling.malformed_iff {s : Spelling} (hn : ∀ c ∈ s.number, isNumberChar c) :
    Malformed s.number ↔ ¬ s.hasNumber := by
  constructor
  · intro hmal hnum
    exact (pointed_of_hasNumber hn hnum).not_malformed hmal
  · intro hnum
    by_cases hmem : '.' ∈ s.number
    · obtain ⟨front,back,hsplit,hfront⟩ := List.eq_append_cons_of_mem hmem
      obtain ⟨hwhole,hfraction⟩ := parts_of_point hsplit hfront
      by_cases hback : '.' ∈ back
      · right
        have hpos := List.count_pos_iff.mpr hback
        rw [hsplit, List.count_append, List.count_cons_self]
        omega
      · left
        -- Without a second point the number is refused because nothing stands around the point.
        have hempty : front = [] ∧ back = [] := by
          simpa [hasNumber, hwhole, hfraction, hback] using hnum
        rw [hsplit, hempty.1, hempty.2]
        intro c hc
        obtain rfl := List.mem_singleton.mp hc
        decide
    · left
      obtain ⟨hwhole,hfraction⟩ := parts_of_no_point hmem
      have hempty : s.number = [] := by
        simpa [hasNumber, hwhole, hfraction] using hnum
      simp [hempty]

def binaryLetters : List (Char × Nat) := [('K', 10), ('M', 20), ('G', 30), ('T', 40), ('P', 50),
  ('E', 60)]

def decimalLetters : List (Char × Int) := [('n', -9), ('u', -6), ('m', -3), ('k', 3), ('M', 6),
  ('G', 9), ('T', 12), ('P', 15), ('E', 18)]

/-- The suffixes and what each of them multiplies by. -/
inductive Suffix : List Char → Scale → Prop
  | none : Suffix [] ⟨1,0⟩
  | binary {c : Char} {k : Nat} (h : (c, k) ∈ binaryLetters) : Suffix [c, 'i'] ⟨2 ^ k,0⟩
  | decimal {c : Char} {k : Int} (h : (c, k) ∈ decimalLetters) : Suffix [c] ⟨1,k⟩
  | exponent {mark : Char} {cs : List Char} {n : Int} (hmark : mark = 'e' ∨ mark = 'E')
    (h : WritesInt cs n) (hge : -2 ^ 31 ≤ n) (hlt : n < 2 ^ 31) : Suffix (mark :: cs) ⟨1,n⟩

namespace Scale
variable {cs : List Char} {scale : Scale}

theorem exponent?_eq_some_iff {n : Int} :
    exponent? cs = some n ↔ WritesInt cs n ∧ -2 ^ 31 ≤ n ∧ n < 2 ^ 31 := by
  rw [exponent?, Option.filter_eq_some_iff, int?_eq_some_iff, Bool.and_eq_true, decide_eq_true_eq,
    decide_eq_true_eq]
  norm_num
  omega

theorem named_eq : named = ("", decimal 0) ::
    (binaryLetters.map (fun p => (String.ofList [p.1, 'i'], binary p.2)) ++
      decimalLetters.map fun p => (String.ofList [p.1], decimal p.2)) := by
  decide

theorem lookup_named : ∀ p ∈ named, named.lookup p.1 = some p.2 := by
  decide

theorem tail_named : ∀ p ∈ named, p.1.toList.tail = [] ∨ p.1.toList.tail = ['i'] := by
  decide

theorem mem_named_of_lookup (h : named.lookup (String.ofList cs) = some scale) :
    (String.ofList cs, scale) ∈ named := by
  obtain ⟨front,back,hsplit,_⟩ := List.lookup_eq_some_iff.mp h
  rw [hsplit]
  exact List.mem_append_right _ List.mem_cons_self

theorem suffix_of_named (h : (String.ofList cs, scale) ∈ named) : Suffix cs scale := by
  rw [named_eq, List.mem_cons, List.mem_append, List.mem_map, List.mem_map] at h
  rcases h with h | ⟨p,hp,h⟩ | ⟨p,hp,h⟩
  · obtain ⟨hcs,rfl⟩ := Prod.mk.inj h
    have hnil : cs = [] := by simpa using congrArg String.toList hcs
    rw [hnil]
    exact .none
  · obtain ⟨hcs,rfl⟩ := Prod.mk.inj h
    rw [← String.ofList_injective hcs]
    exact .binary hp
  · obtain ⟨hcs,rfl⟩ := Prod.mk.inj h
    rw [← String.ofList_injective hcs]
    exact .decimal hp

theorem lookup_exponent {mark : Char} {n : Int} (h : WritesInt cs n) :
    named.lookup (String.ofList (mark :: cs)) = none := by
  cases hl : named.lookup (String.ofList (mark :: cs)) with
  | none => rfl
  | some scale =>
    have htail := tail_named _ (mem_named_of_lookup hl)
    rw [String.toList_ofList, List.tail_cons] at htail
    rcases htail with rfl | rfl
    · rw [← int?_eq_some_iff] at h
      cases h
    · rw [← int?_eq_some_iff] at h
      cases h

/-- A suffix is read as the scale that it stands for, and any other text is refused. -/
theorem ofSuffix?_eq_some_iff : ofSuffix? cs = some scale ↔ Suffix cs scale := by
  constructor
  · intro h
    unfold ofSuffix? at h
    split at h
    · rename_i hl
      cases h
      exact suffix_of_named (mem_named_of_lookup hl)
    · split_ifs at h with hmark
      obtain ⟨n,hn,rfl⟩ := Option.map_eq_some_iff.mp h
      obtain ⟨hwrites,hge,hlt⟩ := exponent?_eq_some_iff.mp hn
      exact .exponent hmark hwrites hge hlt
    · cases h
  · intro h
    unfold ofSuffix?
    cases h with
    | none => rfl
    | @binary c k h =>
      have hmem : (String.ofList [c, 'i'], binary k) ∈ named := by
        rw [named_eq]
        exact List.mem_cons_of_mem _ (List.mem_append_left _ (List.mem_map_of_mem h))
      rw [lookup_named _ hmem]
      rfl
    | @decimal c k h =>
      have hmem : (String.ofList [c], decimal k) ∈ named := by
        rw [named_eq]
        exact List.mem_cons_of_mem _ (List.mem_append_right _ (List.mem_map_of_mem h))
      rw [lookup_named _ hmem]
      rfl
    | exponent hmark h hge hlt =>
      rw [lookup_exponent h]
      dsimp only
      rw [if_pos hmark, exponent?_eq_some_iff.mpr ⟨h,hge,hlt⟩]
      rfl

end Scale

theorem Suffix.unique {cs : List Char} {scale scale' : Scale} (h : Suffix cs scale)
    (h' : Suffix cs scale') : scale = scale' := by
  rw [← Scale.ofSuffix?_eq_some_iff] at h h'
  exact Option.some.inj (h.symm.trans h')

end NodeRank.Quantity
