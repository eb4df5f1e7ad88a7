/-! # Identifiers

A universally unique identifier is thirty-two hexadecimal digits. It is written in groups of eight,
four, four, four and twelve with hyphens between them, and also read without hyphens, in braces or
behind `urn:uuid:`.
-/
namespace NodeRank

@[ext] structure Uuid where
  digits : List (Fin 16)
  length_eq : digits.length = 32
deriving DecidableEq

namespace Uuid

def zero : Uuid := ⟨List.replicate 32 0,rfl⟩

instance : Inhabited Uuid := ⟨zero⟩

def digitChar (d : Fin 16) : Char := Nat.digitChar d.val

def digit? (c : Char) : Option (Fin 16) :=
  (List.finRange 16).find? fun d => digitChar d = c ∨ (digitChar d).toUpper = c

theorem digit?_digitChar (d : Fin 16) : digit? (digitChar d) = some d := by
  revert d; decide

def groups : List Nat := [8, 4, 4, 4, 12]

def hyphenate : List Nat → List Char → List Char
  | [], cs => cs
  | [_], cs => cs
  | n :: ns, cs => cs.take n ++ '-' :: hyphenate ns (cs.drop n)

/-- Takes the hyphens out again; refused where one is missing. -/
def unhyphenate? : List Nat → List Char → Option (List Char)
  | [], cs => some cs
  | [_], cs => some cs
  | n :: ns, cs =>
    match cs.drop n with
    | '-' :: rest => (unhyphenate? ns rest).map (cs.take n ++ ·)
    | _ => none

def render (u : Uuid) : String := String.ofList (hyphenate groups (u.digits.map digitChar))

def ofDigits? (cs : List Char) : Option Uuid := do
  let digits ← cs.mapM digit?
  if h : digits.length = 32 then some ⟨digits,h⟩ else none

/-- What stands inside braces or behind the name of the scheme, if either is there. -/
def bare (cs : List Char) : List Char :=
  let scheme := "urn:uuid:".toList
  if cs.length = 38 ∧ cs.head? = some '\x7b' ∧ cs.getLast? = some '\x7d' then (cs.drop 1).dropLast
  else if cs.length = 45 ∧ scheme.isPrefixOf cs then cs.drop scheme.length
  else cs

def parse? (s : String) : Option Uuid :=
  let cs := s.toList
  if cs.length = 32 then ofDigits? cs else (unhyphenate? groups (bare cs)).bind ofDigits?

end Uuid
end NodeRank
