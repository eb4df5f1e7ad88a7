/-! # Integers in text

Digits of a base from two to sixteen, of either case, at least one of them; a sign is at most one
character in front.
-/
namespace NodeRank.Text

def digit? (c : Char) : Option Nat :=
  if '0' ≤ c ∧ c ≤ '9' then some (c.toNat - '0'.toNat)
  else if 'a' ≤ c ∧ c ≤ 'f' then some (c.toNat - 'a'.toNat + 10)
  else if 'A' ≤ c ∧ c ≤ 'F' then some (c.toNat - 'A'.toNat + 10)
  else none

def digitOf? (base : Nat) (c : Char) : Option Nat := (digit? c).filter (· < base)

/-- The number that `acc` followed by the digits spells, if they are digits. -/
def natFrom? (base : Nat) : Nat → List Char → Option Nat
  | acc, [] => some acc
  | acc, c :: rest =>
    match digitOf? base c with
    | some d => natFrom? base (acc * base + d) rest
    | none => none

def nat? (base : Nat) (cs : List Char) : Option Nat :=
  if cs.isEmpty then none else natFrom? base 0 cs

def int? (base : Nat) : List Char → Option Int
  | '-' :: cs => (nat? base cs).map fun n => -(n : Int)
  | '+' :: cs => (nat? base cs).map Int.ofNat
  | cs => (nat? base cs).map Int.ofNat

example : int? 10 "-12".toList = some (-12) ∧ int? 16 "fF".toList = some 255 := by decide
example : int? 10 "+-1".toList = none ∧ int? 10 "".toList = none := by decide
example : int? 8 "8".toList = none := by decide

end NodeRank.Text
