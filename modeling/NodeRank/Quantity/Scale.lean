import NodeRank.Text.Integer

/-! # Scales

What the suffix of a quantity multiplies its number by: a power of two, or a power of ten that is
named by a letter or written out after an `e`.
-/
namespace NodeRank.Quantity

/-- A factor `multiplier * 10 ^ exponent`. -/
structure Scale where
  multiplier : Nat
  exponent : Int
deriving DecidableEq

namespace Scale

def binary (exponent : Nat) : Scale := ⟨Nat.pow 2 exponent,0⟩

def decimal (exponent : Int) : Scale := ⟨1,exponent⟩

def named : List (String × Scale) := [
  ("", decimal 0),
  ("Ki", binary 10), ("Mi", binary 20), ("Gi", binary 30),
  ("Ti", binary 40), ("Pi", binary 50), ("Ei", binary 60),
  ("n", decimal (-9)), ("u", decimal (-6)), ("m", decimal (-3)),
  ("k", decimal 3), ("M", decimal 6), ("G", decimal 9), ("T", decimal 12), ("P", decimal 15),
  ("E", decimal 18)]

/-- An exponent is written with at most one sign and fits 32 bits. -/
def exponent? (cs : List Char) : Option Int :=
  (Text.int? 10 cs).filter fun n => -2147483648 ≤ n && n ≤ 2147483647

def ofSuffix? (suffix : List Char) : Option Scale :=
  match named.lookup (String.ofList suffix), suffix with
  | some scale, _ => some scale
  | none, c :: rest => if c = 'e' ∨ c = 'E' then (exponent? rest).map decimal else none
  | none, [] => none

/-- The largest number of billionths that a quantity holds, on either side of zero. -/
def maxNanos : Nat := Nat.pow 2 127 - 1

/-- The billionths of `digits / 10 ^ places` on a scale, rounded up. There are none when the
multiplied digits, the power of ten or their product pass the limit. -/
def nanos? (scale : Scale) (digits places : Nat) : Option Nat :=
  let scaled := digits * scale.multiplier
  if maxNanos < scaled then none
  else match 9 + scale.exponent - places with
    | .ofNat up =>
      let factor := Nat.pow 10 up
      if maxNanos < factor ∨ maxNanos < scaled * factor then none else some (scaled * factor)
    | .negSucc down =>
      let divisor := Nat.pow 10 (down + 1)
      some ((scaled + (divisor - 1)) / divisor)

end Scale
end NodeRank.Quantity
