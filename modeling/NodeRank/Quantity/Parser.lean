import NodeRank.Quantity.Basic
import NodeRank.Quantity.Scale
import NodeRank.Text.Blank
import NodeRank.Text.Quoted

/-! # Reading quantities

A quantity is written as an optional sign, a decimal number and a suffix, with blanks around it.
The number is the longest run of digits and points; what follows is the suffix. `Spelling` is the
text taken apart, `parse` says what it amounts to or why it is refused.
-/
namespace NodeRank.Quantity

inductive ParseError where
  | empty
  | invalidNumber (text : String)
  | unknownSuffix (text suffix : String)
  | outOfRange (text : String)
deriving DecidableEq, Repr

def ParseError.message : ParseError → String
  | .empty => "empty quantity"
  | .invalidNumber text => "invalid number in quantity " ++ Text.quote text
  | .unknownSuffix text suffix =>
    "unknown suffix " ++ Text.quote suffix ++ " in quantity " ++ Text.quote text
  | .outOfRange text => "quantity " ++ Text.quote text ++ " is out of range"

structure Spelling where
  negative : Bool
  number : List Char
  suffix : List Char
deriving DecidableEq

namespace Spelling

def isNumberChar (c : Char) : Bool := c.isDigit || c == '.'

/-- Cuts off the number, the longest run of digits and points. -/
def unsigned (negative : Bool) (cs : List Char) : Spelling :=
  ⟨negative,cs.takeWhile isNumberChar,cs.dropWhile isNumberChar⟩

/-- Takes a text apart; at most one sign counts as a sign. -/
def ofChars : List Char → Spelling
  | '-' :: cs => unsigned true cs
  | '+' :: cs => unsigned false cs
  | cs => unsigned false cs

/-- The characters of the number in front of its first point. -/
def whole (s : Spelling) : List Char := s.number.takeWhile (· != '.')

def fraction (s : Spelling) : List Char := (s.number.dropWhile (· != '.')).drop 1

/-- A number has a digit and at most one point. -/
def hasNumber (s : Spelling) : Bool :=
  !(s.whole.isEmpty && s.fraction.isEmpty) && !s.fraction.contains '.'

def digitCount (s : Spelling) : Nat := s.whole.length + s.fraction.length

def digits (s : Spelling) : Nat :=
  (s.whole ++ s.fraction).foldl (fun n c => n * 10 + (c.toNat - '0'.toNat)) 0

end Spelling

def maxDigits : Nat := 24

def maxExponent : Nat := 64

/-- The amount, in billionths, of a text from which the blanks are gone. -/
def nanosOf (text : String) (s : Spelling) : Except ParseError Int :=
  if !s.hasNumber then .error (.invalidNumber text)
  else if maxDigits < s.digitCount then .error (.outOfRange text)
  else match Scale.ofSuffix? s.suffix with
    | none => .error (.unknownSuffix text (String.ofList s.suffix))
    | some scale =>
      -- The magnitude of -2 ^ 31 is no signed number of 32 bits. Here it is too large like others.
      if maxExponent < scale.exponent.natAbs then .error (.outOfRange text)
      else match scale.nanos? s.digits s.fraction.length with
        | none => .error (.outOfRange text)
        | some n => .ok (if s.negative then -(n : Int) else n)

/-- Reads a quantity and keeps its text without the blanks around it. -/
def parse (s : String) : Except ParseError Quantity :=
  match Text.trim s.toList with
  | [] => .error .empty
  | c :: cs =>
    let text := String.ofList (c :: cs)
    (nanosOf text (.ofChars (c :: cs))).map (⟨text,·⟩)

def parse? (s : String) : Option Quantity := (parse s).toOption

end NodeRank.Quantity
