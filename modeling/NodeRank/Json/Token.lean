import NodeRank.Json.Basic
import NodeRank.Text.Integer

/-! # JSON tokens

A JSON text cut into punctuation, strings and other scalars, with the blanks between them dropped.
Where the tokens may stand is not decided here.
-/
namespace NodeRank.Json

inductive Token where
  | openArray
  | closeArray
  | openObject
  | closeObject
  | comma
  | colon
  | string (s : JsonString)
  | scalar (v : Json)

namespace Token

def isBlank (c : Char) : Bool := c == ' ' || c == '\t' || c == '\n' || c == '\r'

def shortEscape? : Char → Option Char
  | '"' => some '"'
  | '\\' => some '\\'
  | '/' => some '/'
  | 'b' => some '\x08'
  | 'f' => some '\x0c'
  | 'n' => some '\n'
  | 'r' => some '\r'
  | 't' => some '\t'
  | _ => none

def unit? (a b c d : Char) : Option Nat := Text.nat? 16 [a, b, c, d]

def isHighSurrogate (n : Nat) : Bool := 0xD800 ≤ n && n < 0xDC00

def isLowSurrogate (n : Nat) : Bool := 0xDC00 ≤ n && n < 0xE000

def pairValue (high low : Nat) : Nat := 0x10000 + (high - 0xD800) * 0x400 + (low - 0xDC00)

/-- Reads a string behind its opening quote. The characters so far come in reverse, and are `none`
from the first half surrogate pair on. -/
def string? (done : Option (List Char)) : List Char → Option (JsonString × List Char)
  | '"' :: rest => some (done.map fun cs => String.ofList cs.reverse, rest)
  | '\\' :: 'u' :: a :: b :: c :: d :: '\\' :: 'u' :: e :: f :: g :: h :: rest =>
    match unit? a b c d, unit? e f g h with
    | some high, some low =>
      if isHighSurrogate high && isLowSurrogate low then
        string? (done.map (Char.ofNat (pairValue high low) :: ·)) rest
      else if isHighSurrogate high || isLowSurrogate high then
        string? none ('\\' :: 'u' :: e :: f :: g :: h :: rest)
      else string? (done.map (Char.ofNat high :: ·)) ('\\' :: 'u' :: e :: f :: g :: h :: rest)
    | _, _ => none
  | '\\' :: 'u' :: a :: b :: c :: d :: rest =>
    match unit? a b c d with
    | some n =>
      let isHalf := isHighSurrogate n || isLowSurrogate n
      string? (if isHalf then none else done.map (Char.ofNat n :: ·)) rest
    | none => none
  | '\\' :: c :: rest =>
    match shortEscape? c with
    | some r => string? (done.map (r :: ·)) rest
    | none => none
  | c :: rest => if c.toNat < 0x20 then none else string? (done.map (c :: ·)) rest
  | [] => none
termination_by cs => cs.length

/-- The integer part of a number: a zero alone, or digits. -/
def integerPart : List Char → List Char × List Char
  | '0' :: rest => (['0'], rest)
  | cs => cs.span Char.isDigit

/-- A fraction, if a point comes next; refused if no digit follows the point. -/
def fraction? : List Char → Option (List Char × List Char)
  | '.' :: rest =>
    let (digits, rest) := rest.span Char.isDigit
    if digits.isEmpty then none else some ('.' :: digits, rest)
  | cs => some ([], cs)

/-- An exponent, if its letter comes next; refused if no digit follows. -/
def exponent? : List Char → Option (List Char × List Char)
  | c :: rest =>
    if c = 'e' ∨ c = 'E' then
      let (sign, rest) := match rest with
        | '+' :: r => (['+'], r)
        | '-' :: r => (['-'], r)
        | r => ([], r)
      let (digits, rest) := rest.span Char.isDigit
      if digits.isEmpty then none else some (c :: sign ++ digits, rest)
    else some ([], c :: rest)
  | [] => some ([], [])

def number? (cs : List Char) : Option (Json × List Char) := do
  let (sign, cs) := match cs with
    | '-' :: rest => (['-'], rest)
    | _ => ([], cs)
  let (whole, cs) := integerPart cs
  if whole.isEmpty then none
  let (fraction, cs) ← fraction? cs
  let (exponent, cs) ← exponent? cs
  let literal := sign ++ whole ++ fraction ++ exponent
  if fraction.isEmpty && exponent.isEmpty && literal != ['-', '0'] then
    let n ← Text.int? 10 literal
    some (.integer n, cs)
  else some (.decimal (String.ofList literal), cs)

/-- Reads the token at the front of a text that does not begin with a blank. -/
def next? : List Char → Option (Token × List Char)
  | '[' :: rest => some (.openArray, rest)
  | ']' :: rest => some (.closeArray, rest)
  | '\x7b' :: rest => some (.openObject, rest)
  | '\x7d' :: rest => some (.closeObject, rest)
  | ',' :: rest => some (.comma, rest)
  | ':' :: rest => some (.colon, rest)
  | '"' :: rest => (string? (some []) rest).map fun (s, rest) => (.string s, rest)
  | 'n' :: 'u' :: 'l' :: 'l' :: rest => some (.scalar .null, rest)
  | 't' :: 'r' :: 'u' :: 'e' :: rest => some (.scalar (.bool true), rest)
  | 'f' :: 'a' :: 'l' :: 's' :: 'e' :: rest => some (.scalar (.bool false), rest)
  | cs => (number? cs).map fun (v, rest) => (.scalar v, rest)

/-- Reads at most `fuel` tokens, which is enough for a text of that many characters. -/
def scanUpTo (fuel : Nat) (done : List Token) (cs : List Char) : Option (List Token) :=
  match fuel, cs.dropWhile isBlank with
  | _, [] => some done.reverse
  | 0, _ => none
  | fuel + 1, cs =>
    match next? cs with
    | some (t, rest) => scanUpTo fuel (t :: done) rest
    | none => none

def scan (s : String) : Option (List Token) := scanUpTo s.length [] s.toList

end Token
end NodeRank.Json
