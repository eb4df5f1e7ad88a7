/-! # Positions in a YAML text

Layout decides the structure of a YAML text, so a reader keeps the line and the column that it has
reached next to the text that is left. A line ends with a line feed, a carriage return, both
together, or one of three other line separators.
-/
namespace NodeRank.Yaml

def isBlank (c : Char) : Bool := c == ' ' || c == '\t'

def isBreak (c : Char) : Bool :=
  c == '\n' || c == '\r' || c.toNat == 0x85 || c.toNat == 0x2028 || c.toNat == 0x2029

/-- Whether nothing, a blank or a line break comes next. -/
def isGap : Option Char → Bool
  | none => true
  | some c => isBlank c || isBreak c

/-- The characters of names: letters and digits of ASCII, hyphen and underscore. -/
def isNameChar (c : Char) : Bool := c.isAlphanum || c == '-' || c == '_'

def isAllowed (c : Char) : Bool :=
  let n := c.toNat
  n == 0x9 || n == 0xA || n == 0xD || (0x20 ≤ n && n ≤ 0x7E) || n == 0x85 ||
    (0xA0 ≤ n && n ≤ 0xD7FF) || (0xE000 ≤ n && n ≤ 0xFFFD) || 0x10000 ≤ n

/-- The text that is left, and the place where it begins. -/
structure Cursor where
  rest : List Char
  index : Nat
  line : Nat
  column : Nat

namespace Cursor

def ofText (cs : List Char) : Cursor := ⟨cs,0,0,0⟩

def head? (c : Cursor) : Option Char := c.rest.head?

def at? (c : Cursor) (k : Nat) : Option Char := c.rest[k]?

def sees (c : Cursor) (x : Char) : Bool := c.head? == some x

def skip (c : Cursor) (n : Nat) : Cursor := ⟨c.rest.drop n,c.index + n,c.line,c.column + n⟩

/-- Passes over the characters of the line that have a property. -/
def skipWhile (c : Cursor) (p : Char → Bool) : Cursor := c.skip (c.rest.takeWhile p).length

/-- Reads a line break, if one comes next. The usual ones count as a line feed, the separators of
lines and paragraphs as themselves. -/
def break? (c : Cursor) : Option (Char × Cursor) :=
  match c.rest with
  | '\r' :: '\n' :: rest => some ('\n', ⟨rest,c.index + 2,c.line + 1,0⟩)
  | x :: rest =>
    if isBreak x then
      let read := if x.toNat = 0x2028 ∨ x.toNat = 0x2029 then x else '\n'
      some (read, ⟨rest,c.index + 1,c.line + 1,0⟩)
    else none
  | [] => none

def skipBreak (c : Cursor) : Cursor :=
  match c.break? with
  | some (_, next) => next
  | none => c

/-- Whether the line begins with a mark of three equal characters that stands by itself. -/
def seesMark (c : Cursor) (x : Char) : Bool :=
  c.column == 0 && c.at? 0 == some x && c.at? 1 == some x && c.at? 2 == some x && isGap (c.at? 3)

/-- Whether a line of three hyphens or three points begins here. -/
def seesDocumentMark (c : Cursor) : Bool := c.seesMark '-' || c.seesMark '.'

/-- Passes over blanks and a comment up to the end of the line; refused if anything else stands
there. -/
def lineEnd? (c : Cursor) : Option Cursor :=
  let c := c.skipWhile isBlank
  let c := if c.sees '#' then c.skipWhile (!isBreak ·) else c
  match c.head? with
  | none => some c
  | some x => if isBreak x then some c.skipBreak else none

end Cursor
end NodeRank.Yaml
