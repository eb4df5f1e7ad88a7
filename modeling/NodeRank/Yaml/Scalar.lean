import NodeRank.Text.Integer
import NodeRank.Yaml.Cursor

/-! # YAML scalars

How the text of a scalar is read: plain, between single or double quotes, or as an indented block.
Lines inside a scalar are folded: a single line break reads as a space, of several the first is
dropped.
-/
namespace NodeRank.Yaml

inductive Style where
  | plain
  | quoted
  | literal
  | folded
deriving DecidableEq, Repr

/-- Blanks and line breaks between two words of a scalar. An escaped line break counts as a first
break without a text. -/
structure Gap where
  blanks : List Char
  first : Option (List Char)
  more : List Char

namespace Gap

def empty : Gap := ⟨[],none,[]⟩

def text (g : Gap) : List Char :=
  match g.first with
  | none => g.blanks
  | some ['\n'] => if g.more.isEmpty then [' '] else g.more
  | some b => b ++ g.more

/-- Extends a gap as far as it goes, in at most `fuel` steps. Behind a line break no tab may stand
before the column `limit`. -/
def extend? : Nat → Nat → Gap → Cursor → Option (Gap × Cursor)
  | 0, _, g, c => some (g, c)
  | fuel + 1, limit, g, c =>
    match c.head? with
    | none => some (g, c)
    | some x =>
      if isBlank x then
        if g.first.isNone then extend? fuel limit { g with blanks := g.blanks ++ [x] } (c.skip 1)
        else if x = '\t' ∧ c.column < limit then none
        else extend? fuel limit g (c.skip 1)
      else match c.break? with
        | none => some (g, c)
        | some (b, next) =>
          if g.first.isNone then extend? fuel limit ⟨[],some [b],[]⟩ next
          else extend? fuel limit { g with more := g.more ++ [b] } next

def read? (limit : Nat) (g : Gap) (c : Cursor) : Option (Gap × Cursor) :=
  extend? (c.rest.length + 1) limit g c

end Gap

/-! ### Plain scalars -/

def isFlowIndicator (c : Char) : Bool :=
  c == ',' || c == '[' || c == ']' || c == '\x7b' || c == '\x7d'

/-- The length of the word at the front of a text. Inside brackets the flow indicators end it, and
none of them nor a question mark may follow a colon. -/
def wordLength? (inFlow : Bool) : List Char → Option Nat
  | [] => some 0
  | c :: rest =>
    if isBlank c || isBreak c then some 0
    else if c == ':' && isGap rest.head? then some 0
    else if c == ':' && inFlow && rest.head?.any (fun d => isFlowIndicator d || d == '?') then none
    else if inFlow && isFlowIndicator c then some 0
    else (wordLength? inFlow rest).map (· + 1)

/-- A scalar that has been read, where it ends, and whether a line break follows it. -/
structure Read where
  text : List Char
  next : Cursor
  endsLine : Bool

/-- Reads words and gaps as long as they belong to a plain scalar, whose further lines are indented
by at least `limit` columns outside of brackets. -/
def plainFrom? : Nat → Bool → Nat → List Char → Gap → Cursor → Option Read
  | 0, _, _, _, _, _ => none
  | fuel + 1, inFlow, limit, text, gap, c =>
    if c.seesDocumentMark || c.sees '#' then some ⟨text,c,gap.first.isSome⟩
    else do
      let n ← wordLength? inFlow c.rest
      let (text, gap) := if n = 0 then (text, gap) else (text ++ gap.text ++ c.rest.take n, .empty)
      let c := c.skip n
      if c.rest.isEmpty || !isGap c.head? then some ⟨text,c,gap.first.isSome⟩
      else
        let (gap, c) ← gap.read? limit c
        if !inFlow && c.column < limit then some ⟨text,c,gap.first.isSome⟩
        else plainFrom? fuel inFlow limit text gap c

def plain? (inFlow : Bool) (limit : Nat) (c : Cursor) : Option Read :=
  plainFrom? (c.rest.length + 1) inFlow limit [] .empty c

/-! ### Quoted scalars -/

def letterEscape? : Char → Option Char
  | '0' => some '\x00'
  | 'a' => some '\x07'
  | 'b' => some '\x08'
  | 't' => some '\t'
  | '\t' => some '\t'
  | 'n' => some '\n'
  | 'v' => some '\x0b'
  | 'f' => some '\x0c'
  | 'r' => some '\r'
  | 'e' => some '\x1b'
  | ' ' => some ' '
  | '"' => some '"'
  | '/' => some '/'
  | '\\' => some '\\'
  | 'N' => some '\u0085'
  | '_' => some '\u00a0'
  | 'L' => some '\u2028'
  | 'P' => some '\u2029'
  | _ => none

/-- How many hexadecimal digits follow the letter of a numeric escape. -/
def escapeWidth? : Char → Option Nat
  | 'x' => some 2
  | 'u' => some 4
  | 'U' => some 8
  | _ => none

def escape? (c : Cursor) : Option (Char × Cursor) := do
  let letter ← c.head?
  match escapeWidth? letter with
  | none => (letterEscape? letter).map (·, c.skip 1)
  | some width =>
    let digits := (c.rest.drop 1).take width
    let n ← if digits.length = width then Text.nat? 16 digits else none
    if n.isValidChar then some (Char.ofNat n, c.skip (1 + width)) else none

/-- Reads the characters of a quoted scalar up to a gap, its end or an escaped line break; says
whether it was the latter. -/
def quotedRun? : Nat → Bool → List Char → Cursor → Option (List Char × Bool × Cursor)
  | 0, _, _, _ => none
  | fuel + 1, single, text, c =>
    match c.head? with
    | none => some (text, false, c)
    | some x =>
      if isBlank x || isBreak x then some (text, false, c)
      else if single then
        if x != '\x27' then quotedRun? fuel single (text ++ [x]) (c.skip 1)
        else if c.at? 1 == some '\x27' then quotedRun? fuel single (text ++ ['\x27']) (c.skip 2)
        else some (text, false, c)
      else if x == '"' then some (text, false, c)
      else if x == '\\' then
        match (c.skip 1).break? with
        | some (_, next) => some (text, true, next)
        | none =>
          match escape? (c.skip 1) with
          | some (y, next) => quotedRun? fuel single (text ++ [y]) next
          | none => none
      else quotedRun? fuel single (text ++ [x]) (c.skip 1)

def quotedFrom? : Nat → Bool → List Char → Cursor → Option Read
  | 0, _, _, _ => none
  | fuel + 1, single, text, c =>
    if c.seesDocumentMark || c.rest.isEmpty then none
    else do
      let (text, escaped, c) ← quotedRun? (c.rest.length + 1) single text c
      if c.sees (if single then '\x27' else '"') then some ⟨text,c.skip 1,false⟩
      else
        let start : Gap := if escaped then ⟨[],some [],[]⟩ else .empty
        let (gap, c) ← start.read? 0 c
        quotedFrom? fuel single (text ++ gap.text) c

def quoted? (single : Bool) (c : Cursor) : Option Read :=
  quotedFrom? (c.rest.length + 1) single [] (c.skip 1)

/-! ### Block scalars -/

/-- What becomes of the line breaks at the end of a block scalar. -/
inductive Chomping where
  | strip
  | clip
  | keep
deriving DecidableEq

def chomping? : Option Char → Option Chomping
  | some '-' => some .strip
  | some '+' => some .keep
  | _ => none

/-- A digit that says how far a block is indented. -/
def indentDigit? (c : Option Char) : Option Nat := (c.bind (Text.digitOf? 10)).filter (0 < ·)

/-- The header of a block scalar: chomping and indentation, in either order; a zero is refused. -/
def blockHeader? (c : Cursor) : Option (Chomping × Option Nat × Cursor) :=
  let (chomping, digit, c) :=
    match chomping? c.head?, indentDigit? c.head? with
    | some ch, _ =>
      match indentDigit? (c.at? 1) with
      | some d => (ch, some d, c.skip 2)
      | none => (ch, none, c.skip 1)
    | none, some d =>
      match chomping? (c.at? 1) with
      | some ch => (ch, some d, c.skip 2)
      | none => (Chomping.clip, some d, c.skip 1)
    | none, none => (Chomping.clip, none, c)
  (c.lineEnd?).map (chomping, digit, ·)

/-- Passes over indentation and empty lines. Without a given indentation it also finds out the
widest one; the breaks are collected. -/
def blockBreaks? : Nat → Option Nat → Nat → List Char → Cursor → Option (List Char × Nat × Cursor)
  | 0, _, _, _, _ => none
  | fuel + 1, indent, widest, breaks, c =>
    let spaces := (c.rest.takeWhile (· == ' ')).length
    let c := c.skip (match indent with
      | some n => min spaces (n - c.column)
      | none => spaces)
    let widest := max widest c.column
    if c.sees '\t' && (match indent with | some n => decide (c.column < n) | none => true) then none
    else match c.break? with
      | some (b, next) => blockBreaks? fuel indent widest (breaks ++ [b]) next
      | none => some (breaks, widest, c)

/-- The lines of a block scalar of known indentation. The line break of the line before and the
empty lines after it come in front of each line. -/
def blockLines? : Nat → Bool → Nat → List Char → List Char → List Char → Bool → Cursor →
    Option (List Char × List Char × List Char × Cursor)
  | 0, _, _, _, _, _, _, _ => none
  | fuel + 1, isLiteral, indent, text, lead, breaks, afterBlank, c =>
    if c.column != indent || c.rest.isEmpty then some (text, lead, breaks, c)
    else do
      let startsBlank := c.head?.any isBlank
      let folds := !isLiteral && lead == ['\n'] && !afterBlank && !startsBlank
      let between := if folds then (if breaks.isEmpty then [' '] else breaks) else lead ++ breaks
      let line := c.rest.takeWhile (!isBreak ·)
      let c := c.skip line.length
      let (lead, c) := match c.break? with
        | some (b, next) => ([b], next)
        | none => ([], c)
      let (breaks, _, c) ← blockBreaks? (c.rest.length + 1) (some indent) 0 [] c
      blockLines? fuel isLiteral indent (text ++ between ++ line) lead breaks startsBlank c

/-- Reads a block scalar from its indicator on, inside a collection of the given indentation. -/
def block? (isLiteral : Bool) (parentIndent : Int) (c : Cursor) : Option Read := do
  let (chomping, digit, c) ← blockHeader? (c.skip 1)
  let given := digit.map fun d => parentIndent.toNat + d
  let (breaks, widest, c) ← blockBreaks? (c.rest.length + 1) given 0 [] c
  let indent := given.getD (max widest (max (parentIndent + 1).toNat 1))
  let (text, lead, breaks, c) ←
    blockLines? (c.rest.length + 1) isLiteral indent [] [] breaks false c
  let tail := match chomping with
    | .strip => []
    | .clip => lead
    | .keep => lead ++ breaks
  some ⟨text ++ tail,c,false⟩

end NodeRank.Yaml
