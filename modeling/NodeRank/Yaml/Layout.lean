import NodeRank.Yaml.Token

/-! # YAML layout

Where block collections begin and end follows from columns, and that something was a key is known
only at the colon behind it. `Layout` is the state of one pass over a text: the tokens so far, the
indentation of the open collections, and for each level of brackets the place where a key may have
begun. The colon then puts the mark of the key in front of that place.
-/
namespace NodeRank.Yaml

/-- A place where a key may have begun: how many tokens precede it, and where it stands. A key at
the indentation of its collection has to turn out to be one. -/
structure KeyPlace where
  required : Bool
  position : Nat
  index : Nat
  line : Nat
  column : Nat

/-- The state of the pass; tokens, indentations and places are listed from the latest on. -/
structure Layout where
  cursor : Cursor
  tokens : List Token
  indent : Int
  outer : List Int
  place : Option KeyPlace
  places : List (Option KeyPlace)
  keyAllowed : Bool

namespace Layout

def start (cs : List Char) : Layout := ⟨.ofText cs,[],-1,[],none,[],true⟩

def inFlow (l : Layout) : Bool := !l.places.isEmpty

def column (l : Layout) : Int := l.cursor.column

def push (l : Layout) (t : Token) : Layout := { l with tokens := t :: l.tokens }

def moveTo (l : Layout) (c : Cursor) : Layout := { l with cursor := c }

def insert (l : Layout) (position : Nat) (t : Token) : Layout :=
  let later := l.tokens.length - position
  { l with tokens := l.tokens.take later ++ t :: l.tokens.drop later }

/-! ### Indentation -/

/-- Closes the block collections that are indented by more than `column`, at most `fuel` of them. -/
def unrollUpTo : Nat → Int → Layout → Layout
  | 0, _, l => l
  | fuel + 1, column, l =>
    if l.indent ≤ column then l
    else unrollUpTo fuel column
      { l.push .blockEnd with indent := l.outer.headD (-1), outer := l.outer.tail }

def unroll (l : Layout) (column : Int) : Layout :=
  if l.inFlow then l else unrollUpTo l.outer.length column l

/-- Opens a block collection at a column, unless one is open there; its token goes behind the first
`position` ones. -/
def roll (l : Layout) (column : Int) (position : Nat) (t : Token) : Layout :=
  if l.inFlow || column ≤ l.indent then l
  else { l.insert position t with indent := column, outer := l.indent :: l.outer }

/-! ### Keys -/

def maxKeyLength : Nat := 1024

/-- Forgets a place on an earlier line or too far back; refused if a key had to be there. -/
def refresh? (c : Cursor) : Option KeyPlace → Option (Option KeyPlace)
  | none => some none
  | some p =>
    if p.line < c.line || p.index + maxKeyLength < c.index then
      if p.required then none else some none
    else some (some p)

def refreshPlaces? (l : Layout) : Option Layout := do
  let place ← refresh? l.cursor l.place
  let places ← l.places.mapM (refresh? l.cursor)
  some { l with place, places }

/-- Forgets the place of this level; refused if a key had to be there. -/
def dropPlace? (l : Layout) : Option Layout :=
  if l.place.any (·.required) then none else some { l with place := none }

def notePlace? (l : Layout) : Option Layout :=
  if l.keyAllowed then do
    let required := !l.inFlow && l.indent == l.column
    let l ← l.dropPlace?
    some { l with
      place := some ⟨required,l.tokens.length,l.cursor.index,l.cursor.line,l.cursor.column⟩ }
  else some l

def allowKey (l : Layout) (allowed : Bool) : Layout := { l with keyAllowed := allowed }

/-! ### Steps -/

/-- Passes over blanks, comments and line breaks. A tab counts as a blank where no key may begin;
behind a line break outside of brackets a key may begin. -/
def toNextTokenUpTo : Nat → Layout → Layout
  | 0, l => l
  | fuel + 1, l =>
    let c := if l.cursor.index = 0 && l.cursor.sees '\uFEFF' then l.cursor.skip 1 else l.cursor
    let c := c.skipWhile fun x => x == ' ' || (x == '\t' && (l.inFlow || !l.keyAllowed))
    let c := if c.sees '#' then c.skipWhile (!isBreak ·) else c
    match c.break? with
    | some (_, next) =>
      toNextTokenUpTo fuel { l with cursor := next, keyAllowed := l.keyAllowed || !l.inFlow }
    | none => l.moveTo c

def toNextToken (l : Layout) : Layout := toNextTokenUpTo (l.cursor.rest.length + 1) l

/-- Ends all block collections, as a directive, the mark of a document or the end of the text
does. -/
def outermost? (l : Layout) : Option Layout := do
  some ((← (l.unroll (-1)).dropPlace?).allowKey false)

def documentMark? (l : Layout) (t : Token) : Option Layout := do
  let l ← l.outermost?
  some ((l.push t).moveTo (l.cursor.skip 3))

def openBracket? (l : Layout) (t : Token) : Option Layout := do
  let l ← l.notePlace?
  some { l.push t with
    cursor := l.cursor.skip 1, place := none, places := l.place :: l.places, keyAllowed := true }

def closeBracket? (l : Layout) (t : Token) : Option Layout := do
  let l ← l.dropPlace?
  some { l.push t with
    cursor := l.cursor.skip 1
    place := if l.inFlow then l.places.headD none else l.place
    places := l.places.tail
    keyAllowed := false }

def flowEntry? (l : Layout) : Option Layout := do
  let l ← l.dropPlace?
  some (((l.push .flowEntry).allowKey true).moveTo (l.cursor.skip 1))

/-- A hyphen opens a sequence at its column, or goes on with it. -/
def blockEntry? (l : Layout) : Option Layout := do
  if !l.inFlow && !l.keyAllowed then none
  let l ← (l.roll l.column l.tokens.length .blockSequenceStart).dropPlace?
  some (((l.push .blockEntry).allowKey true).moveTo (l.cursor.skip 1))

def key? (l : Layout) : Option Layout := do
  if !l.inFlow && !l.keyAllowed then none
  let l ← (l.roll l.column l.tokens.length .blockMappingStart).dropPlace?
  some (((l.push .key).allowKey !l.inFlow).moveTo (l.cursor.skip 1))

/-- A colon makes a key of what began at the noted place; without one it stands behind an empty
key. -/
def value? (l : Layout) : Option Layout :=
  match l.place with
  | some p =>
    let l := (l.insert p.position .key).roll p.column p.position .blockMappingStart
    some { l.push .value with cursor := l.cursor.skip 1, place := none, keyAllowed := false }
  | none =>
    if !l.inFlow && !l.keyAllowed then none
    else
      let l := l.roll l.column l.tokens.length .blockMappingStart
      some (((l.push .value).allowKey !l.inFlow).moveTo (l.cursor.skip 1))

/-- A token that may begin a key and is no key place itself. -/
def content? (l : Layout) (read : Cursor → Option (Token × Cursor)) : Option Layout := do
  let l ← l.notePlace?
  let (t, c) ← read l.cursor
  some (((l.push t).allowKey false).moveTo c)

def quoted? (l : Layout) (single : Bool) : Option Layout :=
  l.content? fun c =>
    (Yaml.quoted? single c).map fun r => (.scalar .quoted (String.ofList r.text), r.next)

def plain? (l : Layout) : Option Layout := do
  let l ← l.notePlace?
  let r ← Yaml.plain? l.inFlow (l.indent + 1).toNat l.cursor
  some (((l.push (.scalar .plain (String.ofList r.text))).allowKey r.endsLine).moveTo r.next)

def block? (l : Layout) (isLiteral : Bool) : Option Layout := do
  let l ← l.dropPlace?
  let r ← Yaml.block? isLiteral l.indent l.cursor
  let style := if isLiteral then .literal else .folded
  some (((l.push (.scalar style (String.ofList r.text))).allowKey true).moveTo r.next)

/-- Whether a plain scalar may begin with the next characters. -/
def startsPlain (l : Layout) : Bool :=
  let next := l.cursor.at? 1
  match l.cursor.head? with
  | none => false
  | some x =>
    if x == '-' then !next.any isBlank
    else if x == '?' || x == ':' then !l.inFlow && !isGap next
    else !(isBlank x || isBreak x || ",[]\x7b\x7d#&*!|>'\"%@\x60".toList.contains x)

/-- Reads the token that begins with `x`, which is the next character. -/
def token? (l : Layout) (x : Char) : Option Layout :=
  let flow := l.inFlow
  let gapFollows := isGap (l.cursor.at? 1)
  if l.column == 0 && x == '%' then do
    let l ← l.outermost?
    let (t, c) ← Token.directive? l.cursor
    some ((l.push t).moveTo c)
  else if l.cursor.seesMark '-' then l.documentMark? .documentStart
  else if l.cursor.seesMark '.' then l.documentMark? .documentEnd
  else if x == '[' then l.openBracket? .flowSequenceStart
  else if x == '\x7b' then l.openBracket? .flowMappingStart
  else if x == ']' then l.closeBracket? .flowSequenceEnd
  else if x == '\x7d' then l.closeBracket? .flowMappingEnd
  else if x == ',' then l.flowEntry?
  else if x == '-' && gapFollows then l.blockEntry?
  else if x == '?' && (flow || gapFollows) then l.key?
  else if x == ':' && (flow || gapFollows) then l.value?
  else if x == '*' then
    l.content? fun c => (Token.name? (c.skip 1)).map fun (name, c) => (.reference name, c)
  else if x == '&' then
    l.content? fun c => (Token.name? (c.skip 1)).map fun (name, c) => (.anchor name, c)
  else if x == '!' then l.content? (Token.tag? flow)
  else if x == '|' && !flow then l.block? true
  else if x == '>' && !flow then l.block? false
  else if x == '\x27' then l.quoted? true
  else if x == '"' then l.quoted? false
  else if l.startsPlain then l.plain?
  else none

/-- Reads all tokens; there are no more of them than characters. -/
def scanUpTo : Nat → Layout → Option Layout
  | 0, _ => none
  | fuel + 1, l => do
    let l ← l.toNextToken.refreshPlaces?
    let l := l.unroll l.column
    match l.cursor.head? with
    | none => l.outermost?
    | some x => scanUpTo fuel (← l.token? x)

end Layout

def Token.scan (cs : List Char) : Option (List Token) :=
  if cs.all isAllowed then
    (Layout.scanUpTo (cs.length + 1) (.start cs)).map (·.tokens.reverse)
  else none

end NodeRank.Yaml
