import NodeRank.Yaml.Scalar

/-! # YAML tokens

The lexical elements of a YAML text, those included that stand for a change of indentation.
Scalars, names and tags are read here; where structure begins and ends is found in `Yaml.Layout`.
-/
namespace NodeRank.Yaml

inductive Token where
  | version (major minor : Nat)
  | tagDirective (handle stem : String)
  | documentStart
  | documentEnd
  | blockSequenceStart
  | blockMappingStart
  | blockEnd
  | flowSequenceStart
  | flowSequenceEnd
  | flowMappingStart
  | flowMappingEnd
  | blockEntry
  | flowEntry
  | key
  | value
  | reference (name : String)
  | anchor (name : String)
  | tag (handle suffix : String)
  | scalar (style : Style) (text : String)
deriving DecidableEq, Repr

namespace Token

/-! ### Names of anchors -/

/-- What may stand right behind the name of an anchor. -/
def endsName : Option Char → Bool
  | none => true
  | some c => isBlank c || isBreak c || "?:,]\x7d%@\x60".toList.contains c

/-- Reads the name of an anchor or a reference behind its indicator. -/
def name? (c : Cursor) : Option (String × Cursor) :=
  let name := c.rest.takeWhile isNameChar
  let next := c.skip name.length
  if name.isEmpty || !endsName next.head? then none else some (String.ofList name, next)

/-! ### Tags -/

/-- The characters of a tag that are written as themselves; some of them only between angles. -/
def isTagChar (between : Bool) (c : Char) : Bool :=
  isNameChar c || ";/?:@&=+$.!~*'()".toList.contains c || (between && ",[]".toList.contains c)

/-- How many octets the encoding of a character takes that begins with `first`, and the bits of the
character in it. -/
def octets? (first : Nat) : Option (Nat × Nat) :=
  if first < 0x80 then some (1, first)
  else if first / 0x20 = 0x6 then some (2, first % 0x20)
  else if first / 0x10 = 0xE then some (3, first % 0x10)
  else if first / 0x8 = 0x1E then some (4, first % 0x8)
  else none

/-- An octet written as a percent sign and two hexadecimal digits. -/
def octet? : List Char → Option (Nat × List Char)
  | '%' :: a :: b :: rest => (Text.nat? 16 [a, b]).map (·, rest)
  | _ => none

def moreOctets? : Nat → Nat → List Char → Option (Nat × List Char)
  | 0, n, cs => some (n, cs)
  | k + 1, n, cs => do
    let (o, rest) ← octet? cs
    if o / 0x40 = 2 then moreOctets? k (n * 0x40 + o % 0x40) rest else none

def escapedChar? (cs : List Char) : Option (Char × List Char) := do
  let (first, rest) ← octet? cs
  let (width, bits) ← octets? first
  let (n, rest) ← moreOctets? (width - 1) bits rest
  if n.isValidChar then some (Char.ofNat n, rest) else none

/-- Reads the characters of a tag, in at most `fuel` steps. -/
def tagCharsFrom? : Nat → Bool → List Char → Cursor → Option (List Char × Cursor)
  | 0, _, text, c => some (text, c)
  | fuel + 1, between, text, c =>
    match c.head? with
    | none => some (text, c)
    | some x =>
      if x = '%' then
        match escapedChar? c.rest with
        | some (y, rest) =>
          tagCharsFrom? fuel between (text ++ [y]) (c.skip (c.rest.length - rest.length))
        | none => none
      else if isTagChar between x then tagCharsFrom? fuel between (text ++ [x]) (c.skip 1)
      else some (text, c)

def tagChars? (between : Bool) (c : Cursor) : Option (List Char × Cursor) :=
  tagCharsFrom? (c.rest.length + 1) between [] c

/-- Reads an exclamation mark with a name behind it, and the mark at the end of the name if there
is one. -/
def handle? (c : Cursor) : Option (List Char × Cursor) :=
  if c.sees '!' then
    let name := (c.rest.drop 1).takeWhile isNameChar
    let next := c.skip (1 + name.length)
    if next.sees '!' then some ('!' :: name ++ ['!'], next.skip 1) else some ('!' :: name, next)
  else none

/-- The handle and the suffix of a tag: between angles the tag stands in full, with an empty handle;
behind a named or doubled mark stands a suffix; any other tag has a single mark for its handle, and
the mark alone is a tag in full. -/
def tagParts? (c : Cursor) : Option (List Char × List Char × Cursor) :=
  if c.at? 1 == some '<' then do
    let (suffix, c) ← tagChars? true (c.skip 2)
    if suffix.isEmpty || !c.sees '>' then none else some ([], suffix, c.skip 1)
  else do
    let (handle, next) ← handle? c
    if 2 ≤ handle.length && handle.getLast? == some '!' then
      let (suffix, next) ← tagChars? false next
      if suffix.isEmpty then none else some (handle, suffix, next)
    else
      let (more, next) ← tagChars? false next
      let suffix := handle.drop 1 ++ more
      if suffix.isEmpty then some ([], ['!'], next) else some (['!'], suffix, next)

/-- Reads a tag; a gap has to follow it, or a comma inside brackets. -/
def tag? (inFlow : Bool) (c : Cursor) : Option (Token × Cursor) := do
  let (handle, suffix, next) ← tagParts? c
  if isGap next.head? || (inFlow && next.sees ',') then
    some (.tag (String.ofList handle) (String.ofList suffix), next)
  else none

/-! ### Directives -/

def versionNumber? (c : Cursor) : Option (Nat × Cursor) :=
  let digits := c.rest.takeWhile (·.isDigit)
  if digits.length ≤ 9 then (Text.nat? 10 digits).map (·, c.skip digits.length) else none

def versionParts? (c : Cursor) : Option (Token × Cursor) := do
  let (major, c) ← versionNumber? (c.skipWhile isBlank)
  if c.sees '.' then
    let (minor, c) ← versionNumber? (c.skip 1)
    some (.version major minor, c)
  else none

/-- The handle that a tag directive declares and what it stands for. -/
def tagDirectiveParts? (c : Cursor) : Option (Token × Cursor) := do
  let (handle, c) ← handle? (c.skipWhile isBlank)
  if (handle != ['!'] && handle.getLast? != some '!') || !c.head?.any isBlank then none
  let (stem, c) ← tagChars? true (c.skipWhile isBlank)
  if stem.isEmpty || !isGap c.head? then none
  some (.tagDirective (String.ofList handle) (String.ofList stem), c)

/-- Reads a directive from its percent sign to the end of its line. Others than the two known ones
are refused. -/
def directive? (c : Cursor) : Option (Token × Cursor) := do
  let name := (c.rest.drop 1).takeWhile isNameChar
  let c := c.skip (1 + name.length)
  if !isGap c.head? then none
  let (t, c) ← if name = "YAML".toList then versionParts? c
    else if name = "TAG".toList then tagDirectiveParts? c
    else none
  (c.lineEnd?).map (t, ·)

end Token
end NodeRank.Yaml
