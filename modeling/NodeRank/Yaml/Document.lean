import NodeRank.Yaml.Layout

/-! # YAML documents

The tree of nodes that a text describes. A reference keeps the number of its anchor; the document
says which node that is, so that a node may be referred to from within.
-/
namespace NodeRank.Yaml

/-- A node of a document. Tags are in full; a node without one has none. -/
inductive Node where
  | scalar (style : Style) (tag : Option String) (text : String)
  | sequence (tag : Option String) (items : List Node)
  | mapping (tag : Option String) (entries : List (Node × Node))
  | reference (anchor : Nat)
deriving Inhabited

def Node.absent : Node := .scalar .plain none ""

/-- A document: its node, if it has one, and the nodes with anchors, the latest first. -/
structure Document where
  root : Option Node
  anchored : List (Nat × Node)

/-- The node itself, or the one that it refers to. -/
def Document.follow (d : Document) : Node → Node
  | .reference n => (d.anchored.lookup n).getD .absent
  | n => n

/-! ### From tokens to nodes -/

/-- The tokens that are left, the numbers of the names of anchors, and the nodes with anchors. -/
structure Reader where
  tokens : List Token
  handles : List (String × String)
  names : List (String × Nat)
  anchored : List (Nat × Node)

namespace Reader

def drop (r : Reader) : Reader := { r with tokens := r.tokens.tail }

def next? (r : Reader) : Option Token := r.tokens.head?

def sees (r : Reader) (t : Token) : Bool := r.next? == some t

def seesAny (r : Reader) (ts : List Token) : Bool := r.next?.any (ts.contains ·)

def expect? (r : Reader) (t : Token) : Option Reader := if r.sees t then some r.drop else none

def fullTag? (r : Reader) (handle suffix : String) : Option String :=
  if handle = "" then some suffix else (r.handles.lookup handle).map (· ++ suffix)

/-- What may stand in front of the content of a node. -/
structure Properties where
  anchor : Option String
  tag : Option String

def Properties.isEmpty (p : Properties) : Bool := p.anchor.isNone && p.tag.isNone

def properties? (r : Reader) : Option (Properties × Reader) :=
  match r.tokens with
  | .anchor a :: .tag h s :: rest | .tag h s :: .anchor a :: rest =>
    (r.fullTag? h s).map fun tag => (⟨some a,some tag⟩, { r with tokens := rest })
  | .anchor a :: rest => some (⟨some a,none⟩, { r with tokens := rest })
  | .tag h s :: rest =>
    (r.fullTag? h s).map fun tag => (⟨none,some tag⟩, { r with tokens := rest })
  | _ => some (⟨none,none⟩, r)

def name (r : Reader) : Option String → Option Nat × Reader
  | none => (none, r)
  | some a =>
    let number := r.names.length
    (some number, { r with names := (a, number) :: r.names.filter (·.1 != a) })

def keep (r : Reader) (number : Option Nat) (n : Node) : Node × Reader :=
  match number with
  | none => (n, r)
  | some k => (n, { r with anchored := (k, n) :: r.anchored })

/-- A mark of a tag that says nothing about a scalar. -/
def isUnspecific (tag : Option String) : Bool := tag == some "!"

mutual

/-- Reads a node in at most `fuel` nested steps. Block collections are allowed if `block` holds, and
a sequence no deeper than the mapping around it if `indentless` does. -/
def node? : Nat → Bool → Bool → Reader → Option (Node × Reader)
  | 0, _, _, _ => none
  | fuel + 1, block, indentless, r =>
    match r.next? with
    | some (.reference a) => (r.names.lookup a).map fun n => (.reference n, r.drop)
    | _ => do
      let (p, r) ← r.properties?
      match r.next? with
      | some (.scalar style text) =>
        let tag := if isUnspecific p.tag then none else p.tag
        let (number, r) := r.name p.anchor
        some (r.drop.keep number (.scalar style tag text))
      | some .flowSequenceStart =>
        let (number, r) := r.name p.anchor
        let (items, r) ← flowItems? fuel true [] r.drop
        some (r.keep number (.sequence p.tag items))
      | some .flowMappingStart =>
        let (number, r) := r.name p.anchor
        let (entries, r) ← flowEntries? fuel true [] r.drop
        some (r.keep number (.mapping p.tag entries))
      | some .blockEntry =>
        if indentless then
          let (number, r) := r.name p.anchor
          let (items, r) ← indentlessItems? fuel [] r
          some (r.keep number (.sequence p.tag items))
        else emptyNode? p r
      | some .blockSequenceStart =>
        if block then
          let (number, r) := r.name p.anchor
          let (items, r) ← blockItems? fuel [] r.drop
          some (r.keep number (.sequence p.tag items))
        else emptyNode? p r
      | some .blockMappingStart =>
        if block then
          let (number, r) := r.name p.anchor
          let (entries, r) ← blockEntries? fuel [] r.drop
          some (r.keep number (.mapping p.tag entries))
        else emptyNode? p r
      | _ => emptyNode? p r

/-- A node without content needs an anchor or a tag. -/
def emptyNode? (p : Properties) (r : Reader) : Option (Node × Reader) :=
  if p.isEmpty then none
  else
    let tag := if isUnspecific p.tag then none else p.tag
    let (number, r) := r.name p.anchor
    some (r.keep number (.scalar .plain tag ""))

/-- A node, or nothing where one of the given tokens comes next. -/
def nodeUnless? : Nat → List Token → Bool → Bool → Reader → Option (Node × Reader)
  | 0, _, _, _, _ => none
  | fuel + 1, ends, block, indentless, r =>
    if r.seesAny ends then some (.absent, r) else node? fuel block indentless r

/-- The items of an indented sequence, those read so far in reverse. -/
def blockItems? : Nat → List Node → Reader → Option (List Node × Reader)
  | 0, _, _ => none
  | fuel + 1, items, r =>
    if r.sees .blockEntry then do
      let (n, r) ← nodeUnless? fuel [.blockEntry, .blockEnd] true false r.drop
      blockItems? fuel (n :: items) r
    else (r.expect? .blockEnd).map (items.reverse, ·)

/-- The items of a sequence that is not indented; it ends without a mark. -/
def indentlessItems? : Nat → List Node → Reader → Option (List Node × Reader)
  | 0, _, _ => none
  | fuel + 1, items, r =>
    if r.sees .blockEntry then do
      let (n, r) ← nodeUnless? fuel [.blockEntry, .key, .value, .blockEnd] true false r.drop
      indentlessItems? fuel (n :: items) r
    else some (items.reverse, r)

/-- The entries of an indented mapping, those read so far in reverse. -/
def blockEntries? : Nat → List (Node × Node) → Reader → Option (List (Node × Node) × Reader)
  | 0, _, _ => none
  | fuel + 1, entries, r =>
    if r.sees .key then do
      let (k, r) ← nodeUnless? fuel [.key, .value, .blockEnd] true true r.drop
      let (v, r) ← if r.sees .value then nodeUnless? fuel [.key, .value, .blockEnd] true true r.drop
        else some (.absent, r)
      blockEntries? fuel ((k, v) :: entries) r
    else (r.expect? .blockEnd).map (entries.reverse, ·)

/-- The items between square brackets. A key among them makes a mapping of one entry; the mark of
a key that is empty also takes up the token behind it. -/
def flowItems? : Nat → Bool → List Node → Reader → Option (List Node × Reader)
  | 0, _, _, _ => none
  | fuel + 1, first, items, r =>
    if r.sees .flowSequenceEnd then some (items.reverse, r.drop)
    else do
      let r ← if first then some r else r.expect? .flowEntry
      if r.sees .flowSequenceEnd then some (items.reverse, r.drop)
      else if r.sees .key then
        let r := r.drop
        let ends := [Token.flowEntry, .flowSequenceEnd]
        let (k, r) ← if r.seesAny (.value :: ends) then some (.absent, r.drop)
          else node? fuel false false r
        let (v, r) ← if r.sees .value then nodeUnless? fuel ends false false r.drop
          else some (.absent, r)
        flowItems? fuel false (.mapping none [(k, v)] :: items) r
      else
        let (n, r) ← node? fuel false false r
        flowItems? fuel false (n :: items) r

/-- The entries between braces; a node without a key's mark is a key without a value. -/
def flowEntries? : Nat → Bool → List (Node × Node) → Reader → Option (List (Node × Node) × Reader)
  | 0, _, _, _ => none
  | fuel + 1, first, entries, r =>
    if r.sees .flowMappingEnd then some (entries.reverse, r.drop)
    else do
      let r ← if first then some r else r.expect? .flowEntry
      if r.sees .flowMappingEnd then some (entries.reverse, r.drop)
      else if r.sees .key then
        let ends := [Token.flowEntry, .flowMappingEnd]
        let (k, r) ← nodeUnless? fuel (.value :: ends) false false r.drop
        let (v, r) ← if r.sees .value then nodeUnless? fuel ends false false r.drop
          else some (.absent, r)
        flowEntries? fuel false ((k, v) :: entries) r
      else
        let (n, r) ← node? fuel false false r
        flowEntries? fuel false ((n, .absent) :: entries) r

end

/-! ### Documents -/

def isDirective : Token → Bool
  | .version .. => true
  | .tagDirective .. => true
  | _ => false

def standardHandles : List (String × String) := [("!", "!"), ("!!", "tag:yaml.org,2002:")]

/-- Reads directives: one version at most, of the two that are known, and every handle once. -/
def directives? : List Token → Bool → List (String × String) → Option (List (String × String))
  | .version major minor :: rest, versioned, handles =>
    if versioned || major != 1 || (minor != 1 && minor != 2) then none
    else directives? rest true handles
  | .tagDirective handle stem :: rest, versioned, handles =>
    if (handles.lookup handle).isSome then none
    else directives? rest versioned ((handle, stem) :: handles)
  | _, _, handles => some handles

/-- The node of a document whose mark has been passed, absent where the document is empty. -/
def content? (r : Reader) : Option (Node × Reader) :=
  let ends (t : Token) : Bool := isDirective t || t == .documentStart || t == .documentEnd
  if r.next?.all ends then some (.absent, r)
  else node? (4 * r.tokens.length + 4) true false r

/-- Reads the first document: behind directives and a mark, or without both. -/
def document? (tokens : List Token) : Option (Option Node × Reader) :=
  match tokens with
  | [] => some (none, ⟨[],[],[],[]⟩)
  | t :: _ =>
    if isDirective t || t == .documentStart then do
      let handles ← directives? tokens false []
      let r : Reader := ⟨tokens.dropWhile isDirective,handles ++ standardHandles,[],[]⟩
      let (n, r) ← (← r.expect? .documentStart).content?
      some (some n, r)
    else do
      let (n, r) ← node? (4 * tokens.length + 4) true false ⟨tokens,standardHandles,[],[]⟩
      some (some n, r)

end Reader

/-- The document that a text describes; refused if there is more than one. -/
def Document.parse? (s : String) : Option Document := do
  let (root, r) ← Reader.document? (← Token.scan s.toList)
  if r.tokens.all (· == .documentEnd) then some ⟨root,r.anchored⟩ else none

end NodeRank.Yaml
