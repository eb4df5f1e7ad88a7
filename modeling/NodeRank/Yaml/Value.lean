import NodeRank.Capped
import NodeRank.Yaml.Document

/-! # Values in YAML

What a scalar says depends on what is asked for. As a text it is what is written, whatever its
style. As a null, a truth value or an integer it has to be plain, or a literal block with the tag of
that type.
-/
namespace NodeRank.Yaml

def boolTag : String := "tag:yaml.org,2002:bool"
def intTag : String := "tag:yaml.org,2002:int"
def nullTag : String := "tag:yaml.org,2002:null"

def isNullWord (s : String) : Bool := s == "null" || s == "Null" || s == "NULL" || s == "~"

def boolWord? (s : String) : Option Bool :=
  if s = "true" ∨ s = "True" ∨ s = "TRUE" then some true
  else if s = "false" ∨ s = "False" ∨ s = "FALSE" then some false
  else none

/-- The base that the letter behind a leading zero announces. -/
def baseOf? : Char → Option Nat
  | 'x' => some 16
  | 'o' => some 8
  | 'b' => some 2
  | _ => none

/-- Digits without a sign; of decimal ones only a single one may begin with zero. -/
def digits? : List Char → Option Nat
  | ['0'] => some 0
  | '0' :: letter :: rest => (baseOf? letter).bind (Text.nat? · rest)
  | cs => Text.nat? 10 cs

/-- An integer: decimal, or in the base that its letter announces. -/
def int? : List Char → Option Int
  | '-' :: cs => (digits? cs).map fun n => -(n : Int)
  | '+' :: cs => (digits? cs).map Int.ofNat
  | cs => (digits? cs).map Int.ofNat

/-- Whether a scalar of that style and tag may say a value of the type of `expected`. -/
def isTyped (expected : String) (style : Style) (tag : Option String) : Bool :=
  style == .plain || (style == .literal && tag == some expected)

namespace Node

def text? : Node → Option String
  | .scalar _ _ text => some text
  | _ => none

def bool? : Node → Option Bool
  | .scalar style tag text => if isTyped boolTag style tag then boolWord? text else none
  | _ => none

def amount? : Node → Option Amount
  | .scalar style tag text =>
    if isTyped intTag style tag then (int? text.toList).bind (Capped.ofInt? 63) else none
  | _ => none

def isBlank : Node → Bool
  | .scalar .plain _ text => text == ""
  | _ => false

/-- The items of a sequence; nothing at all counts as no items. -/
def items? : Node → Option (List Node)
  | .sequence _ items => some items
  | n => if n.isBlank then some [] else none

/-- The entries of a mapping; nothing at all counts as no entries. -/
def entries? : Node → Option (List (Node × Node))
  | .mapping _ entries => some entries
  | n => if n.isBlank then some [] else none

/-- Whether a node says that an optional value is missing; refused where the tag of null is given to
a text that is not null. -/
def isMissing? : Node → Option Bool
  | .scalar .plain (some tag) text =>
    if tag = nullTag then if isNullWord text then some true else none else some false
  | .scalar .plain none text => some (text == "" || isNullWord text)
  | _ => some false

/-- The name that a node gives for one of several cases: its text, or what follows the mark of a
tag of its own. With such a tag the scalar itself has to be null. -/
def caseName? : Node → Option String
  | .scalar style (some tag) text =>
    match tag.toList with
    | '!' :: name =>
      if style == .plain && (text == "" || isNullWord text) then some (String.ofList name) else none
    | _ => some text
  | .scalar _ none text => some text
  | _ => none

end Node

/-! ### Records -/

/-- The value of a field among entries whose keys are texts; refused if the field stands twice. -/
def field? (name : String) (entries : List (String × Node)) : Option (Option Node) :=
  match entries.filter (·.1 == name) with
  | [] => some none
  | [(_, v)] => some (some v)
  | _ => none

namespace Document

/-- The entries of a mapping by the texts of their keys. -/
def record? (d : Document) (n : Node) : Option (List (String × Node)) := do
  (← (d.follow n).entries?).mapM fun (k, v) => do some (← (d.follow k).text?, d.follow v)

def list? (d : Document) (n : Node) : Option (List Node) := do
  some ((← (d.follow n).items?).map d.follow)

end Document
end NodeRank.Yaml
