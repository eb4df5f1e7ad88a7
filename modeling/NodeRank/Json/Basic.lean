/-! # JSON values

A JSON value as it is written: members keep their order and their repetitions, and a number keeps
whether it was written as an integer. A string may be written with half of a surrogate pair; such a
string is `none`, since it is well written and yet no text.
-/
namespace NodeRank

/-- A string of a JSON text; `none` if it holds half of a surrogate pair. -/
abbrev JsonString := Option String

inductive Json where
  | null
  | bool (b : Bool)
  | integer (n : Int)
  /-- a number with a fraction or an exponent, or minus zero, as it is written -/
  | decimal (literal : String)
  | string (s : JsonString)
  | array (items : List Json)
  | object (members : List (JsonString × Json))
deriving Inhabited

namespace Json

def text (s : String) : Json := .string (some s)

def record (members : List (String × Json)) : Json :=
  .object (members.map fun m => (some m.1, m.2))

def ofOption {α : Type} (write : α → Json) : Option α → Json
  | none => .null
  | some x => write x

end Json
end NodeRank
