import NodeRank.Json.Token

/-! # Reading JSON

One pass over the tokens, with the containers that are still open on a stack. There is no limit on
their depth.
-/
namespace NodeRank.Json

inductive Open where
  | array (items : List Json)
  | object (members : List (JsonString × Json)) (key : JsonString)

inductive State where
  | wantsValue (stack : List Open)
  | wantsItem (stack : List Open)
  | wantsKey (first : Bool) (members : List (JsonString × Json)) (stack : List Open)
  | wantsColon (members : List (JsonString × Json)) (key : JsonString) (stack : List Open)
  | holds (value : Json) (stack : List Open)

namespace State

def begin? (stack : List Open) : Token → Option State
  | .scalar v => some (.holds v stack)
  | .string s => some (.holds (.string s) stack)
  | .openArray => some (.wantsItem stack)
  | .openObject => some (.wantsKey true [] stack)
  | _ => none

def step? : State → Token → Option State
  | .wantsValue stack, t => begin? stack t
  | .wantsItem stack, .closeArray => some (.holds (.array []) stack)
  | .wantsItem stack, t => begin? (.array [] :: stack) t
  | .wantsKey _ members stack, .string key => some (.wantsColon members key stack)
  | .wantsKey true _ stack, .closeObject => some (.holds (.object []) stack)
  | .wantsColon members key stack, .colon => some (.wantsValue (.object members key :: stack))
  | .holds v (.array items :: stack), .comma => some (.wantsValue (.array (v :: items) :: stack))
  | .holds v (.array items :: stack), .closeArray =>
    some (.holds (.array (v :: items).reverse) stack)
  | .holds v (.object members key :: stack), .comma =>
    some (.wantsKey false ((key, v) :: members) stack)
  | .holds v (.object members key :: stack), .closeObject =>
    some (.holds (.object ((key, v) :: members).reverse) stack)
  | _, _ => none

end State

/-- The value that the tokens write, if they write exactly one. -/
def ofTokens? (tokens : List Token) : Option Json := do
  match ← tokens.foldlM State.step? (.wantsValue []) with
  | .holds v [] => some v
  | _ => none

def parse? (s : String) : Option Json := do ofTokens? (← Token.scan s)

end NodeRank.Json
