import NodeRank.Json.Basic
import NodeRank.NameMap
import NodeRank.Capped

/-! # Records in JSON

A record is an object whose members are its fields, or an array of its fields in order. In an
object a field stands once at most, and members that are no field are passed over; an array may
stop early but not run on.
-/
namespace NodeRank.Json

def string? : Json → Option String
  | .string s => s
  | _ => none

def bool? : Json → Option Bool
  | .bool b => some b
  | _ => none

def amount? : Json → Option Amount
  | .integer n => Capped.ofInt? 63 n
  | _ => none

def list? {α : Type} (read : Json → Option α) : Json → Option (List α)
  | .array items => items.mapM read
  | _ => none

/-- An object as a map: every value has to be readable, and of those with one key the last
counts. -/
def map? {α : Type} (read : Json → Option α) : Json → Option (NameMap α)
  | .object members =>
    (members.mapM fun (m : JsonString × Json) => do
      let key ← m.1
      let value ← read m.2
      some (key, value)).map NameMap.ofList
  | _ => none

/-- A map as an object, its members in order of their names. -/
def ofMap {α : Type} (write : α → Json) (m : NameMap α) : Json :=
  record (m.toList.map fun e => (e.1, write e.2))

/-- The fields that a text gives a record, by name, and whether they stood in an array. -/
structure Fields where
  listed : Bool
  values : List (String × Json)

namespace Fields

/-- The values of one field among the members of an object. -/
def valuesOf (name : String) (members : List (JsonString × Json)) : List Json :=
  members.filterMap fun m => if m.1 = some name then some m.2 else none

/-- The fields that an object gives, if none of them stands twice. -/
def ofMembers? (members : List (JsonString × Json)) : List String → Option (List (String × Json))
  | [] => some []
  | name :: names =>
    match valuesOf name members, ofMembers? members names with
    | [], some rest => some rest
    | [v], some rest => some ((name, v) :: rest)
    | _, _ => none

def ofJson? (names : List String) : Json → Option Fields
  | .array items => if items.length ≤ names.length then some ⟨true,names.zip items⟩ else none
  | .object members =>
    if members.all (·.1.isSome) then (ofMembers? members names).map (⟨false,·⟩) else none
  | _ => none

variable {α : Type}

def required (f : Fields) (name : String) (read : Json → Option α) : Option α :=
  (f.values.lookup name).bind read

/-- A field with a value of its own where it is left out. -/
def orElse (f : Fields) (name : String) (read : Json → Option α) (default : α) : Option α :=
  match f.values.lookup name with
  | none => some default
  | some v => read v

def nullable (read : Json → Option α) : Json → Option (Option α)
  | .null => some none
  | v => (read v).map some

/-- A field that may be null, and that an object may leave out. -/
def optional (f : Fields) (name : String) (read : Json → Option α) : Option (Option α) :=
  match f.values.lookup name with
  | none => if f.listed then none else some none
  | some v => nullable read v

end Fields
end NodeRank.Json
