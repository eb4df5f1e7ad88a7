import NodeRank.Text.Integer

/-! # Percent encoding

An octet that may not stand in a request as itself is written as a percent sign and two hexadecimal
digits in upper case. A character that needs it is written so octet by octet.
-/
namespace NodeRank.Http

def octets (c : Char) : List Nat := (String.utf8EncodeChar c).map UInt8.toNat

def upperDigit (n : Nat) : Char := (Nat.digitChar n).toUpper

def escapeOctet (n : Nat) : List Char := ['%', upperDigit (n / 16), upperDigit (n % 16)]

/-- Whether a character stands for itself neither in a path nor in a query. -/
def isAlwaysEscaped (c : Char) : Bool :=
  c.toNat < 0x21 || 0x7E < c.toNat || c == '"' || c == '#' || c == '<' || c == '>'

def isEscapedInPath (c : Char) : Bool :=
  isAlwaysEscaped c || c == '?' || c == '\x60' || c == '\x7b' || c == '\x7d'

def isEscapedInQuery (c : Char) : Bool := isAlwaysEscaped c || c == '\x27'

def escape (inSet : Char → Bool) (cs : List Char) : List Char :=
  cs.flatMap fun c => if inSet c then (octets c).flatMap escapeOctet else [c]

/-- The octets that a text stands for; a percent sign without two digits stands for itself. -/
def unescape : List Char → List Nat
  | '%' :: a :: b :: rest =>
    match Text.nat? 16 [a, b] with
    | some n => n :: unescape rest
    | none => octets '%' ++ unescape (a :: b :: rest)
  | c :: rest => octets c ++ unescape rest
  | [] => []
termination_by cs => cs.length

end NodeRank.Http
