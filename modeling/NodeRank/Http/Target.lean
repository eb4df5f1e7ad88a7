import NodeRank.Http.Percent

/-! # Request targets

The part of a URL that is sent to its server: the path with its dot segments resolved, and the
query. The path ends at the first question mark or number sign, and a fragment is not sent.
Backslashes count as slashes; tabs, line breaks and blanks around the URL do not count.
-/
namespace NodeRank.Http

/-- Drops what does not belong to a URL: controls and spaces around it, tabs and line breaks in
it. -/
def cleaned (cs : List Char) : List Char :=
  let outside (c : Char) : Bool := c.toNat ≤ 0x20
  let inner := ((cs.dropWhile outside).reverse.dropWhile outside).reverse
  inner.filter fun c => c != '\t' && c != '\n' && c != '\r'

def isSlash (c : Char) : Bool := c == '/' || c == '\\'

def endsPath (c : Char) : Bool := c == '?' || c == '#'

/-- Drops the scheme of the web and the slashes behind it. -/
def afterScheme? (cs : List Char) : Option (List Char) :=
  let scheme := (cs.takeWhile (· != ':')).map Char.toLower
  if scheme = "http".toList ∨ scheme = "https".toList then
    some (((cs.dropWhile (· != ':')).drop 1).dropWhile isSlash)
  else none

/-- Whether a character may not stand in the name of a host. -/
def isForbiddenInHost (c : Char) : Bool :=
  c.toNat ≤ 0x20 || c.toNat == 0x7F || "#/<>?@[\\]^|%".toList.contains c

/-- Whether a server can be named so: a host, and a number of sixteen bits behind a colon. -/
def isAuthority (cs : List Char) : Bool :=
  let server := (cs.reverse.takeWhile (· != '@')).reverse
  let bracketed := server.head? == some '['
  let host := if bracketed then server.takeWhile (· != ']') else server.takeWhile (· != ':')
  let rest := if bracketed then (server.drop host.length).drop 1 else server.drop host.length
  let hostFits := if bracketed then 1 < host.length && (server.contains ']')
    else !host.isEmpty && !host.any isForbiddenInHost
  let numberFits := match rest with
    | [] => true
    | ':' :: digits => digits.isEmpty || (Text.nat? 10 digits).any (· < 65536)
    | _ => false
  hostFits && numberFits

/-- Whether a segment is a dot, which may be escaped. -/
def isDot (cs : List Char) : Bool := cs.map Char.toLower ∈ [".", "%2e"].map String.toList

/-- Whether a segment is two dots, each of which may be escaped. -/
def isDoubleDot (cs : List Char) : Bool :=
  cs.map Char.toLower ∈ ["..", ".%2e", "%2e.", "%2e%2e"].map String.toList

/-- Resolves the segments of a path. A dot goes, two dots take the segment before them with them,
and either leaves an empty segment at the end. -/
def resolve (done : List (List Char)) : List (List Char) → List (List Char)
  | [] => done.reverse
  | seg :: rest =>
    let close (kept : List (List Char)) : List (List Char) :=
      if rest.isEmpty then [] :: kept else kept
    if isDoubleDot seg then resolve (close done.tail) rest
    else if isDot seg then resolve (close done) rest
    else resolve (seg :: done) rest

/-- The path as it is sent; an empty one is the path of an empty segment. -/
def renderPath (cs : List Char) : List Char :=
  let segments := if cs.isEmpty then [[]] else (cs.splitOnP isSlash).drop 1
  (resolve [] segments).flatMap fun seg => '/' :: escape isEscapedInPath seg

/-- What is sent to the server of a URL as the target of a request. -/
def target? (url : String) : Option String := do
  let cs ← afterScheme? (cleaned url.toList)
  let authority := cs.takeWhile fun c => !isSlash c && !endsPath c
  if !isAuthority authority then none
  let cs := cs.drop authority.length
  let path := cs.takeWhile (!endsPath ·)
  let rest := cs.drop path.length
  let query := if rest.head? == some '?' then
      '?' :: escape isEscapedInQuery ((rest.drop 1).takeWhile (· != '#'))
    else []
  some (String.ofList (renderPath path ++ query))

/-- The octets that the last segment of a target's path stands for. -/
def lastSegment (target : String) : List Nat :=
  unescape (((target.toList.takeWhile (· != '?')).reverse.takeWhile (· != '/')).reverse)

example : target? "http://127.0.0.1:80/a/../b c/" = some "/b%20c/" := by decide
example : target? "http://host" = some "/" := by decide
example : target? "http://" = none ∧ target? "ftp://h/" = none := by decide

end NodeRank.Http
