import NodeRank.Text.Printable

/-! # Quoted text in messages

A text in a message stands between double quotes. The quote and the backslash get a backslash in
front, the usual controls a letter, and every other unprintable character its number in braces.
-/
namespace NodeRank.Text

def hexDigits (n : Nat) : List Char := Nat.toDigits 16 n

def quoteChar (c : Char) : List Char :=
  if c = '"' then ['\\', '"']
  else if c = '\\' then ['\\', '\\']
  else if c = '\n' then ['\\', 'n']
  else if c = '\r' then ['\\', 'r']
  else if c = '\t' then ['\\', 't']
  else if c.toNat = 0 then ['\\', '0']
  else if isPrintable c then [c]
  else "\\u\x7b".toList ++ hexDigits c.toNat ++ "\x7d".toList

def quote (s : String) : String :=
  String.ofList ('"' :: s.toList.flatMap quoteChar ++ ['"'])

end NodeRank.Text
