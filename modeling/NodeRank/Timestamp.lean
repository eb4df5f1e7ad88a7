import NodeRank.Text.Blank
import NodeRank.Text.Integer

/-! # Points in time

A timestamp is a day and a time of that day in UTC. It is read from the date and time format of the
internet, with any offset and with blanks between the parts, and is written with a `Z` and as many
groups of three fraction digits as it needs.
-/
namespace NodeRank

structure Date where
  year : Int
  month : Nat
  day : Nat
deriving DecidableEq, Inhabited

namespace Date

def isLeapYear (year : Int) : Bool := year % 4 = 0 && (year % 100 ≠ 0 || year % 400 = 0)

def daysIn (year : Int) (month : Nat) : Nat :=
  if month = 2 then if isLeapYear year then 29 else 28
  else if month = 4 ∨ month = 6 ∨ month = 9 ∨ month = 11 then 30
  else 31

def firstYear : Int := -262143
def lastYear : Int := 262142

/-- A day that the calendar has, in a year that is kept. -/
def isValid (d : Date) : Bool :=
  firstYear ≤ d.year && d.year ≤ lastYear && 1 ≤ d.month && d.month ≤ 12 &&
    1 ≤ d.day && d.day ≤ daysIn d.year d.month

def next (d : Date) : Date :=
  if d.day < daysIn d.year d.month then { d with day := d.day + 1 }
  else if d.month < 12 then ⟨d.year,d.month + 1,1⟩
  else ⟨d.year + 1,1,1⟩

def previous (d : Date) : Date :=
  if 1 < d.day then { d with day := d.day - 1 }
  else if 1 < d.month then ⟨d.year,d.month - 1,daysIn d.year (d.month - 1)⟩
  else ⟨d.year - 1,12,31⟩

end Date

/-- A day, a second of that day and billionths of a second. The billionths of a leap second go on
counting past the last second of its minute. -/
structure Timestamp where
  date : Date
  second : Nat
  nanos : Nat
deriving DecidableEq, Inhabited

namespace Timestamp

def secondsPerDay : Int := 86400

/-- The moment in UTC of a local time whose clock is `offset` seconds ahead. -/
def ofLocal? (date : Date) (second nanos : Nat) (offset : Int) : Option Timestamp :=
  let shifted := (second : Int) - offset
  let date := if shifted < 0 then date.previous
    else if secondsPerDay ≤ shifted then date.next else date
  if date.isValid then some ⟨date,(shifted % secondsPerDay).toNat,nanos⟩ else none

/-! ### Writing -/

/-- A number in decimal, with zeros in front up to a width. -/
def padded (width n : Nat) : List Char :=
  let digits := Nat.toDigits 10 n
  List.replicate (width - digits.length) '0' ++ digits

/-- Years of four digits have no sign; all others have one. -/
def renderYear (year : Int) : List Char :=
  if 0 ≤ year ∧ year ≤ 9999 then padded 4 year.toNat
  else (if year < 0 then '-' else '+') :: padded 4 year.natAbs

/-- None, three, six or nine fraction digits. -/
def renderFraction (nanos : Nat) : List Char :=
  if nanos = 0 then []
  else if nanos % 1000000 = 0 then '.' :: padded 3 (nanos / 1000000)
  else if nanos % 1000 = 0 then '.' :: padded 6 (nanos / 1000)
  else '.' :: padded 9 nanos

def billion : Nat := 1000000000

def render (t : Timestamp) : String :=
  let leap := if billion ≤ t.nanos then 1 else 0
  String.ofList <|
    renderYear t.date.year ++ '-' :: padded 2 t.date.month ++ '-' :: padded 2 t.date.day ++
    'T' :: padded 2 (t.second / 3600) ++ ':' :: padded 2 (t.second / 60 % 60) ++
    ':' :: padded 2 (t.second % 60 + leap) ++ renderFraction (t.nanos - leap * billion) ++ ['Z']

/-! ### Reading -/

/-- Reads at least one digit and at most `width` digits. -/
def number? (width : Nat) (cs : List Char) : Option (Nat × List Char) :=
  let digits := (cs.take width).takeWhile Char.isDigit
  (Text.nat? 10 digits).map (·, cs.drop digits.length)

def digits? (cs : List Char) : Option (Nat × List Char) := number? cs.length cs

/-- A year: four digits at most, or a sign and any number of digits. -/
def year? : List Char → Option (Int × List Char)
  | '-' :: cs => (digits? cs).map fun (n, rest) => (-(n : Int), rest)
  | '+' :: cs => (digits? cs).map fun (n, rest) => ((n : Int), rest)
  | cs => (number? 4 cs).map fun (n, rest) => ((n : Int), rest)

def mark? (c : Char) (cs : List Char) : Option (List Char) :=
  match Text.trimLeft cs with
  | d :: rest => if d = c then some rest else none
  | [] => none

def pair? (cs : List Char) : Option (Nat × List Char) := number? 2 (Text.trimLeft cs)

/-- The letter or the blank between the date and the time. -/
def separator? : List Char → Option (List Char)
  | c :: rest => if c = 'T' ∨ c = 't' ∨ c = ' ' then some rest else none
  | [] => none

/-- A fraction of a second in billionths; digits after the ninth are dropped. -/
def fraction? : List Char → Option (Nat × List Char)
  | '.' :: cs => do
    let (n, rest) ← number? 9 cs
    let used := cs.length - rest.length
    some (n * Nat.pow 10 (9 - used), rest.dropWhile Char.isDigit)
  | cs => some (0, cs)

def twoDigits? : List Char → Option (Nat × List Char)
  | a :: b :: rest => (Text.nat? 10 [a, b]).map (·, rest)
  | _ => none

def isUniversalName (cs : List Char) : Bool := cs.map Char.toUpper == ['U', 'T', 'C']

/-- The seconds by which the local clock is ahead: none for `Z` or `UTC`, else hours and minutes
after a sign, which may also be the minus sign U+2212. -/
def offset? (cs : List Char) : Option (Int × List Char) :=
  if isUniversalName (cs.take 3) then some (0, cs.drop 3)
  else match cs with
    | [] => none
    | c :: cs =>
      if c = 'Z' ∨ c = 'z' then some (0, cs)
      else do
        let sign : Int ← if c = '+' then some 1
          else if c = '-' ∨ c = '\u2212' then some (-1) else none
        let (hours, cs) ← twoDigits? cs
        let (minutes, rest) ← twoDigits? (cs.dropWhile fun c => c == ':' || Text.isBlank c)
        if hours < 24 ∧ minutes < 60 then some (sign * (hours * 3600 + minutes * 60 : Nat), rest)
        else none

/-- Reads a date and time. A sixtieth second is a leap second. -/
def parse? (s : String) : Option Timestamp := do
  let (year, cs) ← year? (Text.trimLeft s.toList)
  let (month, cs) ← pair? (← mark? '-' cs)
  let (day, cs) ← pair? (← mark? '-' cs)
  let (hour, cs) ← pair? (← separator? cs)
  let (minute, cs) ← pair? (← mark? ':' cs)
  let (second, cs) ← pair? (← mark? ':' cs)
  let (nanos, cs) ← fraction? cs
  let (offset, cs) ← offset? (Text.trimLeft cs)
  let date : Date := ⟨year,month,day⟩
  if (Text.trimLeft cs).isEmpty && date.isValid && hour < 24 && minute < 60 && second ≤ 60 then
    let leap := if second = 60 then 1 else 0
    ofLocal? date (hour * 3600 + minute * 60 + (second - leap)) (nanos + leap * billion) offset
  else none

end Timestamp
end NodeRank
