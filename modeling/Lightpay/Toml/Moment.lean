/-!
Dates and times of a TOML document (RFC 3339): a date, a time of day, or both, then with an offset
from universal time or without. A time may leave its seconds out. Each is read into one form: `T`
between date and time, fractions of a second cut to nine places and without idle zeros.
-/

namespace Lightpay.Toml.Moment

abbrev Part := List Char × List Char

def pair? (low high : Nat) : List Char → Option (Nat × List Char)
  | a :: b :: rest =>
    let n := 10 * (a.toNat - 48) + (b.toNat - 48)
    if a.isDigit ∧ b.isDigit ∧ low ≤ n ∧ n ≤ high then some (n, rest) else none
  | _ => none

def twoDigits (n : Nat) : List Char :=
  let shown := Nat.toDigits 10 n
  List.replicate (2 - shown.length) '0' ++ shown

def isLeapYear (year : Nat) : Bool :=
  year % 4 = 0 && (year % 100 ≠ 0 || year % 400 = 0)

def daysIn (year month : Nat) : Nat :=
  if month = 2 then (if isLeapYear year then 29 else 28)
  else if month = 4 ∨ month = 6 ∨ month = 9 ∨ month = 11 then 30
  else 31

def date? (cs : List Char) : Option Part := do
  let (century, rest) ← pair? 0 99 cs
  let (year, rest) ← pair? 0 99 rest
  let '-' :: rest := rest | none
  let (month, rest) ← pair? 1 12 rest
  let '-' :: rest := rest | none
  let (day, rest) ← pair? 1 (daysIn (100 * century + year) month) rest
  return (twoDigits century ++ twoDigits year ++ '-' :: (twoDigits month ++
    '-' :: twoDigits day), rest)

/-- The part of a second, if one stands in front; of nothing but zeros one is left. -/
def fraction (cs : List Char) : Part :=
  match cs with
  | '.' :: rest =>
    match rest.span Char.isDigit with
    | ([], _) => ([], cs)
    | (digits, rest) =>
      match ((digits.take 9).reverse.dropWhile (· = '0')).reverse with
      | [] => (['.', '0'], rest)
      | shown => ('.' :: shown, rest)
  | _ => ([], cs)

/-- The seconds, if a colon stands in front. A minute may have a leap second. -/
def seconds? : List Char → Option Part
  | ':' :: rest => do
    let (second, rest) ← pair? 0 60 rest
    let (part, rest) := fraction rest
    return (':' :: (twoDigits second ++ part), rest)
  | rest => some ([], rest)

def time? (cs : List Char) : Option Part := do
  let (hour, rest) ← pair? 0 23 cs
  let ':' :: rest := rest | none
  let (minute, rest) ← pair? 0 59 rest
  let (seconds, rest) ← seconds? rest
  return (twoDigits hour ++ ':' :: (twoDigits minute ++ seconds), rest)

def offset (cs : List Char) : Part :=
  let read? (sign : Char) (rest : List Char) : Option Part := do
    let (hours, rest) ← pair? 0 23 rest
    let ':' :: rest := rest | none
    let (minutes, rest) ← pair? 0 59 rest
    let sign := if hours = 0 ∧ minutes = 0 then '+' else sign
    return (sign :: (twoDigits hours ++ ':' :: twoDigits minutes), rest)
  match cs with
  | 'Z' :: rest => (['Z'], rest)
  | 'z' :: rest => (['Z'], rest)
  | '+' :: rest => (read? '+' rest).getD ([], cs)
  | '-' :: rest => (read? '-' rest).getD ([], cs)
  | _ => ([], cs)

def timeOfDate (cs : List Char) : Part :=
  let read? (rest : List Char) : Option Part := do
    let (time, rest) ← time? rest
    let (shift, rest) := offset rest
    return ('T' :: (time ++ shift), rest)
  match cs with
  | c :: rest => if c = 'T' ∨ c = 't' ∨ c = ' ' then (read? rest).getD ([], cs) else ([], cs)
  | [] => ([], [])

def read? (cs : List Char) : Option Part :=
  match date? cs with
  | some (date, rest) =>
    let (time, rest) := timeOfDate rest
    some (date ++ time, rest)
  | none => time? cs

end Lightpay.Toml.Moment
