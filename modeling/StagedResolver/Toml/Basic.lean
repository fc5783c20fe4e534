/-
TOML documents as ordered trees.

Dates and times are written in one way, whatever blanks and letters the text had: a capital T
between date and time, always seconds, and a fraction of a second without zeros at its end.
-/
import StagedResolver.Number.Binary64

namespace StagedResolver

namespace Toml

structure Date where
  year : Nat
  month : Nat
  day : Nat
deriving DecidableEq, Inhabited

namespace Date

private def isLeap (year : Nat) : Bool :=
  (year % 4 == 0 && year % 100 != 0) || year % 400 == 0

private def daysOfMonth (year month : Nat) : Nat :=
  if month = 2 then (if isLeap year then 29 else 28)
  else if month = 4 ∨ month = 6 ∨ month = 9 ∨ month = 11 then 30
  else 31

def isValid (date : Date) : Bool :=
  1 ≤ date.month && date.month ≤ 12 && 1 ≤ date.day &&
    date.day ≤ daysOfMonth date.year date.month

end Date

structure Time where
  hour : Nat
  minute : Nat
  second : Nat
  nanosecond : Nat
deriving DecidableEq, Inhabited

inductive Offset where
  | universal
  | minutes (distance : Int)
deriving DecidableEq, Inhabited

inductive Datetime where
  | date (date : Date)
  | time (time : Time)
  | both (date : Date) (time : Time) (offset : Option Offset)
deriving DecidableEq, Inhabited

private def padded (width number : Nat) : String :=
  let digits := (Nat.repr number).toList
  String.ofList (List.replicate (width - digits.length) '0' ++ digits)

def Date.text (date : Date) : String :=
  padded 4 date.year ++ "-" ++ padded 2 date.month ++ "-" ++ padded 2 date.day

/-- Fraction of a second, in nine digits less the zeros at the end. -/
def fractionText (nanosecond : Nat) : String :=
  if nanosecond = 0 then ""
  else
    let digits := (padded 9 nanosecond).toList.reverse.dropWhile fun digit => digit == '0'
    "." ++ String.ofList digits.reverse

def Time.text (time : Time) : String :=
  padded 2 time.hour ++ ":" ++ padded 2 time.minute ++ ":" ++ padded 2 time.second ++
    fractionText time.nanosecond

def Offset.text : Offset → String
  | .universal => "Z"
  | .minutes distance =>
      (if distance < 0 then "-" else "+") ++ padded 2 (distance.natAbs / 60) ++ ":" ++
        padded 2 (distance.natAbs % 60)

def Datetime.text : Datetime → String
  | .date day => day.text
  | .time clock => clock.text
  | .both day clock offset =>
      day.text ++ "T" ++ clock.text ++ (offset.map Offset.text).getD ""

end Toml

/-- A value of a TOML document.  A table keeps its entries in order, one for each
key. -/
inductive Toml where
  | string (text : String)
  | integer (number : Int64)
  | float (number : Binary64)
  | boolean (flag : Bool)
  | datetime (moment : Toml.Datetime)
  | array (items : List Toml)
  | tables (items : List (List (String × Toml)))
  | table (entries : List (String × Toml))
deriving Inhabited

end StagedResolver
