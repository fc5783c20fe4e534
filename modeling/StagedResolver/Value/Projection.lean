/-
Values as plain JSON, and plain JSON as values.

The projection forgets what JSON cannot say: present layers vanish, and absent
values and the numbers that are not finite become null.  Absent entries of a
record may be left out instead; a list keeps its holes as null.
-/
import StagedResolver.Json.Printer
import StagedResolver.Value.Basic

namespace StagedResolver

inductive AbsenceStyle where
  | null
  /-- An absent entry of a record is left out. -/
  | omit
deriving DecidableEq, Inhabited

namespace Value

mutual

def toJson (style : AbsenceStyle) : Value → Json
  | .null => .null
  | .bool flag => .bool flag
  | .int number => .integer number.toInt
  | .float number => if number.isFinite then .decimal number else .null
  | .string text => .string text
  | .record entries => .object (entriesToJson style entries)
  | .sequence items => .array (itemsToJson style items)
  | .absent => .null
  | .present inner => toJson style inner

def itemsToJson (style : AbsenceStyle) : List Value → List Json
  | [] => []
  | item :: rest => toJson style item :: itemsToJson style rest

def entriesToJson (style : AbsenceStyle) :
    List (String × Value) → List (String × Json)
  | [] => []
  | (key, held) :: rest =>
      if style = .omit ∧ held.isAbsent then entriesToJson style rest
      else (key, toJson style held) :: entriesToJson style rest

end

def jsonText (style : AbsenceStyle) (value : Value) : String :=
  (value.toJson style).render

def display (value : Value) : String :=
  value.jsonText .null

def int64? (number : Int) : Option Int64 :=
  if Int64.minValue.toInt ≤ number ∧ number ≤ Int64.maxValue.toInt then
    some (Int64.ofInt number)
  else none

mutual

def ofJson : Json → Value
  | .null => .null
  | .bool flag => .bool flag
  | .integer number =>
      match int64? number with
      | some fitting => .int fitting
      | none => .float (Binary64.ofInt number)
  | .decimal number => .float number
  | .string text => .string text
  | .array items => .sequence (itemsOfJson items)
  | .object members => .record (Entries.collapse (entriesOfJson members))

def itemsOfJson : List Json → List Value
  | [] => []
  | item :: rest => ofJson item :: itemsOfJson rest

def entriesOfJson : List (String × Json) → List (String × Value)
  | [] => []
  | (key, held) :: rest => (key, ofJson held) :: entriesOfJson rest

end

end Value

end StagedResolver
