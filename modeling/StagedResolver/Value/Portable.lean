/-
The portable form of values, which keeps every distinction that values make.

Null, absent, a present null and nested present layers are told apart, and so
are integers and binary64 numbers.  A number that is not finite has no JSON
number: it is written as null, which no reader takes for a number.
-/
import StagedResolver.Json.Portable
import StagedResolver.Value.Projection

namespace StagedResolver.Value

/-- The document of a number; null when it is not finite. -/
def floatToJson (number : Binary64) : Json :=
  if number.isFinite then .decimal number else .null

def floatOfJson? : Json → Option Binary64
  | .decimal number => some number
  | .integer number => some (Binary64.ofInt number)
  | _ => none

def intOfJson? : Json → Option Int64
  | .integer number => int64? number
  | _ => none

mutual

def toPortable : Value → Json
  | .null => .string "Null"
  | .bool flag => .tagged "Bool" (.bool flag)
  | .int number => .tagged "Int" (.integer number.toInt)
  | .float number => .tagged "Float" (floatToJson number)
  | .string text => .tagged "String" (.string text)
  | .record entries => .tagged "Record" (.object (entriesToPortable entries))
  | .sequence items => .tagged "Sequence" (.array (itemsToPortable items))
  | .absent => .tagged "Optional" .null
  | .present inner => .tagged "Optional" (toPortable inner)

def itemsToPortable : List Value → List Json
  | [] => []
  | item :: rest => toPortable item :: itemsToPortable rest

def entriesToPortable : List (String × Value) → List (String × Json)
  | [] => []
  | (key, held) :: rest => (key, toPortable held) :: entriesToPortable rest

end

mutual

def ofPortable? : Json → Option Value
  | .string text => if text = "Null" then some .null else none
  | .object [(name, body)] =>
      if name = "Null" then
        match body with
        | .null => some .null
        | _ => none
      else if name = "Bool" then body.bool?.map .bool
      else if name = "Int" then (intOfJson? body).map .int
      else if name = "Float" then (floatOfJson? body).map .float
      else if name = "String" then body.string?.map .string
      else if name = "Record" then
        match body with
        | .object members =>
            (entriesOfPortable? members).map fun entries =>
              .record (Entries.collapse entries)
        | _ => none
      else if name = "Sequence" then
        match body with
        | .array items => (itemsOfPortable? items).map .sequence
        | _ => none
      else if name = "Optional" then
        match body with
        | .null => some .absent
        | inner => (ofPortable? inner).map .present
      else none
  | _ => none

def itemsOfPortable? : List Json → Option (List Value)
  | [] => some []
  | item :: rest => do
      let value ← ofPortable? item
      let values ← itemsOfPortable? rest
      return value :: values

def entriesOfPortable? : List (String × Json) → Option (List (String × Value))
  | [] => some []
  | (key, held) :: rest => do
      let value ← ofPortable? held
      let entries ← entriesOfPortable? rest
      return (key, value) :: entries

end

end StagedResolver.Value
