/-
Native data as values, and values as native data.

Taking native data out of a value looks through present layers and converts
nothing: an integer is no float.  Where data must be there, null and absent
values are both nothing.
-/
import StagedResolver.Value.Type

namespace StagedResolver

inductive NativeType where
  | bool
  | int
  | float
  | string
  | record
  | value
  | option (inner : NativeType)
  | list (item : NativeType)
deriving DecidableEq, Inhabited

inductive ExtractionError where
  | unexpectedKind (expected found : ValueKind)
  | absent
deriving DecidableEq, Inhabited

def ExtractionError.message : ExtractionError → String
  | .unexpectedKind expected found =>
      s!"expected a {expected.name} value, found {found.name}"
  | .absent => "expected a value, found nothing"

namespace NativeType

def Carrier : NativeType → Type
  | .bool => Bool
  | .int => Int64
  | .float => Binary64
  | .string => String
  | .record => Record
  | .value => Value
  | .option inner => Option (Carrier inner)
  | .list item => List (Carrier item)

def typeOfValues : NativeType → ValueType
  | .bool => .bool
  | .int => .int
  | .float => .float
  | .string => .string
  | .record => .record
  | .value => .any
  | .option inner => .optional (typeOfValues inner)
  | .list item => .sequence (typeOfValues item)

/-- The value of native data: no data is absent, and data that may be missing
is present. -/
def toValue : (type : NativeType) → type.Carrier → Value
  | .bool, flag => .bool flag
  | .int, number => .int number
  | .float, number => .float number
  | .string, text => .string text
  | .record, entries => .record entries
  | .value, held => held
  | .option inner, held =>
      match held with
      | none => .absent
      | some data => .present (toValue inner data)
  | .list item, elements => .sequence (elements.map fun data => toValue item data)

def something (value : Value) : Except ExtractionError Value :=
  match value.present? with
  | none => .error .absent
  | some .null => .error .absent
  | some inner => .ok inner

def ofValue : (type : NativeType) → Value → Except ExtractionError type.Carrier
  | .bool, found => do
      match ← something found with
      | .bool flag => return flag
      | other => throw (.unexpectedKind .bool other.kind)
  | .int, found => do
      match ← something found with
      | .int number => return number
      | other => throw (.unexpectedKind .int other.kind)
  | .float, found => do
      match ← something found with
      | .float number => return number
      | other => throw (.unexpectedKind .float other.kind)
  | .string, found => do
      match ← something found with
      | .string text => return text
      | other => throw (.unexpectedKind .string other.kind)
  | .record, found => do
      match ← something found with
      | .record entries => return entries
      | other => throw (.unexpectedKind .record other.kind)
  | .value, held => .ok held
  | .option inner, found =>
      match found with
      | .null => .ok none
      | other =>
          match other.present? with
          | none => .ok none
          | some held => (ofValue inner held).map some
  | .list item, found => do
      match ← something found with
      | .sequence items => items.mapM fun element => ofValue item element
      | other => throw (.unexpectedKind .sequence other.kind)

end NativeType

end StagedResolver
