/-
Literals as values of the types that arguments and variables are declared with.

Only scalars and lists of them are such types.  A single item is accepted where
a list is expected, and null wherever it is not ruled out.  Integers widen to
floats, and numbers without a fraction narrow to integers.
-/
import StagedResolver.Document.Literal
import StagedResolver.Schema.Scalar
import StagedResolver.Schema.TypeReference
import StagedResolver.Value.Projection

namespace StagedResolver

inductive InputFault where
  | unexpectedNull (type : TypeReference)
  | wrongKind (kind expected : String)
  | wrongNumber (text : String) (expected : Scalar)
  | unknownType (name : String)
deriving DecidableEq, Inhabited

/-- What is wrong, and in which item, by positions in lists inside each other. -/
structure InputError where
  path : List Nat
  fault : InputFault
deriving DecidableEq, Inhabited

namespace InputError

def here (fault : InputFault) : InputError := ⟨[], fault⟩

def inItem (index : Nat) (error : InputError) : InputError :=
  ⟨index :: error.path, error.fault⟩

def pathText (error : InputError) : String :=
  if error.path.isEmpty then ""
  else " at path '" ++
    String.join (error.path.map fun index => "." ++ toString index) ++ "'"

def message (error : InputError) : String :=
  (match error.fault with
    | .unexpectedNull type => "Found a null where we expected a " ++ type.display
    | .wrongKind kind expected =>
        "Found a " ++ kind ++ " value where we expected a " ++ expected ++ " scalar"
    | .wrongNumber text expected =>
        "Found value " ++ text ++ " which cannot be coerced into a " ++
          expected.name ++ " scalar"
    | .unknownType name => "Unknown type '" ++ name ++ "'") ++ error.pathText

end InputError

namespace Literal

mutual

def toValue : Literal → Value
  | .null => .null
  | .boolean flag => .bool flag
  | .integer number =>
      match Value.int64? number with
      | some fitting => .int fitting
      | none => .float (Binary64.ofInt number)
  | .decimal number => .float number
  | .string text => .string text
  | .enumeration name => .string name
  | .list items => .sequence (itemsToValues items)
  | .object members => .ofEntries (membersToEntries members)

def itemsToValues : List Literal → List Value
  | [] => []
  | item :: rest => toValue item :: itemsToValues rest

def membersToEntries : List (String × Literal) → List (String × Value)
  | [] => []
  | (name, held) :: rest => (name, toValue held) :: membersToEntries rest

end

end Literal

namespace Scalar

def coerce (scalar : Scalar) (literal : Literal) : Except InputFault Value :=
  match scalar, literal with
  | .json, other => .ok other.toValue
  | .int, .integer number =>
      match Value.int64? number with
      | some fitting => .ok (.int fitting)
      | none => .error (.wrongNumber (toString number) .int)
  | .int, .decimal number =>
      match number.integer?.bind Value.int64? with
      | some fitting => .ok (.int fitting)
      | none => .error (.wrongNumber (Json.numberLayout.text number) .int)
  | .float, .integer number => .ok (.float (Binary64.ofInt number))
  | .float, .decimal number => .ok (.float number)
  | .id, .integer number =>
      match Value.int64? number with
      | some fitting => .ok (.string (toString fitting.toInt))
      | none => .error (.wrongNumber (toString number) .id)
  | .id, .decimal number =>
      .error (.wrongNumber (Json.numberLayout.text number) .id)
  | .id, .string text => .ok (.string text)
  | .string, .string text => .ok (.string text)
  | .boolean, .boolean flag => .ok (.bool flag)
  | expected, found => .error (.wrongKind found.word expected.name)

end Scalar

namespace TypeReference

def coerceItems (coerceItem : Literal → Except InputError Value) (index : Nat) :
    List Literal → Except InputError (List Value)
  | [] => .ok []
  | item :: rest => do
      let first ← (coerceItem item).mapError (InputError.inItem index)
      let others ← coerceItems coerceItem (index + 1) rest
      return first :: others

def coerceNull (type : TypeReference) : Except InputError Value :=
  if type.required then .error (.here (.unexpectedNull type)) else .ok .null

def coerce : TypeReference → Literal → Except InputError Value
  | .named name required, literal =>
      match literal with
      | .null => (TypeReference.named name required).coerceNull
      | found =>
          match Scalar.ofName? name with
          | some scalar => (scalar.coerce found).mapError .here
          | none => .error (.here (.unknownType name))
  | .list item required, literal =>
      match literal with
      | .null => (TypeReference.list item required).coerceNull
      | .list items => (coerceItems (coerce item) 0 items).map .sequence
      | single => (coerce item single).map fun value => .sequence [value]

end TypeReference

end StagedResolver
