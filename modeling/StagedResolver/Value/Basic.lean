/-
Dynamic values.

Everything a resolver reads or produces is a value.  Three things look like
nothing and differ: null is a value of its own, absent is the answer "no value",
and a present value wraps another one, which may again be null or absent.
-/
import StagedResolver.Entries
import StagedResolver.Number.Binary64

namespace StagedResolver

/-- A value.  Records keep their entries in order of first insertion. -/
inductive Value where
  | null
  | bool (flag : Bool)
  | int (number : Int64)
  | float (number : Binary64)
  | string (text : String)
  | record (entries : List (String × Value))
  | sequence (items : List Value)
  | absent
  | present (inner : Value)
deriving Inhabited

abbrev Record := Entries Value

/-- What diagnostics say of a value.  Absent and present values are of one kind. -/
inductive ValueKind where
  | null
  | bool
  | int
  | float
  | string
  | record
  | sequence
  | optional
deriving DecidableEq, Inhabited

def ValueKind.name : ValueKind → String
  | .null => "Null"
  | .bool => "Bool"
  | .int => "Int"
  | .float => "Float"
  | .string => "String"
  | .record => "Record"
  | .sequence => "Sequence"
  | .optional => "Optional"

namespace Value

def kind : Value → ValueKind
  | .null => .null
  | .bool _ => .bool
  | .int _ => .int
  | .float _ => .float
  | .string _ => .string
  | .record _ => .record
  | .sequence _ => .sequence
  | .absent => .optional
  | .present _ => .optional

def isNull : Value → Bool
  | .null => true
  | _ => false

def isAbsent : Value → Bool
  | .absent => true
  | .present inner => isAbsent inner
  | _ => false

/-- Null, or absent through any number of present layers.  A present null is
neither. -/
def isNothing (value : Value) : Bool :=
  value.isNull || value.isAbsent

def stripped : Value → Value
  | .present inner => stripped inner
  | value => value

/-- The value without its present layers, unless that is absent. -/
def present? : Value → Option Value
  | .absent => none
  | .present inner => present? inner
  | value => some value

def bool? : Value → Option Bool
  | .bool flag => some flag
  | _ => none

def int? : Value → Option Int64
  | .int number => some number
  | _ => none

def float? : Value → Option Binary64
  | .float number => some number
  | _ => none

def string? : Value → Option String
  | .string text => some text
  | _ => none

def record? : Value → Option Record
  | .record entries => some entries
  | _ => none

def sequence? : Value → Option (List Value)
  | .sequence items => some items
  | _ => none

def get? (key : String) (value : Value) : Option Value := do
  let inner ← value.present?
  let entries ← inner.record?
  entries.find? key

def ofEntries (entries : Entries Value) : Value :=
  .record entries.collapse

mutual

def WellFormed : Value → Prop
  | .record entries => Entries.DistinctKeys entries ∧ WellFormedEntries entries
  | .sequence items => WellFormedItems items
  | .present inner => WellFormed inner
  | _ => True

def WellFormedItems : List Value → Prop
  | [] => True
  | item :: rest => WellFormed item ∧ WellFormedItems rest

def WellFormedEntries : List (String × Value) → Prop
  | [] => True
  | (_, held) :: rest => WellFormed held ∧ WellFormedEntries rest

end

end Value

end StagedResolver
