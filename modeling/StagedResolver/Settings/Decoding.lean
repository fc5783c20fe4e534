/-
Settings from TOML documents.

A document has three sections and a table of environment entries, all of which
may be missing.  Entries are decoded in the order of the document, and the first
that cannot be decoded is reported.  A section may be a table or, with its
fields in their order, an array.
-/
import StagedResolver.Number.Layout
import StagedResolver.Settings.Basic
import StagedResolver.Text.Basic
import StagedResolver.Toml.Grammar

namespace StagedResolver

inductive SettingsError where
  | unknownField (name : String) (known : List String)
  | unknownVariant (name : String) (known : List String)
  | wrongType (found expected : String)
  | negative (number : Int64)
  | unknownLevel (text : String)
  | notChoice
  | notSingle (isEmpty : Bool)
  | notEmpty
  | tablesBehindChoice
  | notTable (found : String)
  | noMoment
deriving DecidableEq, Inhabited

namespace SettingsError

def alternatives (names : List String) : String :=
  let quoted := names.map fun name => "\x60" ++ name ++ "\x60"
  match quoted with
  | [first, second] => first ++ " or " ++ second
  | [single] => single
  | _ => "one of " ++ String.intercalate ", " quoted

def message : SettingsError → String
  | .unknownField name known =>
      "unknown field \x60" ++ name ++ "\x60, expected " ++ alternatives known
  | .unknownVariant name known =>
      "unknown variant \x60" ++ name ++ "\x60, expected " ++ alternatives known
  | .wrongType found expected =>
      "invalid type: " ++ found ++ ", expected " ++ expected
  | .negative number =>
      "invalid value: integer \x60" ++ toString number.toInt ++ "\x60, expected usize"
  | .unknownLevel text => ReportLevel.refusal text
  | .notChoice => "wanted string or table"
  | .notSingle isEmpty =>
      "wanted exactly 1 element, " ++
        (if isEmpty then "found 0 elements" else "more than 1 element")
  | .notEmpty => "expected empty table"
  | .tablesBehindChoice => "expected empty array"
  | .notTable found => "expected table, found " ++ found
  | .noMoment => "invalid date or time"

end SettingsError

namespace Toml

def plainLayout : DecimalLayout := ⟨-400, 400⟩

def floatText (number : Binary64) : String :=
  if number.isNaN then "NaN"
  else if number.isFinite then plainLayout.text number
  else if number.isNegative then "-inf"
  else "inf"

def describe : Toml → String
  | .string text => "string " ++ Text.quoted text
  | .integer number => "integer \x60" ++ toString number.toInt ++ "\x60"
  | .float number => "floating point \x60" ++ floatText number ++ "\x60"
  | .boolean flag => "boolean \x60" ++ (if flag then "true" else "false") ++ "\x60"
  | .datetime _ => "map"
  | .array _ => "sequence"
  | .tables _ => "sequence"
  | .table _ => "map"

def typeName : Toml → String
  | .string _ => "string"
  | .integer _ => "integer"
  | .float _ => "float"
  | .boolean _ => "boolean"
  | .datetime _ => "datetime"
  | .array _ => "array"
  | .tables _ => "array of tables"
  | .table _ => "table"

/-- The entries of a table.  A date or time counts as a table of its text. -/
def entries? : Toml → Option (Entries Toml)
  | .table entries => some entries
  | .datetime moment => some [(momentKey, .string moment.text)]
  | _ => none

def items? : Toml → Option (List Toml)
  | .array items => some items
  | .tables items => some (items.map .table)
  | _ => none

mutual

/-- The value that resolvers find in their environment.  There is none when a table
inside is marked as a date or time and holds none. -/
def toValue? : Toml → Option Value
  | .string text => some (.string text)
  | .integer number => some (.int number)
  | .float number => some (.float number)
  | .boolean flag => some (.bool flag)
  | .datetime moment => some (.string moment.text)
  | .array items => (itemsToValues? items).map .sequence
  | .tables items => (tablesToValues? items).map .sequence
  | .table entries => tableToValue? entries

def tableToValue? (entries : List (String × Toml)) : Option Value :=
  if isMarked entries then (moment? entries).map fun moment => .string moment.text
  else (entriesToValues? entries).map .ofEntries

def itemsToValues? : List Toml → Option (List Value)
  | [] => some []
  | item :: rest => do
      let value ← toValue? item
      let values ← itemsToValues? rest
      return value :: values

def entriesToValues? : List (String × Toml) → Option (List (String × Value))
  | [] => some []
  | (key, held) :: rest => do
      let value ← toValue? held
      let others ← entriesToValues? rest
      return (key, value) :: others

def tablesToValues? : List (List (String × Toml)) → Option (List Value)
  | [] => some []
  | entries :: rest => do
      let value ← tableToValue? entries
      let values ← tablesToValues? rest
      return value :: values

end

def choice {α : Type} (alternatives : List (String × α)) :
    Toml → Except SettingsError α
  | .string name => named name
  | .table [(name, content)] => do
      let found ← named name
      nothing content
      return found
  | .table entries => .error (.notSingle entries.isEmpty)
  | _ => .error .notChoice
where
  named (name : String) : Except SettingsError α :=
    match Entries.find? name alternatives with
    | some found => .ok found
    | none => .error (.unknownVariant name (Entries.keys alternatives))
  nothing : Toml → Except SettingsError Unit
    | .array items => if items.isEmpty then .ok () else .error .notEmpty
    | .table entries => if entries.isEmpty then .ok () else .error .notEmpty
    | .tables items => if items.isEmpty then .ok () else .error .tablesBehindChoice
    | other => .error (.notTable other.typeName)

def natural : Toml → Except SettingsError Nat
  | .integer number =>
      if number < 0 then .error (.negative number) else .ok number.toInt.toNat
  | other => .error (.wrongType other.describe "usize")

def level : Toml → Except SettingsError ReportLevel
  | .string text =>
      match ReportLevel.ofName? text with
      | some found => .ok found
      | none => .error (.unknownLevel text)
  | other => .error (.wrongType other.describe "a string")

def record (document : Toml) : Except SettingsError Record :=
  match document.entries? with
  | none => .error (.wrongType document.describe "a map")
  | some entries =>
      match entriesToValues? entries with
      | some found => .ok found
      | none => .error .noMoment

end Toml

namespace Settings

abbrev Decoder := Toml → Settings → Except SettingsError Settings

def decodeEntries (fields : Entries Decoder) (entries : Entries Toml)
    (settings : Settings) : Except SettingsError Settings :=
  entries.foldlM (fun decoded entry =>
    match Entries.find? entry.1 fields with
    | some decoder => decoder entry.2 decoded
    | none => .error (.unknownField entry.1 (Entries.keys fields))) settings

/-- Decodes a section from a table, or from an array by position.  What an array
has beyond the fields does not count. -/
def decodeSection (title : String) (fields : Entries Decoder) : Decoder :=
  fun document settings =>
    match document.items?, document.entries? with
    | some items, _ =>
        (fields.zip items).foldlM (fun decoded entry =>
          entry.1.2 entry.2 decoded) settings
    | none, some entries => decodeEntries fields entries settings
    | none, none => .error (.wrongType document.describe ("struct " ++ title))

def responseFields : Entries Decoder :=
  [("absent_fields", fun document settings => do
      let style ← document.choice
        [("null", AbsenceStyle.null), ("omit", AbsenceStyle.omit)]
      return { settings with absence := style }),
    ("field_order", fun document settings => do
      let order ← document.choice
        [("schema", KeyOrder.schema), ("selection", KeyOrder.selection)]
      return { settings with keyOrder := order })]

def executionFields : Entries Decoder :=
  [("max_depth", fun document settings => do
      let depth ← document.natural
      return { settings with maxDepth := some depth })]

def debugFields : Entries Decoder :=
  [("level", fun document settings => do
      let level ← document.level
      return { settings with level := level })]

def sections : Entries Decoder :=
  [("response", decodeSection "ResponseConfig" responseFields),
    ("execution", decodeSection "ExecutionConfig" executionFields),
    ("debug", decodeSection "DebugConfig" debugFields),
    ("env", fun document settings => do
      let environment ← document.record
      return { settings with environment := environment })]

def ofDocument (entries : Entries Toml) : Except SettingsError Settings :=
  decodeEntries sections entries .standard

inductive Failure where
  | syntaxError
  | invalid (error : SettingsError)
deriving DecidableEq, Inhabited

def isMeaningful (entries : Entries Toml) : Bool :=
  (Toml.entriesToValues? entries).isSome

/-- The settings of a text.  Where there are none, a text whose entries do not all
have values is no document at all. -/
def ofText (text : String) : Except Failure Settings :=
  match Toml.parse? text with
  | none => .error .syntaxError
  | some entries =>
      (ofDocument entries).mapError fun error =>
        if isMeaningful entries then .invalid error else .syntaxError

end Settings

def missingSettingsText (path : String) : String :=
  "Could not read the configuration at " ++ path ++
    ": No such file or directory (os error 2)"

end StagedResolver
