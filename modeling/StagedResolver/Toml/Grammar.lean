/-
The grammar of TOML documents.

A document is read line by line.  Arrays may go over several lines, tables in
place may not.

A table whose first key is a reserved one is no table of its own: it stands for the date or time
in the text under that key, and its other entries do not count.  It stands for nothing when there
is no such text.  That text is read more generously than dates and times in a document: the hour
may be 24, and an offset may count minutes beyond the hour.
-/
import StagedResolver.Toml.Lexeme
import StagedResolver.Toml.Section

namespace StagedResolver

namespace Toml.Grammar

open Text Text.Reader Lexeme

private def simpleValue : Reader Toml :=
  choice [Toml.string <$> Lexeme.string, Toml.datetime <$> Lexeme.datetime,
    Toml.float <$> Lexeme.float, Toml.integer <$> Lexeme.integer,
    Toml.boolean <$> Lexeme.boolean]

private def arrayOf (item : Reader Toml) : Reader Toml := do
  let _ ← exactly '['
  let items ← optional do
    let first ← spaced
    let others ← many do
      let _ ← exactly ','
      spaced
    let _ ← optional (exactly ',')
    return first :: others
  spacing
  let _ ← exactly ']'
  return .array (items.getD [])
where
  spaced : Reader Toml := do
    spacing
    let found ← item
    spacing
    return found

private def definitionOf (item : Reader Toml) : Reader (List String × Toml) := do
  let keys ← path
  let _ ← exactly '='
  blanks
  let found ← item
  return (keys, found)

private def tableOf (item : Reader Toml) : Reader Toml := do
  let _ ← exactly '\x7b'
  blanks
  let definitions ← optional do
    let first ← spaced
    let others ← many do
      let _ ← exactly ','
      spaced
    return first :: others
  blanks
  let _ ← exactly '\x7d'
  let entries ← ofOption (writeEntries [] (definitions.getD []))
  return .table (Node.entriesToToml entries)
where
  spaced : Reader (List String × Toml) := do
    let found ← definitionOf item
    blanks
    return found

def deepest : Nat := 79

private def nestedValue : Nat → Reader Toml
  | 0, cursor => simpleValue cursor
  | depth + 1, cursor =>
      choice [simpleValue, arrayOf fun inner => nestedValue depth inner,
        tableOf fun inner => nestedValue depth inner] cursor

def value : Reader Toml := nestedValue deepest

inductive Line where
  | nothing
  | definition (path : List String) (content : Toml)
  | header (path : List String) (isItem : Bool)
deriving Inhabited

private def itemHeader : Reader Line := do
  word "[["
  let keys ← path
  word "]]"
  endOfLine
  return .header keys true

private def tableHeader : Reader Line := do
  let _ ← exactly '['
  let keys ← path
  let _ ← exactly ']'
  endOfLine
  return .header keys false

private def definitionLine : Reader Line := do
  let (keys, content) ← definitionOf value
  endOfLine
  return .definition keys content

private def emptyLine : Reader Line := do
  orElse
    (do
      comment
      orElse lineEnd atEnd)
    lineEnd
  return .nothing

def line : Reader Line := do
  blanks
  choice [emptyLine, itemHeader, tableHeader, definitionLine]

def lines : Reader (List Line) := do
  let _ ← optional (exactly '\ufeff')
  let found ← many line
  blanks
  atEnd
  return found

def sections : List Line → List (List String × Toml) × List Section
  | [] => ([], [])
  | .nothing :: rest => sections rest
  | .definition path content :: rest =>
      let (definitions, others) := sections rest
      ((path, content) :: definitions, others)
  | .header path isItem :: rest =>
      let (definitions, others) := sections rest
      ([], ⟨path, isItem, definitions⟩ :: others)

end Toml.Grammar

def Toml.parse? (text : String) : Option (Entries Toml) := do
  let lines ← Toml.Grammar.lines.whole text
  let (definitions, sections) := Toml.Grammar.sections lines
  Toml.assemble definitions sections

namespace Toml

def momentKey : String := "$__toml_private_datetime"

private def Datetime.ofText? (text : String) : Option Datetime :=
  (do
    let moment ← Lexeme.datetimeOf (Lexeme.timeUpTo 24) (Lexeme.offsetWithin
      fun hours minutes => hours * 60 + minutes ≤ 24 * 60)
    Text.Reader.atEnd
    return moment : Text.Reader Datetime).whole text

def isMarked : List (String × Toml) → Bool
  | [] => false
  | (key, _) :: _ => key == momentKey

def moment? : List (String × Toml) → Option Datetime
  | (key, .string text) :: _ => if key = momentKey then Datetime.ofText? text else none
  | _ => none

end Toml

end StagedResolver
