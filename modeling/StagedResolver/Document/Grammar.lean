/-
The grammar of queries.

Keywords end where their letters end, so that no blank is needed behind them.
A condition of a fragment is the only place where blanks are required.
-/
import StagedResolver.Document.Basic
import StagedResolver.Document.Lexeme

namespace StagedResolver.Document.Grammar

open Text Text.Reader Lexeme

private def locatedName : Reader (Located String) := token (located name)

def variableName : Reader (Located String) := do
  word "$"
  locatedName

def inputNumber : Reader InputValue := do
  match ← number with
  | .integer value => return .integer value
  | .decimal value => return .decimal value
  | _ => refuse

def listOf (item : Reader InputValue) : Reader InputValue := do
  word "["
  let items ← many (token item)
  symbol "]"
  return .list items

def objectOf (item : Reader InputValue) : Reader InputValue := do
  word "\x7b"
  let members ← many do
    let key ← token name
    symbol ":"
    let held ← token item
    return (key, held)
  symbol "\x7d"
  return .object (Entries.collapse members)

def fixed {α : Type} (text : String) (meaning : α) : Reader α := do
  word text
  return meaning

/-- A value; it holds variables only where they are allowed. -/
def inputValue (allowed : Bool) : Reader InputValue :=
  recursive fun inner =>
    choice [
      do
        require allowed
        let found ← variableName
        return .variable found.item,
      inputNumber,
      InputValue.string <$> string,
      fixed "true" (.boolean true),
      fixed "false" (.boolean false),
      fixed "null" .null,
      InputValue.enumeration <$> name,
      listOf inner,
      objectOf inner]

private def typeReference : Reader TypeReference :=
  recursive fun inner => do
    let build ← choice [
      TypeReference.named <$> name,
      do
        let _ ← exactly '['
        let item ← inner
        let _ ← exactly ']'
        return TypeReference.list item]
    let mark ← optional (exactly '!')
    return build mark.isSome

def argument : Reader Argument := do
  let key ← locatedName
  symbol ":"
  let held ← token (located (inputValue true))
  return ⟨key, held⟩

def arguments : Reader (List Argument) := do
  let found ← optional do
    symbol "("
    let found ← many1 argument
    symbol ")"
    return found
  return found.getD []

def directive : Reader Directive := do
  let position ← token here
  symbol "@"
  let called ← token name
  let given ← arguments
  return ⟨called, given, position⟩

def directives : Reader (List Directive) := many directive

private def typeCondition : Reader (Located String) := token do
  word "on"
  let _ ← run1 isIgnored
  located name

private def fieldSelection (inner : Reader (List Selection)) : Reader Selection := do
  let alias? ← optional do
    let found ← located name
    symbol ":"
    return found
  let called ← locatedName
  let given ← arguments
  let attached ← directives
  let selections ← optional inner
  return .field ⟨alias?, called, given, attached⟩ (selections.getD [])

private def inlineFragment (inner : Reader (List Selection)) : Reader Selection := do
  word "..."
  let condition ← optional typeCondition
  let attached ← directives
  let selections ← inner
  return .inline condition attached selections

private def fragmentSpread : Reader Selection := do
  word "..."
  notAhead typeCondition
  let fragment ← locatedName
  let attached ← directives
  return .spread fragment attached

private def selectionSet : Reader (List Selection) :=
  recursive fun inner => do
    symbol "\x7b"
    let selections ← many1 <| token <|
      choice [fieldSelection inner, inlineFragment inner, fragmentSpread]
    symbol "\x7d"
    return selections

private def operationKind : Reader OperationKind :=
  choice [fixed "query" .query, fixed "mutation" .mutation,
    fixed "subscription" .subscription]

private def defaultValue : Reader Literal := do
  symbol "="
  let value ← token (inputValue false)
  ofOption value.literal?

private def variableDefinition : Reader VariableDefinition := do
  let called ← token variableName
  symbol ":"
  let type ← token typeReference
  let _ ← directives
  let fallback ← optional defaultValue
  return ⟨called, type, fallback⟩

private def variableDefinitions : Reader (List VariableDefinition) := do
  symbol "("
  let definitions ← many variableDefinition
  symbol ")"
  return definitions

private def namedOperation : Reader Operation := do
  let kind ← operationKind
  let called ← optional (token name)
  let definitions ← optional variableDefinitions
  let _ ← directives
  let selections ← selectionSet
  return ⟨called, kind, definitions.getD [], selections⟩

/-- A query that consists of its selections only. -/
def bareOperation : Reader Operation := do
  let selections ← selectionSet
  return ⟨none, .query, [], selections⟩

private def namedFragment : Reader (String × Fragment) := do
  word "fragment"
  let called ← token name
  let condition ← typeCondition
  let attached ← directives
  let selections ← selectionSet
  return (called, ⟨condition, attached, selections⟩)

inductive Definition where
  | operation (operation : Operation)
  | fragment (name : String) (fragment : Fragment)
deriving Inhabited

def definition : Reader Definition :=
  choice [
    Definition.operation <$> namedOperation,
    Definition.operation <$> bareOperation,
    do
      let (called, found) ← namedFragment
      return .fragment called found]

def definitions : Reader (List (Located Definition)) := do
  let found ← many1 (token (located definition))
  token atEnd
  return found

end StagedResolver.Document.Grammar
