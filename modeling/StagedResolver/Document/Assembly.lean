/-
Documents from their texts.

Names are given once: no two operations and no two fragments have the same one,
and an operation without a name has no other beside it.
-/
import StagedResolver.Document.Grammar

namespace StagedResolver

inductive DocumentError where
  | grammar
  | nesting
  | operationTwice (name : String) (first second : Position)
  | fragmentTwice (name : String) (first second : Position)
  | notAlone (anonymous other : Position)
  | noOperation
deriving DecidableEq, Inhabited

namespace DocumentError

def message : DocumentError → String
  | .grammar => "syntax error"
  | .nesting => "recursion limit exceeded."
  | .operationTwice name _ _ => "operation " ++ name ++ " is defined twice"
  | .fragmentTwice name _ _ => "fragment " ++ name ++ " is defined twice"
  | .notAlone _ _ => "document contains multiple operations"
  | .noOperation => "document does not contain an operation"

def positions : DocumentError → List Position
  | .operationTwice _ first second => [second, first]
  | .fragmentTwice _ first second => [second, first]
  | .notAlone anonymous other => [anonymous, other]
  | _ => []

end DocumentError

namespace Document.Grammar

def deepest : Nat := 64

def Definition.depth : Definition → Nat
  | .operation found => Selection.depthOfAll found.selections
  | .fragment _ found => Selection.depthOfAll found.selections

/-- A document as far as it has been put together, each part with its place. -/
structure Assembly where
  operations : List (Located Operation)
  fragments : OrderedMap (Located Fragment)

namespace Assembly

def empty : Assembly := ⟨[], .empty⟩

def addAnonymous (assembly : Assembly) (operation : Located Operation) :
    Except DocumentError Assembly :=
  match assembly.operations with
  | [] => .ok { assembly with operations := [operation] }
  | other :: _ => .error (.notAlone operation.position other.position)

def addNamed (assembly : Assembly) (name : String) (operation : Located Operation) :
    Except DocumentError Assembly :=
  match assembly.operations.find? fun other => other.item.name.isNone with
  | some anonymous => .error (.notAlone anonymous.position operation.position)
  | none =>
      match assembly.operations.find? fun other => other.item.name = some name with
      | some first => .error (.operationTwice name first.position operation.position)
      | none => .ok { assembly with operations := assembly.operations ++ [operation] }

def addFragment (assembly : Assembly) (name : String) (fragment : Located Fragment) :
    Except DocumentError Assembly :=
  match assembly.fragments.find? name with
  | some first => .error (.fragmentTwice name first.position fragment.position)
  | none => .ok { assembly with fragments := assembly.fragments.put name fragment }

def add (assembly : Assembly) (definition : Located Definition) :
    Except DocumentError Assembly :=
  match definition.item with
  | .operation found =>
      match found.name with
      | some name => assembly.addNamed name ⟨found, definition.position⟩
      | none => assembly.addAnonymous ⟨found, definition.position⟩
  | .fragment name found => assembly.addFragment name ⟨found, definition.position⟩

def document (assembly : Assembly) : Except DocumentError Document :=
  if assembly.operations.isEmpty then .error .noOperation
  else
    .ok ⟨assembly.operations.map Located.item,
      assembly.fragments.mapValues fun _ fragment => fragment.item⟩

end Assembly

def assemble (definitions : List (Located Definition)) :
    Except DocumentError Document := do
  if definitions.any fun definition => deepest < definition.item.depth then
    throw .nesting
  let assembly ← definitions.foldlM Assembly.add .empty
  assembly.document

end Document.Grammar

def Document.parse (text : String) : Except DocumentError Document :=
  match Grammar.definitions.whole text with
  | none => .error .grammar
  | some definitions => Grammar.assemble definitions

end StagedResolver
