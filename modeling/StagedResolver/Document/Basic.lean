/-
Queries as trees.

A document holds operations and named fragments.  What is selected on an object
is a list of selections: fields, which may have selections of their own,
fragments that stand in place, and fragments that are spread by name.
-/
import StagedResolver.Document.Literal
import StagedResolver.OrderedMap
import StagedResolver.Schema.TypeReference
import StagedResolver.Text.Basic

namespace StagedResolver

structure Argument where
  name : Located String
  value : Located InputValue
deriving Inhabited

def argumentNamed? (name : String) (arguments : List Argument) :
    Option (Located InputValue) :=
  (arguments.find? fun argument => argument.name.item = name).map Argument.value

/-- A directive; its place is that of its sign. -/
structure Directive where
  name : String
  arguments : List Argument
  position : Position
deriving Inhabited

structure FieldNode where
  alias? : Option (Located String)
  name : Located String
  arguments : List Argument
  directives : List Directive
deriving Inhabited

def FieldNode.responseKey (node : FieldNode) : String :=
  match node.alias? with
  | some other => other.item
  | none => node.name.item

inductive Selection where
  | field (node : FieldNode) (selections : List Selection)
  | spread (fragment : Located String) (directives : List Directive)
  | inline (condition : Option (Located String)) (directives : List Directive)
      (selections : List Selection)
deriving Inhabited

structure Fragment where
  condition : Located String
  directives : List Directive
  selections : List Selection
deriving Inhabited

structure VariableDefinition where
  name : Located String
  type : TypeReference
  fallback : Option Literal
deriving Inhabited

inductive OperationKind where
  | query
  | mutation
  | subscription
deriving DecidableEq, Inhabited

/-- An operation; only one that stands alone in its document may go without a
name. -/
structure Operation where
  name : Option String
  kind : OperationKind
  definitions : List VariableDefinition
  selections : List Selection
deriving Inhabited

structure Document where
  operations : List Operation
  fragments : OrderedMap Fragment
deriving Inhabited

namespace Selection

mutual

def depth : Selection → Nat
  | .field _ selections =>
      if selections.isEmpty then 0 else depthOfAll selections + 1
  | .spread _ _ => 0
  | .inline _ _ selections => depthOfAll selections + 1

def depthOfAll : List Selection → Nat
  | [] => 0
  | selection :: rest => max (depth selection) (depthOfAll rest)

end

end Selection

end StagedResolver
