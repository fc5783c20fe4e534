/-
Engines, which answer requests.

A request is read, its operation chosen and checked, its variables are given
their values, and what it selects is planned against the schema.  Only then is
anything resolved.
-/
import StagedResolver.Document.Assembly
import StagedResolver.Document.Basic
import StagedResolver.Execution.Basic
import StagedResolver.Plan.Assignment
import StagedResolver.Plan.Error
import StagedResolver.Plan.Planning
import StagedResolver.Plan.Validity
import StagedResolver.Response.Basic
import StagedResolver.Schema.Compilation

namespace StagedResolver

inductive ChoiceError where
  | unknownOperation (name : String)
  | nameNeeded
  | noOperation
  | noMutations
  | noSubscriptions
deriving DecidableEq, Inhabited

def ChoiceError.message : ChoiceError → String
  | .unknownOperation name => "Unknown operation named '" ++ name ++ "'."
  | .nameNeeded =>
      "The document contains multiple operations, the operation name must be specified."
  | .noOperation => "The document does not contain any operation."
  | .noMutations => "Mutations are not defined on this schema."
  | .noSubscriptions => "Subscriptions are not defined on this schema."

def Operation.asQuery (operation : Operation) : Except ChoiceError Operation :=
  match operation.kind with
  | .query => .ok operation
  | .mutation => .error .noMutations
  | .subscription => .error .noSubscriptions

def Document.choose (document : Document) (name : Option String) :
    Except ChoiceError Operation :=
  match name with
  | some wanted =>
      match document.operations.find? fun operation => operation.name = some wanted with
      | some operation => operation.asQuery
      | none => .error (.unknownOperation wanted)
  | none =>
      match document.operations with
      | [] => .error .noOperation
      | [operation] => operation.asQuery
      | _ => .error .nameNeeded

inductive Refusal where
  | document (error : DocumentError)
  | choice (error : ChoiceError)
  | validity (error : ValidityError)
  | assignment (errors : List VariableFault)
  | plan (error : PlanError)
deriving DecidableEq, Inhabited

/-- A wrong type of a variable is a fault of the query, and any other fault one
of the values that are given. -/
def VariableFault.phase : VariableFault → Phase
  | .notScalar _ _ _ => .operationValidation
  | _ => .variable

namespace Refusal

def errors : Refusal → List ResponseError
  | .document error => [.ofRequest .operationParsing error.message error.positions]
  | .choice error => [.ofRequest .operationValidation error.message []]
  | .validity error =>
      [.ofRequest .operationValidation error.message [error.position]]
  | .assignment errors =>
      errors.map fun error => .ofRequest error.phase error.message [error.position]
  | .plan error =>
      if error.isInternal then [.internal]
      else [.ofRequest .operationValidation error.message error.position?.toList]

end Refusal

structure Engine where
  schema : Schema
  settings : Settings
deriving Inhabited

/-- A request, with the values that it gives to variables.  The root value is the
current value of the outermost context. -/
structure Request where
  query : String
  operation : Option String
  given : Entries Json
  root : Value
  environment : Record
deriving Inhabited

structure Answer where
  response : Response
  reports : List Report
deriving Inhabited

namespace Engine

def ofDeclaration (schema : SchemaDeclaration) (settings : Settings) :
    Except SchemaError Engine := do
  let compiled ← schema.compile
  return ⟨compiled, settings⟩

def prepare (engine : Engine) (request : Request) : Except Refusal Plan := do
  let document ← (Document.parse request.query).mapError .document
  let operation ← (document.choose request.operation).mapError .choice
  (document.check engine.settings.maxDepth operation.selections).mapError .validity
  let assignment ←
    (Assignment.ofRequest operation.definitions request.given).mapError .assignment
  let scope : PlanScope :=
    ⟨engine.schema, document.fragments, assignment, engine.settings.keyOrder⟩
  (scope.plan operation.selections).mapError .plan

/-- The outermost context of a request.  Its environment overrides that of the
settings. -/
def rootContext (engine : Engine) (request : Request) : Context :=
  .root request.root (engine.settings.environment.putAll request.environment)

def execute (engine : Engine) (request : Request) : Answer :=
  match engine.prepare request with
  | .error refusal => ⟨.refusal refusal.errors, []⟩
  | .ok plan =>
      let completion :=
        engine.schema.execute engine.settings.level plan (engine.rootContext request)
      ⟨⟨completion.result, completion.errors.map FieldError.toResponse,
          engine.settings.absence⟩, completion.reports⟩

end Engine

end StagedResolver
