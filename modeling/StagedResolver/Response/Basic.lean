/-
What a request is answered.

There is no data when the request was refused before anything was resolved.
Data of null, in contrast, is the answer of a request in which a null went up
to the root.
-/
import StagedResolver.Expression.Operator
import StagedResolver.Json.Printer
import StagedResolver.Text.Basic
import StagedResolver.Value.Projection

namespace StagedResolver

inductive Phase where
  | operationParsing
  | operationValidation
  | variable
  | resolver
  | internal
deriving DecidableEq, Inhabited

namespace Phase

def name : Phase → String
  | .operationParsing => "OPERATION_PARSING_ERROR"
  | .operationValidation => "OPERATION_VALIDATION_ERROR"
  | .variable => "VARIABLE_ERROR"
  | .resolver => "RESOLVER_ERROR"
  | .internal => "INTERNAL_SERVER_ERROR"

def all : List Phase :=
  [.operationParsing, .operationValidation, .variable, .resolver, .internal]

def ofName? (text : String) : Option Phase :=
  all.find? fun phase => phase.name = text

end Phase

/-- An error of a request or of a field.  Its places are in the text of the
query; its path leads to the place in the response where a value is missing, by
keys and by positions in lists. -/
structure ResponseError where
  message : String
  phase : Phase
  locations : List Position
  path : Option (List PathStep)
deriving DecidableEq, Inhabited

namespace ResponseError

def ofRequest (phase : Phase) (message : String) (positions : List Position) :
    ResponseError :=
  ⟨message, phase, positions.map Position.clamped, none⟩

def internal : ResponseError := ⟨"Internal server error", .internal, [], none⟩

def locationJson (position : Position) : Json :=
  .object [("line", .integer position.line), ("column", .integer position.column)]

def segmentJson : PathStep → Json
  | .key name => .string name
  | .index position => .integer position

/-- The document of an error.  Places are left out when there are none, and so is
the path of an error that has none. -/
def toJson (error : ResponseError) : Json :=
  let locations :=
    if error.locations.isEmpty then []
    else [("locations", Json.array (error.locations.map locationJson))]
  let path :=
    match error.path with
    | some segments => [("path", Json.array (segments.map segmentJson))]
    | none => []
  .object (("message", .string error.message) ::
    (locations ++ path ++
      [("extensions", .object [("code", .string error.phase.name)])]))

end ResponseError

structure Response where
  data : Option Value
  errors : List ResponseError
  style : AbsenceStyle
deriving Inhabited

namespace Response

def refusal (errors : List ResponseError) : Response := ⟨none, errors, .null⟩

def dataText (response : Response) : String :=
  match response.data with
  | some data => data.jsonText response.style
  | none => "null"

def toJson (response : Response) : Json :=
  let data :=
    match response.data with
    | some data => [("data", data.toJson response.style)]
    | none => []
  let errors :=
    if response.errors.isEmpty then []
    else [("errors", Json.array (response.errors.map ResponseError.toJson))]
  .object (data ++ errors)

def text (response : Response) : String := response.toJson.render

end Response

end StagedResolver
