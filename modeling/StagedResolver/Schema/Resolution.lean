/-
Where the value of a field comes from, and the shape it is completed to.
-/
import StagedResolver.Evaluation.Basic
import StagedResolver.Expression.Portable
import StagedResolver.Schema.Scalar

namespace StagedResolver

abbrev ObjectIndex := Nat

/-- How a value is completed.  The items of a list are completed one by one, and
the fields selected on an object are resolved as its type says. -/
inductive Shape where
  | scalar (leaf : Scalar) (required : Bool)
  | object (id : ObjectIndex) (required : Bool)
  | list (item : Shape) (required : Bool)
deriving DecidableEq, Inhabited

namespace Shape

def required : Shape → Bool
  | .scalar _ required => required
  | .object _ required => required
  | .list _ required => required

def isList : Shape → Bool
  | .list _ _ => true
  | _ => false

def object? : Shape → Option ObjectIndex
  | .scalar _ _ => none
  | .object id _ => some id
  | .list item _ => object? item

def toPortable : Shape → Json
  | .scalar leaf required =>
      group (.tagged "Scalar" leaf.toPortable) required
  | .object id required => group (.tagged "Object" (.integer id)) required
  | .list item required => group (.tagged "List" (toPortable item)) required
where
  group (kind : Json) (required : Bool) : Json :=
    .object [("kind", kind), ("required", .bool required)]

def ofParts? (kind : Option (Option (Bool → Shape))) (required : Option Json) :
    Option Shape := do
  let build ← kind.join
  let required ← required
  let flag ← required.bool?
  return build flag

mutual

def ofPortable? : Json → Option Shape
  | .object members =>
      ofParts? (Entries.find? "kind" (kindsOfMembers members))
        (Entries.find? "required" members)
  | .array [kind, required] => ofParts? (some (kindOfPortable? kind)) (some required)
  | _ => none

def kindOfPortable? : Json → Option (Bool → Shape)
  | .object [(tag, body)] =>
      if tag = "Scalar" then (Scalar.ofPortable? body).map .scalar
      else if tag = "Object" then (body.natBelow? UInt32.size).map .object
      else if tag = "List" then (ofPortable? body).map .list
      else none
  | _ => none

def kindsOfMembers : List (String × Json) → List (String × Option (Bool → Shape))
  | [] => []
  | (key, held) :: rest => (key, kindOfPortable? held) :: kindsOfMembers rest

end

end Shape

inductive Source where
  | passthrough (key : String)
  | constant (value : Value)
  | computed (expression : Expression)
deriving Inhabited

namespace Source

def display : Source → String
  | .passthrough key => "passthrough " ++ key
  | .constant value => "constant " ++ value.display
  | .computed expression => "computed " ++ expression.display

def toPortable : Source → Json
  | .passthrough key => .tagged "Passthrough" (.object [("key", .string key)])
  | .constant value => .tagged "Constant" value.toPortable
  | .computed expression => .tagged "Computed" expression.toPortable

def ofPortable? : Json → Option Source
  | .object [(tag, body)] =>
      if tag = "Passthrough" then
        match body.fields? ["key"] with
        | some [some key] => key.string?.map .passthrough
        | _ => none
      else if tag = "Constant" then (Value.ofPortable? body).map .constant
      else if tag = "Computed" then (Expression.ofPortable? body).map .computed
      else none
  | _ => none

/-- What is passed through from a value: an entry that holds something, as a
present value, and otherwise absent. -/
def readEntry (key : String) (current : Value) : Value :=
  match current.present? with
  | some (.record entries) =>
      match Entries.find? key entries with
      | some held => if held.isNothing then .absent else .present held
      | none => .absent
  | _ => .absent

def evaluate (level : ReportLevel) (source : Source) (context : Context) : Evaluated :=
  match source with
  | .passthrough key => ⟨.ok (readEntry key context.current), []⟩
  | .constant value => ⟨.ok value, []⟩
  | .computed expression => expression.evaluate level context

end Source

structure Resolution where
  source : Source
  shape : Shape
deriving Inhabited

namespace Resolution

def toPortable (resolution : Resolution) : Json :=
  .object [("kind", resolution.source.toPortable),
    ("shape", resolution.shape.toPortable)]

def ofPortable? (document : Json) : Option Resolution :=
  match document.fields? ["kind", "shape"] with
  | some [some source, some shape] => do
      let source ← Source.ofPortable? source
      let shape ← Shape.ofPortable? shape
      return ⟨source, shape⟩
  | _ => none

end Resolution

end StagedResolver
