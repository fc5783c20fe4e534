/-
Typed terms, and what is known of their values beforehand.

The typing rules are those of the methods that build terms, for the terms that
stay within known types: constants of native data, paths, elements, steps into
paths and elements, maps over sequences and optionals, flattening, debug nodes
and operators.

A typed term need not give a value of its type.  A path of a doubly optional type
may find null behind its first present layer, flattening what a map over an
optional has made of an abandoned element uncovers an absent value, and a path
of an optional type may find more present layers than the type has.  Whether
such a value can reach a term is seen from the term itself.
-/
import StagedResolver.Expression.Term
import StagedResolver.Value.Native

namespace StagedResolver

/-- Whether a type says what every value of it is. -/
def ValueType.isKnown : ValueType → Bool
  | .any => false
  | .sequence item => isKnown item
  | .optional inner => isKnown inner
  | _ => true

def BinaryOperator.computesOn : BinaryOperator → ValueType → Bool
  | .add, type | .sub, type | .mul, type | .div, type => type = .int || type = .float
  | .rem, type => type = .int
  | _, _ => false

def BinaryOperator.orders : BinaryOperator → Bool
  | .lessThan | .lessOrEqual | .greaterThan | .greaterOrEqual => true
  | _ => false

def BinaryOperator.equates : BinaryOperator → Bool
  | .equal | .notEqual => true
  | _ => false

theorem BinaryOperator.equates_of_computesOn {operator : BinaryOperator} {type : ValueType}
    (computes : operator.computesOn type = true) : operator.equates = false := by
  cases operator with
  | equal | notEqual => cases computes
  | _ => rfl

theorem BinaryOperator.equates_of_orders {operator : BinaryOperator}
    (orders : operator.orders = true) : operator.equates = false := by
  cases operator with
  | equal | notEqual => cases orders
  | _ => rfl

def ElementType.ofType (type : ValueType) : ElementType := ⟨type, type⟩

namespace Term

def isPath : Term → Bool
  | .read .. => true
  | .element _ => true
  | .step source _ _ => isPath source
  | _ => false

/-- The typing rules; `types` holds the types of the elements in scope, innermost
first. -/
inductive Typed : List ValueType → Term → ValueType → Prop where
  | constant {types : List ValueType} (native : NativeType) (data : native.Carrier)
      (known : native.typeOfValues.isKnown = true) :
      Typed types (.constant native.typeOfValues (native.toValue data))
        native.typeOfValues
  | read {types : List ValueType} {type : ValueType} (slot : Slot)
      (segments : List PathStep) (known : type.isKnown = true) :
      Typed types (.read slot segments type) type
  | element {types : List ValueType} {type : ValueType} (index : Nat)
      (bound : types[index]? = some type) :
      Typed types (.element index) type
  | step {types : List ValueType} {source : Term} {type before : ValueType}
      (segment : PathStep) (path : source.isPath = true)
      (source_typed : Typed types source before) (known : type.isKnown = true) :
      Typed types (.step source segment type) type
  | mapEach {types : List ValueType} {source body : Term} {item type : ValueType}
      (source_typed : Typed types source (.sequence item))
      (body_typed : Typed (item :: types) body type) :
      Typed types (.mapEach source body) (.sequence type)
  | mapSome {types : List ValueType} {source body : Term} {inner type : ValueType}
      (source_typed : Typed types source (.optional inner))
      (body_typed : Typed (inner :: types) body type) :
      Typed types (.mapSome source body) (.optional type)
  | flatten {types : List ValueType} {source : Term} {type : ValueType}
      (source_typed : Typed types source (.optional type)) :
      Typed types (.flatten source) type
  | debug {types : List ValueType} {source : Term} {type : ValueType} (label : String)
      (source_typed : Typed types source type) :
      Typed types (.debug label source) type
  | negation {types : List ValueType} {operand : Term} {type : ValueType}
      (number : type = .int ∨ type = .float) (operand_typed : Typed types operand type) :
      Typed types (.unary .neg operand) type
  | complement {types : List ValueType} {operand : Term}
      (operand_typed : Typed types operand .bool) :
      Typed types (.unary .not operand) .bool
  | arithmetic {types : List ValueType} {left right : Term} {type : ValueType}
      {operator : BinaryOperator} (computes : operator.computesOn type = true)
      (left_typed : Typed types left type) (right_typed : Typed types right type) :
      Typed types (.binary operator left right) type
  | connective {types : List ValueType} {left right : Term} {operator : BinaryOperator}
      (connects : operator = .and ∨ operator = .or)
      (left_typed : Typed types left .bool) (right_typed : Typed types right .bool) :
      Typed types (.binary operator left right) .bool
  | concat {types : List ValueType} {left right : Term}
      (left_typed : Typed types left .string) (right_typed : Typed types right .string) :
      Typed types (.binary .concat left right) .string
  | equality {types : List ValueType} {left right : Term} {type : ValueType}
      {operator : BinaryOperator} (equates : operator.equates = true)
      (left_typed : Typed types left type) (right_typed : Typed types right type) :
      Typed types (.binary operator left right) .bool
  | ordering {types : List ValueType} {left right : Term} {type : ValueType}
      {operator : BinaryOperator} (orders : operator.orders = true)
      (plain : type.isOptional = false)
      (left_typed : Typed types left type) (right_typed : Typed types right type) :
      Typed types (.binary operator left right) .bool

/-- The typing rules give a term its static type. -/
theorem Typed.typeIn_eq {types : List ValueType} {term : Term} {type : ValueType}
    (typed : Typed types term type) :
    term.typeIn (types.map ElementType.ofType) = type := by
  induction typed with
  | constant native data known => rfl
  | read slot segments known => rfl
  | element index bound =>
      simp only [typeIn, List.getElem?_map, bound, Option.map_some, Option.getD_some,
        ElementType.ofType]
  | step segment path source_typed known ih => rfl
  | mapEach source_typed body_typed ihSource ihBody =>
      simp only [typeIn, ihSource, ValueType.content]
      exact congrArg ValueType.sequence ihBody
  | mapSome source_typed body_typed ihSource ihBody =>
      simp only [typeIn, ihSource, ValueType.content]
      exact congrArg ValueType.optional ihBody
  | flatten source_typed ih => simp only [typeIn, ih, ValueType.content]
  | debug label source_typed ih => exact ih
  | negation number operand_typed ih => exact ih
  | complement operand_typed ih => exact ih
  | @arithmetic types left right type operator computes left_typed right_typed ihLeft
      ihRight =>
      have noComparison : operator.compares = false := by
        cases operator <;> first | rfl | cases computes
      simp only [typeIn, noComparison, Bool.false_eq_true, if_false]
      exact ihLeft
  | connective connects left_typed right_typed ihLeft ihRight =>
      rcases connects with isAnd | isOr
      · subst isAnd
        exact ihLeft
      · subst isOr
        exact ihLeft
  | concat left_typed right_typed ihLeft ihRight => exact ihLeft
  | @equality types left right type operator equates left_typed right_typed ihLeft
      ihRight =>
      cases operator <;> first | rfl | cases equates
  | @ordering types left right type operator orders plain left_typed right_typed ihLeft
      ihRight =>
      cases operator <;> first | rfl | cases orders

/-- Among elements of known types, a typed term is of a known type. -/
theorem Typed.isKnown {types : List ValueType} {term : Term} {type : ValueType}
    (typed : Typed types term type)
    (elementsKnown : ∀ bound ∈ types, bound.isKnown = true) : type.isKnown = true := by
  induction typed with
  | constant native data known => exact known
  | read slot segments known => exact known
  | element index bound => exact elementsKnown _ (List.mem_of_getElem? bound)
  | step segment path source_typed known ih => exact known
  | mapEach source_typed body_typed ihSource ihBody =>
      have itemKnown := ihSource elementsKnown
      exact ihBody (List.forall_mem_cons.mpr ⟨itemKnown, elementsKnown⟩)
  | mapSome source_typed body_typed ihSource ihBody =>
      have innerKnown := ihSource elementsKnown
      exact ihBody (List.forall_mem_cons.mpr ⟨innerKnown, elementsKnown⟩)
  | flatten source_typed ih => exact ih elementsKnown
  | debug label source_typed ih => exact ih elementsKnown
  | negation number operand_typed ih => exact ih elementsKnown
  | complement operand_typed ih => rfl
  | arithmetic computes left_typed right_typed ihLeft ihRight =>
      exact ihLeft elementsKnown
  | connective connects left_typed right_typed ihLeft ihRight => rfl
  | concat left_typed right_typed ihLeft ihRight => rfl
  | equality equates left_typed right_typed ihLeft ihRight => rfl
  | ordering orders plain left_typed right_typed ihLeft ihRight => rfl

/-! ### What reaches an operand -/

end Term

/-- How exactly a value is known to be of its type. -/
inductive Accuracy where
  /-- A value of an optional type is absent or present. -/
  | outer
  /-- So is what an optional holds; anything else is of its type, perhaps below
  further present layers. -/
  | layered
  /-- There are no further present layers. -/
  | bare
deriving DecidableEq, Inhabited

def ValueType.readAt : Accuracy → ValueType → Bool
  | .outer, _ => true
  | .layered, .optional (.optional _) => false
  | .layered, _ => true
  | .bare, .optional _ => false
  | .bare, _ => true

namespace Term

/-- Whether a term can be abandoned: something is flattened in it that no further
map encloses. -/
def mayAbandon : Term → Bool
  | .flatten _ => true
  | .mapEach source _ => mayAbandon source
  | .mapSome source _ => mayAbandon source
  | .debug _ source => mayAbandon source
  | .unary _ operand => mayAbandon operand
  | .binary _ left right => mayAbandon left || mayAbandon right
  | _ => false

/-- Whether the values of a term are sure to be, at that accuracy, of its static
type.  An abandoned element of a map over an optional is absent below a present
layer, which is a value of the map's type only if the body's type is optional. -/
def keepsType (elements : List ElementType) : Accuracy → Term → Bool
  | _, .constant _ _ => true
  | accuracy, .read _ _ type => type.readAt accuracy
  | accuracy, .element index => (typeIn elements (.element index)).readAt accuracy
  | accuracy, .step _ _ type => type.readAt accuracy
  | _, .mapEach source _ => keepsType elements .bare source
  | accuracy, .mapSome source body =>
      let inside := .ofType (typeIn elements source).content :: elements
      keepsType elements .outer source &&
        (accuracy = .outer ||
          keepsType inside accuracy body &&
            ((typeIn inside body).isOptional || !body.mayAbandon))
  | .outer, .flatten source => keepsType elements .layered source
  | accuracy, .flatten source => keepsType elements accuracy source
  | accuracy, .debug _ source => keepsType elements accuracy source
  | _, .unary _ _ => true
  | _, .binary _ _ _ => true
  | _, _ => false

/-- Whether all operands in a term keep their static types, but for those that are
only compared for equality. -/
def operandsKeepType (elements : List ElementType) : Term → Bool
  | .step source _ _ => operandsKeepType elements source
  | .mapEach source body =>
      operandsKeepType elements source &&
        operandsKeepType (.ofType (typeIn elements source).content :: elements) body
  | .mapSome source body =>
      operandsKeepType elements source &&
        operandsKeepType (.ofType (typeIn elements source).content :: elements) body
  | .flatten source => operandsKeepType elements source
  | .debug _ source => operandsKeepType elements source
  | .unary _ operand =>
      operandsKeepType elements operand && keepsType elements .layered operand
  | .binary operator left right =>
      operandsKeepType elements left && operandsKeepType elements right &&
        (operator.equates ||
          keepsType elements .layered left && keepsType elements .layered right)
  | _ => true

end Term

end StagedResolver
