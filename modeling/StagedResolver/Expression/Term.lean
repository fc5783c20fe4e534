/-
Resolver terms: expressions as a schema author writes them.

Every term has a static type, computed from the types of its parts.  The
element of an enclosing map is written by counting maps outward.  A term is
turned into a draft that names each element by the number of maps around its
binder, a name that no other enclosing map has.
-/
import StagedResolver.Expression.Lowering

namespace StagedResolver

inductive Slot where
  | named
  | current
  | ancestor (depth : Nat)
  | arguments
  | environment
deriving DecidableEq, Inhabited

inductive Term where
  | constant (type : ValueType) (value : Value)
  | read (slot : Slot) (segments : List PathStep) (type : ValueType)
  | element (index : Nat)
  /-- An element of a map that does not enclose it. -/
  | stray (type : ValueType)
  | step (source : Term) (segment : PathStep) (type : ValueType)
  | map (source body : Term)
  | mapEach (source body : Term)
  | mapSome (source body : Term)
  /-- Like `mapSome`, for a `body` that may itself give nothing. -/
  | flatMap (source body : Term)
  | flatten (source : Term)
  | debug (label : String) (source : Term)
  | erase (source : Term)
  | unary (operator : UnaryOperator) (operand : Term)
  | binary (operator : BinaryOperator) (left right : Term)
deriving Inhabited

/-- An element in scope: its static type, and the type it is checked against. -/
structure ElementType where
  static : ValueType
  expected : ValueType
deriving DecidableEq, Inhabited

def ValueType.content : ValueType → ValueType
  | .sequence item => item
  | .optional inner => inner
  | other => other

namespace Term

def typeIn (elements : List ElementType) : Term → ValueType
  | .constant type _ => type
  | .read _ _ type => type
  | .element index => (elements[index]?.map (·.static)).getD .any
  | .stray type => type
  | .step _ _ type => type
  | .map source body => typeIn (⟨typeIn elements source, .any⟩ :: elements) body
  | .mapEach source body =>
      let item := (typeIn elements source).content
      .sequence (typeIn (⟨item, item⟩ :: elements) body)
  | .mapSome source body =>
      let inner := (typeIn elements source).content
      .optional (typeIn (⟨inner, inner⟩ :: elements) body)
  | .flatMap source body =>
      let inner := (typeIn elements source).content
      typeIn (⟨inner, inner⟩ :: elements) body
  | .flatten source => (typeIn elements source).content
  | .debug _ source => typeIn elements source
  | .erase _ => .any
  | .unary _ operand => typeIn elements operand
  | .binary operator left _ =>
      if operator.compares then .bool else typeIn elements left

def type (term : Term) : ValueType := term.typeIn []

def Slot.origin : Slot → Origin
  | .named => .named
  | .current => .current
  | .ancestor depth => .ancestor depth
  | .arguments => .arguments
  | .environment => .environment

def draftIn (elements : List ElementType) : Term → Draft
  | .constant _ value => .constant value
  | .read slot segments type => .read (Slot.origin slot) segments type
  | .element index =>
      match elements[index]? with
      | some bound =>
          .read (.binding (elements.length - 1 - index)) [] bound.expected
      | none => .read (.binding elements.length) [] .any
  | .stray type => .read (.binding elements.length) [] type
  | .step source segment type =>
      Draft.enter elements.length segment type (draftIn elements source)
  | .map source body =>
      .map (draftIn elements source) elements.length
        (draftIn (⟨typeIn elements source, .any⟩ :: elements) body)
  | .mapEach source body =>
      let item := (typeIn elements source).content
      .map (draftIn elements source) elements.length
        (draftIn (⟨item, item⟩ :: elements) body)
  | .mapSome source body =>
      let inner := (typeIn elements source).content
      .map (draftIn elements source) elements.length
        (draftIn (⟨inner, inner⟩ :: elements) body)
  | .flatMap source body =>
      let inner := (typeIn elements source).content
      .flatten (.map (draftIn elements source) elements.length
        (draftIn (⟨inner, inner⟩ :: elements) body))
  | .flatten source => .flatten (draftIn elements source)
  | .debug label source => .debug label (draftIn elements source)
  | .erase source => Draft.expecting .any (draftIn elements source)
  | .unary operator operand => .unary operator (draftIn elements operand)
  | .binary operator left right =>
      .binary operator (draftIn elements left) (draftIn elements right)

def draft (term : Term) : Draft := term.draftIn []

def lower (term : Term) : Except LoweringError Expression := term.draft.lower

end Term

end StagedResolver
