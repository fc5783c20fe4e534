/-
Elements on a stack.

The elements of maps can be kept on one stack that all parts of an expression share: a map
puts an element on top, evaluates its transform, and takes the top away again, however that
has ended.  Such an evaluation ends as one that is given its elements, and it leaves the
stack as it found it, so that what follows sees the elements that were seen before.
-/
import StagedResolver.Evaluation.Basic

namespace StagedResolver

variable {α β : Type}

/-- An evaluation that works on a stack of elements: how it ends, and the stack that it
leaves. -/
abbrev StackEvaluation (α : Type) := List Value → Evaluation α × List Value

namespace StackEvaluation

def ofEvaluation (evaluation : Evaluation α) : StackEvaluation α :=
  fun stack => (evaluation, stack)

def andThen (first : StackEvaluation α) (next : α → StackEvaluation β) : StackEvaluation β :=
  fun stack =>
    match first stack with
    | (⟨sightings, .value result⟩, left) =>
        let (second, last) := next result left
        (⟨sightings ++ second.sightings, second.outcome⟩, last)
    | (⟨sightings, .abandoned⟩, left) => (⟨sightings, .abandoned⟩, left)
    | (⟨sightings, .failed fault⟩, left) => (⟨sightings, .failed fault⟩, left)

def forEach (step : α → StackEvaluation β) : List α → StackEvaluation (List β)
  | [] => ofEvaluation (.ok [])
  | item :: rest =>
      andThen (step item) fun first =>
        andThen (forEach step rest) fun others => ofEvaluation (.ok (first :: others))

/-- Evaluates with an element on top of the stack and takes the top away afterwards.  Where
that is abandoned the element is absent. -/
def within (element : Value) (body : StackEvaluation Value) : StackEvaluation Value :=
  fun stack =>
    let (ended, left) := body (element :: stack)
    (ended.orAbsent, left.tail)

def sighted (label : String) (body : StackEvaluation Value) : StackEvaluation Value :=
  fun stack =>
    let (ended, left) := body stack
    (ended.sighted label, left)

variable {stack : List Value}

private theorem andThen_eq {first : StackEvaluation α} {next : α → StackEvaluation β}
    {evaluation : Evaluation α} {further : α → Evaluation β}
    (firstEq : first stack = (evaluation, stack))
    (nextEq : ∀ result, next result stack = (further result, stack)) :
    first.andThen next stack = (evaluation.andThen further, stack) := by
  obtain ⟨sightings, outcome⟩ := evaluation
  cases outcome with
  | value result => simp only [andThen, firstEq, nextEq, Evaluation.andThen]
  | abandoned => simp only [andThen, firstEq, Evaluation.andThen]
  | failed error => simp only [andThen, firstEq, Evaluation.andThen]

private theorem forEach_eq {step : α → StackEvaluation β} {each : α → Evaluation β}
    (stepEq : ∀ item, step item stack = (each item, stack)) (items : List α) :
    forEach step items stack = (Evaluation.forEach each items, stack) := by
  induction items with
  | nil => rfl
  | cons item rest ih =>
      exact andThen_eq (stepEq item) fun first => andThen_eq ih fun others => rfl

private theorem within_eq {element : Value} {body : StackEvaluation Value}
    {evaluation : Evaluation Value}
    (bodyEq : body (element :: stack) = (evaluation, element :: stack)) :
    within element body stack = (evaluation.orAbsent, stack) := by
  simp only [within, bodyEq, List.tail_cons]

private theorem sighted_eq {body : StackEvaluation Value} {evaluation : Evaluation Value}
    (label : String) (bodyEq : body stack = (evaluation, stack)) :
    body.sighted label stack = (evaluation.sighted label, stack) := by
  simp only [sighted, bodyEq]

end StackEvaluation

def Value.mapContentOnStack (transform : Value → StackEvaluation Value) :
    Value → StackEvaluation Value
  | .sequence items =>
      (StackEvaluation.forEach transform items).andThen fun results =>
        .ofEvaluation (.ok (.sequence results))
  | .absent => .ofEvaluation (.ok .absent)
  | .present inner =>
      (transform inner).andThen fun result => .ofEvaluation (.ok (.present result))
  | other => transform other

private theorem Value.mapContentOnStack_eq {stack : List Value}
    {transform : Value → StackEvaluation Value} {each : Value → Evaluation Value}
    (transformEq : ∀ item, transform item stack = (each item, stack)) (value : Value) :
    value.mapContentOnStack transform stack = (value.mapContent each, stack) := by
  cases value with
  | sequence items =>
      exact StackEvaluation.andThen_eq (StackEvaluation.forEach_eq transformEq items)
        fun results => rfl
  | absent => rfl
  | present inner => exact StackEvaluation.andThen_eq (transformEq inner) fun result => rfl
  | _ => exact transformEq _

namespace Expression

def runOnStack (context : Context) : Expression → StackEvaluation Value
  | .constant value => .ofEvaluation (.ok value)
  | .read lookup => fun stack => (.ofExcept (lookup.resolve context stack), stack)
  | .binary operator left right =>
      (runOnStack context left).andThen fun first =>
        (runOnStack context right).andThen fun second =>
          .ofEvaluation (.ofExcept (operator.apply first second))
  | .unary operator operand =>
      (runOnStack context operand).andThen fun value =>
        .ofEvaluation (.ofExcept (operator.apply value))
  | .map source transform =>
      (runOnStack context source).andThen fun value =>
        value.mapContentOnStack fun item => (runOnStack context transform).within item
  | .flatten source =>
      (runOnStack context source).andThen fun value => .ofEvaluation value.unwrap
  | .debug label source => (runOnStack context source).sighted label

/-- On a stack an expression ends as it does in the elements on the stack, and the stack is
afterwards what it was before, whether that is a value, abandonment or a failure. -/
theorem runOnStack_eq (expression : Expression) (context : Context) (stack : List Value) :
    expression.runOnStack context stack = (expression.run context stack, stack) := by
  induction expression generalizing stack with
  | constant value => rfl
  | read lookup => rfl
  | binary operator left right leftEq rightEq =>
      exact StackEvaluation.andThen_eq (leftEq stack) fun first =>
        StackEvaluation.andThen_eq (rightEq stack) fun second => rfl
  | unary operator operand operandEq =>
      exact StackEvaluation.andThen_eq (operandEq stack) fun value => rfl
  | map source transform sourceEq transformEq =>
      exact StackEvaluation.andThen_eq (sourceEq stack) fun value =>
        value.mapContentOnStack_eq fun item =>
          StackEvaluation.within_eq (transformEq (item :: stack))
  | flatten source sourceEq =>
      exact StackEvaluation.andThen_eq (sourceEq stack) fun value => rfl
  | debug label source sourceEq => exact StackEvaluation.sighted_eq label (sourceEq stack)

end Expression

end StagedResolver
