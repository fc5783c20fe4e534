/-
Evaluation of lowered expressions.

An evaluation ends with a value, is abandoned, or fails, and it reports what its
debug nodes saw.  It is abandoned when an absent value is flattened; the nearest
enclosing map element, or else the whole expression, is then absent.
-/
import StagedResolver.Evaluation.Lookup
import StagedResolver.Evaluation.Operation
import StagedResolver.Settings.Basic

namespace StagedResolver

structure Sighting where
  label : String
  value : Value
deriving Inhabited

inductive Outcome (α : Type) where
  | value (result : α)
  | abandoned
  | failed (error : EvaluationError)
deriving Inhabited

/-- An evaluation: how it ends, and what debug nodes saw until then. -/
structure Evaluation (α : Type) where
  sightings : List Sighting
  outcome : Outcome α
deriving Inhabited

namespace Evaluation

variable {α β : Type}

def ok (result : α) : Evaluation α := ⟨[], .value result⟩

def abandon : Evaluation α := ⟨[], .abandoned⟩

def ofExcept : Except EvaluationError α → Evaluation α
  | .ok result => ok result
  | .error fault => ⟨[], .failed fault⟩

def andThen (first : Evaluation α) (next : α → Evaluation β) : Evaluation β :=
  match first.outcome with
  | .value result =>
      let second := next result
      ⟨first.sightings ++ second.sightings, second.outcome⟩
  | .abandoned => ⟨first.sightings, .abandoned⟩
  | .failed fault => ⟨first.sightings, .failed fault⟩

instance : Monad Evaluation where
  pure := ok
  bind := andThen

def forEach (step : α → Evaluation β) : List α → Evaluation (List β)
  | [] => ok []
  | item :: rest =>
      andThen (step item) fun first =>
        andThen (forEach step rest) fun others => ok (first :: others)

def orAbsent (evaluation : Evaluation Value) : Evaluation Value :=
  match evaluation.outcome with
  | .abandoned => ⟨evaluation.sightings, .value .absent⟩
  | _ => evaluation

/-- Adds what a debug node around the evaluation sees: its value, or absence when
it is abandoned, and nothing when it fails. -/
def sighted (label : String) (evaluation : Evaluation Value) : Evaluation Value :=
  match evaluation.outcome with
  | .value result =>
      ⟨evaluation.sightings ++ [⟨label, result⟩], .value result⟩
  | .abandoned => ⟨evaluation.sightings ++ [⟨label, .absent⟩], .abandoned⟩
  | .failed fault => ⟨evaluation.sightings, .failed fault⟩

end Evaluation

/-- Applies a transform to the content of a value: to each item of a sequence, to
what is present, or to any other value itself. -/
def Value.mapContent (transform : Value → Evaluation Value) :
    Value → Evaluation Value
  | .sequence items => do
      let results ← Evaluation.forEach transform items
      return .sequence results
  | .absent => .ok .absent
  | .present inner => do
      let result ← transform inner
      return .present result
  | other => transform other

/-- Takes one present layer away; there is nothing under an absent value. -/
def Value.unwrap : Value → Evaluation Value
  | .absent => .abandon
  | .present inner => .ok inner
  | other => .ok other

namespace Expression

/-- Evaluates in a context.  `elements` are bound inside those of the context,
innermost first. -/
def run (context : Context) (elements : List Value) : Expression → Evaluation Value
  | .constant value => .ok value
  | .read path => .ofExcept (path.resolve context elements)
  | .binary operator left right => do
      let first ← run context elements left
      let second ← run context elements right
      .ofExcept (operator.apply first second)
  | .unary operator operand => do
      let value ← run context elements operand
      .ofExcept (operator.apply value)
  | .map source transform => do
      let value ← run context elements source
      value.mapContent fun item => (run context (item :: elements) transform).orAbsent
  | .flatten source => do
      let value ← run context elements source
      value.unwrap
  | .debug label source => (run context elements source).sighted label

end Expression

structure Report where
  level : ReportLevel
  label : String
  value : Value
deriving Inhabited

/-- The reports that sightings amount to at a level: all of them, or none when
reports are off. -/
def reportsAt (level : ReportLevel) (sightings : List Sighting) : List Report :=
  if level = .off then []
  else sightings.map fun sighting => ⟨level, sighting.label, sighting.value⟩

def Report.text (report : Report) : String :=
  report.value.display

structure Evaluated where
  result : Except EvaluationError Value
  reports : List Report

def Evaluation.finish (level : ReportLevel) (evaluation : Evaluation Value) : Evaluated :=
  let reports := reportsAt level evaluation.sightings
  match evaluation.outcome with
  | .value result => ⟨.ok result, reports⟩
  | .abandoned => ⟨.ok .absent, reports⟩
  | .failed fault => ⟨.error fault, reports⟩

def Expression.evaluate (level : ReportLevel) (expression : Expression)
    (context : Context) : Evaluated :=
  (expression.run context []).finish level

end StagedResolver
