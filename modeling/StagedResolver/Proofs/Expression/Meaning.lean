/-
What a draft means.

A draft is read directly: a map binds its name to the element, and a path from a
name reads the element that the innermost map of that name has bound.  There is
no lowered form and no counting of maps here, and elements that are bound in the
context have no name.  An evaluation agrees with a meaning when it ends alike,
failures being told apart by their kind.
-/
import StagedResolver.Evaluation.Basic
import StagedResolver.Proofs.Expression.Lowered

namespace StagedResolver

inductive Meaning (α : Type) where
  | value (result : α)
  | abandoned
  | failed (kind : EvaluationErrorKind)
deriving Inhabited

namespace Meaning

variable {α β : Type}

def andThen (first : Meaning α) (next : α → Meaning β) : Meaning β :=
  match first with
  | .value result => next result
  | .abandoned => .abandoned
  | .failed kind => .failed kind

def ofExcept : Except EvaluationErrorKind α → Meaning α
  | .ok result => .value result
  | .error kind => .failed kind

def forEach (step : α → Meaning β) : List α → Meaning (List β)
  | [] => .value []
  | item :: rest =>
      (step item).andThen fun first =>
        (forEach step rest).andThen fun others => .value (first :: others)

def orAbsent : Meaning Value → Meaning Value
  | .abandoned => .value .absent
  | other => other

def result : Meaning Value → Except EvaluationErrorKind Value
  | .value found => .ok found
  | .abandoned => .ok .absent
  | .failed kind => .error kind

end Meaning

/-! ### Reading drafts -/

inductive Start where
  | value (held : Value)
  | record (entries : Record)
  | nowhere
deriving Inhabited

def Start.find (start : Start) (lookup : Lookup) :
    Except EvaluationError (Option Value) :=
  match start with
  | .value held => lookup.findIn held
  | .record entries => lookup.findInRecord entries
  | .nowhere => .ok none

/-- Reads a path from where it starts.  The root of the lookup is of no account:
only diagnostics show it. -/
def Start.read (start : Start) (segments : List PathStep) (expected : ValueType) :
    Except EvaluationErrorKind Value :=
  let lookup : Lookup := ⟨.current, segments, expected⟩
  (start.find lookup >>= lookup.check).mapError EvaluationError.kind

def Context.valueAt (context : Context) (depth : Nat) : Start :=
  match context.ancestor? depth with
  | some outer => .value outer.current
  | none => .nowhere

def PathStep.isParent (segment : PathStep) : Bool :=
  segment = .key "parent"

/-- Where a path with a named slot starts, and its segments after the slot: as
many contexts further out as it begins with parents, at the current value
there, or else among the arguments or in the environment. -/
def Context.namedSlot? (context : Context) (segments : List PathStep) :
    Option (Start × List PathStep) :=
  let depth := (segments.takeWhile PathStep.isParent).length
  match segments.dropWhile PathStep.isParent with
  | .key name :: rest =>
      if name = "value" then some (context.valueAt depth, rest)
      else if depth = 0 ∧ name = "args" then some (.record context.arguments, rest)
      else if depth = 0 ∧ name = "env" then some (.record context.environment, rest)
      else none
  | _ => none

namespace Draft

/-- What a path reads.  `named` holds the elements of the enclosing maps under
their names, innermost first. -/
def readFrom (context : Context) (named : List (BindingName × Value))
    (segments : List PathStep) (expected : ValueType) :
    Origin → Except EvaluationErrorKind Value
  | .named =>
      match context.namedSlot? segments with
      | some (start, rest) => start.read rest expected
      | none => .error .missingPath
  | .current => (Start.value context.current).read segments expected
  | .ancestor depth => (context.valueAt depth).read segments expected
  | .arguments => (Start.record context.arguments).read segments expected
  | .environment => (Start.record context.environment).read segments expected
  | .binding name =>
      match named.lookup name with
      | some element => (Start.value element).read segments expected
      | none => .error .unboundElement

def meaning (context : Context) (named : List (BindingName × Value)) :
    Draft → Meaning Value
  | .constant value => .value value
  | .read origin segments expected =>
      .ofExcept (readFrom context named segments expected origin)
  | .binary operator left right =>
      (meaning context named left).andThen fun first =>
        (meaning context named right).andThen fun second =>
          .ofExcept ((operator.apply first second).mapError EvaluationError.kind)
  | .unary operator operand =>
      (meaning context named operand).andThen fun value =>
        .ofExcept ((operator.apply value).mapError EvaluationError.kind)
  | .map source name transform =>
      (meaning context named source).andThen fun value =>
        let each (item : Value) : Meaning Value :=
          (meaning context ((name, item) :: named) transform).orAbsent
        match value with
        | .sequence items =>
            (Meaning.forEach each items).andThen fun results =>
              .value (.sequence results)
        | .absent => .value .absent
        | .present inner => (each inner).andThen fun result => .value (.present result)
        | other => each other
  | .flatten source =>
      (meaning context named source).andThen fun value =>
        match value with
        | .absent => .abandoned
        | .present inner => .value inner
        | other => .value other
  | .debug _ source => meaning context named source

end Draft

/-- An evaluation ends as a meaning says, and never for want of a bound element. -/
inductive Evaluation.Means {α : Type} : Evaluation α → Meaning α → Prop where
  | value (sightings : List Sighting) (result : α) :
      Means ⟨sightings, .value result⟩ (.value result)
  | abandoned (sightings : List Sighting) : Means ⟨sightings, .abandoned⟩ .abandoned
  | failed (sightings : List Sighting) (error : EvaluationError)
      (bound : error.kind ≠ .unboundElement) :
      Means ⟨sightings, .failed error⟩ (.failed error.kind)

namespace Evaluation.Means

variable {α β : Type}

theorem andThen {first : Evaluation α} {meaning : Meaning α}
    {next : α → Evaluation β} {nextMeaning : α → Meaning β}
    (firstMeans : first.Means meaning)
    (nextMeans : ∀ result, (next result).Means (nextMeaning result)) :
    (first.andThen next).Means (meaning.andThen nextMeaning) := by
  cases firstMeans with
  | value sightings result =>
      simp only [Evaluation.andThen, Meaning.andThen]
      have further := nextMeans result
      generalize next result = second at further ⊢
      generalize nextMeaning result = secondMeaning at further ⊢
      cases further with
      | value later final => exact .value _ final
      | abandoned later => exact .abandoned _
      | failed later error bound => exact .failed _ error bound
  | abandoned sightings => exact .abandoned sightings
  | failed sightings error bound => exact .failed sightings error bound

theorem ofExcept {result : Except EvaluationError α}
    {reading : Except EvaluationErrorKind α}
    (same : result.mapError EvaluationError.kind = reading)
    (bound : reading ≠ .error .unboundElement) :
    (Evaluation.ofExcept result).Means (.ofExcept reading) := by
  subst same
  cases result with
  | ok found => exact .value [] found
  | error error =>
      refine .failed [] error fun unbound => bound ?_
      exact congrArg Except.error unbound

theorem forEach {step : α → Evaluation β} {stepMeaning : α → Meaning β}
    (stepMeans : ∀ item, (step item).Means (stepMeaning item)) (items : List α) :
    (Evaluation.forEach step items).Means (Meaning.forEach stepMeaning items) := by
  induction items with
  | nil => exact .value [] []
  | cons item rest ih =>
      exact (stepMeans item).andThen fun first =>
        ih.andThen fun others => .value [] (first :: others)

theorem orAbsent {evaluation : Evaluation Value} {meaning : Meaning Value}
    (means : evaluation.Means meaning) :
    evaluation.orAbsent.Means meaning.orAbsent := by
  cases means with
  | value sightings result => exact .value sightings result
  | abandoned sightings => exact .value sightings Value.absent
  | failed sightings error bound => exact .failed sightings error bound

theorem sighted {evaluation : Evaluation Value} {meaning : Meaning Value}
    (label : String) (means : evaluation.Means meaning) :
    (evaluation.sighted label).Means meaning := by
  cases means with
  | value sightings result => exact .value _ result
  | abandoned sightings => exact .abandoned _
  | failed sightings error bound => exact .failed sightings error bound

theorem finish {evaluation : Evaluation Value} {meaning : Meaning Value}
    (level : ReportLevel) (means : evaluation.Means meaning) :
    (evaluation.finish level).result.mapError EvaluationError.kind = meaning.result ∧
      meaning.result ≠ .error .unboundElement := by
  cases means with
  | value sightings result => exact ⟨rfl, fun impossible => by cases impossible⟩
  | abandoned sightings => exact ⟨rfl, fun impossible => by cases impossible⟩
  | failed sightings error bound =>
      exact ⟨rfl, fun unbound => bound (Except.error.inj unbound)⟩

end Evaluation.Means

end StagedResolver
