/-
Debug nodes watch an evaluation and change nothing in it.

An expression ends as it does without its debug nodes.  What is told meanwhile follows from the
way in which the sources of debug nodes end: each source that has a value, or is abandoned, is
told of once, after all that was told of its own parts.
-/
import StagedResolver.Proofs.Expression.Footprint

namespace StagedResolver

namespace Evaluation

variable {α β : Type} {first second : Evaluation α} {next other : α → Evaluation β}

private theorem outcome_andThen_congr (same : first.outcome = second.outcome)
    (nextSame : ∀ found, (next found).outcome = (other found).outcome) :
    (first.andThen next).outcome = (second.andThen other).outcome := by
  simp only [andThen, same]
  cases second.outcome with
  | value found => exact nextSame found
  | abandoned => rfl
  | failed error => rfl

private theorem outcome_forEach_congr {step other : α → Evaluation β}
    (each : ∀ item, (step item).outcome = (other item).outcome) (items : List α) :
    (forEach step items).outcome = (forEach other items).outcome := by
  induction items with
  | nil => rfl
  | cons item rest ih =>
      exact outcome_andThen_congr (each item) fun _ => outcome_andThen_congr ih fun _ => rfl

private theorem outcome_orAbsent_congr {first second : Evaluation Value}
    (same : first.outcome = second.outcome) : first.orAbsent.outcome = second.orAbsent.outcome := by
  obtain ⟨sightings, outcome⟩ := first
  obtain ⟨others, otherOutcome⟩ := second
  cases same
  cases outcome with
  | _ => rfl

private theorem outcome_sighted (label : String) (evaluation : Evaluation Value) :
    (evaluation.sighted label).outcome = evaluation.outcome := by
  obtain ⟨sightings, outcome⟩ := evaluation
  cases outcome with
  | _ => rfl

private theorem outcome_mapContent_congr {transform other : Value → Evaluation Value}
    (each : ∀ item, (transform item).outcome = (other item).outcome) (value : Value) :
    (value.mapContent transform).outcome = (value.mapContent other).outcome := by
  cases value with
  | sequence items => exact outcome_andThen_congr (outcome_forEach_congr each items) fun _ => rfl
  | absent => rfl
  | present inner => exact outcome_andThen_congr (each inner) fun _ => rfl
  | _ => exact each _

private theorem result_finish_congr {first second : Evaluation Value}
    (same : first.outcome = second.outcome) (level otherLevel : ReportLevel) :
    (first.finish level).result = (second.finish otherLevel).result := by
  simp only [finish, same]
  cases second.outcome with
  | _ => rfl

end Evaluation

namespace Expression

/-- The expression with the source of each debug node in the place of the node. -/
def withoutDebug : Expression → Expression
  | .constant value => .constant value
  | .read lookup => .read lookup
  | .binary operator left right => .binary operator (withoutDebug left) (withoutDebug right)
  | .unary operator operand => .unary operator (withoutDebug operand)
  | .map source transform => .map (withoutDebug source) (withoutDebug transform)
  | .flatten source => .flatten (withoutDebug source)
  | .debug _ source => withoutDebug source

theorem not_isPartOf_withoutDebug {label : String} {source : Expression}
    (expression : Expression) :
    ¬ (Expression.debug label source).IsPartOf expression.withoutDebug := by
  intro isPart
  induction expression with
  | constant value => cases isPart
  | read lookup => cases isPart
  | binary operator left right notInLeft notInRight =>
      cases isPart with
      | left inside => exact notInLeft inside
      | right inside => exact notInRight inside
  | unary operator operand notInside =>
      cases isPart with
      | operand inside => exact notInside inside
  | map source transform notInSource notInTransform =>
      cases isPart with
      | source inside => exact notInSource inside
      | transform inside => exact notInTransform inside
  | flatten source notInside =>
      cases isPart with
      | flattened inside => exact notInside inside
  | debug label source notInside => exact notInside isPart

private theorem outcome_run_withoutDebug (expression : Expression) (context : Context)
    (elements : List Value) :
    (expression.run context elements).outcome =
      (expression.withoutDebug.run context elements).outcome := by
  induction expression generalizing elements with
  | constant value => rfl
  | read lookup => rfl
  | binary operator left right leftSame rightSame =>
      exact Evaluation.outcome_andThen_congr (leftSame elements) fun _ =>
        Evaluation.outcome_andThen_congr (rightSame elements) fun _ => rfl
  | unary operator operand same =>
      exact Evaluation.outcome_andThen_congr (same elements) fun _ => rfl
  | map source transform sourceSame transformSame =>
      refine Evaluation.outcome_andThen_congr (sourceSame elements) fun found => ?_
      refine Evaluation.outcome_mapContent_congr (fun item => ?_) found
      exact Evaluation.outcome_orAbsent_congr (transformSame (item :: elements))
  | flatten source same => exact Evaluation.outcome_andThen_congr (same elements) fun _ => rfl
  | debug label source same => exact (Evaluation.outcome_sighted label _).trans (same elements)

/-- Without its debug nodes an expression has the same result, at whatever levels. -/
theorem result_evaluate_withoutDebug (expression : Expression) (context : Context)
    (level other : ReportLevel) :
    (expression.evaluate level context).result =
      (expression.withoutDebug.evaluate other context).result :=
  Evaluation.result_finish_congr (outcome_run_withoutDebug expression context []) level other

end Expression

/-! ### What is told -/

/-- What is told of a debug node whose source ends: its label, and the text of the value.
Absence is shown as null, and nothing is told of a failure. -/
def Outcome.event? (label : String) : Outcome Value → Option (String × String)
  | .value result => some (label, result.display)
  | .abandoned => some (label, "null")
  | .failed _ => none

/-- What a map hands to its transform. -/
def Value.contents : Value → List Value
  | .sequence items => items
  | .absent => []
  | .present inner => [inner]
  | other => [other]

namespace Evaluation

variable {α β : Type}

def events (evaluation : Evaluation α) : List (String × String) :=
  evaluation.sightings.map fun sighting => (sighting.label, sighting.value.display)

/-- The items up to the first at which a step fails, that one included. -/
def reached (step : α → Evaluation β) : List α → List α
  | [] => []
  | item :: rest =>
      item ::
        match (step item).outcome with
        | .failed _ => []
        | _ => reached step rest

private theorem reached_singleton (step : α → Evaluation β) (item : α) :
    reached step [item] = [item] := by
  rw [reached, reached]
  cases (step item).outcome with
  | _ => rfl

private theorem events_andThen (first : Evaluation α) (next : α → Evaluation β) :
    (first.andThen next).events =
      first.events ++
        match first.outcome with
        | .value found => (next found).events
        | _ => [] := by
  obtain ⟨sightings, outcome⟩ := first
  cases outcome with
  | value found => exact List.map_append
  | abandoned => exact (List.append_nil _).symm
  | failed error => exact (List.append_nil _).symm

private theorem events_andThen_of_silent {first : Evaluation α} {next : α → Evaluation β}
    (silent : ∀ found, (next found).events = []) : (first.andThen next).events = first.events := by
  rw [events_andThen]
  split
  · rw [silent, List.append_nil]
  · rw [List.append_nil]

private theorem events_ofExcept (result : Except EvaluationError α) :
    (ofExcept result).events = [] := by
  cases result with
  | _ => rfl

private theorem events_orAbsent (evaluation : Evaluation Value) :
    evaluation.orAbsent.events = evaluation.events := by
  obtain ⟨sightings, outcome⟩ := evaluation
  cases outcome with
  | _ => rfl

theorem events_sighted (label : String) (evaluation : Evaluation Value) :
    (evaluation.sighted label).events =
      evaluation.events ++ (evaluation.outcome.event? label).toList := by
  obtain ⟨sightings, outcome⟩ := evaluation
  cases outcome with
  | value result => exact List.map_append
  | abandoned => exact List.map_append
  | failed error => exact (List.append_nil _).symm

private theorem events_unwrap (value : Value) : value.unwrap.events = [] := by
  cases value with
  | _ => rfl

/-- Items are told of one after the other, up to the first that fails.  Being abandoned at an
item keeps none of the others from being reached. -/
theorem events_forEach (step : α → Evaluation Value) (items : List α) :
    (forEach (fun item => (step item).orAbsent) items).events =
      (reached step items).flatMap fun item => (step item).events := by
  induction items with
  | nil => rfl
  | cons item rest ih =>
      rw [forEach, events_andThen, events_orAbsent, reached, List.flatMap_cons]
      apply congrArg
      have others (first : Value) :
          ((forEach (fun item => (step item).orAbsent) rest).andThen fun others =>
            ok (first :: others)).events =
            (reached step rest).flatMap fun item => (step item).events := by
        rw [events_andThen_of_silent fun _ => rfl, ih]
      generalize step item = evaluation
      obtain ⟨sightings, outcome⟩ := evaluation
      cases outcome with
      | value found => exact others found
      | abandoned => exact others .absent
      | failed error => rfl

private theorem events_mapContent (step : Value → Evaluation Value) (value : Value) :
    (value.mapContent fun item => (step item).orAbsent).events =
      (reached step value.contents).flatMap fun item => (step item).events := by
  have single (item : Value) :
      ((reached step [item]).flatMap fun item => (step item).events) = (step item).events := by
    rw [reached_singleton, List.flatMap_singleton]
  cases value with
  | sequence items =>
      exact (events_andThen_of_silent fun _ => rfl).trans (events_forEach step items)
  | absent => rfl
  | present inner =>
      refine (events_andThen_of_silent fun _ => rfl).trans ?_
      exact (events_orAbsent (step inner)).trans (single inner).symm
  | _ => exact (events_orAbsent _).trans (single _).symm

end Evaluation

/-- A debug node that is met once in an evaluation, with the elements that are bound there. -/
structure Inspection where
  label : String
  source : Expression
  elements : List Value

def Inspection.event? (context : Context) (inspection : Inspection) : Option (String × String) :=
  (inspection.source.run context inspection.elements).outcome.event? inspection.label

namespace Expression

/-- The debug nodes that an evaluation meets, in the order in which their sources end.  What an
operator has on its right is met only after a value on its left, and a transform is met for
each item that is reached. -/
def inspections (context : Context) (elements : List Value) : Expression → List Inspection
  | .constant _ => []
  | .read _ => []
  | .binary _ left right =>
      inspections context elements left ++
        match (left.run context elements).outcome with
        | .value _ => inspections context elements right
        | _ => []
  | .unary _ operand => inspections context elements operand
  | .map source transform =>
      inspections context elements source ++
        match (source.run context elements).outcome with
        | .value found =>
            (Evaluation.reached (fun item => transform.run context (item :: elements))
              found.contents).flatMap fun item => inspections context (item :: elements) transform
        | _ => []
  | .flatten source => inspections context elements source
  | .debug label source => inspections context elements source ++ [⟨label, source, elements⟩]

/-- What is told is what is told of the debug nodes that are met. -/
theorem events_run (expression : Expression) (context : Context) (elements : List Value) :
    (expression.run context elements).events =
      (expression.inspections context elements).filterMap (Inspection.event? context) := by
  induction expression generalizing elements with
  | constant value => rfl
  | read lookup => exact Evaluation.events_ofExcept _
  | binary operator left right leftTold rightTold =>
      refine (Evaluation.events_andThen _ _).trans ?_
      rw [inspections, List.filterMap_append, leftTold]
      apply congrArg
      cases (left.run context elements).outcome with
      | value found =>
          refine Eq.trans ?_ (rightTold elements)
          exact Evaluation.events_andThen_of_silent fun _ => Evaluation.events_ofExcept _
      | abandoned => rfl
      | failed error => rfl
  | unary operator operand told =>
      refine Eq.trans ?_ (told elements)
      exact Evaluation.events_andThen_of_silent fun _ => Evaluation.events_ofExcept _
  | map source transform sourceTold transformTold =>
      refine (Evaluation.events_andThen _ _).trans ?_
      rw [inspections, List.filterMap_append, sourceTold]
      apply congrArg
      cases (source.run context elements).outcome with
      | value found =>
          refine (Evaluation.events_mapContent _ _).trans ?_
          simp only [transformTold, List.filterMap_flatMap]
      | abandoned => rfl
      | failed error => rfl
  | flatten source told =>
      refine Eq.trans ?_ (told elements)
      exact Evaluation.events_andThen_of_silent Evaluation.events_unwrap
  | debug label source told =>
      refine (Evaluation.events_sighted label _).trans ?_
      rw [told, inspections, List.filterMap_append]
      apply congrArg
      show ((source.run context elements).outcome.event? label).toList = _
      rw [List.filterMap_cons, Inspection.event?]
      cases (source.run context elements).outcome.event? label with
      | none => rfl
      | some event => rfl

end Expression

/-! ### Reports -/

def Report.told (report : Report) : ReportLevel × String × String :=
  (report.level, report.label, report.text)

private theorem told_reports_finish (level : ReportLevel) (evaluation : Evaluation Value) :
    (evaluation.finish level).reports.map Report.told =
      if level = .off then [] else evaluation.events.map fun event => (level, event) := by
  have sameReports : (evaluation.finish level).reports = reportsAt level evaluation.sightings := by
    unfold Evaluation.finish
    cases evaluation.outcome with
    | _ => rfl
  rw [sameReports, reportsAt]
  split
  · rfl
  · rw [Evaluation.events, List.map_map, List.map_map]
    rfl

/-- At every level but off, each report carries the level, and the rest of it is what is told
of the debug nodes that are met. -/
theorem Expression.told_reports_evaluate (expression : Expression) (context : Context)
    (level : ReportLevel) :
    (expression.evaluate level context).reports.map Report.told =
      if level = .off then []
      else ((expression.inspections context []).filterMap (Inspection.event? context)).map
        fun event => (level, event) := by
  rw [evaluate, told_reports_finish, events_run]

end StagedResolver
