/-
Maps element by element.

An expression regards the elements bound in a context and those bound inside it as one
sequence.  A map is therefore made of its parts, each evaluated on its own: what it makes
of an element is what its transform comes to in the context that binds the element.  An
element at which the transform is abandoned is absent, and the others are what they are.
-/
import StagedResolver.Proofs.Evaluation.Stack
import StagedResolver.Proofs.Expression.Footprint

namespace StagedResolver

namespace Context

def withElements (context : Context) (elements : List Value) : Context :=
  { context with elements := elements }

private theorem withElements_elements (context : Context) :
    context.withElements context.elements = context := by
  cases context
  rfl

private theorem current_ancestor?_withElements (context : Context) (elements : List Value)
    (depth : Nat) :
    ((context.withElements elements).ancestor? depth).map Context.current =
      (context.ancestor? depth).map Context.current := by
  cases depth with
  | zero => rfl
  | succ depth => rfl

end Context

namespace Lookup

variable {inside inContext otherInside otherInContext : List Value}

private theorem resolve_withElements (same : inside ++ inContext = otherInside ++ otherInContext)
    (lookup : Lookup) (context : Context) :
    lookup.resolve (context.withElements inContext) inside =
      lookup.resolve (context.withElements otherInContext) otherInside := by
  have sameFind : lookup.find (context.withElements inContext) inside =
      lookup.find (context.withElements otherInContext) otherInside := by
    obtain ⟨root, segments, expected⟩ := lookup
    cases root with
    | ancestor depth =>
        rw [find_ancestor rfl, find_ancestor rfl, Context.current_ancestor?_withElements,
          Context.current_ancestor?_withElements]
    | element index =>
        have visible : inside ++ (context.withElements inContext).elements =
            otherInside ++ (context.withElements otherInContext).elements := same
        simp only [find, visible]
    | current => rfl
    | arguments => rfl
    | environment => rfl
  rw [resolve, sameFind]
  rfl

end Lookup

namespace Expression

variable {inside inContext otherInside otherInContext : List Value}

/-- What an expression comes to depends on no more than the sequence of all elements. -/
theorem run_withElements (same : inside ++ inContext = otherInside ++ otherInContext)
    (expression : Expression) (context : Context) :
    expression.run (context.withElements inContext) inside =
      expression.run (context.withElements otherInContext) otherInside := by
  induction expression generalizing inside otherInside with
  | constant value => rfl
  | read lookup => rw [run, run, Lookup.resolve_withElements same]
  | binary operator left right leftSame rightSame =>
      rw [run, run, leftSame same, rightSame same]
  | unary operator operand operandSame => rw [run, run, operandSame same]
  | map source transform sourceSame transformSame =>
      have eachSame (item : Value) :
          transform.run (context.withElements inContext) (item :: inside) =
            transform.run (context.withElements otherInContext) (item :: otherInside) :=
        transformSame (congrArg (List.cons item) same)
      simp only [run, sourceSame same, eachSame]
  | flatten source sourceSame => rw [run, run, sourceSame same]
  | debug label source sourceSame => rw [run, run, sourceSame same]

private theorem run_withElement (expression : Expression) (context : Context) (element : Value) :
    expression.run (context.withElement element) [] = expression.run context [element] := by
  have same : [] ++ element :: context.elements = [element] ++ context.elements := rfl
  have moved := run_withElements same expression context
  rw [context.withElements_elements] at moved
  exact moved

end Expression

namespace Evaluation

variable {α β : Type}

/-- An evaluation ends with a value or fails, as a result says. -/
inductive EndsIn : Evaluation α → Except EvaluationError α → Prop where
  | value (sightings : List Sighting) (result : α) :
      EndsIn ⟨sightings, .value result⟩ (.ok result)
  | failed (sightings : List Sighting) (error : EvaluationError) :
      EndsIn ⟨sightings, .failed error⟩ (.error error)

namespace EndsIn

theorem andThen {first : Evaluation α} {result : Except EvaluationError α}
    {next : α → Evaluation β} {nextResult : α → Except EvaluationError β}
    (ends : first.EndsIn result) (nextEnds : ∀ found, (next found).EndsIn (nextResult found)) :
    (first.andThen next).EndsIn (result >>= nextResult) := by
  cases ends with
  | value sightings found =>
      simp only [Evaluation.andThen]
      have later := nextEnds found
      show EndsIn _ (nextResult found)
      generalize next found = second, nextResult found = secondResult at later ⊢
      cases later with
      | value further last => exact .value _ last
      | failed further error => exact .failed _ error
  | failed sightings error => exact .failed sightings error

theorem forEach {step : α → Evaluation β} {stepResult : α → Except EvaluationError β}
    (stepEnds : ∀ item, (step item).EndsIn (stepResult item)) (items : List α) :
    (Evaluation.forEach step items).EndsIn (items.mapM stepResult) := by
  induction items with
  | nil => exact .value [] []
  | cons item rest ih =>
      rw [List.mapM_cons]
      exact (stepEnds item).andThen fun first =>
        ih.andThen fun others => .value [] (first :: others)

theorem orAbsent (evaluation : Evaluation Value) (level : ReportLevel) :
    evaluation.orAbsent.EndsIn (evaluation.finish level).result := by
  obtain ⟨sightings, outcome⟩ := evaluation
  cases outcome with
  | value result => exact .value sightings result
  | abandoned => exact .value sightings Value.absent
  | failed error => exact .failed sightings error

theorem finish {evaluation : Evaluation Value} {result : Except EvaluationError Value}
    (ends : evaluation.EndsIn result) (level : ReportLevel) :
    (evaluation.finish level).result = result := by
  cases ends with
  | value sightings found => rfl
  | failed sightings error => rfl

end EndsIn

end Evaluation

/-! ### Maps -/

/-- What a map makes of the value of its source, by what becomes of each element: the items
of a sequence in their order or the failure of the first that fails, nothing of what is
absent, something present of what is present, and any other value as one element. -/
def Value.mapped (transformed : Value → Except EvaluationError Value) :
    Value → Except EvaluationError Value
  | .sequence items => (items.mapM transformed).map .sequence
  | .absent => .ok .absent
  | .present inner => (transformed inner).map .present
  | other => transformed other

private theorem Value.mapContent_endsIn {transform : Value → Evaluation Value}
    {transformed : Value → Except EvaluationError Value}
    (each : ∀ item, (transform item).EndsIn (transformed item)) (value : Value) :
    (value.mapContent transform).EndsIn (value.mapped transformed) := by
  cases value with
  | sequence items =>
      exact (Evaluation.EndsIn.forEach each items).andThen fun results =>
        .value [] (Value.sequence results)
  | absent => exact .value [] Value.absent
  | present inner =>
      exact (each inner).andThen fun result => .value [] (Value.present result)
  | _ => exact each _

/-- Where the source of a map is abandoned, so is the map, and both come to nothing. -/
theorem Evaluation.finish_andThen_mapContent {transform : Value → Evaluation Value}
    {transformed : Value → Except EvaluationError Value}
    (each : ∀ item, (transform item).EndsIn (transformed item)) (evaluation : Evaluation Value)
    (level : ReportLevel) :
    ((evaluation.andThen fun value => value.mapContent transform).finish level).result =
      (evaluation.finish level).result >>= Value.mapped transformed := by
  obtain ⟨sightings, outcome⟩ := evaluation
  cases outcome with
  | value result =>
      have ends := (EndsIn.value sightings result).andThen (Value.mapContent_endsIn each)
      exact ends.finish level
  | abandoned => rfl
  | failed error => rfl

namespace Expression

/-- A map comes to what its source and its transform come to on their own, the transform in
the context that binds an element.  Being abandoned at one item of a sequence makes that item
absent and changes no other.  And on a stack of elements, however an expression ends there,
what follows it sees the elements that were seen before. -/
theorem evaluate_map (level : ReportLevel) (source transform : Expression)
    (context : Context) :
    let each (element : Value) : Except EvaluationError Value :=
      (transform.evaluate level (context.withElement element)).result
    ((map source transform).evaluate level context).result =
        (source.evaluate level context).result >>= Value.mapped each ∧
      (∀ before element after,
        (source.evaluate level context).result =
            .ok (.sequence (before ++ element :: after)) →
          (transform.run (context.withElement element) []).outcome = .abandoned →
            ((map source transform).evaluate level context).result = (do
              let firsts ← before.mapM each
              let others ← after.mapM each
              return .sequence (firsts ++ .absent :: others))) ∧
      ∀ (expression : Expression) (stack : List Value),
        expression.runOnStack context stack = (expression.run context stack, stack) := by
  intro each
  have eachEnds (item : Value) : (transform.run context [item]).orAbsent.EndsIn (each item) := by
    have alone : each item = ((transform.run context [item]).finish level).result := by
      rw [← run_withElement]
      rfl
    rw [alone]
    exact .orAbsent _ level
  have mapped : ((map source transform).evaluate level context).result =
      (source.evaluate level context).result >>= Value.mapped each :=
    Evaluation.finish_andThen_mapContent eachEnds (source.run context []) level
  refine ⟨mapped, ?_, fun expression stack => expression.runOnStack_eq context stack⟩
  intro before element after sourceIs abandoned
  have nothing : each element = .ok .absent := by
    show ((transform.run (context.withElement element) []).finish level).result = _
    rw [Evaluation.finish, abandoned]
  rw [mapped, sourceIs]
  show (List.mapM each (before ++ element :: after)).map Value.sequence = _
  rw [List.mapM_append, List.mapM_cons, nothing]
  cases before.mapM each with
  | error fault => rfl
  | ok firsts =>
      cases after.mapM each with
      | error fault => rfl
      | ok others => rfl

end Expression

def Expression.ofTenfolds : Expression :=
  .binary .add
    (.binary .mul (.flatten (.read ⟨.element 0, [.key "count"], .optional .int⟩))
      (.constant (.int 10)))
    (.read ⟨.element 1, [], .int⟩)

def Context.ofTenfolds : Context :=
  (Context.root (.sequence [.record [("count", .int 1)], .record [], .record [("count", .int 3)]])
    []).withElement (.int 5)

theorem Expression.evaluate_map_ofTenfolds :
    let source : Expression := .read ⟨.current, [], .sequence .record⟩
    let each (element : Value) : Except EvaluationError Value :=
      (ofTenfolds.evaluate .off (Context.ofTenfolds.withElement element)).result
    (source.evaluate .off .ofTenfolds).result = .ok (.sequence
        ([.record [("count", .int 1)]] ++ .record [] :: [.record [("count", .int 3)]])) ∧
      (ofTenfolds.run (Context.ofTenfolds.withElement (.record [])) []).outcome = .abandoned ∧
      ((Expression.map source ofTenfolds).evaluate .off .ofTenfolds).result = (do
        let firsts ← List.mapM each [.record [("count", .int 1)]]
        let others ← List.mapM each [.record [("count", .int 3)]]
        return .sequence (firsts ++ .absent :: others)) ∧
      ((Expression.map source ofTenfolds).evaluate .off .ofTenfolds).result =
        .ok (.sequence [.int 15, .absent, .int 35]) := by
  have alone := (Expression.evaluate_map .off (.read ⟨.current, [], .sequence .record⟩)
    ofTenfolds .ofTenfolds).2.1 [.record [("count", .int 1)]] (.record [])
      [.record [("count", .int 3)]] rfl rfl
  exact ⟨rfl, rfl, alone, rfl⟩

end StagedResolver
