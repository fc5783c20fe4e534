/-
Lowering keeps the meaning of a draft.

A lowered path starts where the draft says: the number of a map stands for the
element of the innermost map of the name, and the root of a named slot is the
value that the slot names.  From there the proof follows the draft, with the
names and elements of the enclosing maps side by side.
-/
import StagedResolver.Proofs.Evaluation.Fault
import StagedResolver.Proofs.Expression.Meaning

namespace StagedResolver

/-- Diagnostics apart, what a path leads to depends on its segments only. -/
theorem Lookup.follow_kind (first second : Lookup) (segments : List PathStep)
    (value : Value) :
    (first.follow segments value).mapError EvaluationError.kind =
      (second.follow segments value).mapError EvaluationError.kind := by
  induction segments generalizing value with
  | nil => rfl
  | cons segment rest ih =>
      simp only [Lookup.follow]
      split
      · rfl
      · rfl
      · split
        · split
          · exact ih _
          · rfl
        · split
          · exact ih _
          · rfl
        · rfl
        · rfl

private theorem Lookup.findInRecord_kind (first second : Lookup)
    (same : first.segments = second.segments) (record : Record) :
    (first.findInRecord record).mapError EvaluationError.kind =
      (second.findInRecord record).mapError EvaluationError.kind := by
  simp only [Lookup.findInRecord, same]
  split
  · rfl
  · split
    · exact Lookup.follow_kind first second _ _
    · rfl
  · rfl

theorem Lookup.check_kind (first second : Lookup)
    (same : first.expected = second.expected) (found : Option Value) :
    (first.check found).mapError EvaluationError.kind =
      (second.check found).mapError EvaluationError.kind := by
  have fitted (value : Value) : first.fit value = second.fit value := by
    simp only [Lookup.fit, same]
  cases found with
  | none =>
      simp only [Lookup.check, same]
      split <;> rfl
  | some value =>
      simp only [Lookup.check, same, fitted]
      split
      · split <;> rfl
      · split <;> rfl

namespace Start

private theorem find_kind (start : Start) (first second : Lookup)
    (same : first.segments = second.segments) :
    (start.find first).mapError EvaluationError.kind =
      (start.find second).mapError EvaluationError.kind := by
  cases start with
  | value held =>
      simp only [Start.find, Lookup.findIn, same]
      exact Lookup.follow_kind first second _ held
  | record entries => exact Lookup.findInRecord_kind first second same entries
  | nowhere => rfl

/-- A lookup that starts where a path does reads what the path reads. -/
theorem resolve_kind {start : Start} {lookup : Lookup} {context : Context}
    {elements : List Value} (starts : lookup.find context elements = start.find lookup) :
    (lookup.resolve context elements).mapError EvaluationError.kind =
      start.read lookup.segments lookup.expected := by
  simp only [Lookup.resolve, starts, Start.read]
  exact mapError_bind_congr (start.find_kind lookup _ rfl)
    (Lookup.check_kind lookup _ rfl)

private theorem read_ne_unboundElement (start : Start) (segments : List PathStep)
    (expected : ValueType) : start.read segments expected ≠ .error .unboundElement := by
  intro unbound
  simp only [Start.read] at unbound
  generalize (⟨.current, segments, expected⟩ : Lookup) = lookup at unbound
  cases found : start.find lookup with
  | error error =>
      have mismatch : ∃ needed kind, error = .stepMismatch lookup needed kind := by
        cases start with
        | value held => exact Lookup.follow_eq_error found
        | record entries => exact Lookup.findInRecord_eq_error found
        | nowhere => cases found
      obtain ⟨needed, kind, rfl⟩ := mismatch
      rw [found] at unbound
      cases unbound
  | ok value =>
      rw [found] at unbound
      change (lookup.check value).mapError EvaluationError.kind = _ at unbound
      cases checked : lookup.check value with
      | ok result =>
          rw [checked] at unbound
          cases unbound
      | error error =>
          rw [checked] at unbound
          rcases Lookup.check_eq_error checked with rfl | ⟨kind, rfl⟩
          · cases unbound
          · cases unbound

end Start

private theorem lookup_of_bindingIndex? {name : BindingName}
    {named : List (BindingName × Value)} {index : Nat}
    (found : bindingIndex? name (named.map Prod.fst) = some index) :
    ∃ element, named.lookup name = some element ∧
      (named.map Prod.snd)[index]? = some element := by
  induction named generalizing index with
  | nil => cases found
  | cons bound outer ih =>
      obtain ⟨inner, element⟩ := bound
      simp only [List.map_cons, bindingIndex?] at found
      split at found
      · rename_i same
        cases found
        refine ⟨element, ?_, rfl⟩
        rw [same, List.lookup_cons_self]
      · rename_i different
        obtain ⟨further, foundFurther, rfl⟩ := Option.map_eq_some_iff.mp found
        obtain ⟨held, named, placed⟩ := ih foundFurther
        refine ⟨held, ?_, placed⟩
        rw [List.lookup_cons, beq_false_of_ne (Ne.symm different)]
        exact named

private theorem find_valueRoot (context : Context) (elements : List Value) (depth : Nat)
    (segments : List PathStep) (expected : ValueType) :
    let lookup : Lookup :=
      ⟨if depth = 0 then .current else .ancestor depth, segments, expected⟩
    lookup.find context elements = (context.valueAt depth).find lookup := by
  cases depth with
  | zero => rfl
  | succ outer =>
      simp only [if_neg (Nat.succ_ne_zero outer), Lookup.find, Context.valueAt]
      cases context.ancestor? (outer + 1) with
      | none => rfl
      | some ancestor => rfl

theorem slot_eq_ok {whole segments : List PathStep} {before : Nat}
    {start : LookupRoot × List PathStep}
    (lowered : slot whole before segments = .ok start) :
    let depth := before + (segments.takeWhile PathStep.isParent).length
    ∃ name rest, segments.dropWhile PathStep.isParent = .key name :: rest ∧
      start.2 = rest ∧
      (name = "value" ∧ start.1 = (if depth = 0 then .current else .ancestor depth) ∨
        depth = 0 ∧ name = "args" ∧ start.1 = .arguments ∨
        depth = 0 ∧ name = "env" ∧ start.1 = .environment) := by
  induction segments generalizing before with
  | nil =>
      simp only [slot] at lowered
      split at lowered <;> cases lowered
  | cons segment rest ih =>
      cases segment with
      | index position => cases lowered
      | key name =>
          simp only [slot] at lowered
          by_cases isParent : name = "parent"
          · have parent : PathStep.isParent (.key name) = true := by
              simp only [PathStep.isParent, isParent, decide_true]
            rw [if_pos isParent] at lowered
            have further := ih lowered
            simp only [List.takeWhile_cons, List.dropWhile_cons, parent, if_true,
              List.length_cons]
            rw [show before + ((rest.takeWhile PathStep.isParent).length + 1) =
              before + 1 + (rest.takeWhile PathStep.isParent).length by omega]
            exact further
          · have noParent : PathStep.isParent (.key name) = false := by
              simp only [PathStep.isParent, PathStep.key.injEq, isParent, decide_false]
            rw [if_neg isParent] at lowered
            simp only [List.takeWhile_cons, List.dropWhile_cons, noParent,
              Bool.false_eq_true, if_false, List.length_nil, Nat.add_zero]
            refine ⟨name, rest, rfl, ?_⟩
            by_cases isValue : name = "value"
            · rw [if_pos isValue] at lowered
              cases lowered
              exact ⟨rfl, .inl ⟨isValue, rfl⟩⟩
            · rw [if_neg isValue] at lowered
              split at lowered
              · rename_i isRecord
                split at lowered
                · cases lowered
                · cases lowered
                  have current : before = 0 := by omega
                  rcases isRecord with isArguments | isEnvironment
                  · rw [if_pos isArguments]
                    exact ⟨rfl, .inr (.inl ⟨current, isArguments, rfl⟩)⟩
                  · have noArguments : name ≠ "args" := by
                      rw [isEnvironment]
                      decide
                    rw [if_neg noArguments]
                    exact ⟨rfl, .inr (.inr ⟨current, isEnvironment, rfl⟩)⟩
              · cases lowered

/-- A path with a named slot starts where its lowered form does. -/
theorem Context.namedSlot?_of_slot (context : Context) {segments : List PathStep}
    {start : LookupRoot × List PathStep}
    (lowered : slot segments 0 segments = .ok start) (elements : List Value) :
    ∃ origin, context.namedSlot? segments = some (origin, start.2) ∧
      ∀ expected, (⟨start.1, start.2, expected⟩ : Lookup).find context elements =
        origin.find ⟨start.1, start.2, expected⟩ := by
  obtain ⟨name, rest, dropped, sameRest, slots⟩ := slot_eq_ok lowered
  simp only [Nat.zero_add] at slots
  simp only [Context.namedSlot?, dropped]
  rcases slots with ⟨isValue, root⟩ | ⟨depth, isArguments, root⟩ |
    ⟨depth, isEnvironment, root⟩
  · refine ⟨_, by rw [if_pos isValue, sameRest], fun expected => ?_⟩
    rw [root]
    exact find_valueRoot context elements _ start.2 expected
  · have noValue : name ≠ "value" := by
      rw [isArguments]
      decide
    refine ⟨_, by rw [if_neg noValue, if_pos ⟨depth, isArguments⟩, sameRest], ?_⟩
    intro expected
    rw [root]
    rfl
  · have noValue : name ≠ "value" := by
      rw [isEnvironment]
      decide
    have noArguments : name ≠ "args" := by
      rw [isEnvironment]
      decide
    refine ⟨_, by rw [if_neg noValue, if_neg (noArguments ·.2),
      if_pos ⟨depth, isEnvironment⟩, sameRest], ?_⟩
    intro expected
    rw [root]
    rfl

/-- A lowered path reads what the draft's path reads. -/
theorem Draft.readFrom_of_lowerRead (context : Context)
    {named : List (BindingName × Value)} {origin : Origin} {segments : List PathStep}
    {start : LookupRoot × List PathStep}
    (lowered : lowerRead (named.map Prod.fst) origin segments = .ok start)
    (expected : ValueType) :
    ∃ first : Start, Draft.readFrom context named segments expected origin =
        first.read start.2 expected ∧
      (⟨start.1, start.2, expected⟩ : Lookup).find context (named.map Prod.snd) =
        first.find ⟨start.1, start.2, expected⟩ := by
  cases origin with
  | named =>
      obtain ⟨first, slotIs, starts⟩ :=
        Context.namedSlot?_of_slot context lowered (named.map Prod.snd)
      exact ⟨first, by simp only [Draft.readFrom, slotIs], starts expected⟩
  | current =>
      cases lowered
      exact ⟨.value context.current, rfl, rfl⟩
  | ancestor depth =>
      cases lowered
      exact ⟨context.valueAt depth, rfl,
        find_valueRoot context (named.map Prod.snd) depth segments expected⟩
  | arguments =>
      cases lowered
      exact ⟨.record context.arguments, rfl, rfl⟩
  | environment =>
      cases lowered
      exact ⟨.record context.environment, rfl, rfl⟩
  | binding name =>
      simp only [lowerRead] at lowered
      split at lowered
      · rename_i index found
        cases lowered
        obtain ⟨element, held, placed⟩ := lookup_of_bindingIndex? found
        have visible : (named.map Prod.snd ++ context.elements)[index]? = some element :=
          List.getElem?_append_left (List.getElem?_eq_some_iff.mp placed).1 ▸ placed
        refine ⟨.value element, by simp only [Draft.readFrom, held], ?_⟩
        simp only [Lookup.find, visible, Start.find]
      · cases lowered

/-! ### Lowered drafts -/

/-- Inside maps that bind `named`, the lowered form of a draft evaluates to what the
draft means. -/
theorem Draft.run_means {context : Context} {draft : Draft}
    {named : List (BindingName × Value)} {expression : Expression}
    (lowered : draft.lowerIn (named.map Prod.fst) = .ok expression) :
    (expression.run context (named.map Prod.snd)).Means (draft.meaning context named) := by
  induction draft generalizing named expression with
  | constant value =>
      cases lowered
      exact .value [] value
  | read origin segments expected =>
      obtain ⟨start, startLowered, rfl⟩ := lowerIn_read_eq_ok.mp lowered
      obtain ⟨first, reads, starts⟩ :=
        Draft.readFrom_of_lowerRead context startLowered expected
      simp only [Expression.run, Draft.meaning, reads]
      exact .ofExcept (Start.resolve_kind starts) (first.read_ne_unboundElement _ _)
  | binary operator left right ihLeft ihRight =>
      obtain ⟨first, leftLowered, second, rightLowered, rfl⟩ :=
        lowerIn_binary_eq_ok.mp lowered
      refine (ihLeft leftLowered).andThen fun leftValue =>
        (ihRight rightLowered).andThen fun rightValue => .ofExcept rfl ?_
      exact mapError_kind_ne_unboundElement fun _ => BinaryOperator.kind_of_apply_eq_error
  | unary operator operand ih =>
      obtain ⟨inner, operandLowered, rfl⟩ := lowerIn_unary_eq_ok.mp lowered
      refine (ih operandLowered).andThen fun value => .ofExcept rfl ?_
      exact mapError_kind_ne_unboundElement fun _ => UnaryOperator.kind_of_apply_eq_error
  | map source name transform ihSource ihTransform =>
      obtain ⟨first, sourceLowered, second, transformLowered, rfl⟩ :=
        lowerIn_map_eq_ok.mp lowered
      -- The element is named while the transform runs, and only then.
      have eachMeans (item : Value) :
          (second.run context (item :: named.map Prod.snd)).orAbsent.Means
            (transform.meaning context ((name, item) :: named)).orAbsent :=
        (@ihTransform ((name, item) :: named) second transformLowered).orAbsent
      refine (ihSource sourceLowered).andThen fun value => ?_
      cases value with
      | sequence items =>
          exact (Evaluation.Means.forEach eachMeans items).andThen fun results =>
            .value [] (Value.sequence results)
      | absent => exact .value [] Value.absent
      | present inner =>
          exact (eachMeans inner).andThen fun result => .value [] (Value.present result)
      | _ => exact eachMeans _
  | flatten source ih =>
      obtain ⟨inner, sourceLowered, rfl⟩ := lowerIn_flatten_eq_ok.mp lowered
      refine (ih sourceLowered).andThen fun value => ?_
      cases value with
      | absent => exact .abandoned []
      | present inner => exact .value [] inner
      | _ => exact .value [] _
  | debug label source ih =>
      obtain ⟨inner, sourceLowered, rfl⟩ := lowerIn_debug_eq_ok.mp lowered
      exact (ih sourceLowered).sighted label

/-- The lowered form of a draft has the result that the draft means, in every
context, and never lacks a bound element. -/
theorem Draft.evaluate_of_lower {draft : Draft} {expression : Expression}
    (lowered : draft.lower = .ok expression) (level : ReportLevel) (context : Context) :
    (expression.evaluate level context).result.mapError EvaluationError.kind =
        (draft.meaning context []).result ∧
      ∀ error, (expression.evaluate level context).result = .error error →
        error.kind ≠ .unboundElement := by
  have means : (expression.run context []).Means (draft.meaning context []) :=
    @Draft.run_means context draft [] expression lowered
  obtain ⟨sameResult, bound⟩ := means.finish level
  refine ⟨sameResult, fun error fails unbound => bound ?_⟩
  rw [← sameResult]
  change ((expression.run context []).finish level).result = .error error at fails
  rw [fails]
  exact congrArg Except.error unbound

def Draft.movedCells : Draft :=
  .map (.read .named [.key "parent", .key "value", .key "rows"] .any) 0
    (.map (.read (.binding 0) [.key "cells"] .any) 1
      (.map (.flatten (.read (.binding 1) [] (.optional .int))) 1
        (.binary .add (.read (.binding 1) [] .int)
          (.read (.binding 0) [.key "offset"] .int))))

def Context.belowRow : Context :=
  let row : Value :=
    .record [("offset", .int 10), ("cells", .sequence [.int 1, .null])]
  ((Context.root (.record [("rows", .sequence [row])]) []).child .null).withElement (.int 99)

theorem Draft.evaluate_movedCells :
    ∃ expression, Draft.movedCells.lower = .ok expression ∧
      ((expression.evaluate .off .belowRow).result.mapError EvaluationError.kind =
          (Draft.movedCells.meaning .belowRow []).result ∧
        ∀ error, (expression.evaluate .off .belowRow).result = .error error →
          error.kind ≠ .unboundElement) ∧
      (Draft.movedCells.meaning .belowRow []).result =
        .ok (.sequence [.sequence [.int 11, .absent]]) :=
  ⟨_, rfl, Draft.evaluate_of_lower rfl .off .belowRow, rfl⟩

end StagedResolver
