/-
The lookups of an expression are all that it depends on.

They are collected from every part of it, transforms of maps included.  An expression
therefore ends alike in two contexts in which its lookups do, but for those that start
at elements: the elements that maps bind are made of what was evaluated before, and are
the same in both.  Errors may be told apart in full or by any view of them.
-/
import StagedResolver.Evaluation.Basic

namespace StagedResolver

namespace Expression

/-- Whether an expression is a part of another one, at any depth, or that itself. -/
inductive IsPartOf (part : Expression) : Expression → Prop where
  | whole : IsPartOf part part
  | left {operator : BinaryOperator} {left right : Expression} (inside : IsPartOf part left) :
      IsPartOf part (.binary operator left right)
  | right {operator : BinaryOperator} {left right : Expression} (inside : IsPartOf part right) :
      IsPartOf part (.binary operator left right)
  | operand {operator : UnaryOperator} {operand : Expression} (inside : IsPartOf part operand) :
      IsPartOf part (.unary operator operand)
  | source {source transform : Expression} (inside : IsPartOf part source) :
      IsPartOf part (.map source transform)
  | transform {source transform : Expression} (inside : IsPartOf part transform) :
      IsPartOf part (.map source transform)
  | flattened {source : Expression} (inside : IsPartOf part source) :
      IsPartOf part (.flatten source)
  | sighted {label : String} {source : Expression} (inside : IsPartOf part source) :
      IsPartOf part (.debug label source)

/-- The lookups of an expression are those that are parts of it. -/
theorem mem_lookups_iff {lookup : Lookup} {expression : Expression} :
    lookup ∈ expression.lookups ↔ (Expression.read lookup).IsPartOf expression := by
  constructor
  · intro member
    induction expression with
    | constant value => cases member
    | read other =>
        cases List.mem_singleton.mp member
        exact .whole
    | binary operator left right leftHas rightHas =>
        rcases List.mem_append.mp member with inLeft | inRight
        · exact .left (leftHas inLeft)
        · exact .right (rightHas inRight)
    | unary operator operand has => exact .operand (has member)
    | map source transform sourceHas transformHas =>
        rcases List.mem_append.mp member with inSource | inTransform
        · exact .source (sourceHas inSource)
        · exact .transform (transformHas inTransform)
    | flatten source has => exact .flattened (has member)
    | debug label source has => exact .sighted (has member)
  · intro isPart
    induction isPart with
    | whole => exact List.mem_singleton_self lookup
    | left _ member => exact List.mem_append_left _ member
    | right _ member => exact List.mem_append_right _ member
    | operand _ member => exact member
    | source _ member => exact List.mem_append_left _ member
    | transform _ member => exact List.mem_append_right _ member
    | flattened _ member => exact member
    | sighted _ member => exact member

end Expression

namespace Lookup

variable {lookup : Lookup} {context first second : Context}

theorem find_ancestor {depth : Nat} (isAncestor : lookup.root = .ancestor depth)
    (context : Context) (elements : List Value) :
    lookup.find context elements =
      match (context.ancestor? depth).map Context.current with
      | some value => lookup.findIn value
      | none => .ok none := by
  simp only [find, isAncestor]
  cases context.ancestor? depth with
  | none => rfl
  | some ancestor => rfl

/-- Only a lookup that starts at an element regards the elements. -/
theorem resolve_of_noElement (noElement : ∀ index, lookup.root ≠ .element index)
    (elements : List Value) : lookup.resolve context elements = lookup.resolve context [] := by
  simp only [resolve, find]
  split
  case h_5 index isElement => exact absurd isElement (noElement index)
  all_goals rfl

private theorem resolve_of_element {index : Nat} (isElement : lookup.root = .element index)
    (sameElements : first.elements = second.elements) (elements : List Value) :
    lookup.resolve first elements = lookup.resolve second elements := by
  simp only [resolve, find, isElement, sameElements]

end Lookup

/-! ### Evaluations that end alike -/

namespace Evaluation

variable {α β γ : Type} {view : EvaluationError → γ}

/-- Whether two evaluations have seen the same and end alike, as far as a view of their
errors shows. -/
inductive AgreeUpTo (view : EvaluationError → γ) : Evaluation α → Evaluation α → Prop where
  | value (sightings : List Sighting) (result : α) :
      AgreeUpTo view ⟨sightings, .value result⟩ ⟨sightings, .value result⟩
  | abandoned (sightings : List Sighting) :
      AgreeUpTo view ⟨sightings, .abandoned⟩ ⟨sightings, .abandoned⟩
  | failed (sightings : List Sighting) {error other : EvaluationError}
      (same : view error = view other) :
      AgreeUpTo view ⟨sightings, .failed error⟩ ⟨sightings, .failed other⟩

namespace AgreeUpTo

theorem refl (evaluation : Evaluation α) : evaluation.AgreeUpTo view evaluation := by
  obtain ⟨sightings, outcome⟩ := evaluation
  cases outcome with
  | value result => exact .value sightings result
  | abandoned => exact .abandoned sightings
  | failed error => exact .failed sightings rfl

theorem andThen {first second : Evaluation α} {next other : α → Evaluation β}
    (agree : first.AgreeUpTo view second)
    (nextAgree : ∀ result, (next result).AgreeUpTo view (other result)) :
    (first.andThen next).AgreeUpTo view (second.andThen other) := by
  cases agree with
  | value sightings result =>
      simp only [Evaluation.andThen]
      have later := nextAgree result
      generalize next result = nextFirst, other result = nextSecond at later ⊢
      cases later with
      | value further final => exact .value _ final
      | abandoned further => exact .abandoned _
      | failed further same => exact .failed _ same
  | abandoned sightings => exact .abandoned sightings
  | failed sightings same => exact .failed sightings same

theorem ofExcept {first second : Except EvaluationError α}
    (same : first.mapError view = second.mapError view) :
    (Evaluation.ofExcept first).AgreeUpTo view (.ofExcept second) := by
  cases first with
  | ok result =>
      cases second with
      | ok other =>
          cases same
          exact .value [] result
      | error error => cases same
  | error error =>
      cases second with
      | ok other => cases same
      | error other => exact .failed [] (Except.error.inj same)

theorem forEach {step other : α → Evaluation β}
    (stepAgree : ∀ item, (step item).AgreeUpTo view (other item)) (items : List α) :
    (Evaluation.forEach step items).AgreeUpTo view (Evaluation.forEach other items) := by
  induction items with
  | nil => exact .value [] []
  | cons item rest ih =>
      exact (stepAgree item).andThen fun first =>
        ih.andThen fun others => .value [] (first :: others)

theorem orAbsent {first second : Evaluation Value} (agree : first.AgreeUpTo view second) :
    first.orAbsent.AgreeUpTo view second.orAbsent := by
  cases agree with
  | value sightings result => exact .value sightings result
  | abandoned sightings => exact .value sightings Value.absent
  | failed sightings same => exact .failed sightings same

theorem sighted {first second : Evaluation Value} (label : String)
    (agree : first.AgreeUpTo view second) :
    (first.sighted label).AgreeUpTo view (second.sighted label) := by
  cases agree with
  | value sightings result => exact .value _ result
  | abandoned sightings => exact .abandoned _
  | failed sightings same => exact .failed _ same

theorem mapContent {transform other : Value → Evaluation Value}
    (agree : ∀ item, (transform item).AgreeUpTo view (other item)) (value : Value) :
    (value.mapContent transform).AgreeUpTo view (value.mapContent other) := by
  cases value with
  | sequence items =>
      exact (forEach agree items).andThen fun results => .value [] (Value.sequence results)
  | absent => exact .value [] Value.absent
  | present inner =>
      exact (agree inner).andThen fun result => .value [] (Value.present result)
  | _ => exact agree _

theorem finish {first second : Evaluation Value} (level : ReportLevel)
    (agree : first.AgreeUpTo view second) :
    (first.finish level).result.mapError view = (second.finish level).result.mapError view ∧
      (first.finish level).reports = (second.finish level).reports := by
  cases agree with
  | value sightings result => exact ⟨rfl, rfl⟩
  | abandoned sightings => exact ⟨rfl, rfl⟩
  | failed sightings same => exact ⟨congrArg Except.error same, rfl⟩

end AgreeUpTo

end Evaluation

namespace Expression

variable {γ : Type} {view : EvaluationError → γ} {first second : Context}

/-- Whether the lookups of an expression come to the same in two contexts, those that start
at elements left out. -/
def LooksAlike (view : EvaluationError → γ) (expression : Expression)
    (first second : Context) : Prop :=
  ∀ lookup ∈ expression.lookups, (∀ index, lookup.root ≠ .element index) →
    (lookup.resolve first []).mapError view = (lookup.resolve second []).mapError view

/-- In the same elements an expression ends alike where its lookups come to the same. -/
theorem run_agree (sameElements : first.elements = second.elements) {expression : Expression}
    (alike : expression.LooksAlike view first second) (elements : List Value) :
    (expression.run first elements).AgreeUpTo view (expression.run second elements) := by
  induction expression generalizing elements with
  | constant value => exact .value [] value
  | read lookup =>
      refine .ofExcept ?_
      by_cases isElement : ∃ index, lookup.root = .element index
      · obtain ⟨index, isElement⟩ := isElement
        rw [Lookup.resolve_of_element isElement sameElements]
      · have noElement (index : Nat) : lookup.root ≠ .element index := fun same =>
          isElement ⟨index, same⟩
        simp only [Lookup.resolve_of_noElement noElement elements]
        exact alike lookup (List.mem_singleton_self lookup) noElement
  | binary operator left right leftAgrees rightAgrees =>
      have leftAlike : left.LooksAlike view first second := fun lookup member =>
        alike lookup (List.mem_append_left _ member)
      have rightAlike : right.LooksAlike view first second := fun lookup member =>
        alike lookup (List.mem_append_right _ member)
      exact (leftAgrees leftAlike elements).andThen fun one =>
        (rightAgrees rightAlike elements).andThen fun other => .ofExcept rfl
  | unary operator operand agrees =>
      exact (agrees alike elements).andThen fun value => .ofExcept rfl
  | map source transform sourceAgrees transformAgrees =>
      have sourceAlike : source.LooksAlike view first second := fun lookup member =>
        alike lookup (List.mem_append_left _ member)
      have transformAlike : transform.LooksAlike view first second := fun lookup member =>
        alike lookup (List.mem_append_right _ member)
      refine (sourceAgrees sourceAlike elements).andThen fun value => ?_
      exact .mapContent (fun item => (transformAgrees transformAlike (item :: elements)).orAbsent)
        value
  | flatten source agrees => exact (agrees alike elements).andThen fun value => .refl _
  | debug label source agrees => exact (agrees alike elements).sighted label

/-- An expression depends on nothing but its lookups and the elements that are bound. -/
theorem evaluate_agree (level : ReportLevel) (sameElements : first.elements = second.elements)
    {expression : Expression} (alike : expression.LooksAlike view first second) :
    (expression.evaluate level first).result.mapError view =
        (expression.evaluate level second).result.mapError view ∧
      (expression.evaluate level first).reports = (expression.evaluate level second).reports :=
  (run_agree sameElements alike []).finish level

end Expression

end StagedResolver
