/-
Values that are of a type up to an accuracy.

Native data, what lookups find and what operators compute are of their types.
Operators applied to values of types that they take do not fail for the kind of
an operand, whatever present layers the values have.
-/
import StagedResolver.Proofs.Evaluation.Yield
import StagedResolver.Proofs.Expression.Typing
import StagedResolver.Proofs.Value.Layers

namespace StagedResolver

def ValueType.kind? : ValueType → Option ValueKind
  | .any => none
  | .bool => some .bool
  | .int => some .int
  | .float => some .float
  | .string => some .string
  | .record => some .record
  | .sequence _ => some .sequence
  | .optional _ => none

/-- Whether a value is, at an accuracy, of a type.  What a sequence holds is of no
account, since its items are read through lookups only. -/
def ValueType.Holds (accuracy : Accuracy) : ValueType → Value → Prop
  | .optional inner, value =>
      value = .absent ∨
        ∃ content, value = .present content ∧
          (accuracy = .outer ∨ Holds accuracy inner content)
  | type, value =>
      match accuracy with
      | .outer => True
      | .layered => ∀ kind, type.kind? = some kind → value.stripped.kind = kind
      | .bare => ∀ kind, type.kind? = some kind → value.kind = kind

namespace ValueType

theorem holds_of_kind {type : ValueType} {value : Value} (accuracy : Accuracy)
    (plain : type.isOptional = false) (sameKind : type.kind? = some value.kind)
    (noLayer : value.stripped = value) : type.Holds accuracy value := by
  cases type with
  | optional inner => cases plain
  | _ =>
      cases accuracy with
      | outer => exact trivial
      | layered =>
          intro kind kindIs
          rw [noLayer]
          exact Option.some.inj (sameKind.symm.trans kindIs)
      | bare =>
          intro kind kindIs
          exact Option.some.inj (sameKind.symm.trans kindIs)

private theorem Holds.kind_stripped {type : ValueType} {value : Value} {kind : ValueKind}
    (holds : type.Holds .layered value) (kindIs : type.kind? = some kind) :
    value.stripped.kind = kind := by
  cases type with
  | any => cases kindIs
  | optional inner => cases kindIs
  | _ => exact holds kind kindIs

theorem Holds.outer {type : ValueType} {value : Value} {accuracy : Accuracy}
    (holds : type.Holds accuracy value) : type.Holds .outer value := by
  cases type with
  | optional inner =>
      rcases holds with isAbsent | ⟨content, isPresent, _⟩
      · exact .inl isAbsent
      · exact .inr ⟨content, isPresent, .inl rfl⟩
  | _ => exact trivial

end ValueType

theorem NativeType.holds_toValue (accuracy : Accuracy) (native : NativeType)
    (data : native.Carrier) :
    native.typeOfValues.Holds accuracy (native.toValue data) := by
  induction native with
  | bool => exact ValueType.holds_of_kind accuracy rfl rfl rfl
  | int => exact ValueType.holds_of_kind accuracy rfl rfl rfl
  | float => exact ValueType.holds_of_kind accuracy rfl rfl rfl
  | string => exact ValueType.holds_of_kind accuracy rfl rfl rfl
  | record => exact ValueType.holds_of_kind accuracy rfl rfl rfl
  | value =>
      cases accuracy with
      | outer => exact trivial
      | layered =>
          intro kind impossible
          cases impossible
      | bare =>
          intro kind impossible
          cases impossible
  | option inner ih =>
      cases data with
      | none => exact .inl rfl
      | some held => exact .inr ⟨inner.toValue held, rfl, .inr (ih held)⟩
  | list item ih => exact ValueType.holds_of_kind accuracy rfl rfl rfl

/-! ### What lookups find -/

theorem ValueType.kind_stripped_of_admits {type : ValueType} {value : Value}
    {kind : ValueKind} (admitted : type.admits value = true)
    (kindIs : type.kind? = some kind) : value.stripped.kind = kind := by
  cases type with
  | any => cases kindIs
  | optional inner => cases kindIs
  | sequence item =>
      cases kindIs
      simp only [ValueType.admits] at admitted
      split at admitted
      · rename_i items strippedIs
        rw [strippedIs]
        rfl
      · cases admitted
  | _ =>
      cases kindIs
      exact eq_of_beq admitted

private theorem ValueType.holds_of_admits {type : ValueType} {value : Value}
    (plain : ∀ inner, type ≠ .optional inner) (admitted : type.admits value = true) :
    type.Holds .layered value := by
  cases type with
  | optional inner => exact absurd rfl (plain inner)
  | _ => exact fun kind kindIs => kind_stripped_of_admits admitted kindIs

/-- What a lookup gives is of the type that it is checked against. -/
theorem Lookup.holds_of_check {lookup : Lookup} {found : Option Value} {value : Value}
    {accuracy : Accuracy} (known : lookup.expected.isKnown = true)
    (read : lookup.expected.readAt accuracy = true)
    (checked : lookup.check found = .ok value) :
    lookup.expected.Holds accuracy value := by
  obtain ⟨root, segments, expected⟩ := lookup
  simp only at known read ⊢
  cases expected with
  | any => cases known
  | optional inner =>
      have ofContent (content : Value) (admitted : inner.admits content = true) :
          accuracy = .outer ∨ inner.Holds accuracy content := by
        cases accuracy with
        | outer => exact .inl rfl
        | bare => cases read
        | layered =>
            refine .inr (ValueType.holds_of_admits (fun deeper isOptional => ?_) admitted)
            rw [isOptional] at read
            cases read
      cases found with
      | none =>
          cases checked
          exact .inl rfl
      | some held =>
          simp only [Lookup.check] at checked
          split at checked
          · cases checked
            exact .inl rfl
          · split at checked
            · rename_i admitted
              cases checked
              cases held with
              | absent => exact .inl rfl
              | present content => exact .inr ⟨content, rfl, ofContent content admitted⟩
              | null => rename_i something; exact absurd rfl something
              | _ => exact .inr ⟨_, rfl, ofContent _ admitted⟩
            · cases checked
  | _ =>
      cases found with
      | none => cases checked
      | some held =>
          simp only [Lookup.check] at checked
          split at checked
          · cases checked
          · rename_i something
            split at checked
            · rename_i admitted
              cases checked
              have present : held.isAbsent = false := by
                simp only [Value.isNothing, Bool.or_eq_true, not_or] at something
                exact Bool.eq_false_iff.mpr something.2
              have fitIs : (held.present?).getD held = held.stripped :=
                held.present?_getD present
              simp only [Lookup.fit, fitIs]
              cases accuracy with
              | outer => exact trivial
              | layered =>
                  intro kind kindIs
                  rw [Value.stripped_stripped]
                  exact ValueType.kind_stripped_of_admits admitted kindIs
              | bare =>
                  intro kind kindIs
                  exact ValueType.kind_stripped_of_admits admitted kindIs
            · cases checked

/-- Whether an operator's result is of a type, however exactly that is asked, with
no failure for the kind of an operand. -/
def ValueType.Computes (type : ValueType) (result : Except EvaluationError Value) : Prop :=
  (Evaluation.ofExcept result).Yields false fun value =>
    ∀ accuracy, type.Holds accuracy value

namespace ValueType

private theorem computes_ok {type : ValueType} {value : Value} (plain : type.isOptional = false)
    (sameKind : type.kind? = some value.kind) (noLayer : value.stripped = value) :
    type.Computes (.ok value) :=
  .value [] fun accuracy => holds_of_kind accuracy plain sameKind noLayer

private theorem computes_arithmetic {type : ValueType} {error : EvaluationError}
    (arithmetic : error.kind = .arithmetic) : type.Computes (.error error) :=
  .failed [] (EvaluationError.isOperandFault_of_arithmetic arithmetic)

end ValueType

namespace BinaryOperator

variable {operator : BinaryOperator} {left right : Value}

theorem computes_of_computesOn {type : ValueType} (computes : operator.computesOn type = true)
    (leftHolds : type.Holds .layered left) (rightHolds : type.Holds .layered right) :
    type.Computes (operator.apply left right) := by
  have number : type = .int ∨ type = .float := by
    cases operator with
    | add | sub | mul | div =>
        simpa only [computesOn, Bool.or_eq_true, decide_eq_true_eq] using computes
    | rem => exact .inl (of_decide_eq_true computes)
    | _ => cases computes
  rcases number with isInt | isFloat
  · subst isInt
    obtain ⟨first, leftIs⟩ := Value.eq_int_of_kind (leftHolds.kind_stripped rfl)
    obtain ⟨second, rightIs⟩ := Value.eq_int_of_kind (rightHolds.kind_stripped rfl)
    have applied : operator.apply left right =
        (operator.integers first second).map .int := by
      rw [apply, leftIs, rightIs]
      cases operator <;> first | rfl | cases computes
    rw [applied]
    cases computed : operator.integers first second with
    | ok number => exact ValueType.computes_ok rfl rfl rfl
    | error error =>
        exact ValueType.computes_arithmetic (kind_of_integers_eq_error computed)
  · subst isFloat
    obtain ⟨first, leftIs⟩ := Value.eq_float_of_kind (leftHolds.kind_stripped rfl)
    obtain ⟨second, rightIs⟩ := Value.eq_float_of_kind (rightHolds.kind_stripped rfl)
    have applied : operator.apply left right =
        .ok (.float (operator.floats first second)) := by
      rw [apply, leftIs, rightIs]
      cases operator <;> first | rfl | cases computes
    rw [applied]
    exact ValueType.computes_ok rfl rfl rfl

theorem computes_of_connective (connects : operator = .and ∨ operator = .or)
    (leftHolds : ValueType.bool.Holds .layered left)
    (rightHolds : ValueType.bool.Holds .layered right) :
    ValueType.bool.Computes (operator.apply left right) := by
  obtain ⟨first, leftIs⟩ := Value.eq_bool_of_kind (leftHolds.kind_stripped rfl)
  obtain ⟨second, rightIs⟩ := Value.eq_bool_of_kind (rightHolds.kind_stripped rfl)
  rw [apply, leftIs, rightIs]
  rcases connects with isAnd | isOr
  · subst isAnd
    exact ValueType.computes_ok rfl rfl rfl
  · subst isOr
    exact ValueType.computes_ok rfl rfl rfl

theorem computes_concat (leftHolds : ValueType.string.Holds .layered left)
    (rightHolds : ValueType.string.Holds .layered right) :
    ValueType.string.Computes (concat.apply left right) := by
  obtain ⟨first, leftIs⟩ := Value.eq_string_of_kind (leftHolds.kind_stripped rfl)
  obtain ⟨second, rightIs⟩ := Value.eq_string_of_kind (rightHolds.kind_stripped rfl)
  rw [apply, leftIs, rightIs]
  exact ValueType.computes_ok rfl rfl rfl

theorem computes_of_equates (equates : operator.equates = true) :
    ValueType.bool.Computes (operator.apply left right) := by
  cases operator with
  | equal | notEqual => exact ValueType.computes_ok rfl rfl rfl
  | _ => cases equates

/-- Values of a known type that is not optional are of one kind, and so can be
compared for order. -/
theorem computes_of_orders {type : ValueType} (orders : operator.orders = true)
    (plain : type.isOptional = false) (leftHolds : type.Holds .layered left)
    (rightHolds : type.Holds .layered right) :
    ValueType.bool.Computes (operator.apply left right) := by
  obtain ⟨kind, kindIs⟩ : ∃ kind, type.kind? = some kind := by
    cases type with
    | any => cases plain
    | optional inner => cases plain
    | _ => exact ⟨_, rfl⟩
  have sameKind : left.stripped.kind = right.stripped.kind := by
    rw [leftHolds.kind_stripped kindIs, rightHolds.kind_stripped kindIs]
  have applied : operator.apply left right =
      .ok (.bool (operator.holds (left.stripped.compare right.stripped))) := by
    cases operator with
    | lessThan | lessOrEqual | greaterThan | greaterOrEqual =>
        simp only [apply, applyStripped, compares, sameKind, if_true]
    | _ => cases orders
  rw [applied]
  exact ValueType.computes_ok rfl rfl rfl

end BinaryOperator

namespace UnaryOperator

variable {operand : Value}

theorem computes_neg {type : ValueType} (number : type = .int ∨ type = .float)
    (operandHolds : type.Holds .layered operand) :
    type.Computes (neg.apply operand) := by
  rcases number with isInt | isFloat
  · subst isInt
    obtain ⟨number, operandIs⟩ := Value.eq_int_of_kind (operandHolds.kind_stripped rfl)
    rw [apply, operandIs]
    simp only [applyStripped]
    split
    · exact ValueType.computes_ok rfl rfl rfl
    · exact ValueType.computes_arithmetic rfl
  · subst isFloat
    obtain ⟨number, operandIs⟩ := Value.eq_float_of_kind (operandHolds.kind_stripped rfl)
    rw [apply, operandIs]
    exact ValueType.computes_ok rfl rfl rfl

theorem computes_not (operandHolds : ValueType.bool.Holds .layered operand) :
    ValueType.bool.Computes (not.apply operand) := by
  obtain ⟨flag, operandIs⟩ := Value.eq_bool_of_kind (operandHolds.kind_stripped rfl)
  rw [apply, operandIs]
  exact ValueType.computes_ok rfl rfl rfl

end UnaryOperator

end StagedResolver
