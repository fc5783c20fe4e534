/-
The operators that compare agree with the order of values.

Equality is the sameness of the operands without their present layers, and never fails.  The
ordering operators compare operands of one kind, and what they say of them is what the total
order of values says.
-/
import StagedResolver.Evaluation.Operation
import StagedResolver.Proofs.Expression.Typing
import StagedResolver.Proofs.Value.Order

namespace StagedResolver

namespace BinaryOperator

variable {operator : BinaryOperator} {left right : Value}

private theorem apply_of_sameKind (orders : operator.orders = true)
    (sameKind : left.stripped.kind = right.stripped.kind) :
    operator.apply left right =
      .ok (.bool (operator.holds (left.stripped.compare right.stripped))) := by
  cases operator with
  | lessThan | lessOrEqual | greaterThan | greaterOrEqual => exact if_pos sameKind
  | _ => cases orders

private theorem apply_of_kind_ne (orders : operator.orders = true)
    (differ : left.stripped.kind ≠ right.stripped.kind) :
    operator.apply left right =
      .error (.operandMismatch operator left.stripped.kind right.stripped.kind) := by
  cases operator with
  | lessThan | lessOrEqual | greaterThan | greaterOrEqual => exact if_neg differ
  | _ => cases orders

/-- Values are totally ordered, and only a value itself compares equal to it; numbers are in the
order of their bits.  Of any two operands, whatever present layers they have, the operators for
equality tell whether they are the same, one the opposite of the other.  The ordering operators
have a result exactly where the operands are of one kind, and there one of less, equal and
greater holds, and the other two follow from these. -/
theorem compares_exact :
    IsTotalOrder Value.compare ∧
      (∀ left right : Binary64,
        Value.compare (.float left) (.float right) = .lt ↔ left.Precedes right) ∧
      ∀ left right : Value,
        (∃ same : Bool, (same = true ↔ left.stripped = right.stripped) ∧
          equal.apply left right = .ok (.bool same) ∧
          notEqual.apply left right = .ok (.bool !same)) ∧
        (∀ operator : BinaryOperator, operator.orders = true →
          ((∃ result, operator.apply left right = .ok result) ↔
            left.stripped.kind = right.stripped.kind)) ∧
        (left.stripped.kind = right.stripped.kind →
          ∃ less same greater : Bool,
            (less, same, greater) ∈
                [(true, false, false), (false, true, false), (false, false, true)] ∧
              (less = true ↔ left.stripped.compare right.stripped = .lt) ∧
              lessThan.apply left right = .ok (.bool less) ∧
              equal.apply left right = .ok (.bool same) ∧
              greaterThan.apply left right = .ok (.bool greater) ∧
              lessOrEqual.apply left right = .ok (.bool (less || same)) ∧
              greaterOrEqual.apply left right = .ok (.bool (greater || same))) := by
  refine ⟨Value.isTotalOrder_compare, fun _ _ => Binary64.compare_eq_lt_iff, fun left right => ?_⟩
  refine ⟨⟨left.stripped == right.stripped, ?_, rfl, rfl⟩, ?_, ?_⟩
  · show (left.stripped.compare right.stripped == .eq) = true ↔ _
    rw [beq_iff_eq, Value.compare_eq_iff]
  · intro operator orders
    by_cases sameKind : left.stripped.kind = right.stripped.kind
    · exact iff_of_true ⟨_, apply_of_sameKind orders sameKind⟩ sameKind
    · refine iff_of_false ?_ sameKind
      rintro ⟨result, given⟩
      rw [apply_of_kind_ne orders sameKind] at given
      cases given
  · intro sameKind
    have each (operator : BinaryOperator) (orders : operator.orders = true) :=
      @apply_of_sameKind operator left right orders sameKind
    have same : equal.apply left right =
        .ok (.bool (left.stripped.compare right.stripped == .eq)) := rfl
    rw [each .lessThan rfl, each .lessOrEqual rfl, each .greaterThan rfl,
      each .greaterOrEqual rfl, same]
    cases left.stripped.compare right.stripped with
    | lt => exact ⟨true, false, false, by decide, by decide, rfl, rfl, rfl, rfl, rfl⟩
    | eq => exact ⟨false, true, false, by decide, by decide, rfl, rfl, rfl, rfl, rfl⟩
    | gt => exact ⟨false, false, true, by decide, by decide, rfl, rfl, rfl, rfl, rfl⟩

theorem compares_exact_ofZeros :
    let left : Value := .present (.record [("x", .float .negativeZero), ("y", .absent)])
    let right : Value := .record [("x", .float .zero), ("y", .present .absent)]
    left.stripped.kind = right.stripped.kind ∧ lessOrEqual.orders = true ∧
      (∃ result, lessOrEqual.apply left right = .ok result) ∧
      lessThan.apply left right = .ok (.bool true) ∧
      equal.apply left right = .ok (.bool false) := by
  intro left right
  have sameKind : left.stripped.kind = right.stripped.kind := rfl
  obtain ⟨_, _, ofOperands⟩ := compares_exact
  obtain ⟨_, succeeds, ofSameKind⟩ := ofOperands left right
  obtain ⟨less, same, greater, exactlyOne, lessIs, lessThanIs, equalIs, _⟩ := ofSameKind sameKind
  have isLess : less = true := lessIs.mpr (by decide +kernel)
  subst isLess
  have notSame : same = false := by
    cases same with
    | false => rfl
    | true => simp at exactlyOne
  subst notSame
  exact ⟨sameKind, rfl, (succeeds .lessOrEqual rfl).mpr sameKind, lessThanIs, equalIs⟩

end BinaryOperator

end StagedResolver
