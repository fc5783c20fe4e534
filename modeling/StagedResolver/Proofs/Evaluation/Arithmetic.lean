/-
Integer arithmetic is exact or fails.

A sum, a difference, a product, a quotient or an opposite is given when sixty-four bits hold it,
and then it is what it is in the integers.  Quotients are cut toward zero; one is too large only
for the least integer and minus one, and there the remainder fails with it.  Present layers of
the operands do not matter.
-/
import StagedResolver.Proofs.Evaluation.Fault
import StagedResolver.Proofs.Expression.Typing
import StagedResolver.Proofs.Success
import StagedResolver.Proofs.Value.Storage

namespace StagedResolver

/-- Whether sixty-four bits with a sign hold an integer. -/
def IsInt64 (number : Int) : Prop :=
  Int64.minValue.toInt ≤ number ∧ number ≤ Int64.maxValue.toInt

instance : DecidablePred IsInt64 := fun number =>
  inferInstanceAs (Decidable (Int64.minValue.toInt ≤ number ∧ number ≤ Int64.maxValue.toInt))

private theorem isInt64_iff {number : Int} :
    IsInt64 number ↔ ∃ fitting : Int64, fitting.toInt = number := by
  constructor
  · intro ⟨least, greatest⟩
    exact ⟨.ofInt number, Int64.toInt_ofInt_of_le least (Int.lt_of_le_of_lt greatest (by decide))⟩
  · rintro ⟨fitting, rfl⟩
    exact ⟨fitting.minValue_le_toInt, fitting.toInt_le⟩

private theorem int64?_eq_none {number : Int} : Value.int64? number = none ↔ ¬ IsInt64 number := by
  rw [isInt64_iff, Option.eq_none_iff_forall_ne_some, not_exists]
  constructor
  · intro nothing fitting same
    exact nothing fitting (Value.int64?_eq_some.mpr same.symm)
  · intro noFitting fitting found
    exact noFitting fitting (Value.int64?_eq_some.mp found).symm

private theorem toInt_ne_zero {number : Int64} (nonzero : number ≠ 0) : number.toInt ≠ 0 :=
  fun isZero => nonzero (Int64.toInt_inj.mp isZero)

private theorem isInt64_toInt (number : Int64) : IsInt64 number.toInt :=
  isInt64_iff.mpr ⟨number, rfl⟩

private theorem isInt64_neg_iff {number : Int64} :
    IsInt64 (-number.toInt) ↔ number ≠ .minValue := by
  have least := number.minValue_le_toInt
  have greatest := number.toInt_le
  rw [IsInt64, ne_eq, ← Int64.toInt_inj, Int64.toInt_minValue, Int64.toInt_maxValue] at *
  omega

private theorem natAbs_toInt_le (number : Int64) :
    number.toInt.natAbs ≤ Int64.minValue.toInt.natAbs := by
  have least := number.minValue_le_toInt
  have greatest := number.toInt_le
  rw [Int64.toInt_minValue, Int64.toInt_maxValue] at *
  omega

private theorem isInt64_of_natAbs_lt {number : Int}
    (smaller : number.natAbs < Int64.minValue.toInt.natAbs) : IsInt64 number := by
  rw [IsInt64, Int64.toInt_minValue, Int64.toInt_maxValue] at *
  omega

/-- Only the opposite of the least integer is a quotient that sixty-four bits do not hold. -/
theorem isInt64_tdiv_iff {first second : Int64} (nonzero : second ≠ 0) :
    IsInt64 (first.toInt.tdiv second.toInt) ↔ ¬ (first = .minValue ∧ second = -1) := by
  by_cases isOpposite : second = -1
  · have quotientIs : first.toInt.tdiv second.toInt = -first.toInt := by
      rw [isOpposite]
      exact (Int.tdiv_neg ..).trans (congrArg Neg.neg (Int.tdiv_one _))
    rw [quotientIs, isInt64_neg_iff]
    exact not_congr (and_iff_left isOpposite).symm
  · refine iff_of_true ?_ fun both => isOpposite both.2
    by_cases isOne : second.toInt = 1
    · rw [isOne, Int.tdiv_one]
      exact isInt64_toInt first
    · -- Any other divisor halves the quotient at least.
      have notZero := toInt_ne_zero nonzero
      have notMinusOne : second.toInt ≠ -1 := fun same => isOpposite (Int64.toInt_inj.mp same)
      have halved : (first.toInt.tdiv second.toInt).natAbs ≤ first.toInt.natAbs / 2 := by
        rw [Int.natAbs_tdiv]
        exact Nat.div_le_div_left (by omega) (by decide)
      have bounded := natAbs_toInt_le first
      have someRoom : 0 < Int64.minValue.toInt.natAbs := by decide
      exact isInt64_of_natAbs_lt (by omega)

private theorem natAbs_tmod_lt (dividend : Int) {divisor : Int} (nonzero : divisor ≠ 0) :
    (dividend.tmod divisor).natAbs < divisor.natAbs := by
  rw [Int.natAbs_tmod]
  exact Nat.mod_lt _ (Int.natAbs_pos.mpr nonzero)

private theorem isInt64_tmod (first : Int64) {second : Int64} (nonzero : second ≠ 0) :
    IsInt64 (first.toInt.tmod second.toInt) := by
  have smaller := natAbs_tmod_lt first.toInt (toInt_ne_zero nonzero)
  exact isInt64_of_natAbs_lt (Nat.lt_of_lt_of_le smaller (natAbs_toInt_le second))

/-! ### Results -/

/-- Whether a computation gives an integer, and does so exactly where sixty-four bits hold it. -/
structure GivesExactly (outcome : Except EvaluationError Value) (exact : Int) : Prop where
  succeeds : (∃ value, outcome = .ok value) ↔ IsInt64 exact
  exactly : ∀ value, outcome = .ok value →
    ∃ number : Int64, number.toInt = exact ∧ value = .int number

namespace EvaluationError

/-- Whether an error says that a divisor is zero. -/
def BlamesDivisor (error : EvaluationError) : Prop :=
  "Division by zero in ".toList <+: error.message.toList

private theorem blamesDivisor_divisionByZero (operator : BinaryOperator) (left right : Int64) :
    (divisionByZero operator left right).BlamesDivisor := by
  show _ <+: ("Division by zero in " ++ operation operator left right).toList
  rw [String.toList_append]
  exact List.prefix_append ..

private theorem not_blamesDivisor {error : EvaluationError} {rest : String}
    (messageIs : error.message = "Integer overflow in " ++ rest) : ¬ error.BlamesDivisor := by
  rintro ⟨after, same⟩
  rw [messageIs, String.toList_append] at same
  have sameFirst : some 'D' = some 'I' := congrArg List.head? same
  cases sameFirst

end EvaluationError

namespace BinaryOperator

variable {operator : BinaryOperator} {left right : Value} {first second : Int64}
variable {error : EvaluationError}

private theorem quotient_isNone_iff (nonzero : second ≠ 0) :
    (Value.int64? (first.toInt.tdiv second.toInt)).isNone = true ↔
      first = .minValue ∧ second = -1 := by
  rw [Option.isNone_iff_eq_none, int64?_eq_none, isInt64_tdiv_iff nonzero, Decidable.not_not]

/-- What arithmetic gives is exact, and a remainder needs its quotient. -/
theorem integers_eq_ok {number : Int64} :
    operator.integers first second = .ok number ↔
      ¬ (operator.divides = true ∧ second = 0) ∧
        ¬ (operator = .rem ∧ first = .minValue ∧ second = -1) ∧
        operator.exact first.toInt second.toInt = number.toInt := by
  have noResult (failure : EvaluationError) : Except.error failure ≠ .ok number := by
    rintro ⟨⟩
  rw [integers]
  by_cases byZero : operator.divides = true ∧ second = 0
  · rw [if_pos byZero]
    exact iff_of_false (noResult _) fun given => given.1 byZero
  · rw [if_neg byZero]
    have tooLarge : operator = .rem ∧
        (Value.int64? (first.toInt.tdiv second.toInt)).isNone = true ↔
          operator = .rem ∧ first = .minValue ∧ second = -1 := by
      refine and_congr_right fun isRem => quotient_isNone_iff fun isZero => ?_
      exact byZero ⟨isRem ▸ rfl, isZero⟩
    simp only [tooLarge, byZero, not_false_eq_true, true_and, ← Value.int64?_eq_some]
    split
    · rename_i both
      exact iff_of_false (noResult _) fun given => given.1 both
    · rename_i notBoth
      simp only [notBoth, not_false_eq_true, true_and]
      split
      · rename_i fitting found
        rw [found]
        simp only [Except.ok.injEq, Option.some.injEq]
      · rename_i notFound
        rw [notFound]
        exact iff_of_false (noResult _) (Option.some_ne_none number).symm

private theorem eq_of_integers_eq_error (fails : operator.integers first second = .error error) :
    error = if operator.divides = true ∧ second = 0 then .divisionByZero operator first second
      else .overflow operator first second := by
  simp only [integers] at fails
  split at fails
  · rename_i byZero
    cases fails
    exact (if_pos byZero).symm
  · rename_i notByZero
    rw [if_neg notByZero]
    split at fails
    · cases fails
      rfl
    · split at fails
      · cases fails
      · cases fails
        rfl

private theorem apply_of_int (computes : operator.computesOn .int = true)
    (leftIs : left.stripped = .int first) (rightIs : right.stripped = .int second) :
    operator.apply left right = (operator.integers first second).map .int := by
  rw [apply, leftIs, rightIs]
  cases operator with
  | add | sub | mul | div | rem => rfl
  | _ => cases computes

private theorem apply_eq_ok_of_int (computes : operator.computesOn .int = true)
    (leftIs : left.stripped = .int first) (rightIs : right.stripped = .int second) {value : Value} :
    operator.apply left right = .ok value ↔
      ∃ number : Int64, (¬ (operator.divides = true ∧ second = 0) ∧
        ¬ (operator = .rem ∧ first = .minValue ∧ second = -1) ∧
        operator.exact first.toInt second.toInt = number.toInt) ∧ .int number = value := by
  rw [apply_of_int computes leftIs rightIs, map_eq_ok]
  simp only [integers_eq_ok]

private theorem givesExactly (computes : operator.computesOn .int = true) (notRem : operator ≠ .rem)
    (notByZero : ¬ (operator.divides = true ∧ second = 0))
    (leftIs : left.stripped = .int first) (rightIs : right.stripped = .int second) :
    GivesExactly (operator.apply left right) (operator.exact first.toInt second.toInt) where
  succeeds := by
    rw [isInt64_iff]
    constructor
    · rintro ⟨value, given⟩
      obtain ⟨number, ⟨_, _, isExact⟩, _⟩ :=
        (apply_eq_ok_of_int computes leftIs rightIs).mp given
      exact ⟨number, isExact.symm⟩
    · rintro ⟨number, isExact⟩
      refine ⟨.int number, (apply_eq_ok_of_int computes leftIs rightIs).mpr ?_⟩
      exact ⟨number, ⟨notByZero, fun isRem => notRem isRem.1, isExact.symm⟩, rfl⟩
  exactly value given := by
    obtain ⟨number, ⟨_, _, isExact⟩, same⟩ :=
      (apply_eq_ok_of_int computes leftIs rightIs).mp given
    exact ⟨number, isExact.symm, same.symm⟩

private theorem exists_rem_eq_ok (leftIs : left.stripped = .int first)
    (rightIs : right.stripped = .int second) :
    (∃ value, rem.apply left right = .ok value) ↔
      second ≠ 0 ∧ ¬ (first = .minValue ∧ second = -1) := by
  constructor
  · rintro ⟨value, given⟩
    obtain ⟨_, ⟨notByZero, hasQuotient, _⟩, _⟩ := (apply_eq_ok_of_int rfl leftIs rightIs).mp given
    exact ⟨fun isZero => notByZero ⟨rfl, isZero⟩, fun tooLarge => hasQuotient ⟨rfl, tooLarge⟩⟩
  · rintro ⟨nonzero, hasQuotient⟩
    obtain ⟨number, isRest⟩ := isInt64_iff.mp (isInt64_tmod first nonzero)
    refine ⟨.int number, (apply_eq_ok_of_int rfl leftIs rightIs).mpr ?_⟩
    exact ⟨number, ⟨fun byZero => nonzero byZero.2, fun tooLarge => hasQuotient tooLarge.2,
      isRest.symm⟩, rfl⟩

private theorem failure_of_int (computes : operator.computesOn .int = true)
    (leftIs : left.stripped = .int first) (rightIs : right.stripped = .int second)
    (fails : operator.apply left right = .error error) :
    error.kind = .arithmetic ∧
      (error.BlamesDivisor ↔ operator.divides = true ∧ second = 0) := by
  rw [apply_of_int computes leftIs rightIs, map_eq_error] at fails
  refine ⟨kind_of_integers_eq_error fails, ?_⟩
  have errorIs := eq_of_integers_eq_error fails
  by_cases byZero : operator.divides = true ∧ second = 0
  · rw [if_pos byZero] at errorIs
    rw [errorIs]
    exact iff_of_true (EvaluationError.blamesDivisor_divisionByZero ..) byZero
  · rw [if_neg byZero] at errorIs
    rw [errorIs]
    exact iff_of_false (EvaluationError.not_blamesDivisor rfl) byZero

end BinaryOperator

private theorem UnaryOperator.givesExactly_neg {operand : Value} {number : Int64}
    (operandIs : operand.stripped = .int number) :
    GivesExactly (neg.apply operand) (-number.toInt) := by
  rw [apply, operandIs, applyStripped]
  cases negated : Value.int64? (-number.toInt) with
  | some fitting =>
      have isExact := Value.int64?_eq_some.mp negated
      refine ⟨iff_of_true ⟨_, rfl⟩ (isInt64_iff.mpr ⟨fitting, isExact.symm⟩), ?_⟩
      rintro value ⟨⟩
      exact ⟨fitting, isExact.symm, rfl⟩
  | none =>
      refine ⟨iff_of_false ?_ (int64?_eq_none.mp negated), ?_⟩
      · rintro ⟨value, impossible⟩
        cases impossible
      · rintro value ⟨⟩

private theorem UnaryOperator.failure_of_int {operand : Value} {number : Int64}
    {error : EvaluationError}
    (operandIs : operand.stripped = .int number) (fails : neg.apply operand = .error error) :
    error.kind = .arithmetic ∧ ¬ error.BlamesDivisor := by
  rw [apply, operandIs, applyStripped] at fails
  split at fails
  · cases fails
  · cases fails
    have messageIs : (EvaluationError.negationOverflow number).message =
        "Integer overflow in " ++ ("-" ++ toString number.toInt) := by
      rw [← String.append_assoc]
      rfl
    exact ⟨rfl, EvaluationError.not_blamesDivisor messageIs⟩

namespace BinaryOperator

variable {left right : Value} {first second : Int64}

/-- The quotient and the remainder make up the dividend, and the remainder is smaller than the
divisor and on the dividend's side of zero. -/
theorem quotient_remainder (leftIs : left.stripped = .int first)
    (rightIs : right.stripped = .int second) {quotient remainder : Value}
    (divided : div.apply left right = .ok quotient)
    (rested : rem.apply left right = .ok remainder) :
    ∃ whole rest : Int64, quotient = .int whole ∧ remainder = .int rest ∧
      first.toInt = whole.toInt * second.toInt + rest.toInt ∧
      rest.toInt.natAbs < second.toInt.natAbs ∧
      (rest = 0 ∨ rest.toInt.sign = first.toInt.sign) := by
  obtain ⟨whole, ⟨notByZero, _, wholeIs⟩, sameQuotient⟩ :=
    (apply_eq_ok_of_int rfl leftIs rightIs).mp divided
  obtain ⟨rest, ⟨_, _, restIs⟩, sameRemainder⟩ :=
    (apply_eq_ok_of_int rfl leftIs rightIs).mp rested
  have nonzero : second ≠ 0 := fun isZero => notByZero ⟨rfl, isZero⟩
  refine ⟨whole, rest, sameQuotient.symm, sameRemainder.symm, ?_⟩
  rw [← Int64.toInt_inj, ← wholeIs, ← restIs]
  refine ⟨(Int.tdiv_mul_add_tmod ..).symm, natAbs_tmod_lt _ (toInt_ne_zero nonzero), ?_⟩
  by_cases divides : second.toInt ∣ first.toInt
  · exact .inl (Int.tmod_eq_zero_of_dvd divides)
  · exact .inr ((Int.sign_tmod ..).trans (if_neg divides))

/-- Integer arithmetic is exact or fails, whatever layers are around the operands.  Sums,
differences, products, opposites and quotients by anything but zero are given as far as
sixty-four bits hold them, and remainders where there is a quotient.  All failures are those of
arithmetic, and they blame the divisor exactly when it is zero. -/
theorem integers_exact (leftIs : left.stripped = .int first)
    (rightIs : right.stripped = .int second) :
    GivesExactly (add.apply left right) (first.toInt + second.toInt) ∧
      GivesExactly (sub.apply left right) (first.toInt - second.toInt) ∧
      GivesExactly (mul.apply left right) (first.toInt * second.toInt) ∧
      GivesExactly (UnaryOperator.neg.apply left) (-first.toInt) ∧
      (second ≠ 0 → GivesExactly (div.apply left right) (first.toInt.tdiv second.toInt)) ∧
      ((∃ value, div.apply left right = .ok value) → second ≠ 0) ∧
      ((∃ value, rem.apply left right = .ok value) ↔
        second ≠ 0 ∧ ¬ (first = .minValue ∧ second = -1)) ∧
      (∀ (operator : BinaryOperator) (error : EvaluationError), operator.computesOn .int = true →
        operator.apply left right = .error error →
          error.kind = .arithmetic ∧
            (error.BlamesDivisor ↔ operator.divides = true ∧ second = 0)) ∧
      (∀ error : EvaluationError, UnaryOperator.neg.apply left = .error error →
        error.kind = .arithmetic ∧ ¬ error.BlamesDivisor) ∧
      ∀ quotient remainder : Value, div.apply left right = .ok quotient →
        rem.apply left right = .ok remainder →
          ∃ whole rest : Int64, quotient = .int whole ∧ remainder = .int rest ∧
            first.toInt = whole.toInt * second.toInt + rest.toInt ∧
            rest.toInt.natAbs < second.toInt.natAbs ∧
            (rest = 0 ∨ rest.toInt.sign = first.toInt.sign) := by
  have noDivisor (operator : BinaryOperator) (undivided : operator.divides = false) :
      ¬ (operator.divides = true ∧ second = 0) := fun both =>
    Bool.false_ne_true (undivided.symm.trans both.1)
  refine ⟨?_, ?_, ?_, ?_, ?_, ?_, ?_, ?_, ?_, ?_⟩
  · exact givesExactly rfl nofun (noDivisor .add rfl) leftIs rightIs
  · exact givesExactly rfl nofun (noDivisor .sub rfl) leftIs rightIs
  · exact givesExactly rfl nofun (noDivisor .mul rfl) leftIs rightIs
  · exact UnaryOperator.givesExactly_neg leftIs
  · intro nonzero
    exact givesExactly rfl nofun (fun byZero => nonzero byZero.2) leftIs rightIs
  · rintro ⟨value, divided⟩ isZero
    obtain ⟨_, ⟨notByZero, _⟩, _⟩ := (apply_eq_ok_of_int rfl leftIs rightIs).mp divided
    exact notByZero ⟨rfl, isZero⟩
  · exact exists_rem_eq_ok leftIs rightIs
  · intro operator error computes
    exact failure_of_int computes leftIs rightIs
  · intro error
    exact UnaryOperator.failure_of_int leftIs
  · intro quotient remainder
    exact quotient_remainder leftIs rightIs

theorem integers_exact_ofNegative :
    let left : Value := .present (.int (-7))
    let right : Value := .present (.present (.int 2))
    let least : Value := .present (.int .minValue)
    div.apply left right = .ok (.int (-3)) ∧ rem.apply left right = .ok (.int (-1)) ∧
      (-7 : Int) = -3 * 2 + -1 ∧
      (¬ ∃ value, rem.apply least (.int (-1)) = .ok value) ∧
      ¬ ∃ value, UnaryOperator.neg.apply least = .ok value := by
  intro left right least
  have divided : div.apply left right = .ok (.int (-3)) := rfl
  have rested : rem.apply left right = .ok (.int (-1)) := rfl
  have leftIs : left.stripped = .int (-7) := rfl
  have rightIs : right.stripped = .int 2 := rfl
  have leastIs : least.stripped = .int .minValue := rfl
  have minusOneIs : (Value.int (-1)).stripped = .int (-1) := rfl
  obtain ⟨_, _, _, _, _, _, _, _, _, law⟩ := integers_exact leftIs rightIs
  obtain ⟨_, _, _, opposite, _, _, hasRemainder, _⟩ := integers_exact leastIs minusOneIs
  obtain ⟨_, _, ⟨⟩, ⟨⟩, madeUp, _⟩ := law _ _ divided rested
  refine ⟨divided, rested, madeUp, ?_, ?_⟩
  · exact fun given => (hasRemainder.mp given).2 ⟨rfl, rfl⟩
  · exact fun given => absurd (opposite.succeeds.mp given) (by decide)

end BinaryOperator

end StagedResolver
