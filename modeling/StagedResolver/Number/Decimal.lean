/-
Decimal digits of binary64 numbers, by exact integer arithmetic.

A decimal reads back to a finite number when it lies among the reals that round
to that number: from half way to the neighbour below up to half way to the
neighbour above, the ends included exactly when the significand is even.  The
digits chosen for a number are the fewest that read back, and of those the
nearest to it.
-/
import StagedResolver.Number.Binary64

namespace StagedResolver

structure Decimal where
  digits : Nat
  exponent : Int
deriving DecidableEq, Inhabited

namespace Decimal

private def compareBinary (decimal : Decimal) (units : Nat) (scale : Int) : Ordering :=
  compare
    (decimal.digits * Nat.pow 10 decimal.exponent.toNat * Nat.pow 2 (-scale).toNat)
    (units * Nat.pow 2 scale.toNat * Nat.pow 10 (-decimal.exponent).toNat)

/-- Whether the decimal lies among the reals that round to the magnitude of a
finite number.  Below a power of two the gap to the neighbour is half as wide. -/
def readsBack (decimal : Decimal) (number : Binary64) : Bool :=
  let narrow := number.fractionField == 0 && number.exponentField > 1
  let below := 4 * number.significand - (if narrow then 1 else 2)
  let above := 4 * number.significand + 2
  let even := number.significand % 2 == 0
  let low := decimal.compareBinary below (number.scale - 2)
  let high := decimal.compareBinary above (number.scale - 2)
  (low == .gt || (even && low == .eq)) && (high == .lt || (even && high == .eq))

private def magnitudeAbove (units : Nat) (scale : Int) : Int :=
  let estimate : Int := ((Nat.log2 units : Int) + scale) * 30103 / 100000
  let candidates := [estimate - 1, estimate, estimate + 1, estimate + 2]
  (candidates.find? fun k => (⟨1, k⟩ : Decimal).compareBinary units scale == .gt).getD
    (estimate + 3)

private def onGrid (units : Nat) (scale exponent : Int) : Nat :=
  units * Nat.pow 2 scale.toNat * Nat.pow 10 (-exponent).toNat /
    (Nat.pow 2 (-scale).toNat * Nat.pow 10 exponent.toNat)

/-- The two neighbours of the number on a grid, the nearer one first; of two
equally near ones the even one. -/
def neighbours (number : Binary64) (exponent : Int) : List Decimal :=
  let floor := onGrid number.significand number.scale exponent
  let lower : Decimal := ⟨floor, exponent⟩
  let upper : Decimal := ⟨floor + 1, exponent⟩
  let middle : Decimal := ⟨2 * floor + 1, exponent⟩
  match middle.compareBinary (2 * number.significand) number.scale with
  | .gt => [lower, upper]
  | .lt => [upper, lower]
  | .eq => if floor % 2 = 0 then [lower, upper] else [upper, lower]

private def search (number : Binary64) (top : Int) : Nat → Nat → Option Decimal
  | 0, _ => none
  | allowance + 1, count =>
      match (neighbours number (top - (count : Int))).find? (·.readsBack number) with
      | some decimal => some decimal
      | none => search number top allowance (count + 1)

def exact (number : Binary64) : Decimal :=
  if 0 ≤ number.scale then ⟨number.significand * Nat.pow 2 number.scale.toNat, 0⟩
  else ⟨number.significand * Nat.pow 5 (-number.scale).toNat, number.scale⟩

def trim (digits : Nat) (exponent : Int) : Decimal :=
  if 0 < digits ∧ digits % 10 = 0 then trim (digits / 10) (exponent + 1)
  else ⟨digits, exponent⟩
termination_by digits

/-- The fewest digits that read back to the magnitude of a finite number other
than zero, and of those the nearest. -/
def shortest (number : Binary64) : Decimal :=
  let chosen :=
    (search number (magnitudeAbove number.significand number.scale) 17 1).getD
      (exact number)
  trim chosen.digits chosen.exponent

def round? (negative : Bool) (decimal : Decimal) : Option Binary64 :=
  let signed (magnitude : Binary64) : Binary64 :=
    if negative then magnitude.neg else magnitude
  if decimal.digits = 0 then some (signed .zero)
  else
    let lowest := (Nat.log2 decimal.digits : Int) * 30102 / 100000 + decimal.exponent
    let highest := (Nat.log2 decimal.digits : Int) * 30103 / 100000 + 1 + decimal.exponent
    if lowest > 310 then none
    else if highest < -330 then some (signed .zero)
    else
      let magnitude := Binary64.ofFloat
        (Float.ofScientific decimal.digits (decimal.exponent < 0) decimal.exponent.natAbs)
      if magnitude.isFinite then some (signed magnitude) else none

end Decimal

end StagedResolver
