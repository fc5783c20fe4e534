/-
Binary64 numbers, told apart by their sixty-four bits.

A number is its bits, so that the two zeros differ and every NaN equals itself
and no NaN of another sign or payload.  The order is the total one of the
interchange format: negative NaNs, negative infinity, negative numbers, the two
zeros, positive numbers, positive infinity, positive NaNs.

Arithmetic rounds to nearest, ties to even.  A NaN operand is handed on, the
left one first, and an operation without a meaningful result gives the NaN
whose sign bit is set.
-/

namespace StagedResolver

structure Binary64 where
  bits : UInt64
deriving DecidableEq, Inhabited

namespace Binary64

def isNegative (number : Binary64) : Bool :=
  number.bits >>> 63 == 1

def exponentField (number : Binary64) : Nat :=
  ((number.bits >>> 52) &&& 0x7FF).toNat

def fractionField (number : Binary64) : Nat :=
  (number.bits &&& 0xFFFFFFFFFFFFF).toNat

def isNaN (number : Binary64) : Bool :=
  number.exponentField == 0x7FF && number.fractionField != 0

def isFinite (number : Binary64) : Bool :=
  number.exponentField != 0x7FF

def isZero (number : Binary64) : Bool :=
  number.bits <<< 1 == 0

def significand (number : Binary64) : Nat :=
  if number.exponentField = 0 then number.fractionField
  else Nat.pow 2 52 + number.fractionField

def scale (number : Binary64) : Int :=
  if number.exponentField = 0 then -1074
  else (number.exponentField : Int) - 1075

def integer? (number : Binary64) : Option Int :=
  let signed (magnitude : Nat) : Int :=
    if number.isNegative then -(magnitude : Int) else magnitude
  let denominator := Nat.pow 2 (-number.scale).toNat
  if number.significand % denominator = 0 then
    some (signed (number.significand * Nat.pow 2 number.scale.toNat / denominator))
  else none

def zero : Binary64 := ⟨0⟩

def negativeZero : Binary64 := ⟨0x8000000000000000⟩

def infinity : Binary64 := ⟨0x7FF0000000000000⟩

def negativeInfinity : Binary64 := ⟨0xFFF0000000000000⟩

def nan : Binary64 := ⟨0x7FF8000000000000⟩

/-- The NaN with its sign bit set, which stands for a meaningless result. -/
def negativeNaN : Binary64 := ⟨0xFFF8000000000000⟩

def orderKey (number : Binary64) : Int :=
  if number.bits.toNat < Nat.pow 2 63 then (number.bits.toNat : Int)
  else Int64.maxValue.toInt - (number.bits.toNat : Int)

def compare (left right : Binary64) : Ordering :=
  Ord.compare left.orderKey right.orderKey

/-- Equality as arithmetic sees it: the zeros are equal, a NaN equals nothing. -/
def numericallyEqual (left right : Binary64) : Bool :=
  !left.isNaN && !right.isNaN &&
    (left == right || (left.isZero && right.isZero))

/-! ### Arithmetic -/

def toFloat (number : Binary64) : Float :=
  Float.ofBits number.bits

/-- The bits of a result; a NaN that arises here is the one with its sign bit
set. -/
def ofFloat (result : Float) : Binary64 :=
  if result.isNaN then negativeNaN else ⟨result.toBits⟩

def ofInt (integer : Int) : Binary64 :=
  ofFloat (Float.ofInt integer)

/-- A NaN operand as it is handed on: quiet, of the same sign and payload. -/
def quiet (number : Binary64) : Binary64 :=
  ⟨number.bits ||| 0x0008000000000000⟩

def combine (operation : Binary64 → Binary64 → Binary64)
    (left right : Binary64) : Binary64 :=
  if left.isNaN then left.quiet
  else if right.isNaN then right.quiet
  else operation left right

def add : Binary64 → Binary64 → Binary64 :=
  combine fun left right => ofFloat (left.toFloat + right.toFloat)

def sub : Binary64 → Binary64 → Binary64 :=
  combine fun left right => ofFloat (left.toFloat - right.toFloat)

def mul : Binary64 → Binary64 → Binary64 :=
  combine fun left right => ofFloat (left.toFloat * right.toFloat)

def div : Binary64 → Binary64 → Binary64 :=
  combine fun left right => ofFloat (left.toFloat / right.toFloat)

def neg (number : Binary64) : Binary64 :=
  ⟨number.bits ^^^ 0x8000000000000000⟩

def ofUnits (negative : Bool) (units : Nat) (exponent : Int) : Binary64 :=
  let magnitude : Nat :=
    if units = 0 then 0
    else
      let width : Int := (Nat.log2 units : Int)
      let lowest : Int := max (exponent + width - 52) (-1074)
      let shifted : Nat :=
        if lowest ≤ exponent then units * Nat.pow 2 (exponent - lowest).toNat
        else units / Nat.pow 2 (lowest - exponent).toNat
      if shifted < Nat.pow 2 52 then shifted
      else (lowest + 1074).toNat * Nat.pow 2 52 + shifted
  ⟨UInt64.ofNat (if negative then Nat.pow 2 63 + magnitude else magnitude)⟩

/-- Remainder of a division whose quotient is cut toward zero.  It is exact and
has the sign of the left operand.  There is none for an infinite left operand
or a zero right one, and a finite number is its own remainder by an infinity. -/
def rem : Binary64 → Binary64 → Binary64 :=
  combine fun left right =>
    if !left.isFinite || right.isZero then negativeNaN
    else if !right.isFinite then left
    else
      let exponent := min left.scale right.scale
      let dividend := left.significand * Nat.pow 2 (left.scale - exponent).toNat
      let divisor := right.significand * Nat.pow 2 (right.scale - exponent).toNat
      ofUnits left.isNegative (dividend % divisor) exponent

end Binary64

end StagedResolver
