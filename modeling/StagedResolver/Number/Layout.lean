/-
How the digits of a finite number are laid out in a text.

With the point after position `p` of the digits, the number is written in
positional form when `p` lies in the range of the layout, and otherwise with
one digit before the point and an explicit, signed exponent.  Positional form
always shows a point.
-/
import StagedResolver.Number.Decimal

namespace StagedResolver

/-- Positional form is for points after `lowest` and up to `highest`. -/
structure DecimalLayout where
  lowest : Int
  highest : Int
deriving DecidableEq

namespace DecimalLayout

def zeros (count : Nat) : List Char :=
  List.replicate count '0'

def positional (digits : List Char) (point : Int) : List Char :=
  if point ≤ 0 then '0' :: '.' :: (zeros (-point).toNat ++ digits)
  else if point.toNat < digits.length then
    digits.take point.toNat ++ '.' :: digits.drop point.toNat
  else digits ++ zeros (point.toNat - digits.length) ++ ['.', '0']

def scientific (digits : List Char) (point : Int) : List Char :=
  let exponent := point - 1
  let mantissa :=
    match digits with
    | [] => []
    | first :: [] => [first]
    | first :: rest => first :: '.' :: rest
  let sign := if exponent < 0 then '-' else '+'
  mantissa ++ 'e' :: sign :: (Nat.repr exponent.natAbs).toList

def decimalText (layout : DecimalLayout) (decimal : Decimal) : List Char :=
  let digits := (Nat.repr decimal.digits).toList
  let point : Int := digits.length + decimal.exponent
  if layout.lowest < point ∧ point ≤ layout.highest then positional digits point
  else scientific digits point

def text (layout : DecimalLayout) (number : Binary64) : String :=
  let magnitude :=
    if number.isZero then positional ['0'] 1
    else layout.decimalText (Decimal.shortest number)
  String.ofList (if number.isNegative then '-' :: magnitude else magnitude)

end DecimalLayout

end StagedResolver
