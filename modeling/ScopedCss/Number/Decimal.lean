import ScopedCss.Number.Binary

/-! # Decimal numbers

A decimal is a coefficient and a power of ten. `Decimal.nearest?` gives the finite binary number
nearest to it, and the two layouts write it: `positional` never uses an exponent, `pointed` uses
one outside a window around the point.
-/

set_option autoImplicit false

namespace ScopedCss

/-- The number `coefficient * 10 ^ exponent`, negated if `negative`. -/
structure Decimal where
  negative : Bool
  coefficient : Nat
  exponent : Int
  deriving DecidableEq, Repr

namespace Decimal

/-! ## Reading -/

def digitValue (c : Char) : Nat := c.toNat - '0'.toNat

/-- The natural number that a list of decimal digits writes. -/
def ofDigits (digits : List Char) : Nat :=
  digits.foldl (fun value c => 10 * value + digitValue c) 0

/-- The decimal written by the digits before the point, the digits after it and an exponent. -/
def ofParts (negative : Bool) (whole fraction : List Char) (exponent : Int) : Decimal :=
  ⟨negative, ofDigits (whole ++ fraction), exponent - fraction.length⟩

/-- The finite number nearest to a decimal; `none` if its magnitude is too large for one. Beyond
`10 ^ 400` every magnitude is too large, and below `10 ^ (-400)` every one rounds to zero. -/
def nearest? (d : Decimal) : Option Binary :=
  if d.coefficient = 0 ∨ d.exponent + d.coefficient.log2 < -400 then
    Binary.ofParts? d.negative 0 0
  else if 400 < d.exponent then none
  else
    Binary.nearest? d.negative (d.coefficient * Nat.pow 10 d.exponent.toNat)
      (Nat.pow 10 (-d.exponent).toNat)

/-! ## Writing -/

def digits (d : Decimal) : List Char := Nat.toDigits 10 d.coefficient

/-- The number of digits before the point, negative if zeros follow the point. -/
def pointPosition (d : Decimal) : Int := d.digits.length + d.exponent

def sign (d : Decimal) : List Char := if d.negative then ['-'] else []

/-- The magnitude without an exponent: zeros fill the space up to the point, and a magnitude below
one starts with a zero. -/
def positionalDigits (d : Decimal) : List Char :=
  let digits := d.digits
  let places := (-d.exponent).toNat
  if places = 0 then digits ++ List.replicate d.exponent.toNat '0'
  else if places < digits.length then
    digits.take (digits.length - places) ++ '.' :: digits.drop (digits.length - places)
  else '0' :: '.' :: List.replicate (places - digits.length) '0' ++ digits

/-- The digits with a point after the first, and the power of ten with its sign. -/
def scientificDigits (d : Decimal) : List Char :=
  let mantissa := match d.digits with
    | first :: second :: rest => first :: '.' :: second :: rest
    | short => short
  let power := d.pointPosition - 1
  mantissa ++ 'e' :: (if power < 0 then '-' else '+') :: Nat.toDigits 10 power.natAbs

def positional (d : Decimal) : String := String.ofList (d.sign ++ d.positionalDigits)

/-- A decimal that shows itself to be no integer: with a point if that stands at most 16 digits
after or 4 zeros before the first digit, and with an exponent otherwise. -/
def pointed (d : Decimal) : String :=
  String.ofList <| d.sign ++
    if 16 < d.pointPosition ∨ d.pointPosition ≤ -5 then d.scientificDigits
    else if 0 ≤ d.exponent then d.positionalDigits ++ ['.', '0']
    else d.positionalDigits

end Decimal

end ScopedCss
