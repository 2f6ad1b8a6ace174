import ScopedCss.Number.Decimal

/-! # Numbers of style values

A number of a style value is finite, infinite or not a number. Definitions built by hand may hold
any of them, those read from text only finite ones. A finite number is written as the decimal with
the fewest digits that reads back as it.
-/

set_option autoImplicit false

namespace ScopedCss

/-! ## Shortest decimals

The decimal with the fewest digits among those that read back as a given finite number, and the
nearest of these to the number; which of two that are equally near, is for the caller to choose.

The reals that round to `m * 2 ^ e` lie between the middles towards its two neighbours, the middles
included if `m` is even. In quarters of the last binary place these ends and the number itself are
natural numbers, and `10 ^ grid` is compared with a quarter by cross multiplication, so all
arithmetic is exact. The search goes from coarse decimal grids to fine ones and looks only at the
two points of a grid next to the number: if any point of the grid reads back, one of the two does.
-/

/-- Which of two equally near neighbours is taken. -/
inductive Tie where
  /-- The one of larger magnitude. -/
  | away
  /-- The one with an even last digit. -/
  | even
  deriving DecidableEq, Repr

/-- Whether the upper neighbour is taken at a tie above `below`. -/
def Tie.takesUpper (tie : Tie) (below : Nat) : Bool :=
  match tie with
  | .away => true
  | .even => below % 2 = 1

namespace Binary

/-- The lower end of the reals that round to `x`, in quarters of its last place. Below a power of
two the neighbour is only half a place away. -/
def lowerQuarters (x : Binary) : Nat :=
  4 * x.mantissa - if x.mantissa = Nat.pow 2 52 ∧ 0 < x.scale then 1 else 2

/-- The upper end of the reals that round to `x`, in quarters of its last place. -/
def upperQuarters (x : Binary) : Nat := 4 * x.mantissa + 2

/-- A number of quarters of the last place of `x`, on the scale on which a step of the decimal
grid is `gridStep grid`. -/
def ofQuarters (x : Binary) (grid : Int) (quarters : Nat) : Nat :=
  quarters * Nat.pow 2 x.scale * Nat.pow 10 (-grid).toNat

/-- A step of the grid of the multiples of `10 ^ grid`. -/
def gridStep (grid : Int) : Nat := Nat.pow 10 grid.toNat * Nat.pow 2 (unitExponent + 2)

/-- Whether the point `point * 10 ^ grid` rounds to the magnitude of `x`. -/
def readsBack (x : Binary) (grid : Int) (point : Nat) : Bool :=
  let position := point * gridStep grid
  let lower := x.ofQuarters grid x.lowerQuarters
  let upper := x.ofQuarters grid x.upperQuarters
  if x.mantissa % 2 = 0 then lower ≤ position && position ≤ upper
  else lower < position && position < upper

/-- The magnitude of `x` on the scale of a grid. -/
def magnitudeOn (x : Binary) (grid : Int) : Nat := x.ofQuarters grid (4 * x.mantissa)

/-- The last point of a grid that is not above the magnitude of `x`. -/
def pointBelow (x : Binary) (grid : Int) : Nat := x.magnitudeOn grid / gridStep grid

/-- The point of a grid nearest to the magnitude of `x`. -/
def nearestPoint (x : Binary) (tie : Tie) (grid : Int) : Nat :=
  let below := x.pointBelow grid
  let middle := (2 * below + 1) * gridStep grid
  if 2 * x.magnitudeOn grid < middle then below
  else if 2 * x.magnitudeOn grid = middle ∧ !tie.takesUpper below then below
  else below + 1

/-- The point of a grid that reads back as `x` and is nearest to it. -/
def hit? (x : Binary) (tie : Tie) (grid : Int) : Option Nat :=
  let below := x.pointBelow grid
  match x.readsBack grid below, x.readsBack grid (below + 1) with
  | true, true => some (x.nearestPoint tie grid)
  | true, false => some below
  | false, true => some (below + 1)
  | false, false => none

/-- The hit on the coarsest grid from `10 ^ grid` down that has one, trying at most `tries` grids
before taking the nearest point. -/
def searchFrom (x : Binary) (tie : Tie) : Nat → Int → Decimal
  | 0, grid => ⟨x.negative, x.nearestPoint tie grid, grid⟩
  | tries + 1, grid =>
      match x.hit? tie grid with
      | some point => ⟨x.negative, point, grid⟩
      | none => x.searchFrom tie tries (grid - 1)

/-- A power of ten above the magnitude of `x`, by a bound on the logarithm of two. -/
def coarsestGrid (x : Binary) : Int :=
  ((x.mantissa.log2 : Int) + x.scale - unitExponent + 1) * 30103 / 100000 + 1

/-- The decimal with the fewest digits that reads back as `x`, and the nearest such. Seventeen
digits always read back, and the coarsest grid is at most two places above the first digit. -/
def shortest (x : Binary) (tie : Tie) : Decimal :=
  if x.isZero then ⟨x.negative, 0, 0⟩ else x.searchFrom tie 20 x.coarsestGrid

end Binary

/-! ## Numbers -/

/-- A number as a style value holds it. -/
inductive Number where
  | finite (value : Binary)
  | infinite (negative : Bool)
  | nan
  deriving DecidableEq, Repr

namespace Number

def isFinite : Number → Bool
  | .finite _ => true
  | _ => false

def isZero : Number → Bool
  | .finite x => x.isZero
  | _ => false

/-- The number nearest to a decimal, an infinity if no finite number is. -/
def ofDecimal (d : Decimal) : Number :=
  match d.nearest? with
  | some x => .finite x
  | none => .infinite d.negative

/-- A finite number is written with the fewest digits that read back, without an exponent; at a tie
the larger magnitude is taken, and zero has no sign. -/
def text : Number → String
  | .finite x => if x.isZero then "0" else (x.shortest .away).positional
  | .infinite false => "inf"
  | .infinite true => "-inf"
  | .nan => "NaN"

end Number

end ScopedCss
