import ScopedCss.Number.Binary

/-! # JSON values

The values that a style definition is read from. Objects keep the order of their keys. An integer
of at most 64 bits is kept as it is, every other number as the nearest finite binary number.

Main statement: every number of a JSON value has a finite value, `Json.Number.toBinary`.
-/

set_option autoImplicit false

namespace ScopedCss

namespace Json

/-- An integer that a signed or an unsigned word of 64 bits holds. -/
def FitsWord (value : Int) : Prop :=
  -(Nat.pow 2 63 : Int) ≤ value ∧ value < (Nat.pow 2 64 : Int)

instance (value : Int) : Decidable (FitsWord value) := inferInstanceAs (Decidable (_ ∧ _))

inductive Number where
  | integer (value : Int) (fits : FitsWord value)
  | real (value : Binary)
  deriving DecidableEq, Repr

/-- An integer that fits in a word has a nearest finite number. -/
theorem nearest?_isSome_of_fits {value : Int} (fits : FitsWord value) :
    (Binary.nearest? (decide (value < 0)) value.natAbs 1).isSome := by
  refine Binary.nearest?_isSome _ ?_
  simp only [FitsWord, Nat.pow_eq] at fits ⊢
  omega

/-- The finite number nearest to a number. -/
def Number.toBinary : Number → Binary
  | .integer value fits =>
      (Binary.nearest? (decide (value < 0)) value.natAbs 1).get (nearest?_isSome_of_fits fits)
  | .real value => value

inductive Kind where
  | null
  | boolean
  | number
  | string
  | array
  | object
  deriving DecidableEq, Repr

/-- A sort of values, as a message calls a value of it. -/
def Kind.text : Kind → String
  | .null => "null"
  | .boolean => "a boolean"
  | .number => "a number"
  | .string => "a string"
  | .array => "an array"
  | .object => "an object"

end Json

inductive Json where
  | null
  | bool (value : Bool)
  | number (value : Json.Number)
  | string (content : String)
  | array (items : List Json)
  | object (entries : List (String × Json))
  deriving Repr

def Json.kind : Json → Json.Kind
  | .null => .null
  | .bool _ => .boolean
  | .number _ => .number
  | .string _ => .string
  | .array _ => .array
  | .object _ => .object

end ScopedCss
