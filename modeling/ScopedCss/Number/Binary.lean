/-! # Binary floating-point numbers

The finite numbers of the 64-bit binary format, as exact values: a sign, a mantissa of at most 53
binary digits and a power of two. `Binary.nearest?` rounds a quotient of natural numbers to the
nearest of them, a half to the even mantissa.

Main statement: `nearest?_isSome`, every quotient below `2 ^ 64` has a nearest finite number.
-/

set_option autoImplicit false

namespace ScopedCss

/-- The least power of two among the units of the mantissas is `2 ^ (-1074)`. -/
def unitExponent : Nat := 1074

/-- The mantissa has 53 binary digits, or fewer at the least exponent, so that each magnitude has
one canonical form. -/
def Canonical (mantissa scale : Nat) : Prop :=
  mantissa < Nat.pow 2 53 ∧ scale ≤ 2045 ∧ (Nat.pow 2 52 ≤ mantissa ∨ scale = 0)

instance (mantissa scale : Nat) : Decidable (Canonical mantissa scale) :=
  inferInstanceAs (Decidable (_ ∧ _ ∧ _))

/-- A finite number of the 64-bit binary format: `mantissa * 2 ^ (scale - unitExponent)`, negated if
`negative`. Zero has either sign. -/
structure Binary where
  negative : Bool
  mantissa : Nat
  scale : Nat
  canonical : Canonical mantissa scale
  deriving DecidableEq, Repr

/-- The natural number nearest to `num / den`, a half to the even neighbour. -/
def roundQuotient (num den : Nat) : Nat :=
  let below := num / den
  let rest := 2 * (num % den)
  if rest < den ∨ (rest = den ∧ below % 2 = 0) then below else below + 1

theorem le_roundQuotient (num den : Nat) : num / den ≤ roundQuotient num den := by
  unfold roundQuotient
  simp only
  split <;> omega

theorem roundQuotient_le (num den : Nat) : roundQuotient num den ≤ num / den + 1 := by
  unfold roundQuotient
  simp only
  split <;> omega

namespace Binary

instance : Inhabited Binary := ⟨⟨false, 0, 0, by decide⟩⟩

/-- Both zeros are zero. -/
def isZero (x : Binary) : Bool := x.mantissa == 0

/-- A number from its parts, if they are canonical. -/
def ofParts? (negative : Bool) (mantissa scale : Nat) : Option Binary :=
  if h : Canonical mantissa scale then some ⟨negative, mantissa, scale, h⟩ else none

/-- How far the quotient `num / den`, counted in the least units, is scaled down so that 53
binary digits are left before the point. -/
def scaleOf (num den : Nat) : Nat := (num * Nat.pow 2 unitExponent / den).log2 - 52

/-- The finite number nearest to `num / den`, a half to the even mantissa; `none` from half a unit
above the largest one on. -/
def nearest? (negative : Bool) (num den : Nat) : Option Binary :=
  let scale := scaleOf num den
  let mantissa := roundQuotient (num * Nat.pow 2 unitExponent) (den * Nat.pow 2 scale)
  if mantissa = Nat.pow 2 53 then ofParts? negative (Nat.pow 2 52) (scale + 1)
  else ofParts? negative mantissa scale

theorem ofParts?_isSome {negative : Bool} {mantissa scale : Nat} (h : Canonical mantissa scale) :
    (ofParts? negative mantissa scale).isSome := by
  simp [ofParts?, h]

/-- Before rounding, the scaled quotient has at most 53 binary digits. -/
theorem scaled_lt (num den : Nat) :
    num * Nat.pow 2 unitExponent / (den * Nat.pow 2 (scaleOf num den)) < Nat.pow 2 53 := by
  simp only [Nat.pow_eq]
  rw [← Nat.div_div_eq_div_mul, Nat.div_lt_iff_lt_mul (Nat.two_pow_pos _), ← Nat.pow_add]
  refine Nat.lt_of_lt_of_le Nat.lt_log2_self (Nat.pow_le_pow_right (by decide) ?_)
  simp only [scaleOf, Nat.pow_eq]
  omega

/-- Before rounding, a quotient that was scaled at all has 53 binary digits. -/
theorem le_scaled {num den : Nat} (h : 0 < scaleOf num den) :
    Nat.pow 2 52 ≤ num * Nat.pow 2 unitExponent / (den * Nat.pow 2 (scaleOf num den)) := by
  have hne : num * Nat.pow 2 unitExponent / den ≠ 0 := by
    intro hzero
    rw [scaleOf, hzero] at h
    exact absurd h (by decide)
  simp only [scaleOf, Nat.pow_eq] at h hne ⊢
  rw [← Nat.div_div_eq_div_mul, Nat.le_div_iff_mul_le (Nat.two_pow_pos _), ← Nat.pow_add]
  refine Nat.le_trans (Nat.pow_le_pow_right (by decide) ?_) (Nat.log2_self_le hne)
  omega

/-- A quotient below `2 ^ bits`, counted in units of `2 ^ (-places)`, has at most `bits + places`
binary digits. -/
theorem log2_quotient_lt {num den bits places : Nat} (h : num < Nat.pow 2 bits * den)
    (hne : num * Nat.pow 2 places / den ≠ 0) :
    (num * Nat.pow 2 places / den).log2 < bits + places := by
  have hden : 0 < den := Nat.pos_of_ne_zero (by rintro rfl; exact absurd h (Nat.not_lt_zero _))
  simp only [Nat.pow_eq] at h hne ⊢
  rw [Nat.log2_lt hne, Nat.div_lt_iff_lt_mul hden, Nat.pow_add, Nat.mul_right_comm]
  exact Nat.mul_lt_mul_of_pos_right h (Nat.two_pow_pos places)

/-- A quotient below `2 ^ 64` is scaled down to a scale in range. -/
theorem scaleOf_le {num den : Nat} (h : num < Nat.pow 2 64 * den) :
    scaleOf num den ≤ 12 + unitExponent := by
  unfold scaleOf
  by_cases hzero : num * Nat.pow 2 unitExponent / den = 0
  · rw [hzero]
    decide
  · have hlog := log2_quotient_lt h hzero
    omega

/-- Rounding succeeds on every quotient below `2 ^ 64`. -/
theorem nearest?_isSome (negative : Bool) {num den : Nat} (h : num < Nat.pow 2 64 * den) :
    (nearest? negative num den).isSome := by
  have hscale := scaleOf_le h
  have hunit : unitExponent = 1074 := rfl
  have hlt := scaled_lt num den
  have hupper :=
    roundQuotient_le (num * Nat.pow 2 unitExponent) (den * Nat.pow 2 (scaleOf num den))
  have hlower :=
    le_roundQuotient (num * Nat.pow 2 unitExponent) (den * Nat.pow 2 (scaleOf num den))
  unfold nearest?
  simp only
  split
  · exact ofParts?_isSome ⟨by decide, by omega, Or.inl (Nat.le_refl _)⟩
  · next hne =>
      refine ofParts?_isSome ⟨?_, by omega, ?_⟩
      · exact Nat.lt_of_le_of_ne (Nat.le_trans hupper hlt) hne
      · rcases Nat.eq_zero_or_pos (scaleOf num den) with hzero | hpos
        · exact Or.inr hzero
        · exact Or.inl (Nat.le_trans (le_scaled hpos) hlower)

end Binary

end ScopedCss
