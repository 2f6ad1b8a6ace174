import Mathlib.Tactic.ByContra
import ScopedCss.Proofs.Property.CamelCase
import ScopedCss.Property

/-! # Units and spellings

Whether a number takes a unit is looked up under the camel case spelling of the name that it is
authored with, while CSS sees the name in the spelling of `cssName`. The unit should not depend on
the spelling. It does not, except under the names that `Strays` describes: those of properties that
CSS takes for custom ones, and those of the vendor `ms` that are not authored as that vendor's are.

`cssValue_number_eq_iff` says that these are all exceptions, and that any two names of one CSS
property give a number the same text unless one of them strays and the other does not.
-/

set_option autoImplicit false

namespace ScopedCss.Property

/-! ## Names without a unit -/

theorem MistakesVendor.not_isUnitless {name : String} (h : MistakesVendor name) :
    ¬ isUnitless name := by
  have hnone : ∀ unitless ∈ unitlessNames, unitless.toList.head? ≠ some 'M' := by decide +kernel
  intro hunit
  exact hnone _ (List.contains_iff_mem.1 hunit) h.head?_authoredName

/-! ## Numbers -/

/-- Numbers stay bare under a name. -/
def TakesBare (name : String) : Prop := isCustom name ∨ isUnitless name

/-- A name under which numbers are written otherwise than under its CSS name: that of a property
which CSS takes for a custom one, whose numbers should be bare, and that of a property which takes
bare numbers, but is not found under this name because its vendor is mistaken. -/
inductive Strays (name : String) : Prop
  | custom {c : Char} {rest : List Char} (h : name.toList = '-' :: c :: rest) (hc : c.isUpper)
      (hunit : ¬ isUnitless name) : Strays name
  | vendor (h : MistakesVendor name) (hunit : isUnitless (cssName name)) : Strays name

namespace Strays

variable {name : String}

theorem takesBare_cssName (h : Strays name) : TakesBare (cssName name) := by
  cases h with
  | custom h hc _ => exact Or.inl (isCustom_cssName_iff.2 (Or.inr ⟨_, _, h, hc⟩))
  | vendor _ hunit => exact Or.inr hunit

theorem not_takesBare (h : Strays name) : ¬ TakesBare name := by
  rintro (hcustom | hunit)
  · cases h with
    | custom h hc _ =>
        obtain ⟨rest, hrest⟩ := isCustom_iff.1 hcustom
        exact ne_hyphen_of_isUpper hc (List.cons.inj (List.cons.inj (h.symm.trans hrest)).2).1
    | vendor h _ => exact h.not_isCustom hcustom
  · cases h with
    | custom _ _ hno => exact hno hunit
    | vendor h _ => exact h.not_isUnitless hunit

end Strays

/-- Under any other name a number is bare exactly if it is under the CSS name. -/
theorem takesBare_cssName_iff {name : String} (h : ¬ Strays name) :
    TakesBare (cssName name) ↔ TakesBare name := by
  by_cases hcustom : isCustom name
  · rw [cssName_of_isCustom hcustom]
  by_cases hcss : isCustom (cssName name)
  · -- a disguised custom property, which does not stray because it is found as a bare one
    obtain ⟨c, rest, hname, hc⟩ := (isCustom_cssName_iff.1 hcss).resolve_left hcustom
    have hunit : isUnitless name := by
      by_contra hunit
      exact h (.custom hname hc hunit)
    exact iff_of_true (Or.inl hcss) (Or.inr hunit)
  by_cases hvendor : MistakesVendor name
  · have hno : ¬ isUnitless (cssName name) := fun hunit => h (.vendor hvendor hunit)
    exact iff_of_false (not_or.2 ⟨hcss, hno⟩) (not_or.2 ⟨hcustom, hvendor.not_isUnitless⟩)
  · unfold TakesBare isUnitless
    rw [authoredName_cssName hcss hvendor]
    simp [hcustom, hcss]

/-- A name takes bare numbers if its CSS name does and it does not stray. -/
theorem takesBare_iff (name : String) :
    TakesBare name ↔ TakesBare (cssName name) ∧ ¬ Strays name := by
  by_cases h : Strays name
  · exact iff_of_false h.not_takesBare fun hboth => hboth.2 h
  · rw [takesBare_cssName_iff h, and_iff_left h]

theorem cssValue_number (name : String) (x : Number) [Decidable (x.isZero ∨ TakesBare name)] :
    cssValue name (.number x) = if x.isZero ∨ TakesBare name then x.text else x.text ++ "px" := by
  have hbare : (x.isZero || isCustom name || isUnitless name) = true ↔
      x.isZero ∨ TakesBare name := by
    rw [TakesBare, Bool.or_eq_true, Bool.or_eq_true, or_assoc]
  rw [cssValue]
  exact if_congr hbare rfl rfl

/-- Two names give a number the same text if it is zero, or bare under both or none of them. -/
theorem cssValue_eq_cssValue_iff {a b : String} {x : Number} :
    cssValue a (.number x) = cssValue b (.number x) ↔
      x.isZero ∨ (TakesBare a ↔ TakesBare b) := by
  classical
  have hunit : x.text ≠ x.text ++ "px" := by
    intro heq
    have hlength := congrArg String.length heq
    rw [String.length_append] at hlength
    have hpx : "px".length = 2 := rfl
    omega
  rw [cssValue_number, cssValue_number]
  by_cases hzero : x.isZero
  · simp [hzero]
  · by_cases ha : TakesBare a <;> by_cases hb : TakesBare b <;>
      simp [hzero, ha, hb, hunit, hunit.symm]

/-- **On which names the unit depends on the spelling.** A number has the same text under a name and
under its CSS name exactly if it is zero or the name does not stray. So two names of one CSS property
give it the same text exactly if it is zero, or both of them stray, or none. -/
theorem cssValue_number_eq_iff (name : String) (x : Number) :
    (cssValue name (.number x) = cssValue (cssName name) (.number x) ↔
      x.isZero ∨ ¬ Strays name) ∧
    ∀ other, cssName other = cssName name →
      (cssValue name (.number x) = cssValue other (.number x) ↔
        x.isZero ∨ (Strays name ↔ Strays other)) := by
  have hbare : Strays name → TakesBare (cssName name) := Strays.takesBare_cssName
  constructor
  · rw [cssValue_eq_cssValue_iff, takesBare_iff name]
    refine or_congr_right ?_
    by_cases hstrays : Strays name <;> simp [hstrays, hbare]
  · intro other hother
    have hbare' : Strays other → TakesBare (cssName name) := by
      rw [← hother]
      exact Strays.takesBare_cssName
    rw [cssValue_eq_cssValue_iff, takesBare_iff name, takesBare_iff other, hother]
    refine or_congr_right ?_
    by_cases hstrays : Strays name <;> by_cases hstrays' : Strays other <;>
      simp [hstrays, hstrays', hbare, hbare']

/-- `MsFlex` is written as the property `-ms-flex`, and `-Foo` as the custom property `--foo`, but
with another text for the number one. -/
theorem cssValue_number_ne_cssName :
    let one : Number := .finite ⟨false, Nat.pow 2 52, 1022, by decide⟩
    cssName "MsFlex" = "-ms-flex" ∧
      cssValue "MsFlex" (.number one) ≠ cssValue (cssName "MsFlex") (.number one) ∧
      cssName "msFlex" = cssName "MsFlex" ∧
      cssValue "MsFlex" (.number one) ≠ cssValue "msFlex" (.number one) ∧
      cssName "-Foo" = "--foo" ∧
      cssValue "-Foo" (.number one) ≠ cssValue (cssName "-Foo") (.number one) := by
  intro one
  have hone : ¬ one.isZero := by decide
  have hvendor : Strays "MsFlex" := by
    have hname : "MsFlex".toList = 'M' :: 's' :: "Flex".toList := by decide
    refine .vendor (.capital hname ?_) (by decide +kernel)
    intro c hc
    obtain rfl := Option.some.inj hc
    exact Or.inr (by decide)
  have hcustom : Strays "-Foo" := by
    have hname : "-Foo".toList = '-' :: 'F' :: "oo".toList := by decide
    exact .custom hname (by decide) (by decide +kernel)
  have hproper : ¬ Strays "msFlex" :=
    ((cssValue_number_eq_iff "msFlex" one).1.1 (by decide +kernel)).resolve_left hone
  refine ⟨by decide +kernel, ?_, by decide +kernel, ?_, by decide +kernel, ?_⟩
  · rw [Ne, (cssValue_number_eq_iff "MsFlex" one).1]
    exact not_or.2 ⟨hone, not_not.2 hvendor⟩
  · rw [Ne, (cssValue_number_eq_iff "MsFlex" one).2 "msFlex" (by decide +kernel)]
    exact not_or.2 ⟨hone, fun hboth => hproper (hboth.1 hvendor)⟩
  · rw [Ne, (cssValue_number_eq_iff "-Foo" one).1]
    exact not_or.2 ⟨hone, not_not.2 hcustom⟩

end ScopedCss.Property
