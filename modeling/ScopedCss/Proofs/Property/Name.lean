import ScopedCss.Property

/-! # Names of custom properties

A custom property keeps its name in CSS. But it is not the only one whose CSS name starts with two
hyphens: so does that of a property that is authored with a hyphen before a capital
(`Property.isCustom_cssName_iff`).
-/

set_option autoImplicit false

namespace ScopedCss.Property

theorem isCustom_iff {name : String} : isCustom name ↔ ∃ cs, name.toList = '-' :: '-' :: cs := by
  rw [isCustom, List.isPrefixOf_iff_prefix]
  constructor
  · rintro ⟨cs, hcs⟩
    exact ⟨cs, hcs.symm⟩
  · rintro ⟨cs, hcs⟩
    exact ⟨cs, hcs.symm⟩

theorem cssName_of_isCustom {name : String} (h : isCustom name) : cssName name = name := by
  rw [cssName, if_pos h]

theorem toList_cssName {name : String} (h : ¬ isCustom name) :
    (cssName name).toList = withVendorHyphen (name.toList.flatMap hyphenate) := by
  rw [cssName, if_neg h, String.toList_ofList]

theorem flatMap_hyphenate_of_isUpper {c : Char} (h : c.isUpper) (cs : List Char) :
    (c :: cs).flatMap hyphenate = '-' :: c.toLower :: cs.flatMap hyphenate := by
  rw [List.flatMap_cons, hyphenate, if_pos h]
  rfl

theorem flatMap_hyphenate_of_not_isUpper {c : Char} (h : ¬ c.isUpper) (cs : List Char) :
    (c :: cs).flatMap hyphenate = c :: cs.flatMap hyphenate := by
  rw [List.flatMap_cons, hyphenate, if_neg h, List.singleton_append]

/-- What is found of the capitals one by one holds of every character that is one. -/
theorem forall_isUpper {P : Char → Prop}
    (h : ∀ n < 0x80, (Char.ofNat n).isUpper → P (Char.ofNat n)) {c : Char} (hc : c.isUpper) :
    P c := by
  have hlt : c.toNat < 0x80 := by
    have hbounds : c.val ≥ 'A'.val ∧ c.val ≤ 'Z'.val := of_decide_eq_true hc
    exact Nat.lt_of_le_of_lt (UInt32.le_iff_toNat_le.1 hbounds.2) (by decide)
  have hc' := h c.toNat hlt
  rw [Char.ofNat_toNat] at hc'
  exact hc' hc

theorem toLower_ne_hyphen {c : Char} (h : c.isUpper) : c.toLower ≠ '-' :=
  forall_isUpper (P := fun c => c.toLower ≠ '-') (by decide) h

theorem withVendorHyphen_cons_hyphen (cs : List Char) :
    withVendorHyphen ('-' :: cs) = '-' :: cs :=
  rfl

/-- The hyphen of a vendor is never one of two. -/
theorem withVendorHyphen_eq_iff {cs rest : List Char} :
    withVendorHyphen cs = '-' :: '-' :: rest ↔ cs = '-' :: '-' :: rest := by
  rw [withVendorHyphen]
  by_cases h : "ms-".toList.isPrefixOf cs
  · rw [if_pos h]
    obtain ⟨more, rfl⟩ := List.isPrefixOf_iff_prefix.1 h
    constructor
    · intro heq
      exact absurd (List.cons.inj (List.cons.inj heq).2).1 (by decide)
    · intro heq
      exact absurd (List.cons.inj heq).1 (by decide)
  · rw [if_neg h]

/-- A name is hyphenated to one with two hyphens first if it has these, or one of them before a
capital. -/
theorem flatMap_hyphenate_eq_iff {cs : List Char} :
    (∃ rest, cs.flatMap hyphenate = '-' :: '-' :: rest) ↔
      ∃ c rest, cs = '-' :: c :: rest ∧ (c = '-' ∨ c.isUpper) := by
  have hyphen : ¬ '-'.isUpper := by decide
  constructor
  · rintro ⟨rest, hrest⟩
    match cs with
    | [] => exact absurd hrest (by simp)
    | first :: cs =>
        by_cases hfirst : first.isUpper
        · rw [flatMap_hyphenate_of_isUpper hfirst] at hrest
          exact absurd (List.cons.inj (List.cons.inj hrest).2).1 (toLower_ne_hyphen hfirst)
        · rw [flatMap_hyphenate_of_not_isUpper hfirst] at hrest
          obtain ⟨rfl, hsecond⟩ := List.cons.inj hrest
          clear hrest
          match cs with
          | [] => exact absurd hsecond (by simp)
          | c :: cs =>
              refine ⟨c, cs, rfl, ?_⟩
              by_cases hc : c.isUpper
              · exact Or.inr hc
              · rw [flatMap_hyphenate_of_not_isUpper hc] at hsecond
                exact Or.inl (List.cons.inj hsecond).1
  · rintro ⟨c, rest, rfl, rfl | hc⟩
    · exact ⟨rest.flatMap hyphenate, by
        rw [flatMap_hyphenate_of_not_isUpper hyphen, flatMap_hyphenate_of_not_isUpper hyphen]⟩
    · exact ⟨c.toLower :: rest.flatMap hyphenate, by
        rw [flatMap_hyphenate_of_not_isUpper hyphen, flatMap_hyphenate_of_isUpper hc]⟩

/-- **Which names are written as those of custom properties**: theirs, and those with a hyphen
before a capital, which becomes a second hyphen. -/
theorem isCustom_cssName_iff {name : String} :
    isCustom (cssName name) ↔
      isCustom name ∨ ∃ c rest, name.toList = '-' :: c :: rest ∧ c.isUpper := by
  by_cases hcustom : isCustom name
  · simp [cssName_of_isCustom hcustom, hcustom]
  · rw [isCustom_iff, toList_cssName hcustom]
    simp only [withVendorHyphen_eq_iff, flatMap_hyphenate_eq_iff]
    constructor
    · rintro ⟨c, rest, hname, rfl | hupper⟩
      · exact Or.inl (isCustom_iff.2 ⟨rest, hname⟩)
      · exact Or.inr ⟨c, rest, hname, hupper⟩
    · rintro (h | ⟨c, rest, hname, hupper⟩)
      · exact absurd h hcustom
      · exact ⟨c, rest, hname, Or.inr hupper⟩

end ScopedCss.Property
