import ScopedCss.Flatten

/-! # Custom properties that agree

The search for conflicts remembers the first value of each custom property for each selector.
Nevertheless it finds every disagreement: `conflict?_eq_none_iff` says that it finds nothing exactly
if any two settings of one property for one selector agree, and `conflict?_eq_some_iff` which of
several conflicts it finds. `settingsAgree_iff` tells the same of the declarations of rules.
-/

set_option autoImplicit false

namespace ScopedCss

/-! ## Settings -/

/-- A declaration sets a custom property: as one, by a key that is its name or a reference to it, or
as a property that has the name of a custom one. -/
inductive Declaration.Sets : Declaration → String → Prop
  | custom (key : String) (value : Value) : Sets ⟨.custom, key, value⟩ (Property.variableName key)
  | property {name : String} (h : Property.isCustom name) (value : Value) :
      Sets ⟨.property, name, value⟩ name

theorem Declaration.customName?_eq_some_iff {d : Declaration} {name : String} :
    d.customName? = some name ↔ d.Sets name := by
  obtain ⟨kind, key, value⟩ := d
  cases kind with
  | custom =>
      rw [Declaration.customName?, Option.some.injEq]
      constructor
      · rintro rfl
        exact .custom key value
      · rintro ⟨⟩
        rfl
  | property =>
      rw [Declaration.customName?]
      constructor
      · intro h
        by_cases hcustom : Property.isCustom key
        · rw [if_pos hcustom] at h
          obtain rfl := Option.some.inj h
          exact .property hcustom value
        · rw [if_neg hcustom] at h
          exact absurd h (by simp)
      · intro h
        cases h with
        | property hcustom => rw [if_pos hcustom]

theorem Rule.mem_settings {rule : Rule} {setting : Setting} :
    setting ∈ rule.settings ↔
      ∃ d ∈ rule.declarations, d.Sets setting.name ∧
        setting = ⟨rule.selector, setting.name, d.value.display⟩ := by
  rw [Rule.settings, List.mem_filterMap]
  refine exists_congr fun d => and_congr_right fun _ => ?_
  rw [Option.map_eq_some_iff]
  constructor
  · rintro ⟨name, hname, rfl⟩
    exact ⟨Declaration.customName?_eq_some_iff.1 hname, rfl⟩
  · rintro ⟨hsets, hsetting⟩
    exact ⟨setting.name, Declaration.customName?_eq_some_iff.2 hsets, hsetting.symm⟩

/-- Whatever custom property two declarations set for the same selector, they set it to the same
text. -/
def SettingsAgree (rules : List Rule) : Prop :=
  ∀ r₁ ∈ rules, ∀ r₂ ∈ rules, r₁.selector = r₂.selector →
    ∀ d₁ ∈ r₁.declarations, ∀ d₂ ∈ r₂.declarations, ∀ name, d₁.Sets name → d₂.Sets name →
      d₁.value.display = d₂.value.display

namespace Setting

/-- Settings of one property for one selector have one value. -/
def Agree (settings : List Setting) : Prop :=
  ∀ a ∈ settings, ∀ b ∈ settings, a.selector = b.selector → a.name = b.name → a.value = b.value

theorem sameVariable_iff {a b : Setting} :
    a.sameVariable b ↔ a.selector = b.selector ∧ a.name = b.name := by
  rw [sameVariable, Bool.and_eq_true, beq_iff_eq, beq_iff_eq]

theorem sameVariable_self (a : Setting) : a.sameVariable a := sameVariable_iff.2 ⟨rfl, rfl⟩

end Setting

open Setting

theorem settingsAgree_iff {rules : List Rule} :
    SettingsAgree rules ↔ Agree (rules.flatMap Rule.settings) := by
  constructor
  · intro h a ha b hb hselector hname
    obtain ⟨r₁, hr₁, ha⟩ := List.mem_flatMap.1 ha
    obtain ⟨r₂, hr₂, hb⟩ := List.mem_flatMap.1 hb
    obtain ⟨d₁, hd₁, hsets₁, hsetting₁⟩ := Rule.mem_settings.1 ha
    obtain ⟨d₂, hd₂, hsets₂, hsetting₂⟩ := Rule.mem_settings.1 hb
    rw [hsetting₁, hsetting₂] at hselector
    rw [← hname] at hsets₂
    rw [hsetting₁, hsetting₂]
    exact h r₁ hr₁ r₂ hr₂ hselector d₁ hd₁ d₂ hd₂ a.name hsets₁ hsets₂
  · intro h r₁ hr₁ r₂ hr₂ hselector d₁ hd₁ d₂ hd₂ name hsets₁ hsets₂
    have hmem : ∀ r ∈ rules, ∀ d ∈ r.declarations, d.Sets name →
        ⟨r.selector, name, d.value.display⟩ ∈ rules.flatMap Rule.settings := by
      intro r hr d hd hsets
      exact List.mem_flatMap.2 ⟨r, hr, Rule.mem_settings.2 ⟨d, hd, hsets, rfl⟩⟩
    exact h _ (hmem r₁ hr₁ d₁ hd₁ hsets₁) _ (hmem r₂ hr₂ d₂ hd₂ hsets₂) hselector rfl

/-! ## The search -/

/-- The first value of the property of a setting is remembered from before the setting itself. -/
theorem find?_append_of_mem {settings : List Setting} {setting : Setting} (h : setting ∈ settings)
    (more : List Setting) :
    (settings ++ more).find? setting.sameVariable = settings.find? setting.sameVariable := by
  have hsome : (settings.find? setting.sameVariable).isSome :=
    List.find?_isSome.2 ⟨setting, h, setting.sameVariable_self⟩
  rw [List.find?_append, Option.or_of_isSome hsome]

/-- What the search finds at one setting: the first setting of its property, if that has another
value. -/
def conflictAt? (settings : List Setting) (setting : Setting) : Option (Setting × Setting) :=
  (settings.find? setting.sameVariable).bind fun first =>
    if first.value = setting.value then none else some (first, setting)

theorem conflict?_eq (settings : List Setting) :
    conflict? settings = settings.findSome? (conflictAt? settings) := rfl

theorem conflictAt?_eq_none_iff {settings : List Setting} {setting : Setting} :
    conflictAt? settings setting = none ↔
      ∀ first, settings.find? setting.sameVariable = some first → first.value = setting.value := by
  cases hfirst : settings.find? setting.sameVariable with
  | none => simp [conflictAt?, hfirst]
  | some first => simp [conflictAt?, hfirst]

theorem conflictAt?_eq_some_iff {settings : List Setting} {setting first second : Setting} :
    conflictAt? settings setting = some (first, second) ↔
      settings.find? setting.sameVariable = some first ∧ first.value ≠ setting.value ∧
        setting = second := by
  cases hfirst : settings.find? setting.sameVariable with
  | none => simp [conflictAt?, hfirst]
  | some found =>
      by_cases hvalue : found.value = setting.value
      · simp only [conflictAt?, hfirst, Option.bind_some, if_pos hvalue, reduceCtorEq, false_iff]
        rintro ⟨hfound, hne, -⟩
        exact hne (Option.some.inj hfound ▸ hvalue)
      · simp only [conflictAt?, hfirst, Option.bind_some, if_neg hvalue, Option.some.injEq,
          Prod.mk.injEq]
        constructor
        · rintro ⟨rfl, rfl⟩
          exact ⟨rfl, hvalue, rfl⟩
        · rintro ⟨rfl, -, rfl⟩
          exact ⟨rfl, rfl⟩

/-- **The search finds every disagreement**, though it compares with first values only. -/
theorem conflict?_eq_none_iff {settings : List Setting} :
    conflict? settings = none ↔ Agree settings := by
  rw [conflict?_eq, List.findSome?_eq_none_iff]
  simp only [conflictAt?_eq_none_iff]
  constructor
  · intro h a ha b hb hselector hname
    -- both have the value of the first setting of their property
    have hsame : a.sameVariable = b.sameVariable := by
      funext c
      rw [sameVariable, sameVariable, hselector, hname]
    obtain ⟨first, hfirst⟩ := Option.isSome_iff_exists.1
      (List.find?_isSome.2 ⟨a, ha, a.sameVariable_self⟩)
    rw [← h a ha first hfirst, ← h b hb first (hsame ▸ hfirst)]
  · intro h setting hsetting first hfirst
    obtain ⟨hselector, hname⟩ := sameVariable_iff.1 (List.find?_some hfirst)
    exact h first (List.mem_of_find?_eq_some hfirst) setting hsetting hselector.symm hname.symm

/-- Two settings are the first conflict: the second of them is the earliest setting that disagrees
with one before it, and the first of them is the earliest setting of their property. -/
def FirstConflict (settings : List Setting) (first second : Setting) : Prop :=
  ∃ before after, settings = before ++ second :: after ∧ Agree before ∧
    first.value ≠ second.value ∧ first.selector = second.selector ∧ first.name = second.name ∧
    ∃ earlier later, before = earlier ++ first :: later ∧
      ∀ other ∈ earlier, ¬ (other.selector = second.selector ∧ other.name = second.name)

/-- The search finds the first conflict. -/
theorem conflict?_eq_some_iff {settings : List Setting} {first second : Setting} :
    conflict? settings = some (first, second) ↔ FirstConflict settings first second := by
  have hagree : ∀ before more : List Setting,
      (∀ setting ∈ before, conflictAt? (before ++ more) setting = none) ↔ Agree before := by
    intro before more
    rw [← conflict?_eq_none_iff, conflict?_eq, List.findSome?_eq_none_iff]
    refine forall₂_congr fun setting hsetting => ?_
    rw [conflictAt?, conflictAt?, find?_append_of_mem hsetting]
  rw [conflict?_eq, List.findSome?_eq_some_iff]
  constructor
  · rintro ⟨before, setting, after, rfl, hat, hbefore⟩
    obtain ⟨hfirst, hvalue, rfl⟩ := conflictAt?_eq_some_iff.1 hat
    obtain ⟨hselector, hname⟩ := sameVariable_iff.1 (List.find?_some hfirst)
    rw [List.find?_append, Option.or_eq_some_iff] at hfirst
    refine ⟨before, after, rfl, (hagree _ _).1 hbefore, hvalue, hselector.symm, hname.symm, ?_⟩
    rcases hfirst with hfirst | ⟨-, hfirst⟩
    · obtain ⟨-, earlier, later, rfl, hearlier⟩ := List.find?_eq_some_iff_append.1 hfirst
      refine ⟨earlier, later, rfl, fun other hother hsame => ?_⟩
      have hno := hearlier other hother
      rw [Bool.not_eq_true', Bool.eq_false_iff] at hno
      exact hno (sameVariable_iff.2 ⟨hsame.1.symm, hsame.2.symm⟩)
    · -- the setting itself does not differ from itself
      rw [List.find?_cons_of_pos setting.sameVariable_self] at hfirst
      exact absurd (congrArg Setting.value (Option.some.inj hfirst)).symm hvalue
  · rintro ⟨before, after, rfl, hbefore, hvalue, hselector, hname, earlier, later, rfl, hearlier⟩
    refine ⟨_, second, after, rfl, conflictAt?_eq_some_iff.2 ⟨?_, hvalue, rfl⟩,
      (hagree _ _).2 hbefore⟩
    rw [List.append_assoc, List.cons_append, List.find?_eq_some_iff_append]
    refine ⟨sameVariable_iff.2 ⟨hselector.symm, hname.symm⟩, earlier, _, rfl, ?_⟩
    intro other hother
    rw [Bool.not_eq_true', Bool.eq_false_iff]
    intro hsame
    obtain ⟨hselector', hname'⟩ := sameVariable_iff.1 hsame
    exact hearlier other hother ⟨hselector'.symm, hname'.symm⟩

end ScopedCss
