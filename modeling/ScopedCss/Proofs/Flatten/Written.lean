import ScopedCss.Proofs.Flatten.Acceptance
import ScopedCss.Proofs.Property.Name

/-! # What the check of conflicts means for the text

Conflicts are looked for among the custom properties as they are authored, but it is the names and
values as they are written that should agree (`WrittenAgree`). The two come to the same except for
one spelling: a property that is authored with a hyphen before a capital is written as a custom
property and not looked at (`Declaration.Disguised`). `Definition.writtenAgree_iff` says that what
is accepted agrees as it is written exactly if these properties agree with the others.
-/

set_option autoImplicit false

namespace ScopedCss

/-- A property authored with a hyphen before a capital, which becomes a second hyphen. -/
def Declaration.Disguised (d : Declaration) : Prop :=
  d.kind = .property ∧ ∃ c rest, d.name.toList = '-' :: c :: rest ∧ c.isUpper

/-- Whatever custom property two declarations are written as for one selector, they are written with
the same value. -/
def WrittenAgree (rules : List Rule) : Prop :=
  ∀ r₁ ∈ rules, ∀ r₂ ∈ rules, r₁.selector = r₂.selector →
    ∀ d₁ ∈ r₁.declarations, ∀ d₂ ∈ r₂.declarations,
      d₁.written.name = d₂.written.name → Property.isCustom d₁.written.name →
        d₁.written.value = d₂.written.value

/-- The same of pairs of declarations of which the first is disguised. -/
def DisguisedAgree (rules : List Rule) : Prop :=
  ∀ r₁ ∈ rules, ∀ r₂ ∈ rules, r₁.selector = r₂.selector →
    ∀ d₁ ∈ r₁.declarations, ∀ d₂ ∈ r₂.declarations, d₁.Disguised →
      d₁.written.name = d₂.written.name → d₁.written.value = d₂.written.value

/-! ## Declarations as they are written -/

namespace Declaration

/-- A declaration that sets a custom property is written with its name and its text. -/
theorem Sets.written_eq {d : Declaration} {name : String} (h : d.Sets name) :
    d.written = ⟨name, d.value.display⟩ := by
  cases h with
  | custom key value => rfl
  | property hcustom value =>
      have hvalue : Property.cssValue name value = value.display := by
        cases value <;> simp [Property.cssValue, Value.display, hcustom]
      rw [written, Property.cssName_of_isCustom hcustom, hvalue]

/-- What is written as a custom property sets one, or is disguised. -/
theorem sets_or_disguised {d : Declaration} (h : Property.isCustom d.written.name) :
    d.Sets d.written.name ∨ d.Disguised := by
  obtain ⟨kind, key, value⟩ := d
  cases kind with
  | custom => exact Or.inl (.custom key value)
  | property =>
      have hname : (written ⟨.property, key, value⟩).name = Property.cssName key := rfl
      rw [hname] at h ⊢
      rcases Property.isCustom_cssName_iff.1 h with hcustom | hdisguised
      · rw [Property.cssName_of_isCustom hcustom]
        exact Or.inl (.property hcustom value)
      · exact Or.inr ⟨rfl, hdisguised⟩

theorem Disguised.isCustom_written {d : Declaration} (h : d.Disguised) :
    Property.isCustom d.written.name := by
  obtain ⟨kind, key, value⟩ := d
  obtain ⟨rfl, hname⟩ := h
  exact Property.isCustom_cssName_iff.2 (Or.inr hname)

end Declaration

/-- Rules whose custom properties agree as they are authored agree as they are written, if those do
that are disguised. -/
theorem SettingsAgree.writtenAgree_iff_disguisedAgree {rules : List Rule}
    (h : SettingsAgree rules) : WrittenAgree rules ↔ DisguisedAgree rules := by
  constructor
  · intro hwritten r₁ hr₁ r₂ hr₂ hselector d₁ hd₁ d₂ hd₂ hdisguised hname
    exact hwritten r₁ hr₁ r₂ hr₂ hselector d₁ hd₁ d₂ hd₂ hname hdisguised.isCustom_written
  · intro hdisguised r₁ hr₁ r₂ hr₂ hselector d₁ hd₁ d₂ hd₂ hname hcustom
    rcases Declaration.sets_or_disguised hcustom with hsets₁ | hdisguised₁
    · rw [hname] at hcustom
      rcases Declaration.sets_or_disguised hcustom with hsets₂ | hdisguised₂
      · rw [hsets₁.written_eq, hsets₂.written_eq]
        rw [← hname] at hsets₂
        exact h r₁ hr₁ r₂ hr₂ hselector d₁ hd₁ d₂ hd₂ _ hsets₁ hsets₂
      · exact (hdisguised r₂ hr₂ r₁ hr₁ hselector.symm d₂ hd₂ d₁ hd₁ hdisguised₂ hname.symm).symm
    · exact hdisguised r₁ hr₁ r₂ hr₂ hselector d₁ hd₁ d₂ hd₂ hdisguised₁ hname

/-! ## Accepted definitions -/

theorem Definition.schemaFault?_of_flatten {target : Target} {reject : Bool}
    {definition : Definition} {flattened : Flattened}
    (h : definition.flatten target reject = .ok flattened) :
    target.schemaFault? definition = none := by
  cases hschema : target.schemaFault? definition with
  | none => rfl
  | some error =>
      rw [flatten, hschema] at h
      exact absurd h (by simp)

/-- The rules that a definition contributes at one place: outside of conditions or at a path. -/
def Flattened.Contributes (flattened : Flattened) (rules : List Rule) : Prop :=
  rules = flattened.rules ∨ ∃ path, (path, rules) ∈ flattened.conditional

/-- What holds of the rules of every level holds of every contribution. -/
theorem Definition.of_contributes {target : Target} {reject : Bool} {definition : Definition}
    {flattened : Flattened} (h : definition.flatten target reject = .ok flattened)
    {P : List Rule → Prop} (hlevels : ∀ entry ∈ definition.levels, P (entry.2.ownRules target))
    {rules : List Rule} (hrules : flattened.Contributes rules) : P rules := by
  obtain rfl := Definition.flatten_eq_ok h
  rcases hrules with rfl | ⟨path, hmem⟩
  · exact hlevels _ List.mem_cons_self
  · obtain ⟨entry, hentry, heq⟩ := List.mem_map.1 hmem
    obtain ⟨-, rfl⟩ := Prod.mk.inj heq
    exact hlevels entry (List.mem_cons_of_mem _ hentry)

/-- The custom properties of each contribution agree as they are authored. -/
theorem Definition.settingsAgree_of_flatten {target : Target} {definition : Definition}
    {flattened : Flattened} (h : definition.flatten target true = .ok flattened) {rules : List Rule}
    (hrules : flattened.Contributes rules) : SettingsAgree rules := by
  have hlevels := (flatten_isOk_iff (schemaFault?_of_flatten h) true).1 ⟨flattened, h⟩
  have hagree : ∀ entry ∈ definition.levels, SettingsAgree (entry.2.ownRules target) :=
    fun entry hentry => (Level.flatten_isOk_iff.1 (hlevels entry hentry)).2 rfl
  exact of_contributes h hagree hrules

/-- **What the check protects in the text.** Of a definition that is accepted when conflicts are
rejected, the rules outside of conditions, and likewise those at each path, agree as they are
written exactly if those custom properties in them agree with the others that are authored with a
hyphen before a capital. -/
theorem Definition.writtenAgree_iff {target : Target} {definition : Definition}
    {flattened : Flattened} (h : definition.flatten target true = .ok flattened) {rules : List Rule}
    (hrules : flattened.Contributes rules) : WrittenAgree rules ↔ DisguisedAgree rules := by
  exact (settingsAgree_of_flatten h hrules).writtenAgree_iff_disguisedAgree

/-- An accepted definition that is written with two values for `--foo`. -/
theorem Definition.not_writtenAgree_of_flatten :
    ∃ (definition : Definition) (flattened : Flattened),
      definition.flatten (.scoped ⟨"a"⟩) true = .ok flattened ∧
      flattened.Contributes flattened.rules ∧ ¬ WrittenAgree flattened.rules := by
  let first : Declaration := ⟨.property, "-Foo", .text "1"⟩
  let second : Declaration := ⟨.property, "--foo", .text "2"⟩
  let definition : Definition :=
    { level := { base := { properties :=
        [("-Foo", .single (.text "1")), ("--foo", .single (.text "2"))] } } }
  have h : definition.flatten (.scoped ⟨"a"⟩) true = .ok ⟨[⟨".a", [first, second]⟩], []⟩ := by rfl
  refine ⟨definition, _, h, Or.inl rfl, ?_⟩
  rw [Definition.writtenAgree_iff h (Or.inl rfl)]
  intro hagree
  have hvalue := hagree _ List.mem_cons_self _ List.mem_cons_self rfl first List.mem_cons_self
    second (List.mem_cons_of_mem _ List.mem_cons_self) ⟨rfl, 'F', "oo".toList, by decide, by decide⟩
    (by decide)
  exact absurd hvalue (by decide)

end ScopedCss
