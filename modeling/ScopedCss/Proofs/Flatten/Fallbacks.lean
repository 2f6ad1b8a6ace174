import Mathlib.Data.List.Nodup
import ScopedCss.Config.OfText
import ScopedCss.Proofs.Flatten.Acceptance
import ScopedCss.Proofs.Flatten.Preorder

/-! # Fallbacks

A property that is set to a list of fallbacks has one declaration for each of them, and the rule of
its block holds these one after the other (`Block.keepsFallbacks_declarations`). But the check for
conflicts looks at declarations and not at the entries that they come from: a list of fallbacks for a
custom property conflicts with itself unless all its values have the same text. Where no two entries
set one custom property there are no other conflicts (`Level.settingsAgree_iff_uniform`).

`Definition.flatten_fallbacks` puts the two together.
-/

set_option autoImplicit false

namespace ScopedCss

/-! ## Entries that set a custom property -/

/-- A custom property as one entry of a block sets it: for which selector, and to which values. -/
structure CustomEntry where
  selector : String
  name : String
  values : List Value

/-- The entries of a block that set a custom property: all custom ones, and the properties of the
name of a custom one. A list without values sets nothing. -/
def Block.customEntries (selector : String) (block : Block) : List CustomEntry :=
  block.custom.map (fun entry => ⟨selector, Property.variableName entry.1, [.text entry.2]⟩)
    ++ (block.properties.filter fun entry =>
        Property.isCustom entry.1 && !entry.2.values.isEmpty).map fun entry =>
      ⟨selector, entry.1, entry.2.values⟩

def Level.customEntries (target : Target) (level : Level) : List CustomEntry :=
  (level.styled target).flatMap fun entry => entry.2.customEntries entry.1

/-- No two entries of a level set one custom property for one selector. -/
def Level.SetsOnce (target : Target) (level : Level) : Prop :=
  ((level.customEntries target).map fun entry => (entry.selector, entry.name)).Nodup

/-- Whatever custom property an entry of a block sets, it sets it to one text. -/
def Block.Uniform (block : Block) : Prop :=
  ∀ entry ∈ block.properties, Property.isCustom entry.1 →
    ∀ v ∈ entry.2.values, ∀ w ∈ entry.2.values, v.display = w.display

/-- The blocks of a level. -/
def Level.allBlocks (level : Level) : List Block :=
  level.base :: level.pseudos.map Prod.snd ++ level.selectors.map Prod.snd

def Level.Uniform (level : Level) : Prop := ∀ block ∈ level.allBlocks, block.Uniform

namespace Block

variable {block : Block}

theorem mem_declarations_iff {d : Declaration} :
    d ∈ block.declarations ↔
      (∃ entry ∈ block.custom, d = ⟨.custom, entry.1, .text entry.2⟩) ∨
        ∃ entry ∈ block.properties, ∃ v ∈ entry.2.values, d = ⟨.property, entry.1, v⟩ := by
  simp only [declarations, List.mem_append, List.mem_map, List.mem_flatMap, eq_comm]

theorem mem_customEntries_iff {selector : String} {entry : CustomEntry} :
    entry ∈ block.customEntries selector ↔
      (∃ custom ∈ block.custom,
        entry = ⟨selector, Property.variableName custom.1, [.text custom.2]⟩) ∨
      ∃ property ∈ block.properties, Property.isCustom property.1 ∧ property.2.values ≠ [] ∧
        entry = ⟨selector, property.1, property.2.values⟩ := by
  simp only [customEntries, List.mem_append, List.mem_map, List.mem_filter, Bool.and_eq_true,
    Bool.not_eq_true', List.isEmpty_eq_false_iff, and_assoc, @eq_comm _ _ entry]

/-- A block sets a custom property to a value exactly if one of its entries does. -/
theorem exists_customEntry_iff {selector name : String} {value : Value} :
    (∃ entry ∈ block.customEntries selector, entry.name = name ∧ value ∈ entry.values) ↔
      ∃ d ∈ block.declarations, d.Sets name ∧ d.value = value := by
  constructor
  · rintro ⟨entry, hentry, rfl, hvalue⟩
    rcases mem_customEntries_iff.1 hentry with ⟨custom, hmem, rfl⟩ | ⟨property, hmem, hname, -, rfl⟩
    · obtain rfl := List.mem_singleton.1 hvalue
      exact ⟨_, mem_declarations_iff.2 (Or.inl ⟨custom, hmem, rfl⟩), .custom _ _, rfl⟩
    · exact ⟨_, mem_declarations_iff.2 (Or.inr ⟨property, hmem, value, hvalue, rfl⟩),
        .property hname _, rfl⟩
  · rintro ⟨d, hd, hsets, rfl⟩
    rcases mem_declarations_iff.1 hd with ⟨custom, hmem, rfl⟩ | ⟨property, hmem, v, hv, rfl⟩
    · cases hsets
      exact ⟨_, mem_customEntries_iff.2 (Or.inl ⟨custom, hmem, rfl⟩), rfl,
        List.mem_singleton_self _⟩
    · cases hsets with
      | property hname =>
          have hne : property.2.values ≠ [] := List.ne_nil_of_mem hv
          exact ⟨_, mem_customEntries_iff.2 (Or.inr ⟨property, hmem, hname, hne, rfl⟩), rfl, hv⟩

theorem selector_of_mem_customEntries {selector : String} {entry : CustomEntry}
    (h : entry ∈ block.customEntries selector) : entry.selector = selector := by
  rcases mem_customEntries_iff.1 h with ⟨_, -, rfl⟩ | ⟨_, -, -, -, rfl⟩
  · rfl
  · rfl

theorem uniform_iff (selector : String) :
    block.Uniform ↔ ∀ entry ∈ block.customEntries selector,
      ∀ v ∈ entry.values, ∀ w ∈ entry.values, v.display = w.display := by
  constructor
  · intro h entry hentry v hv w hw
    rcases mem_customEntries_iff.1 hentry with ⟨custom, -, rfl⟩ | ⟨property, hmem, hname, -, rfl⟩
    · rw [List.mem_singleton.1 hv, List.mem_singleton.1 hw]
    · exact h property hmem hname v hv w hw
  · intro h property hmem hname v hv w hw
    have hne : property.2.values ≠ [] := List.ne_nil_of_mem hv
    exact h _ (mem_customEntries_iff.2 (Or.inr ⟨property, hmem, hname, hne, rfl⟩)) v hv w hw

end Block

namespace Level

variable {target : Target} {level : Level}

/-- The rules of a level set a custom property to a value for a selector exactly if one of its
entries does. -/
theorem exists_customEntry_iff {selector name : String} {value : Value} :
    (∃ entry ∈ level.customEntries target,
        entry.selector = selector ∧ entry.name = name ∧ value ∈ entry.values) ↔
      ∃ rule ∈ level.ownRules target, rule.selector = selector ∧
        ∃ d ∈ rule.declarations, d.Sets name ∧ d.value = value := by
  constructor
  · rintro ⟨entry, hentry, rfl, hrest⟩
    obtain ⟨styled, hstyled, hentry⟩ := List.mem_flatMap.1 hentry
    obtain ⟨d, hd, hsets⟩ := Block.exists_customEntry_iff.1 ⟨entry, hentry, hrest⟩
    exact ⟨_, mem_ownRules_iff.2 ⟨styled, hstyled, List.ne_nil_of_mem hd, rfl⟩,
      (Block.selector_of_mem_customEntries hentry).symm, d, hd, hsets⟩
  · rintro ⟨rule, hrule, rfl, hrest⟩
    obtain ⟨styled, hstyled, -, rfl⟩ := mem_ownRules_iff.1 hrule
    obtain ⟨entry, hentry, hsets⟩ := Block.exists_customEntry_iff.2 hrest
    exact ⟨entry, List.mem_flatMap.2 ⟨styled, hstyled, hentry⟩,
      Block.selector_of_mem_customEntries hentry, hsets⟩

theorem allBlocks_eq (target : Target) (level : Level) :
    level.allBlocks = (level.styled target).map Prod.snd := by
  simp [allBlocks, styled, Function.comp_def]

theorem uniform_iff (target : Target) :
    level.Uniform ↔ ∀ entry ∈ level.customEntries target,
      ∀ v ∈ entry.values, ∀ w ∈ entry.values, v.display = w.display := by
  unfold Uniform customEntries
  rw [allBlocks_eq target, List.forall_mem_map, List.forall_mem_flatMap]
  exact forall₂_congr fun entry _ => Block.uniform_iff entry.1

/-- Where no two entries set one custom property, only an entry can be in conflict, with itself. -/
theorem settingsAgree_iff_uniform (honce : level.SetsOnce target) :
    SettingsAgree (level.ownRules target) ↔ level.Uniform := by
  rw [uniform_iff target]
  constructor
  · intro h entry hentry v hv w hw
    obtain ⟨r₁, hr₁, hselector₁, d₁, hd₁, hsets₁, rfl⟩ :=
      exists_customEntry_iff.1 ⟨entry, hentry, rfl, rfl, hv⟩
    obtain ⟨r₂, hr₂, hselector₂, d₂, hd₂, hsets₂, rfl⟩ :=
      exists_customEntry_iff.1 ⟨entry, hentry, rfl, rfl, hw⟩
    exact h r₁ hr₁ r₂ hr₂ (hselector₁.trans hselector₂.symm) d₁ hd₁ d₂ hd₂ _ hsets₁ hsets₂
  · intro h r₁ hr₁ r₂ hr₂ hselector d₁ hd₁ d₂ hd₂ name hsets₁ hsets₂
    obtain ⟨e₁, he₁, hselector₁, hname₁, hv₁⟩ :=
      exists_customEntry_iff.2 ⟨r₁, hr₁, rfl, d₁, hd₁, hsets₁, rfl⟩
    obtain ⟨e₂, he₂, hselector₂, hname₂, hv₂⟩ :=
      exists_customEntry_iff.2 ⟨r₂, hr₂, hselector.symm, d₂, hd₂, hsets₂, rfl⟩
    -- both declarations come from one entry
    have hpair : (e₁.selector, e₁.name) = (e₂.selector, e₂.name) := by
      rw [hselector₁, hselector₂, hname₁, hname₂]
    obtain rfl := List.inj_on_of_nodup_map honce he₁ he₂ hpair
    exact h e₁ he₁ _ hv₁ _ hv₂

end Level

/-! ## Declarations of fallbacks -/

/-- The values of each list of fallbacks have their declarations one after the other, in order, and
its property has no other declarations. -/
def Block.KeepsFallbacks (block : Block) (declarations : List Declaration) : Prop :=
  ∀ name values, (name, .fallbacks values) ∈ block.properties →
    ∃ before after,
      declarations = before ++ values.map (fun v => ⟨.property, name, v⟩) ++ after ∧
      ∀ d ∈ before ++ after, d.kind = .property → d.name ≠ name

/-- A level makes a rule of each of its blocks that has declarations, in order, and each rule keeps
the fallbacks of its block. -/
def Level.KeepsFallbacks (target : Target) (level : Level) (rules : List Rule) : Prop :=
  ∃ all : List Rule, rules = all.filter (fun rule => rule.declarations ≠ []) ∧
    List.Forall₂
      (fun entry rule => rule.selector = entry.1 ∧ entry.2.Declares rule.declarations ∧
        entry.2.KeepsFallbacks rule.declarations)
      (level.styled target) all

/-- The declarations of the properties of a block. -/
def Block.propertyDeclarations (properties : Entries PropertyValue) : List Declaration :=
  properties.flatMap fun entry => entry.2.values.map fun v => ⟨.property, entry.1, v⟩

theorem Block.name_ne_of_mem {properties : Entries PropertyValue} {name : String}
    (hname : name ∉ Entries.keys properties) {d : Declaration}
    (hd : d ∈ propertyDeclarations properties) : d.name ≠ name := by
  rintro rfl
  obtain ⟨entry, hentry, hd⟩ := List.mem_flatMap.1 hd
  obtain ⟨v, -, rfl⟩ := List.mem_map.1 hd
  exact hname (List.mem_map_of_mem hentry)

theorem Block.keepsFallbacks_declarations {block : Block} (hdistinct : block.Distinct) :
    block.KeepsFallbacks block.declarations := by
  intro name values hmem
  obtain ⟨before, after, hsplit⟩ := List.append_of_mem hmem
  -- the other entries have other names
  have hkeys := hdistinct.properties
  rw [Entries.Distinct, Entries.keys, hsplit, List.map_append, List.map_cons,
    List.nodup_middle, List.nodup_cons, List.mem_append, not_or] at hkeys
  obtain ⟨⟨hbefore, hafter⟩, -⟩ := hkeys
  refine ⟨block.custom.map (fun entry => ⟨.custom, entry.1, .text entry.2⟩)
    ++ propertyDeclarations before, propertyDeclarations after, ?_, ?_⟩
  · rw [declarations, hsplit, List.flatMap_append, List.flatMap_cons, List.append_assoc,
      List.append_assoc]
    rfl
  · intro d hd hkind
    rw [List.append_assoc, List.mem_append, List.mem_append] at hd
    rcases hd with hd | hd | hd
    · obtain ⟨entry, -, rfl⟩ := List.mem_map.1 hd
      exact absurd hkind (by simp)
    · exact name_ne_of_mem hbefore hd
    · exact name_ne_of_mem hafter hd

theorem Level.Distinct.of_mem_styled {level : Level} (h : level.Distinct) {target : Target}
    {entry : String × Block} (hentry : entry ∈ level.styled target) : entry.2.Distinct := by
  rw [Level.styled, List.mem_append, List.mem_cons, List.mem_map, List.mem_map] at hentry
  rcases hentry with (rfl | ⟨pseudo, hmem, rfl⟩) | ⟨selector, hmem, rfl⟩
  · exact h.base
  · exact h.pseudo_blocks pseudo hmem
  · exact h.selector_blocks selector hmem

theorem Level.keepsFallbacks_ownRules (target : Target) {level : Level} (h : level.Distinct) :
    level.KeepsFallbacks target (level.ownRules target) := by
  refine ⟨level.allRules target, level.ownRules_eq target, ?_⟩
  rw [Level.allRules_eq, List.forall₂_map_right_iff]
  exact List.forall₂_same.2 fun entry hentry => ⟨rfl, entry.2.declares_declarations,
    Block.keepsFallbacks_declarations (h.of_mem_styled hentry)⟩

/-! ## Definitions -/

/-- A level with nothing in it to reject, unless one of its entries is in conflict with itself. -/
structure Level.Regular (scope : Scope) (level : Level) : Prop where
  finite : ∀ block ∈ level.allBlocks, block.Finite
  targets : ∀ key ∈ Entries.keys level.selectors, scope.check key = .ok ()
  once : level.SetsOnce (.scoped scope)

theorem Level.Regular.acceptable_iff {scope : Scope} {level : Level} (h : level.Regular scope) :
    level.Acceptable scope true ↔ level.Uniform := by
  rw [← settingsAgree_iff_uniform h.once]
  constructor
  · intro hacceptable
    exact hacceptable.agree rfl
  · intro hagree
    exact ⟨h.finite, h.targets, fun _ => hagree⟩

/-- **Fallbacks come through whole, except that those of a custom property have to agree.** A
definition that has nothing to reject in it otherwise, and in which no two entries set one custom
property, is accepted with the default settings exactly if no entry sets a custom property to values
of different texts. Of what is accepted, the rule of each block, at any depth, has the declarations
of each list of fallbacks one after the other. -/
theorem Definition.flatten_fallbacks {scope : Scope} {definition : Definition}
    (hdistinct : definition.Distinct)
    (hregular : ∀ address path inner, definition.at? address = some (path, inner) →
      inner.level.Regular scope) :
    ((∃ flattened,
        definition.flatten (.scoped scope) ({} : Config).rejectConflicts = .ok flattened) ↔
      ∀ address path inner, definition.at? address = some (path, inner) → inner.level.Uniform) ∧
    ∀ flattened, definition.flatten (.scoped scope) ({} : Config).rejectConflicts = .ok flattened →
      ∀ address path inner, definition.at? address = some (path, inner) →
        ∃ rules, (path, rules) ∈ ([], flattened.rules) :: flattened.conditional ∧
          inner.level.KeepsFallbacks (.scoped scope) rules := by
  have hlevels := forall_levels_iff.2 hregular
  constructor
  · rw [flatten_isOk_iff rfl, ← forall_levels_iff]
    refine forall₂_congr fun entry hentry => ?_
    rw [Level.flatten_scoped_isOk_iff]
    exact (hlevels entry hentry).acceptable_iff
  · intro flattened h address path inner hinner
    obtain rfl := Definition.flatten_eq_ok h
    obtain ⟨hlevel, -, -⟩ := hdistinct.of_at? hinner
    refine ⟨inner.level.ownRules (.scoped scope), ?_, Level.keepsFallbacks_ownRules _ hlevel⟩
    exact List.mem_map_of_mem
      (f := fun entry : List Condition × Level => (entry.1, entry.2.ownRules (.scoped scope)))
      (mem_levels_of_at? hinner)

/-- Two fallbacks for `--x` have to be the same, those for `color` do not. -/
theorem Definition.flatten_fallbacks_of_custom :
    ∃ accepted rejected : Definition, accepted.Distinct ∧ rejected.Distinct ∧
      (∀ address path inner, accepted.at? address = some (path, inner) →
        inner.level.Regular ⟨"a"⟩) ∧
      (∀ address path inner, rejected.at? address = some (path, inner) →
        inner.level.Regular ⟨"a"⟩) ∧
      (∃ flattened, accepted.flatten (.scoped ⟨"a"⟩) true = .ok flattened) ∧
      ¬ ∃ flattened, rejected.flatten (.scoped ⟨"a"⟩) true = .ok flattened := by
  let focus : Block := { properties := [("color", .fallbacks [.text "red", .text "tan"])] }
  let definition (second : String) : Definition :=
    .ofLevel
      { base := { properties := [("--x", .fallbacks [.text "1", .text second])] }
        selectors := [(".b &", focus)] }
  have hlevels : ∀ second, (definition second).levels = [([], (definition second).level)] :=
    fun _ => rfl
  have hdistinct : ∀ second, (definition second).Distinct := by
    intro second
    have hsingle : ∀ entry, Block.Distinct { properties := [entry] } := fun _ =>
      ⟨List.nodup_nil, List.nodup_singleton _⟩
    refine ⟨⟨hsingle _, List.nodup_nil, List.nodup_singleton _, ?_, ?_⟩, ?_, ?_⟩
    · exact List.forall_mem_nil _
    · exact List.forall_mem_singleton.2 (hsingle _)
    · rintro (_ | _) <;> exact List.nodup_nil
    · rintro (_ | _) <;> exact List.forall_mem_nil _
  have hregular : ∀ second, ∀ address path inner,
      (definition second).at? address = some (path, inner) → inner.level.Regular ⟨"a"⟩ := by
    intro second
    rw [← Definition.forall_levels_iff (p := fun level => level.Regular ⟨"a"⟩), hlevels,
      List.forall_mem_singleton]
    refine ⟨?_, ?_, ?_⟩
    · simp [definition, focus, Definition.ofLevel, Level.allBlocks, Block.Finite,
        PropertyValue.values, Value.isFinite]
    · intro key hkey
      rw [List.mem_singleton.1 hkey]
      decide +kernel
    · have hcustom : Property.isCustom "--x" := by decide +kernel
      have hcolor : Property.isCustom "color" = false := by decide +kernel
      simp [definition, focus, Definition.ofLevel, Level.SetsOnce, Level.customEntries,
        Level.styled, Block.customEntries, PropertyValue.values, hcustom, hcolor]
  have huniform : ∀ second, (∀ address path inner,
      (definition second).at? address = some (path, inner) → inner.level.Uniform) ↔
        (definition second).level.Uniform := by
    intro second
    rw [← Definition.forall_levels_iff (p := fun level => level.Uniform), hlevels,
      List.forall_mem_singleton]
  have haccepted := fun second =>
    (Definition.flatten_fallbacks (hdistinct second) (hregular second)).1.trans (huniform second)
  refine ⟨definition "1", definition "2", hdistinct _, hdistinct _, hregular _, hregular _,
    (haccepted "1").2 ?_, fun h => absurd ((haccepted "2").1 h) ?_⟩
  · unfold Level.Uniform Block.Uniform
    decide +kernel
  · unfold Level.Uniform Block.Uniform
    decide +kernel

end ScopedCss
