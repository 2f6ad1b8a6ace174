import ScopedCss.Proofs.Definition.Preorder
import ScopedCss.Proofs.Flatten.Conflict
import ScopedCss.Proofs.Flatten.Levels

/-! # Which definitions are accepted for a scope

A definition is accepted for a scope if each of its levels is: if all numbers are finite, all
selectors target the element and, where conflicts are rejected, the custom properties of the level
agree (`Level.Acceptable`). `Level.FailsWith` says for which error a level is rejected that is not
acceptable. Both speak of what stands in the level, and `Definition.flatten_scoped_iff` says that
flattening decides by them, level by level in preorder.
-/

set_option autoImplicit false

namespace ScopedCss

/-! ## Numbers of a block -/

/-- All numbers that the properties of a block are set to are finite. -/
def Block.Finite (block : Block) : Prop :=
  ∀ entry ∈ block.properties, ∀ value ∈ entry.2.values, value.isFinite

/-- The values of the properties of a block in order, each with the name of its property. -/
def Block.values (block : Block) : List (String × Value) :=
  block.properties.flatMap fun entry => entry.2.values.map fun value => (entry.1, value)

/-- The first number of a block that is not finite stands under this name. -/
def Block.FirstNotFinite (block : Block) (name : String) (number : Number) : Prop :=
  ∃ before after, block.values = before ++ (name, .number number) :: after ∧
    (∀ earlier ∈ before, earlier.2.isFinite) ∧ number.isFinite = false

theorem Block.finite_iff {block : Block} :
    block.Finite ↔ ∀ entry ∈ block.values, entry.2.isFinite := by
  constructor
  · intro h entry hentry
    obtain ⟨property, hproperty, hentry⟩ := List.mem_flatMap.1 hentry
    obtain ⟨value, hvalue, rfl⟩ := List.mem_map.1 hentry
    exact h property hproperty value hvalue
  · intro h property hproperty value hvalue
    exact h (property.1, value)
      (List.mem_flatMap.2 ⟨property, hproperty, List.mem_map_of_mem hvalue⟩)

/-- The declaration of one value of a property. -/
def Declaration.ofValue (entry : String × Value) : Declaration := ⟨.property, entry.1, entry.2⟩

theorem Declaration.fault?_ofValue_eq_none_iff {selector : String} {entry : String × Value} :
    fault? selector (ofValue entry) = none ↔ entry.2.isFinite := by
  obtain ⟨name, content | number⟩ := entry
  · simp [ofValue, fault?, Value.isFinite]
  · cases hfinite : number.isFinite <;> simp [ofValue, fault?, Value.isFinite, hfinite]

theorem Declaration.fault?_ofValue_eq_some_iff {selector : String} {entry : String × Value}
    {error : StyleError} :
    fault? selector (ofValue entry) = some error ↔
      ∃ number, entry.2 = .number number ∧ number.isFinite = false ∧
        error = .notFinite selector entry.1 number := by
  obtain ⟨name, content | found⟩ := entry
  · simp [ofValue, fault?]
  · have hfault : fault? selector (ofValue (name, .number found)) =
        if found.isFinite then none else some (.notFinite selector name found) := rfl
    rw [hfault]
    cases hfinite : found.isFinite with
    | true => simp [hfinite]
    | false =>
        rw [if_neg Bool.false_ne_true, Option.some.injEq]
        constructor
        · rintro rfl
          exact ⟨found, rfl, hfinite, rfl⟩
        · rintro ⟨number, hnumber, -, rfl⟩
          rw [Value.number.inj hnumber]

/-- Only values of properties have faults: custom properties are set to texts. -/
theorem Block.findSome?_fault? (block : Block) (selector : String) :
    block.declarations.findSome? (Declaration.fault? selector) =
      block.values.findSome? fun entry => Declaration.fault? selector (.ofValue entry) := by
  have hcustom : ∀ d ∈ block.custom.map fun entry =>
      (⟨.custom, entry.1, .text entry.2⟩ : Declaration), d.fault? selector = none := by
    intro d hd
    obtain ⟨entry, -, rfl⟩ := List.mem_map.1 hd
    rfl
  have hproperties : block.declarations =
      block.custom.map (fun entry => ⟨.custom, entry.1, .text entry.2⟩)
        ++ block.values.map Declaration.ofValue := by
    rw [Block.declarations, Block.values, List.map_flatMap]
    simp [Declaration.ofValue, Function.comp_def]
  rw [hproperties, List.findSome?_append, List.findSome?_eq_none_iff.2 hcustom, Option.none_or,
    List.findSome?_map]
  rfl

theorem Block.rule_eq (block : Block) (selector : String) :
    block.rule selector =
      match block.values.findSome? fun entry => Declaration.fault? selector (.ofValue entry) with
      | some error => .error error
      | none => .ok ⟨selector, block.declarations⟩ := by
  have hfault := block.findSome?_fault? selector
  cases hvalues : block.values.findSome? fun entry =>
      Declaration.fault? selector (.ofValue entry) with
  | some error => rw [Block.rule, hfault, hvalues]
  | none => rw [Block.rule, hfault, hvalues]

theorem Block.rule_isOk_iff {block : Block} {selector : String} :
    (∃ rule, block.rule selector = .ok rule) ↔ block.Finite := by
  have hfinite : block.Finite ↔ block.values.findSome? (fun entry =>
      Declaration.fault? selector (.ofValue entry)) = none := by
    rw [Block.finite_iff, List.findSome?_eq_none_iff]
    simp only [Declaration.fault?_ofValue_eq_none_iff]
  rw [hfinite, Block.rule_eq]
  split
  · next error hsome => simp [hsome]
  · next hnone => simp [hnone]

theorem Block.rule_eq_error_iff {block : Block} {selector : String} {error : StyleError} :
    block.rule selector = .error error ↔ ∃ name number,
      block.FirstNotFinite name number ∧ error = .notFinite selector name number := by
  have hfault : block.rule selector = .error error ↔ block.values.findSome? (fun entry =>
      Declaration.fault? selector (.ofValue entry)) = some error := by
    rw [Block.rule_eq]
    split
    · next hsome => rw [hsome, Except.error.injEq, Option.some.injEq]
    · next hnone => simp [hnone]
  rw [hfault, List.findSome?_eq_some_iff]
  simp only [Declaration.fault?_ofValue_eq_none_iff, Declaration.fault?_ofValue_eq_some_iff]
  constructor
  · rintro ⟨before, ⟨name, value⟩, after, hsplit, ⟨number, rfl, hnumber, rfl⟩, hbefore⟩
    exact ⟨name, number, ⟨before, after, hsplit, hbefore, hnumber⟩, rfl⟩
  · rintro ⟨name, number, ⟨before, after, hsplit, hbefore, hnumber⟩, rfl⟩
    exact ⟨before, (name, .number number), after, hsplit, ⟨number, rfl, hnumber, rfl⟩, hbefore⟩

/-! ## Sections of a level -/

/-- A block of a level with the selector that it styles. A block that stands under a selector of its
own is styled only if that selector targets the element. -/
structure Section where
  key? : Option String := none
  selector : String
  block : Block

/-- The sections of a level in order: the element itself, its pseudo-classes and pseudo-elements,
and the selectors. -/
def Level.sections (scope : Scope) (level : Level) : List Section :=
  { selector := scope.selector, block := level.base }
    :: level.pseudos.map (fun entry =>
        { selector := scope.selector ++ entry.1, block := entry.2 })
    ++ level.selectors.map fun entry =>
        { key? := some entry.1, selector := Selector.resolve scope entry.1, block := entry.2 }

namespace Section

/-- The key of a section targets the element. -/
def Targets (scope : Scope) (s : Section) : Prop :=
  ∀ key, s.key? = some key → scope.check key = .ok ()

def Passes (scope : Scope) (s : Section) : Prop := s.Targets scope ∧ s.block.Finite

/-- A section fails for its key before it fails for its first number that is not finite. -/
inductive FailsWith (scope : Scope) (s : Section) : StyleError → Prop
  | key {key : String} {error : StyleError} (hkey : s.key? = some key)
      (hcheck : scope.check key = .error error) : FailsWith scope s error
  | number {name : String} {number : Number} (targets : s.Targets scope)
      (hnumber : s.block.FirstNotFinite name number) :
      FailsWith scope s (.notFinite s.selector name number)

/-- The selector that a section styles, after its key has been checked. -/
def resolve (scope : Scope) (s : Section) : Except StyleError String :=
  match s.key? with
  | none => .ok s.selector
  | some key => do
      scope.check key
      return s.selector

/-- The rule that a section makes. -/
def rule (scope : Scope) (s : Section) : Except StyleError Rule := do
  s.block.rule (← s.resolve scope)

variable {scope : Scope} {s : Section}

theorem resolve_eq_ok_iff {selector : String} :
    s.resolve scope = .ok selector ↔ s.Targets scope ∧ s.selector = selector := by
  cases hkey : s.key? with
  | none => simp [resolve, Targets, hkey]
  | some key =>
      cases hcheck : scope.check key <;>
        simp [resolve, Targets, hkey, hcheck, bind, Except.bind, pure, Except.pure]

theorem resolve_eq_error_iff {error : StyleError} :
    s.resolve scope = .error error ↔
      ∃ key, s.key? = some key ∧ scope.check key = .error error := by
  cases hkey : s.key? with
  | none => simp [resolve, hkey]
  | some key =>
      cases hcheck : scope.check key <;>
        simp [resolve, hkey, hcheck, bind, Except.bind, pure, Except.pure]

theorem rule_isOk_iff : (∃ rule, s.rule scope = .ok rule) ↔ s.Passes scope := by
  unfold rule Passes
  constructor
  · rintro ⟨made, h⟩
    obtain ⟨selector, hselector, hrule⟩ := bind_eq_ok h
    exact ⟨(resolve_eq_ok_iff.1 hselector).1, Block.rule_isOk_iff.1 ⟨made, hrule⟩⟩
  · rintro ⟨htargets, hfinite⟩
    rw [resolve_eq_ok_iff.2 ⟨htargets, rfl⟩]
    exact Block.rule_isOk_iff.2 hfinite

theorem rule_eq_error_iff {error : StyleError} :
    s.rule scope = .error error ↔ s.FailsWith scope error := by
  unfold rule
  constructor
  · intro h
    cases hselector : s.resolve scope with
    | error found =>
        rw [hselector] at h
        obtain rfl : found = error := Except.error.inj h
        obtain ⟨key, hkey, hcheck⟩ := resolve_eq_error_iff.1 hselector
        exact .key hkey hcheck
    | ok selector =>
        rw [hselector] at h
        obtain ⟨htargets, rfl⟩ := resolve_eq_ok_iff.1 hselector
        obtain ⟨name, number, hnumber, rfl⟩ := Block.rule_eq_error_iff.1 h
        exact .number htargets hnumber
  · intro h
    cases h with
    | key hkey hcheck =>
        rw [resolve_eq_error_iff.2 ⟨_, hkey, hcheck⟩]
        rfl
    | number htargets hnumber =>
        rw [resolve_eq_ok_iff.2 ⟨htargets, rfl⟩]
        exact Block.rule_eq_error_iff.2 ⟨_, _, hnumber, rfl⟩

end Section

/-! ## Levels -/

/-- A level is acceptable for a scope. -/
structure Level.Acceptable (scope : Scope) (reject : Bool) (level : Level) : Prop where
  /-- All numbers are finite, in the block of the element and in those of all pseudo-classes,
  pseudo-elements and selectors. -/
  finite : ∀ block ∈ level.base :: level.pseudos.map Prod.snd ++ level.selectors.map Prod.snd,
    block.Finite
  /-- All selectors target the element. -/
  targets : ∀ key ∈ Entries.keys level.selectors, scope.check key = .ok ()
  /-- A custom property is set to one value for one selector, if conflicts are rejected. -/
  agree : reject = true → SettingsAgree (level.ownRules (.scoped scope))

/-- A level fails for its first section that does not pass, and for its first conflict only if all
sections pass. -/
inductive Level.FailsWith (scope : Scope) (reject : Bool) (level : Level) : StyleError → Prop
  | inSection {before after : List Section} {s : Section} {error : StyleError}
      (hsplit : level.sections scope = before ++ s :: after)
      (passed : ∀ earlier ∈ before, earlier.Passes scope) (fails : s.FailsWith scope error) :
      FailsWith scope reject level error
  | conflict {first second : Setting} (hreject : reject = true)
      (passed : ∀ s ∈ level.sections scope, s.Passes scope)
      (hconflict : FirstConflict ((level.ownRules (.scoped scope)).flatMap Rule.settings)
        first second) :
      FailsWith scope reject level
        (.duplicateVariable second.name second.selector first.value second.value)

namespace Level

variable {scope : Scope} {reject : Bool} {level : Level}

theorem forall_passes_iff :
    (∀ s ∈ level.sections scope, s.Passes scope) ↔
      (∀ block ∈ level.base :: level.pseudos.map Prod.snd ++ level.selectors.map Prod.snd,
        block.Finite) ∧
      ∀ key ∈ Entries.keys level.selectors, scope.check key = .ok () := by
  simp only [sections, Section.Passes, Section.Targets, Entries.keys, List.cons_append,
    List.forall_mem_cons, List.forall_mem_append, List.forall_mem_map, reduceCtorEq, false_implies,
    Option.some.injEq, forall_eq', forall_true_iff, true_and]
  constructor
  · rintro ⟨hbase, hpseudos, hselectors⟩
    exact ⟨⟨hbase, hpseudos, fun entry h => (hselectors entry h).2⟩,
      fun entry h => (hselectors entry h).1⟩
  · rintro ⟨⟨hbase, hpseudos, hfinite⟩, htargets⟩
    exact ⟨hbase, hpseudos, fun entry h => ⟨htargets entry h, hfinite entry h⟩⟩

/-- The blocks that are checked are the sections. -/
theorem mapM_blocks_eq (scope : Scope) (level : Level) :
    ((level.blocks (.scoped scope)).mapM fun entry => do entry.2.rule (← entry.1)) =
      (level.sections scope).mapM (Section.rule scope) := by
  have hblocks : level.blocks (.scoped scope) =
      (level.sections scope).map fun s => (s.resolve scope, s.block) := by
    simp only [blocks, sections, List.map_append, List.map_cons, List.map_map]
    rfl
  rw [hblocks, List.mapM_map]
  rfl

theorem rules_isOk_iff :
    (∃ rules, level.rules (.scoped scope) = .ok rules) ↔
      ∀ s ∈ level.sections scope, s.Passes scope := by
  rw [rules, bind_pure_isOk_iff, mapM_blocks_eq, mapM_isOk_iff]
  simp only [Section.rule_isOk_iff]

theorem rules_eq_error_iff {error : StyleError} :
    level.rules (.scoped scope) = .error error ↔
      ∃ before s after, level.sections scope = before ++ s :: after ∧
        (∀ earlier ∈ before, earlier.Passes scope) ∧ s.FailsWith scope error := by
  rw [rules, bind_pure_eq_error_iff, mapM_blocks_eq, mapM_eq_error_iff]
  simp only [Section.rule_isOk_iff, Section.rule_eq_error_iff]

end Level

/-- A level with its rules is accepted if conflicts are not looked for or not found. -/
theorem Level.flatten_of_rules {target : Target} {reject : Bool} {level : Level} {rules : List Rule}
    (h : level.rules target = .ok rules) :
    level.flatten target reject =
      match if reject then conflict? (rules.flatMap Rule.settings) else none with
      | some (first, second) =>
          .error (.duplicateVariable second.name second.selector first.value second.value)
      | none => .ok rules := by
  rw [Level.flatten, h]
  rfl

theorem Level.flatten_isOk_iff {target : Target} {reject : Bool} {level : Level} :
    (∃ rules, level.flatten target reject = .ok rules) ↔
      (∃ rules, level.rules target = .ok rules) ∧
        (reject = true → SettingsAgree (level.ownRules target)) := by
  rw [settingsAgree_iff, ← conflict?_eq_none_iff]
  cases hrules : level.rules target with
  | error e => simp [Level.flatten, hrules, bind, Except.bind]
  | ok rules =>
      obtain rfl := Level.rules_eq_ok hrules
      rw [Level.flatten_of_rules hrules]
      cases reject with
      | false => simp
      | true =>
          cases conflict? ((level.ownRules target).flatMap Rule.settings) <;> simp

theorem Level.flatten_eq_error_iff {target : Target} {reject : Bool} {level : Level}
    {error : StyleError} :
    level.flatten target reject = .error error ↔
      level.rules target = .error error ∨
        (∃ rules, level.rules target = .ok rules) ∧ reject = true ∧
          ∃ first second,
            FirstConflict ((level.ownRules target).flatMap Rule.settings) first second ∧
            error = .duplicateVariable second.name second.selector first.value second.value := by
  simp only [← conflict?_eq_some_iff]
  cases hrules : level.rules target with
  | error e => simp [Level.flatten, hrules, bind, Except.bind]
  | ok rules =>
      obtain rfl := Level.rules_eq_ok hrules
      rw [Level.flatten_of_rules hrules]
      cases reject with
      | false => simp
      | true =>
          cases conflict? ((level.ownRules target).flatMap Rule.settings) with
          | none => simp
          | some found =>
              obtain ⟨first, second⟩ := found
              simp [eq_comm]

/-- A level is accepted for a scope exactly if it is acceptable. -/
theorem Level.flatten_scoped_isOk_iff {scope : Scope} {reject : Bool} {level : Level} :
    (∃ rules, level.flatten (.scoped scope) reject = .ok rules) ↔
      level.Acceptable scope reject := by
  rw [Level.flatten_isOk_iff, Level.rules_isOk_iff, Level.forall_passes_iff]
  constructor
  · rintro ⟨⟨hfinite, htargets⟩, hagree⟩
    exact ⟨hfinite, htargets, hagree⟩
  · rintro ⟨hfinite, htargets, hagree⟩
    exact ⟨⟨hfinite, htargets⟩, hagree⟩

theorem Level.flatten_scoped_eq_error_iff {scope : Scope} {reject : Bool} {level : Level}
    {error : StyleError} :
    level.flatten (.scoped scope) reject = .error error ↔ level.FailsWith scope reject error := by
  rw [Level.flatten_eq_error_iff, Level.rules_eq_error_iff, Level.rules_isOk_iff]
  constructor
  · rintro (⟨before, s, after, hsplit, hpassed, hfails⟩ |
      ⟨hpassed, hreject, first, second, hconflict, rfl⟩)
    · exact .inSection hsplit hpassed hfails
    · exact .conflict hreject hpassed hconflict
  · intro h
    cases h with
    | inSection hsplit hpassed hfails => exact Or.inl ⟨_, _, _, hsplit, hpassed, hfails⟩
    | conflict hreject hpassed hconflict =>
        exact Or.inr ⟨hpassed, hreject, _, _, hconflict, rfl⟩

/-! ## Definitions -/

/-- The rules of a level with its path. -/
def flattenAt (target : Target) (reject : Bool) (entry : List Condition × Level) :
    Except StyleError (List Condition × List Rule) := do
  return (entry.1, ← entry.2.flatten target reject)

theorem flattenAt_isOk_iff {target : Target} {reject : Bool} {entry : List Condition × Level} :
    (∃ made, flattenAt target reject entry = .ok made) ↔
      ∃ rules, entry.2.flatten target reject = .ok rules :=
  bind_pure_isOk_iff

theorem flattenAt_eq_error_iff {target : Target} {reject : Bool} {entry : List Condition × Level}
    {error : StyleError} :
    flattenAt target reject entry = .error error ↔
      entry.2.flatten target reject = .error error :=
  bind_pure_eq_error_iff

namespace Definition

variable {target : Target} {definition : Definition}
  (hschema : target.schemaFault? definition = none)

include hschema

/-- A definition of the right schema is flattened level by level. -/
theorem flatten_eq_mapM (reject : Bool) :
    definition.flatten target reject =
      (fun all => ⟨(all.head?.map Prod.snd).getD [], all.tail⟩) <$>
        definition.levels.mapM (flattenAt target reject) := by
  have hnested : definition.flatten target reject = do
      let rules ← definition.level.flatten target reject
      let conditional ← definition.nested.mapM (flattenAt target reject)
      return ⟨rules, conditional⟩ := by
    rw [flatten, hschema]
    rfl
  rw [hnested, levels, List.mapM_cons, flattenAt]
  cases definition.level.flatten target reject with
  | error e => rfl
  | ok rules => cases definition.nested.mapM (flattenAt target reject) <;> rfl

theorem flatten_isOk_iff (reject : Bool) :
    (∃ flattened, definition.flatten target reject = .ok flattened) ↔
      ∀ entry ∈ definition.levels, ∃ rules, entry.2.flatten target reject = .ok rules := by
  rw [flatten_eq_mapM hschema, map_isOk_iff, mapM_isOk_iff]
  simp only [flattenAt_isOk_iff]

theorem flatten_eq_error_iff (reject : Bool) (error : StyleError) :
    definition.flatten target reject = .error error ↔
      ∃ before entry after, definition.levels = before ++ entry :: after ∧
        (∀ passed ∈ before, ∃ rules, passed.2.flatten target reject = .ok rules) ∧
        entry.2.flatten target reject = .error error := by
  rw [flatten_eq_mapM hschema, map_eq_error_iff, mapM_eq_error_iff]
  simp only [flattenAt_isOk_iff, flattenAt_eq_error_iff]

end Definition

/-- **Which definitions are accepted for a scope.** A definition is accepted exactly if the levels
of all definitions in it are acceptable. Otherwise it is rejected for the first of them in preorder
that is not, with the error of that level. What is accepted when conflicts are rejected is flattened
likewise when they are not. -/
theorem Definition.flatten_scoped_iff (scope : Scope) (reject : Bool) (definition : Definition) :
    ((∃ flattened, definition.flatten (.scoped scope) reject = .ok flattened) ↔
      ∀ address path inner, definition.at? address = some (path, inner) →
        inner.level.Acceptable scope reject) ∧
    (∀ error, definition.flatten (.scoped scope) reject = .error error ↔
      ∃ address path inner, definition.at? address = some (path, inner) ∧
        (∀ earlier, Address.Before earlier address →
          ∀ path outer, definition.at? earlier = some (path, outer) →
            outer.level.Acceptable scope reject) ∧
        inner.level.FailsWith scope reject error) ∧
    ∀ flattened, definition.flatten (.scoped scope) true = .ok flattened →
      definition.flatten (.scoped scope) false = .ok flattened := by
  have hschema : (Target.scoped scope).schemaFault? definition = none := rfl
  have haccepted : ∀ reject, (∃ flattened,
      definition.flatten (.scoped scope) reject = .ok flattened) ↔
        ∀ address path inner, definition.at? address = some (path, inner) →
          inner.level.Acceptable scope reject := by
    intro reject
    rw [flatten_isOk_iff hschema]
    simp only [Level.flatten_scoped_isOk_iff]
    exact forall_levels_iff
  refine ⟨haccepted reject, ?_, ?_⟩
  · intro error
    rw [flatten_eq_error_iff hschema]
    simp only [Level.flatten_scoped_isOk_iff, Level.flatten_scoped_eq_error_iff]
    exact exists_first_level_iff (q := fun level => level.FailsWith scope reject error)
  · intro flattened h
    -- without the flag the same levels are acceptable, and what is flattened does not depend on it
    have hrelaxed := (haccepted false).2 fun address path inner hinner =>
      have hlevel := (haccepted true).1 ⟨flattened, h⟩ address path inner hinner
      ⟨hlevel.finite, hlevel.targets, fun hfalse => absurd hfalse Bool.false_ne_true⟩
    obtain ⟨relaxed, hrelaxed⟩ := hrelaxed
    rw [hrelaxed, Definition.flatten_eq_ok h, Definition.flatten_eq_ok hrelaxed]

end ScopedCss
