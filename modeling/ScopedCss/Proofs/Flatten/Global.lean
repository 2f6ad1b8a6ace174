import ScopedCss.Proofs.Flatten.Written

/-! # Global styles

A global style is anchored to a raw selector and has no keys that need a scope. Flattening looks for
such keys at all depths before it looks at anything else, so a definition with one is rejected for
the first of them in preorder (`Target.schemaFault?_global_eq_some_iff`), whatever else is wrong
with it. What is left are definitions whose levels hold nothing but the block of the element
(`Level.Unscoped`). For these a target is as good as its selector, and a global style is flattened
like a scoped one (`Level.flatten_congr`).
-/

set_option autoImplicit false

namespace ScopedCss

/-! ## Keys that need a scope -/

/-- No pseudo and no selector stands in a level. -/
structure Level.Unscoped (level : Level) : Prop where
  pseudos : level.pseudos = []
  selectors : level.selectors = []

/-- The first key of a level that needs a scope: its first pseudo, or its first selector if it has
no pseudo. -/
inductive Level.FirstScopedKey (level : Level) : String → Prop
  | pseudo {key : String} {block : Block} {rest : Entries Block}
      (h : level.pseudos = (key, block) :: rest) : FirstScopedKey level key
  | selector {key : String} {block : Block} {rest : Entries Block} (hpseudos : level.pseudos = [])
      (h : level.selectors = (key, block) :: rest) : FirstScopedKey level key

/-- No pseudo and no selector stands in a definition, at any depth. -/
def Definition.Unscoped (definition : Definition) : Prop :=
  ∀ address path inner, definition.at? address = some (path, inner) → inner.level.Unscoped

/-- The first key in preorder that needs a scope. -/
def Definition.FirstScopedKey (definition : Definition) (key : String) : Prop :=
  ∃ address path inner, definition.at? address = some (path, inner) ∧
    (∀ earlier, Address.Before earlier address →
      ∀ path outer, definition.at? earlier = some (path, outer) → outer.level.Unscoped) ∧
    inner.level.FirstScopedKey key

namespace Level

theorem head?_scopedKeys_eq_none_iff {level : Level} :
    level.scopedKeys.head? = none ↔ level.Unscoped := by
  have hkeys : level.scopedKeys = [] ↔ level.pseudos = [] ∧ level.selectors = [] := by
    simp [scopedKeys, Entries.keys]
  rw [List.head?_eq_none_iff, hkeys]
  constructor
  · intro h
    exact ⟨h.1, h.2⟩
  · intro h
    exact ⟨h.pseudos, h.selectors⟩

theorem head?_scopedKeys_eq_some_iff {level : Level} {key : String} :
    level.scopedKeys.head? = some key ↔ level.FirstScopedKey key := by
  constructor
  · intro h
    cases hpseudos : level.pseudos with
    | cons entry rest =>
        have hkey : level.scopedKeys.head? = some entry.1 := by
          rw [scopedKeys, hpseudos]
          rfl
        obtain rfl := Option.some.inj (hkey.symm.trans h)
        exact .pseudo hpseudos
    | nil =>
        cases hselectors : level.selectors with
        | cons entry rest =>
            have hkey : level.scopedKeys.head? = some entry.1 := by
              rw [scopedKeys, hpseudos, hselectors]
              rfl
            obtain rfl := Option.some.inj (hkey.symm.trans h)
            exact .selector hpseudos hselectors
        | nil =>
            rw [head?_scopedKeys_eq_none_iff.2 ⟨hpseudos, hselectors⟩] at h
            exact absurd h (by simp)
  · intro h
    cases h with
    | pseudo h =>
        rw [scopedKeys, h]
        rfl
    | selector hpseudos h =>
        rw [scopedKeys, hpseudos, h]
        rfl

end Level

namespace Target

theorem schemaFault?_global_eq_none_iff {selector : String} {definition : Definition} :
    (Target.global selector).schemaFault? definition = none ↔ definition.Unscoped := by
  rw [schemaFault?, Option.map_eq_none_iff, List.findSome?_eq_none_iff]
  simp only [Level.head?_scopedKeys_eq_none_iff]
  exact Definition.forall_levels_iff

/-- A global style is rejected for the first key that needs a scope. -/
theorem schemaFault?_global_eq_some_iff {selector : String} {definition : Definition}
    {error : StyleError} :
    (Target.global selector).schemaFault? definition = some error ↔
      ∃ key, definition.FirstScopedKey key ∧ error = .unsupportedKey key (.globalStyle selector) := by
  -- the levels are listed in preorder, so the first of them with such a key is the one that is found
  have hfirst : ∀ key, (definition.levels.findSome? fun entry => entry.2.scopedKeys.head?) = some key
      ↔ definition.FirstScopedKey key := by
    intro key
    rw [List.findSome?_eq_some_iff]
    simp only [Level.head?_scopedKeys_eq_none_iff, Level.head?_scopedKeys_eq_some_iff]
    constructor
    · rintro ⟨before, entry, after, hsplit, hkey, hbefore⟩
      exact (Definition.exists_first_level_iff (q := fun level => level.FirstScopedKey key)).1
        ⟨before, entry, after, hsplit, hbefore, hkey⟩
    · intro h
      obtain ⟨before, entry, after, hsplit, hbefore, hkey⟩ :=
        (Definition.exists_first_level_iff (q := fun level => level.FirstScopedKey key)).2 h
      exact ⟨before, entry, after, hsplit, hkey, hbefore⟩
  rw [schemaFault?, Option.map_eq_some_iff]
  simp only [hfirst, eq_comm]

end Target

/-! ## Levels without such keys -/

namespace Level

variable {level : Level}

/-- All that is flattened is the block of the element. -/
theorem rules_of_unscoped (h : level.Unscoped) (target : Target) :
    level.rules target =
      (fun rule : Rule => [rule].filter fun rule => !rule.isEmpty) <$>
        level.base.rule target.selector := by
  have hblocks : level.blocks target = [(.ok target.selector, level.base)] := by
    rw [blocks, h.pseudos, h.selectors]
    rfl
  rw [rules, hblocks, List.mapM_cons, List.mapM_nil]
  show (level.base.rule target.selector >>= _) >>= _ = _
  cases level.base.rule target.selector with
  | error e => rfl
  | ok rule => rfl

/-- Only the selector of a target matters. -/
theorem flatten_congr (h : level.Unscoped) {target other : Target}
    (hselector : target.selector = other.selector) (reject : Bool) :
    level.flatten target reject = level.flatten other reject := by
  have hrules : level.rules target = level.rules other := by
    rw [rules_of_unscoped h, rules_of_unscoped h, hselector]
  rw [flatten, flatten, hrules]

theorem selector_of_mem_ownRules (h : level.Unscoped) {target : Target} {rule : Rule}
    (hrule : rule ∈ level.ownRules target) : rule.selector = target.selector := by
  rw [ownRules, allRules, h.pseudos, h.selectors] at hrule
  have hmem := (List.mem_filter.1 hrule).1
  obtain rfl := List.mem_singleton.1 hmem
  rfl

/-- A level without keys that need a scope is rejected for a number or for a conflict. -/
theorem flatten_eq_error_of_unscoped (h : level.Unscoped) {target : Target} {reject : Bool}
    {error : StyleError} (herror : level.flatten target reject = .error error) :
    (∃ name number, level.base.FirstNotFinite name number ∧
      error = .notFinite target.selector name number) ∨
    ∃ name selector first second, error = .duplicateVariable name selector first second := by
  rcases Level.flatten_eq_error_iff.1 herror with hrules | ⟨-, -, first, second, -, rfl⟩
  · rw [rules_of_unscoped h, map_eq_error_iff] at hrules
    exact Or.inl (Block.rule_eq_error_iff.1 hrules)
  · exact Or.inr ⟨_, _, _, _, rfl⟩

end Level

/-! ## Definitions -/

namespace Definition

variable {definition : Definition}

theorem flatten_of_firstScopedKey {key : String} (h : definition.FirstScopedKey key)
    (selector : String) (reject : Bool) :
    definition.flatten (.global selector) reject =
      .error (.unsupportedKey key (.globalStyle selector)) := by
  rw [flatten, Target.schemaFault?_global_eq_some_iff.2 ⟨key, h, rfl⟩]

theorem exists_firstScopedKey (h : ¬ definition.Unscoped) :
    ∃ key, definition.FirstScopedKey key := by
  have hschema : (Target.global "").schemaFault? definition ≠ none := fun hnone =>
    h (Target.schemaFault?_global_eq_none_iff.1 hnone)
  obtain ⟨error, herror⟩ := Option.ne_none_iff_exists'.1 hschema
  obtain ⟨key, hkey, -⟩ := Target.schemaFault?_global_eq_some_iff.1 herror
  exact ⟨key, hkey⟩

/-- Without keys that need a scope every target has the right schema. -/
theorem Unscoped.schemaFault? (h : definition.Unscoped) (target : Target) :
    target.schemaFault? definition = none := by
  obtain scope | selector := target
  · rfl
  · exact Target.schemaFault?_global_eq_none_iff.2 h

theorem Unscoped.flatten_congr (h : definition.Unscoped) {target other : Target}
    (hselector : target.selector = other.selector) (reject : Bool) :
    definition.flatten target reject = definition.flatten other reject := by
  have hlevels := forall_levels_iff.2 h
  have hflattenAt : definition.levels.mapM (flattenAt target reject) =
      definition.levels.mapM (flattenAt other reject) := by
    refine mapM_congr fun entry hentry => ?_
    rw [flattenAt, flattenAt, Level.flatten_congr (hlevels entry hentry) hselector]
  rw [flatten_eq_mapM (h.schemaFault? target), flatten_eq_mapM (h.schemaFault? other), hflattenAt]

/-- A global style without keys that need a scope is rejected for a number or for a conflict. -/
theorem Unscoped.flatten_eq_error (h : definition.Unscoped) {target : Target} {reject : Bool}
    {error : StyleError} (herror : definition.flatten target reject = .error error) :
    (∃ selector name number, error = .notFinite selector name number) ∨
    ∃ name selector first second, error = .duplicateVariable name selector first second := by
  obtain ⟨before, entry, after, hsplit, -, hentry⟩ :=
    (flatten_eq_error_iff (h.schemaFault? target) reject error).1 herror
  have hlevel : entry.2.Unscoped := forall_levels_iff.2 h entry (by simp [hsplit])
  rcases Level.flatten_eq_error_of_unscoped hlevel hentry with ⟨name, number, -, rfl⟩ | hconflict
  · exact Or.inl ⟨_, _, _, rfl⟩
  · exact Or.inr hconflict

/-- A global style is rejected for its first key that needs a scope, for a number or for a
conflict. -/
theorem flatten_global_eq_error {selector : String} {reject : Bool} {error : StyleError}
    (herror : definition.flatten (.global selector) reject = .error error) :
    (∃ key, definition.FirstScopedKey key ∧ error = .unsupportedKey key (.globalStyle selector)) ∨
    (∃ selector name number, error = .notFinite selector name number) ∨
    ∃ name selector first second, error = .duplicateVariable name selector first second := by
  by_cases h : definition.Unscoped
  · -- no level has a key that could be resolved
    exact Or.inr (h.flatten_eq_error herror)
  · obtain ⟨key, hkey⟩ := exists_firstScopedKey h
    rw [flatten_of_firstScopedKey hkey] at herror
    exact Or.inl ⟨key, hkey, (Except.error.inj herror).symm⟩

/-- **Global styles.** A definition without keys that need a scope is flattened for the selector of
a scope as it is for the scope, into the same rules or to the same error, and all its rules are for
that selector. As a global style any other definition is rejected for the first such key in
preorder, whatever else stands in it. So the selectors of a global style are never judged, neither
by what they target nor as keys that its levels do not have. -/
theorem flatten_global (definition : Definition) (reject : Bool) :
    (definition.Unscoped → ∀ scope : Scope,
      definition.flatten (.global scope.selector) reject =
          definition.flatten (.scoped scope) reject ∧
        ∀ flattened, definition.flatten (.scoped scope) reject = .ok flattened →
          ∀ rules, flattened.Contributes rules → ∀ rule ∈ rules, rule.selector = scope.selector) ∧
    ∀ selector : String,
      ((Target.global selector).schemaFault? definition = none ↔ definition.Unscoped) ∧
      (¬ definition.Unscoped → ∃ key, definition.FirstScopedKey key ∧
        definition.flatten (.global selector) reject =
          .error (.unsupportedKey key (.globalStyle selector))) ∧
      (∀ key place, definition.flatten (.global selector) reject =
          .error (.unsupportedKey key place) →
        definition.FirstScopedKey key ∧ place = .globalStyle selector) ∧
      ∀ key fault, definition.flatten (.global selector) reject ≠
        .error (.selectorTarget key fault) := by
  refine ⟨fun h scope => ⟨?_, ?_⟩,
    fun selector => ⟨Target.schemaFault?_global_eq_none_iff, ?_, ?_, ?_⟩⟩
  · have hselector : (Target.global scope.selector).selector = (Target.scoped scope).selector := rfl
    exact h.flatten_congr hselector reject
  · intro flattened hflattened rules hrules
    have hown : ∀ entry ∈ definition.levels, ∀ rule ∈ entry.2.ownRules (.scoped scope),
        rule.selector = scope.selector := fun entry hentry _ hrule =>
      Level.selector_of_mem_ownRules (forall_levels_iff.2 h entry hentry) hrule
    exact of_contributes (P := fun rules => ∀ rule ∈ rules, rule.selector = scope.selector)
      hflattened hown hrules
  · intro h
    obtain ⟨key, hkey⟩ := exists_firstScopedKey h
    exact ⟨key, hkey, flatten_of_firstScopedKey hkey selector reject⟩
  · intro key place herror
    rcases flatten_global_eq_error herror with ⟨first, hfirst, herror⟩ | hother
    · obtain ⟨rfl, rfl⟩ := StyleError.unsupportedKey.inj herror
      exact ⟨hfirst, rfl⟩
    · simp at hother
  · intro key fault herror
    have hother := flatten_global_eq_error herror
    simp at hother

end Definition

end ScopedCss
