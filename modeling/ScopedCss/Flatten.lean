import ScopedCss.Definition.Basic
import ScopedCss.Error
import ScopedCss.Property

/-! # Flattening definitions

A definition is flattened into rules: each of its levels into the rules for its element, its
pseudo-classes and pseudo-elements and its selectors, in this order. The rules of the outermost
level are unconditional, those of every other level stand under its path of conditions.

A definition is rejected as a whole, for the first fault of its first faulty level: a number that
is not finite, a selector that does not target the element, and last a conflict between custom
properties.
-/

set_option autoImplicit false

namespace ScopedCss

/-! ## Conflicts between custom properties

A custom property may be set in several blocks of a level that come to the same selector. That is
harmless while the values agree, as they would be written; otherwise only the last of them would
have an effect, and `conflict?` finds the first setting that disagrees with an earlier one.
-/

/-- A custom property set to a value for a selector. -/
structure Setting where
  selector : String
  name : String
  value : String
  deriving DecidableEq, Repr

/-- The name of the custom property that a declaration sets. -/
def Declaration.customName? (d : Declaration) : Option String :=
  match d.kind with
  | .custom => some (Property.variableName d.name)
  | .property => if Property.isCustom d.name then some d.name else none

/-- The settings of custom properties in a rule, in order. -/
def Rule.settings (rule : Rule) : List Setting :=
  rule.declarations.filterMap fun d =>
    d.customName?.map fun name => ⟨rule.selector, name, d.value.display⟩

/-- Two settings of one property for one selector. -/
def Setting.sameVariable (a b : Setting) : Bool := a.selector == b.selector && a.name == b.name

/-- The first setting whose value differs from the first value of its property for its selector,
with the setting of that first value before it. -/
def conflict? (settings : List Setting) : Option (Setting × Setting) :=
  settings.findSome? fun setting =>
    (settings.find? setting.sameVariable).bind fun first =>
      if first.value = setting.value then none else some (first, setting)

/-! ## Targets -/

/-- Checks that a selector targets the element of a scope. -/
def Scope.check (scope : Scope) (selector : String) : Except StyleError Unit :=
  match Selector.targetFault? scope selector with
  | some fault => .error (.selectorTarget selector fault)
  | none => .ok ()

/-- What a definition styles. -/
inductive Target where
  | scoped (scope : Scope)
  | global (selector : String)
  deriving DecidableEq, Repr

namespace Target

def selector : Target → String
  | .scoped scope => scope.selector
  | .global selector => selector

/-- The selector that a key among the selectors of a definition stands for. -/
def resolve (target : Target) (key : String) : Except StyleError String :=
  match target with
  | .global _ => .error (.unsupportedKey key .globalSelectors)
  | .scoped scope => do
      scope.check key
      return Selector.resolve scope key

end Target

/-! ## Blocks -/

/-- The declarations of a block: the custom properties, then the properties, each value of which
has a declaration of its own. -/
def Block.declarations (block : Block) : List Declaration :=
  block.custom.map (fun entry => ⟨.custom, entry.1, .text entry.2⟩)
    ++ block.properties.flatMap fun entry => entry.2.values.map fun v => ⟨.property, entry.1, v⟩

/-- The error of a declaration for a selector whose number is not finite. -/
def Declaration.fault? (selector : String) (d : Declaration) : Option StyleError :=
  match d.value with
  | .text _ => none
  | .number value => if value.isFinite then none else some (.notFinite selector d.name value)

def Block.rule (block : Block) (selector : String) : Except StyleError Rule :=
  match block.declarations.findSome? (Declaration.fault? selector) with
  | some error => .error error
  | none => .ok ⟨selector, block.declarations⟩

/-! ## Levels -/

/-- The blocks of a level in order, each with the selector that it styles or the reason why it
styles none. -/
def Level.blocks (target : Target) (level : Level) : List (Except StyleError String × Block) :=
  (.ok target.selector, level.base)
    :: level.pseudos.map (fun entry => (.ok (target.selector ++ entry.1), entry.2))
    ++ level.selectors.map fun entry => (target.resolve entry.1, entry.2)

/-- The rules of a level. A rule without declarations is dropped. -/
def Level.rules (target : Target) (level : Level) : Except StyleError (List Rule) := do
  let rules ← (level.blocks target).mapM fun entry => do entry.2.rule (← entry.1)
  return rules.filter fun rule => !rule.isEmpty

/-- The rules of a level, which must not conflict if `rejectConflicts` is set. -/
def Level.flatten (target : Target) (rejectConflicts : Bool) (level : Level) :
    Except StyleError (List Rule) := do
  let rules ← level.rules target
  match if rejectConflicts then conflict? (rules.flatMap Rule.settings) else none with
  | some (first, second) =>
      .error (.duplicateVariable second.name second.selector first.value second.value)
  | none => .ok rules

/-! ## Definitions -/

/-- The keys of a level that need a scope, in order. -/
def Level.scopedKeys (level : Level) : List String := level.pseudos.keys ++ level.selectors.keys

/-- A global style has no keys that need a scope, at any depth. -/
def Target.schemaFault? (target : Target) (definition : Definition) : Option StyleError :=
  match target with
  | .scoped _ => none
  | .global selector =>
      (definition.levels.findSome? fun entry => entry.2.scopedKeys.head?).map fun key =>
        .unsupportedKey key (.globalStyle selector)

/-- The rules of one definition. -/
structure Flattened where
  rules : List Rule
  /-- The rules of the levels below conditions, outer levels first; a level without rules is
  listed too. -/
  conditional : List (List Condition × List Rule)
  deriving DecidableEq, Repr

/-- The rules of a definition for a target. -/
def Definition.flatten (target : Target) (rejectConflicts : Bool) (definition : Definition) :
    Except StyleError Flattened :=
  match target.schemaFault? definition with
  | some error => .error error
  | none => do
      let rules ← definition.level.flatten target rejectConflicts
      let conditional ← definition.nested.mapM fun entry => do
        return (entry.1, ← entry.2.flatten target rejectConflicts)
      return ⟨rules, conditional⟩

end ScopedCss
