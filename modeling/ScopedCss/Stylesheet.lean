import ScopedCss.Css
import ScopedCss.Flatten

/-! # Style sheets

A style sheet gathers the definitions, animations and font faces of one compilation. A definition
is added as a whole or, if it is rejected, not at all.
-/

set_option autoImplicit false

namespace ScopedCss

/-- What has been compiled so far. -/
structure Stylesheet where
  config : Config := {}
  rules : List Rule := []
  conditions : Condition.Forest := []
  keyframes : List Keyframes := []
  fontFaces : List FontFace := []
  deriving Repr

/-- One addition to a style sheet. -/
inductive Addition where
  | style (target : Target) (definition : Definition)
  | keyframes (keyframes : Keyframes)
  | fontFace (fontFace : FontFace)
  deriving Repr

namespace Stylesheet

def new (config : Config) : Stylesheet := { config }

/-- Adds the rules of a flattened definition: the unconditional ones at the end, the others at
their conditions. -/
def append (sheet : Stylesheet) (flattened : Flattened) : Stylesheet :=
  { sheet with
    rules := sheet.rules ++ flattened.rules
    conditions := sheet.conditions.registerAll flattened.conditional }

/-- Adds a definition, and gives the unconditional rules that it contributes. -/
def addStyle (sheet : Stylesheet) (target : Target) (definition : Definition) :
    Except StyleError (Stylesheet × List Rule) := do
  let flattened ← definition.flatten target sheet.config.rejectConflicts
  return (sheet.append flattened, flattened.rules)

def addKeyframes (sheet : Stylesheet) (keyframes : Keyframes) : Stylesheet :=
  { sheet with keyframes := sheet.keyframes ++ [keyframes] }

def addFontFace (sheet : Stylesheet) (fontFace : FontFace) : Stylesheet :=
  { sheet with fontFaces := sheet.fontFaces ++ [fontFace] }

/-- The style sheet after an addition; a definition that is rejected changes nothing. -/
def add (sheet : Stylesheet) : Addition → Stylesheet
  | .style target definition =>
      match sheet.addStyle target definition with
      | .ok (extended, _) => extended
      | .error _ => sheet
  | .keyframes keyframes => sheet.addKeyframes keyframes
  | .fontFace fontFace => sheet.addFontFace fontFace

def addAll (sheet : Stylesheet) (additions : List Addition) : Stylesheet :=
  additions.foldl add sheet

/-- The blocks of rules and of the conditions after them. -/
def ruleBlocks (rules : List Rule) (conditions : Condition.Forest) : List Css.Block :=
  rules.filterMap Rule.toCss? ++ Condition.Forest.toCss conditions

def blocks (sheet : Stylesheet) : List Css.Block :=
  sheet.fontFaces.map FontFace.toCss ++ sheet.keyframes.map Keyframes.toCss
    ++ ruleBlocks sheet.rules sheet.conditions

def emit (sheet : Stylesheet) : String := Css.render sheet.config sheet.blocks

end Stylesheet

/-- The text of rules and conditions alone. -/
def emitRules (config : Config) (rules : List Rule) (conditions : Condition.Forest) : String :=
  Css.render config (Stylesheet.ruleBlocks rules conditions)

/-- The style sheet with definitions for scopes added in order, or the error of the first of them
that is rejected. -/
def Stylesheet.addScoped (sheet : Stylesheet) :
    List (Scope × Definition) → Except StyleError Stylesheet
  | [] => .ok sheet
  | (scope, definition) :: rest => do
      let (extended, _) ← sheet.addStyle (.scoped scope) definition
      extended.addScoped rest

/-- The text of definitions for scopes, by the default configuration. -/
def compile (definitions : List (Scope × Definition)) : Except StyleError String := do
  return (← (Stylesheet.new {}).addScoped definitions).emit

end ScopedCss
