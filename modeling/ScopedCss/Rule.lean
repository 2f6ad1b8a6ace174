import ScopedCss.Number.Basic

/-! # Rules

What a definition contributes: rules, each a selector with its declarations in order. Names and
values are kept as they were authored; `ScopedCss.Property` gives their CSS form.
-/

set_option autoImplicit false

namespace ScopedCss

/-! ## Values

A value of a style property is a text, which is written as it stands, or a number, which takes a
unit where its property has one. A property holds one value or a list of fallbacks.
-/

inductive Value where
  | text (content : String)
  | number (value : Number)
  deriving DecidableEq, Repr

/-- What a property is set to. Fallbacks are written one after the other, so that the last one
that a reader understands wins; a list of one value stays a list. -/
inductive PropertyValue where
  | single (value : Value)
  | fallbacks (values : List Value)
  deriving DecidableEq, Repr

namespace Value

/-- The value without any unit. -/
def display : Value → String
  | .text content => content
  | .number value => value.text

def isFinite : Value → Bool
  | .text _ => true
  | .number value => value.isFinite

end Value

/-- The values in the order in which they are written. -/
def PropertyValue.values : PropertyValue → List Value
  | .single value => [value]
  | .fallbacks values => values

/-! ## Declarations and rules -/

/-- Whether a declaration sets a property, whose name and number are still to be brought into CSS
form, or a custom property, which is written as it stands. -/
inductive DeclarationKind where
  | property
  | custom
  deriving DecidableEq, Repr

structure Declaration where
  kind : DeclarationKind
  name : String
  value : Value
  deriving DecidableEq, Repr

/-- A selector and the declarations for what it selects. -/
structure Rule where
  selector : String
  declarations : List Declaration
  deriving DecidableEq, Repr

/-- A rule without declarations, which has no effect and is never written. -/
def Rule.isEmpty (rule : Rule) : Bool := rule.declarations.isEmpty

end ScopedCss
