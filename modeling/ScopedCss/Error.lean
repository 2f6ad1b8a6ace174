import ScopedCss.Json.Basic
import ScopedCss.Number.Basic
import ScopedCss.Selector.Target

/-! # Errors

Why a definition is rejected. An error holds its cause, and a path where the cause stands at some
place of a text; `StyleError.message` words it.
-/

set_option autoImplicit false

namespace ScopedCss

/-! ## Paths into a definition

Where in the text of a definition something stands: the keys and indices that lead there from the
whole definition, which is written `$`. Keys that name a part of the schema follow a dot and are
written as they are; keys that the author chooses freely stand quoted in brackets.
-/

/-- One step into a JSON value. -/
inductive Path.Step where
  | key (name : String)
  | quoted (name : String)
  | index (position : Nat)
  deriving DecidableEq, Repr

/-- The steps from the whole value inwards. -/
abbrev Path := List Path.Step

/-- A step as it is written after the path before it. -/
def Path.Step.text : Path.Step → String
  | .key name => "." ++ name
  | .quoted name => "[" ++ Text.quoted name ++ "]"
  | .index position => "[" ++ toString position ++ "]"

def Path.text (path : Path) : String := "$" ++ String.join (path.map Path.Step.text)

/-! ## Errors -/

/-- A place that does not support a key. -/
inductive Place where
  /-- A definition, for an at-rule that is not known. -/
  | definition
  /-- A definition, for a pseudo-class that takes arguments or is not known. -/
  | definitionPseudo
  /-- A definition or a block, for a property that is set to an object. -/
  | propertyObject
  /-- A block that is nested in a definition. -/
  | nestedBlock (path : Path)
  /-- A definition for the selector of a global style. -/
  | globalStyle (selector : String)
  /-- The selectors of a global style. -/
  | globalSelectors
  deriving DecidableEq, Repr

def Place.text : Place → String
  | .definition => "a style definition"
  | .definitionPseudo => "a style definition; complex pseudos belong under `selectors`"
  | .propertyObject => "a style definition; nested selectors belong under `selectors`"
  | .nestedBlock path => "nested block " ++ path.text
  | .globalStyle selector => "global style `" ++ selector ++ "`"
  | .globalSelectors => "a global style"

/-- What a place of a definition has to hold. -/
inductive Expectation where
  | object
  | scalar
  deriving DecidableEq, Repr

def Expectation.text : Expectation → String
  | .object => "an object"
  | .scalar => "a string or number"

/-- Why a definition is rejected. -/
inductive StyleError where
  /-- A selector does not target the styled element. -/
  | selectorTarget (selector : String) (fault : Selector.TargetFault)
  /-- A key stands where it is not supported. -/
  | unsupportedKey (key : String) (place : Place)
  /-- One selector sets a custom property to two values. -/
  | duplicateVariable (name selector first second : String)
  /-- The text of a definition holds a value of the wrong sort. -/
  | unexpectedKind (path : Path) (expected : Expectation) (found : Json.Kind)
  /-- A property of a selector is set to a number that CSS cannot write. -/
  | notFinite (selector property : String) (number : Number)
  /-- The text of a definition is not JSON. -/
  | notJson
  deriving DecidableEq, Repr

namespace StyleError

/-- Where a definition is invalid, for the errors that name the place in the definition or in what
it compiles to. -/
def place? : StyleError → Option String
  | .unexpectedKind path _ _ => some path.text
  | .notFinite selector property _ => some (selector ++ " " ++ property)
  | .notJson => some (Path.text [])
  | _ => none

def message : StyleError → String
  | .selectorTarget selector fault =>
      "Selector `" ++ selector ++ "` must target the current element: " ++ fault.text
  | .unsupportedKey key place => "`" ++ key ++ "` is not supported in " ++ place.text
  | .duplicateVariable name selector first second =>
      "Variable `" ++ name ++ "` on `" ++ selector ++ "` set to both `" ++ first ++ "` and `"
        ++ second ++ "`"
  | .unexpectedKind path expected found =>
      "Invalid style definition at " ++ path.text ++ ": expected " ++ expected.text ++ ", found "
        ++ found.text
  | .notFinite selector property number =>
      "Invalid style definition at " ++ selector ++ " " ++ property ++ ": " ++ number.text
        ++ " is not a finite number"
  | .notJson => "not accepted by the JSON reader"

end StyleError

end ScopedCss
