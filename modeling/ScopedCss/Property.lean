import ScopedCss.Rule
import ScopedCss.Text

/-! # Properties

The CSS form of an authored declaration: its name in the CSS spelling, and its value with the unit
that the property gives to a number.
-/

set_option autoImplicit false

namespace ScopedCss

namespace Property

/-! ## Names

A property may be authored in camel case (`backgroundColor`, `WebkitFlex`) or as CSS spells it
(`background-color`, `-webkit-flex`). `cssName` leads from the first spelling to the second and
`authoredName` back. A custom property is named by a text that starts with two hyphens, or by a
reference `var(…)` to such a name.
-/

/-- A name that starts with two hyphens names a custom property and has one spelling only. -/
def isCustom (name : String) : Bool := "--".toList.isPrefixOf name.toList

/-! ### To the CSS spelling -/

/-- A capital becomes a hyphen and its small letter. Only ASCII has capitals here. -/
def hyphenate (c : Char) : List Char := if c.isUpper then ['-', c.toLower] else [c]

/-- The vendor `ms` is the one that is authored with a small letter, so its names have to be given
their leading hyphen. -/
def withVendorHyphen (cs : List Char) : List Char :=
  if "ms-".toList.isPrefixOf cs then '-' :: cs else cs

/-- The CSS spelling of an authored name. -/
def cssName (name : String) : String :=
  if isCustom name then name
  else String.ofList (withVendorHyphen (name.toList.flatMap hyphenate))

/-! ### To camel case -/

/-- Drops the hyphens, and makes each letter after one a capital. With `raised` the text counts as
standing after a hyphen. -/
def joinHumps : (raised : Bool) → List Char → List Char
  | _, [] => []
  | raised, c :: cs =>
      if c = '-' then joinHumps true cs
      else (if raised then c.toUpper else c) :: joinHumps false cs

/-- The camel case spelling after a leading hyphen: the vendor starts with a capital, unless it is
`ms`. -/
def vendorHumps (cs : List Char) : List Char :=
  let name := cs.dropWhile (· == '-')
  joinHumps (name.takeWhile (· != '-') != "ms".toList) name

/-- The camel case spelling of a name; one without hyphens has it already. -/
def authoredName (name : String) : String :=
  match name.toList with
  | '-' :: cs => String.ofList (vendorHumps cs)
  | cs => String.ofList (joinHumps false cs)

/-! ### Custom properties -/

/-- What stands between `var(` and a final parenthesis. -/
def referenceBody? (cs : List Char) : Option (List Char) :=
  if "var(".toList.isPrefixOf cs && (cs.drop 4).getLast? == some ')' then some (cs.drop 4).dropLast
  else none

/-- The name of the custom property that a key stands for: of a reference the name in it, without
the fallback after a comma, and of any other key the key itself; without the blanks around it. -/
def variableName (key : String) : String :=
  let trimmed := Text.trim key.toList
  match referenceBody? trimmed with
  | some body => String.ofList (Text.trim (body.takeWhile (· != ',')))
  | none => String.ofList trimmed

/-! ## Numbers without a unit

Most properties read a bare number as a length, which CSS writes in pixels. Those listed here take
the number itself.
-/

/-- The properties that take bare numbers, in camel case. -/
def unitlessNames : List String :=
  ["animationIterationCount", "aspectRatio", "borderImageOutset", "borderImageSlice",
   "borderImageWidth", "boxFlex", "boxFlexGroup", "boxOrdinalGroup", "columnCount", "columns",
   "fillOpacity", "flex", "flexGrow", "flexNegative", "flexOrder", "flexPositive", "flexShrink",
   "floodOpacity", "fontWeight", "gridArea", "gridColumn", "gridColumnEnd", "gridColumnSpan",
   "gridColumnStart", "gridRow", "gridRowEnd", "gridRowSpan", "gridRowStart", "lineClamp",
   "lineHeight", "msFlex", "msFlexGrow", "msFlexShrink", "opacity", "order", "orphans", "scale",
   "stopOpacity", "strokeDashoffset", "strokeMiterlimit", "strokeOpacity", "strokeWidth",
   "tabSize", "WebkitBoxFlex", "WebkitFlex", "WebkitFlexGrow", "WebkitFlexShrink",
   "WebkitLineClamp", "widows", "zIndex", "zoom"]

/-- Whether a number stays bare under a name, in either spelling of it. -/
def isUnitless (name : String) : Bool := unitlessNames.contains (authoredName name)

end Property

/-! ## Declarations as CSS writes them -/

namespace Css

/-- A declaration as it is written. -/
structure Declaration where
  name : String
  value : String
  deriving DecidableEq, Repr

/-- The declaration on a line of its own, without the final semicolon. -/
def Declaration.text (d : Declaration) : String := d.name ++ ": " ++ d.value

end Css

namespace Property

/-- The text of a value under an authored name: a number that is not zero counts pixels, unless
the property is custom or takes bare numbers. -/
def cssValue (name : String) : Value → String
  | .text content => content
  | .number value =>
      if value.isZero || isCustom name || isUnitless name then value.text else value.text ++ "px"

/-- A property as it is written, one declaration for each of its values. -/
def written (name : String) (value : PropertyValue) : List Css.Declaration :=
  value.values.map fun v => ⟨cssName name, cssValue name v⟩

end Property

/-- A declaration as it is written. -/
def Declaration.written (d : Declaration) : Css.Declaration :=
  match d.kind with
  | .property => ⟨Property.cssName d.name, Property.cssValue d.name d.value⟩
  | .custom => ⟨Property.variableName d.name, d.value.display⟩

end ScopedCss
