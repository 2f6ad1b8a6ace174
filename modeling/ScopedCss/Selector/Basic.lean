import ScopedCss.Text

/-! # Selectors

A selector of a definition is written for an element that is named by a class of its own, the scope
of the definition, and mentions it by `&`. Three things are read off a selector here: its
alternatives, the text that it resolves to, and whether it is a simple pseudo-class or
pseudo-element.
-/

set_option autoImplicit false

namespace ScopedCss

/-! ## Scopes

The class of the styled element is chosen by the caller.
-/

/-- The class of the styled element, without its dot. -/
structure Scope where
  ident : String
  deriving DecidableEq, Repr

namespace Scope

/-- A scope may be written with its dot; only one dot is taken off. -/
def ofText (text : String) : Scope :=
  match text.toList with
  | '.' :: ident => ⟨String.ofList ident⟩
  | _ => ⟨text⟩

/-- The selector of the elements of the scope. -/
def selector (scope : Scope) : String := "." ++ scope.ident

end Scope

namespace Selector

/-! ## What surrounds a place in a selector

Three things decide whether a character of a selector stands for itself: a quotation that is open,
a backslash directly before it, and how many brackets are open. `Surroundings.after` carries them
over one character, and every reading of a selector in this library goes through it.
-/

/-- What is open at a place in a selector. -/
structure Surroundings where
  /-- The quotation mark that will close the string at this place. -/
  quote : Option Char := none
  /-- A backslash stands directly before this place and is not itself escaped. -/
  escaped : Bool := false
  /-- The number of open parentheses and square brackets. -/
  depth : Nat := 0
  deriving DecidableEq, Repr

namespace Surroundings

/-- A character stands for itself where it is neither escaped nor quoted. -/
def isBare (s : Surroundings) : Bool := !s.escaped && s.quote.isNone

/-- What is open after one more character. An escaped character opens and closes nothing; within a
string only its own quotation mark counts; a bracket that closes nothing is ignored. -/
def after (s : Surroundings) (c : Char) : Surroundings :=
  if s.escaped then { s with escaped := false }
  else if c = '\\' then { s with escaped := true }
  else match s.quote with
    | some mark => if c = mark then { s with quote := none } else s
    | none =>
        if c = '"' ∨ c = '\'' then { s with quote := some c }
        else if c = '(' ∨ c = '[' then { s with depth := s.depth + 1 }
        else if c = ')' ∨ c = ']' then { s with depth := s.depth - 1 }
        else s

def afterAll (s : Surroundings) (cs : List Char) : Surroundings := cs.foldl after s

@[simp] theorem afterAll_nil (s : Surroundings) : s.afterAll [] = s := rfl

@[simp] theorem afterAll_cons (s : Surroundings) (c : Char) (cs : List Char) :
    s.afterAll (c :: cs) = (s.after c).afterAll cs := rfl

theorem afterAll_append (s : Surroundings) (cs ds : List Char) :
    s.afterAll (cs ++ ds) = (s.afterAll cs).afterAll ds := List.foldl_append

end Surroundings

/-! ## Alternatives

A selector is a list of alternatives, separated by the commas that stand outside of strings and
brackets. `cut` takes it apart at these commas; the alternatives are the segments without the
blanks around them.
-/

/-- A comma separates alternatives where it stands for itself outside of all brackets. -/
def separates (s : Surroundings) (c : Char) : Bool := c == ',' && s.isBare && s.depth == 0

/-- The segment before the first separating comma, and the segments after it. -/
def cut : Surroundings → List Char → List Char × List (List Char)
  | _, [] => ([], [])
  | s, c :: cs =>
      let (segment, segments) := cut (s.after c) cs
      if separates s c then ([], segment :: segments) else (c :: segment, segments)

/-- The segments of a selector between its separating commas; there is at least one. -/
def segments (cs : List Char) : List (List Char) :=
  let (first, rest) := cut {} cs
  first :: rest

def alternatives (selector : String) : List String :=
  (segments selector.toList).map fun segment => String.ofList (Text.trim segment)

@[simp] theorem cut_nil (s : Surroundings) : cut s [] = ([], []) := rfl

theorem cut_cons (s : Surroundings) (c : Char) (cs : List Char) :
    cut s (c :: cs) =
      if separates s c then ([], (cut (s.after c) cs).1 :: (cut (s.after c) cs).2)
      else (c :: (cut (s.after c) cs).1, (cut (s.after c) cs).2) := rfl

/-! ## Resolving

In a selector of a definition `&` stands for the styled element. Resolving it puts the class of
the scope in the place of each `&` that stands for itself.
-/

/-- A placeholder is an ampersand that stands for itself. -/
def isPlaceholder (s : Surroundings) (c : Char) : Bool := c == '&' && s.isBare

/-- Replaces each placeholder by the text `own`. -/
def replacePlaceholders (own : List Char) : Surroundings → List Char → List Char
  | _, [] => []
  | s, c :: cs =>
      (if isPlaceholder s c then own else [c]) ++ replacePlaceholders own (s.after c) cs

/-- The selector with the class of the scope in the place of the placeholders. -/
def resolve (scope : Scope) (selector : String) : String :=
  String.ofList (replacePlaceholders scope.selector.toList {} selector.toList)

/-! ## Simple pseudo-classes and pseudo-elements

The pseudo-classes and pseudo-elements that take no argument. A definition may use them as keys of
their own; all others belong into a selector.
-/

/-- The tokens of the simple pseudo-classes and pseudo-elements, with their colons. -/
def simplePseudos : List String :=
  [":-moz-any-link", ":-moz-full-screen", ":-moz-placeholder", ":-moz-read-only",
   ":-moz-read-write", ":-ms-fullscreen", ":-ms-input-placeholder", ":-webkit-any-link",
   ":-webkit-full-screen", "::-moz-placeholder", "::-moz-progress-bar", "::-moz-range-progress",
   "::-moz-range-thumb", "::-moz-range-track", "::-moz-selection", "::-ms-backdrop",
   "::-ms-browse", "::-ms-check", "::-ms-clear", "::-ms-fill", "::-ms-fill-lower",
   "::-ms-fill-upper", "::-ms-reveal", "::-ms-thumb", "::-ms-ticks-after", "::-ms-ticks-before",
   "::-ms-tooltip", "::-ms-track", "::-ms-value", "::-webkit-backdrop",
   "::-webkit-input-placeholder", "::-webkit-progress-bar", "::-webkit-progress-inner-value",
   "::-webkit-progress-value", "::-webkit-resizer", "::-webkit-scrollbar",
   "::-webkit-scrollbar-button", "::-webkit-scrollbar-corner", "::-webkit-scrollbar-thumb",
   "::-webkit-scrollbar-track", "::-webkit-scrollbar-track-piece",
   "::-webkit-search-cancel-button", "::-webkit-search-decoration",
   "::-webkit-search-results-button", "::-webkit-search-results-decoration",
   "::-webkit-slider-runnable-track", "::-webkit-slider-thumb", "::after", "::backdrop",
   "::before", "::cue", "::file-selector-button", "::first-letter", "::first-line",
   "::grammar-error", "::marker", "::placeholder", "::selection", "::spelling-error", ":active",
   ":after", ":any-link", ":before", ":blank", ":checked", ":default", ":defined", ":disabled",
   ":empty", ":enabled", ":first", ":first-child", ":first-letter", ":first-line",
   ":first-of-type", ":focus", ":focus-visible", ":focus-within", ":fullscreen", ":hover",
   ":in-range", ":indeterminate", ":invalid", ":last-child", ":last-of-type", ":left", ":link",
   ":only-child", ":only-of-type", ":optional", ":out-of-range", ":placeholder-shown",
   ":read-only", ":read-write", ":required", ":right", ":root", ":scope", ":target", ":valid",
   ":visited"]

def isSimplePseudo (token : String) : Bool := simplePseudos.contains token

end Selector

end ScopedCss
