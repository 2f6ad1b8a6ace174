import ScopedCss.Selector.Basic

/-! # What a selector targets

A selector of a definition has to style the element of the definition: each of its alternatives
mentions the element exactly once, by `&` or by the class of the scope, outside of brackets and
with no combinator after the mention. `.b:focus &` is such a selector and `& .b` is not.

An alternative is read into its `marks`, the mentions and the top-level combinators in order;
`targetFault?` judges them.
-/

set_option autoImplicit false

namespace ScopedCss.Selector

/-- A character that continues a name: `&b` and `.ab` do not mention the element `.a`. -/
def continuesName (c : Char) : Bool :=
  c.isAlphanum || c == '-' || c == '_' || c == '\\' || 0x80 ≤ c.toNat

/-- Whether the text goes on with a name. -/
def startsWithName : List Char → Bool
  | [] => false
  | c :: _ => continuesName c

/-- A character that ends a compound, so that what follows it selects another element. -/
def isCombinator (c : Char) : Bool := Text.isBlank c || c == '>' || c == '+' || c == '~'

/-- What counts for the target of an alternative. -/
inductive Mark where
  /-- A mention of the element, inside of so many brackets. -/
  | mention (depth : Nat)
  /-- A combinator outside of brackets. -/
  | combinator
  deriving DecidableEq, Repr

/-- Whether the text starts with the class selector `own` as a whole class. -/
def startsWithClass (own cs : List Char) : Bool :=
  own.isPrefixOf cs && !startsWithName (cs.drop own.length)

/-- The mark made by the character `c` and the text after it. -/
def markAt (s : Surroundings) (c : Char) (cs : List Char) : Option Mark :=
  if !s.isBare then none
  else if c = '&' then if startsWithName cs then none else some (.mention s.depth)
  else if s.depth = 0 ∧ isCombinator c then some .combinator
  else none

/-- The marks of a text in order. The first `skipped` characters belong to a class selector that
has been counted already, and open and close nothing. -/
def marks (own : List Char) : Surroundings → (skipped : Nat) → List Char → List Mark
  | _, _, [] => []
  | s, skipped + 1, _ :: cs => marks own s skipped cs
  | s, 0, c :: cs =>
      if s.isBare && c == '.' && startsWithClass own (c :: cs) then
        .mention s.depth :: marks own s (own.length - 1) cs
      else (markAt s c cs).toList ++ marks own (s.after c) 0 cs

/-- Why a selector does not target the element. -/
inductive TargetFault where
  | zeroOccurrences
  | multipleOccurrences
  | targetsDescendant
  deriving DecidableEq, Repr

def TargetFault.text : TargetFault → String
  | .zeroOccurrences => "zero-occurrences"
  | .multipleOccurrences => "multiple-occurrences"
  | .targetsDescendant => "targets-descendant"

/-- A mark that mentions the element. -/
def Mark.isMention : Mark → Bool
  | .mention _ => true
  | .combinator => false

/-- The fault of an alternative with these marks: there has to be one mention, and it has to be
the last mark and outside of brackets. -/
def markFault? (ms : List Mark) : Option TargetFault :=
  match ms.filter Mark.isMention with
  | [] => some .zeroOccurrences
  | [_] => if ms.getLast? = some (.mention 0) then none else some .targetsDescendant
  | _ => some .multipleOccurrences

def alternativeFault? (scope : Scope) (alternative : String) : Option TargetFault :=
  markFault? (marks scope.selector.toList {} 0 alternative.toList)

/-- The fault of the first alternative that does not target the element of the scope. -/
def targetFault? (scope : Scope) (selector : String) : Option TargetFault :=
  (alternatives selector).findSome? (alternativeFault? scope)

end ScopedCss.Selector
