import ScopedCss.Condition
import ScopedCss.Rule
import ScopedCss.Entries

/-! # Definitions

A definition is the input of the compiler: what one element looks like. Its own level holds the
declarations of the element itself, of its simple pseudo-classes and pseudo-elements, and of
selectors that mention it; below media and support queries stand further definitions of the same
shape.

`Definition.levels` lists the levels of a definition with the conditions that they stand under,
outer ones first and media before supports. Every pass over a definition goes through this list.
-/

set_option autoImplicit false

namespace ScopedCss

/-- The custom properties and the properties of one block, each in the order of their keys. -/
structure Block where
  custom : Entries String := []
  properties : Entries PropertyValue := []
  deriving DecidableEq, Repr

/-- The part of a definition that stands under the same conditions. -/
structure Level where
  /-- What the element itself is set to. -/
  base : Block := {}
  /-- Blocks by simple pseudo-class or pseudo-element. -/
  pseudos : Entries Block := []
  /-- Blocks by selector. -/
  selectors : Entries Block := []
  deriving DecidableEq, Repr

/-- The style of one element. -/
structure Definition where
  level : Level := {}
  /-- Definitions by media query. -/
  media : List (String × Definition) := []
  /-- Definitions by support query. -/
  supports : List (String × Definition) := []
  deriving Repr

def Block.isEmpty (block : Block) : Bool := block.custom.isEmpty && block.properties.isEmpty

/-- Puts a level under one more condition. -/
def Level.under (condition : Condition) (entry : List Condition × Level) :
    List Condition × Level :=
  (condition :: entry.1, entry.2)

mutual

/-- The levels below the conditions of a definition, with their paths. -/
def Definition.nested : Definition → List (List Condition × Level)
  | ⟨_, media, supports⟩ => nestedUnder .media media ++ nestedUnder .supports supports

/-- The levels of the definitions below queries of one kind. -/
def nestedUnder (kind : ConditionKind) :
    List (String × Definition) → List (List Condition × Level)
  | [] => []
  | (query, definition) :: rest =>
      (([], definition.level) :: definition.nested).map (Level.under ⟨kind, query⟩)
        ++ nestedUnder kind rest

end

/-- The levels of a definition with the paths of the conditions that they stand under. -/
def Definition.levels (definition : Definition) : List (List Condition × Level) :=
  ([], definition.level) :: definition.nested

/-! ## Making and joining definitions -/

def Definition.ofLevel (level : Level) : Definition := { level }

/-- The definitions below queries of one kind, as one definition. -/
def Definition.ofConditions : ConditionKind → List (String × Definition) → Definition
  | .media, definitions => { media := definitions }
  | .supports, definitions => { supports := definitions }

/-- The entries of one block followed by those of another. -/
def Block.append (a b : Block) : Block :=
  ⟨a.custom ++ b.custom, a.properties ++ b.properties⟩

instance : Append Block := ⟨Block.append⟩

/-- The entries of one level followed by those of another. -/
def Level.append (a b : Level) : Level :=
  ⟨a.base ++ b.base, a.pseudos ++ b.pseudos, a.selectors ++ b.selectors⟩

instance : Append Level := ⟨Level.append⟩

/-- The entries of one definition followed by those of another, map by map. -/
def Definition.append (a b : Definition) : Definition :=
  ⟨a.level ++ b.level, a.media ++ b.media, a.supports ++ b.supports⟩

instance : Append Definition := ⟨Definition.append⟩

/-! ## Other blocks of a style sheet -/

/-- An animation: blocks by stop (`from`, `50%`, `to`). -/
structure Keyframes where
  name : String
  frames : Entries Block
  deriving DecidableEq, Repr

/-- A font family and where its font comes from. -/
structure FontFace where
  family : String
  block : Block
  deriving DecidableEq, Repr

end ScopedCss
