import ScopedCss.Definition.Basic

/-! # Equality of definitions

Two definitions are equal if they set the same keys to equal values: the order of keys does not
count, and numbers are compared as numbers.
-/

set_option autoImplicit false

namespace ScopedCss

/-- Equality of numbers as values: both zeros are equal, and a `nan` equals nothing. -/
def Number.equals : Number → Number → Bool
  | .finite x, .finite y => x == y || (x.isZero && y.isZero)
  | .infinite a, .infinite b => a == b
  | _, _ => false

/-- Equality of values, numbers compared as numbers. -/
def Value.equals : Value → Value → Bool
  | .text a, .text b => a == b
  | .number a, .number b => a.equals b
  | _, _ => false

/-- Equality of what two properties are set to; a list never equals a single value. -/
def PropertyValue.equals : PropertyValue → PropertyValue → Bool
  | .single a, .single b => a.equals b
  | .fallbacks as, .fallbacks bs => as.length == bs.length && (as.zip bs).all fun p => p.1.equals p.2
  | _, _ => false

/-- Whether two maps have as many keys and each key of the first is set to an equal value in the
second. -/
def Entries.equals {α : Type} (eq : α → α → Bool) (a b : Entries α) : Bool :=
  a.length == b.length && a.all fun entry => (b.get? entry.1).any (eq entry.2)

def Block.equals (a b : Block) : Bool :=
  Entries.equals (· == ·) a.custom b.custom
    && Entries.equals PropertyValue.equals a.properties b.properties

def Level.equals (a b : Level) : Bool :=
  a.base.equals b.base && Entries.equals Block.equals a.pseudos b.pseudos
    && Entries.equals Block.equals a.selectors b.selectors

mutual

def Definition.equals : Definition → Definition → Bool
  | ⟨level, media, supports⟩, other =>
      level.equals other.level
        && (media.length == other.media.length && allEqualIn media other.media)
        && (supports.length == other.supports.length && allEqualIn supports other.supports)

/-- Whether each query of the first list has an equal definition in the second. -/
def allEqualIn : List (String × Definition) → List (String × Definition) → Bool
  | [], _ => true
  | (query, definition) :: rest, others =>
      (Entries.get? others query).any definition.equals && allEqualIn rest others

end

end ScopedCss
