import ScopedCss.Definition.Basic
import ScopedCss.Error
import ScopedCss.Json.Reader

/-! # Definitions from text

A definition is read from the text of a JSON value. It is written as an object, whose keys `vars`,
`selectors`, `@media` and `@supports` hold objects of their own; a simple pseudo-class or
pseudo-element holds a block, and every other key is a property. A block holds properties and
`vars` only.
-/

set_option autoImplicit false

namespace ScopedCss

/-! ## From JSON

Each entry by itself makes a small definition, and an object makes the definitions of its entries
joined in order; so an object is accepted if each of its entries is, and rejected for the first
that is not.
-/

namespace OfJson

/-- What a key of a definition introduces. -/
inductive Key where
  | custom
  | selectors
  | condition (kind : ConditionKind)
  | pseudo
  | atRule
  | property
  deriving DecidableEq, Repr

/-- What a key introduces: the keys of the schema are known by name, and the others by their first
character. -/
def Key.ofText (key : String) : Key :=
  if key = "vars" then .custom
  else if key = "selectors" then .selectors
  else if key = "@media" then .condition .media
  else if key = "@supports" then .condition .supports
  else match key.toList with
    | ':' :: _ => .pseudo
    | '@' :: _ => .atRule
    | _ => .property

/-- The entries of an object. -/
def entries (path : Path) : Json → Except StyleError (List (String × Json))
  | .object entries => .ok entries
  | other => .error (.unexpectedKind path .object other.kind)

def scalar (path : Path) : Json → Except StyleError Value
  | .string content => .ok (.text content)
  | .number value => .ok (.number (.finite value.toBinary))
  | other => .error (.unexpectedKind path .scalar other.kind)

/-- The items of a fallback list, the first of them at a given position. -/
def fallbacks (path : Path) : Nat → List Json → Except StyleError (List Value)
  | _, [] => .ok []
  | position, item :: rest => do
      let value ← scalar (path ++ [.index position]) item
      let values ← fallbacks path (position + 1) rest
      return value :: values

/-- What a property is set to: a scalar, or a list of scalars as fallbacks. -/
def property (name : String) (path : Path) : Json → Except StyleError PropertyValue
  | .array items => do return .fallbacks (← fallbacks path 0 items)
  | .object _ => .error (.unsupportedKey name .propertyObject)
  | other => do return .single (← scalar path other)

/-- Custom properties; a number is kept as its text. -/
def customProperties (path : Path) (value : Json) : Except StyleError (Entries String) := do
  (← entries path value).mapM fun (name, item) => do
    return (name, (← scalar (path ++ [.quoted name]) item).display)

/-- The block that one entry makes. -/
def blockEntry (path : Path) (key : String) (value : Json) : Except StyleError Block :=
  match Key.ofText key with
  | .custom => do return { custom := ← customProperties (path ++ [.key key]) value }
  | .property => do return { properties := [(key, ← property key (path ++ [.key key]) value)] }
  | _ => .error (.unsupportedKey key (.nestedBlock path))

/-- The block that the entries of an object make. -/
def blockEntries (path : Path) : List (String × Json) → Except StyleError Block
  | [] => .ok {}
  | (key, value) :: rest => do
      let first ← blockEntry path key value
      let others ← blockEntries path rest
      return first ++ others

def block (path : Path) (value : Json) : Except StyleError Block := do
  blockEntries path (← entries path value)

def selectors (path : Path) (value : Json) : Except StyleError (Entries Block) := do
  (← entries path value).mapM fun (selector, body) => do
    return (selector, ← block (path ++ [.quoted selector]) body)

/-- The level that one entry makes that is no condition. -/
def levelEntry (path : Path) (key : String) (value : Json) : Except StyleError Level :=
  match Key.ofText key with
  | .selectors => do return { selectors := ← selectors (path ++ [.key key]) value }
  | .pseudo =>
      if Selector.isSimplePseudo key then do
        return { pseudos := [(key, ← block (path ++ [.key key]) value)] }
      else .error (.unsupportedKey key .definitionPseudo)
  | .custom => do return { base := { custom := ← customProperties (path ++ [.key key]) value } }
  | .property => do
      return { base := { properties := [(key, ← property key (path ++ [.key key]) value)] } }
  | _ => .error (.unsupportedKey key .definition)

mutual

/-- The definition that a JSON value at a path makes. -/
def definition (path : Path) : Json → Except StyleError Definition
  | .object entries => definitionEntries path entries
  | other => .error (.unexpectedKind path .object other.kind)

/-- The definition that the entries of an object make. -/
def definitionEntries (path : Path) : List (String × Json) → Except StyleError Definition
  | [] => .ok {}
  | (key, value) :: rest => do
      let first ← (match Key.ofText key with
        | .condition kind =>
            Definition.ofConditions kind <$> conditions (path ++ [.key key]) value
        | _ => Definition.ofLevel <$> levelEntry path key value : Except StyleError Definition)
      let others ← definitionEntries path rest
      return first ++ others

def conditions (path : Path) : Json → Except StyleError (List (String × Definition))
  | .object entries => conditionEntries path entries
  | other => .error (.unexpectedKind path .object other.kind)

/-- The definitions that the entries of an object make, by query. -/
def conditionEntries (path : Path) :
    List (String × Json) → Except StyleError (List (String × Definition))
  | [] => .ok []
  | (query, body) :: rest => do
      let first ← definition (path ++ [.quoted query]) body
      let others ← conditionEntries path rest
      return (query, first) :: others

end

end OfJson

namespace Definition

/-- The definition that a JSON value makes. -/
def ofJson (value : Json) : Except StyleError Definition := OfJson.definition [] value

/-! ## From text

The two readings of a text differ only where it has two faults: one wants the whole text to be JSON
first, the other stops at the end of the first value and looks at the definition before it looks at
what follows.
-/

/-- The definition that a text writes; a text that is not JSON is rejected as such. -/
def ofText (text : String) : Except StyleError Definition :=
  match Json.ofText? text with
  | some value => ofJson value
  | none => .error .notJson

/-- The definition that a text starts with, which nothing may follow. -/
def ofLeadingText (text : String) : Except StyleError Definition :=
  match Json.read? (Json.tokens text.toList) with
  | none => .error .notJson
  | some (value, rest) => do
      let definition ← ofJson value
      if rest.isEmpty then return definition else throw .notJson

end Definition

end ScopedCss
