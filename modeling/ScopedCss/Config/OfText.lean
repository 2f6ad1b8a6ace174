import ScopedCss.Json.Reader
import ScopedCss.Number.Basic
import ScopedCss.Text

/-! # Configurations

How a style sheet is compiled and written, and how a configuration is read from text.
-/

set_option autoImplicit false

namespace ScopedCss

/-- The shape of the written text. -/
inductive OutputStyle where
  /-- One declaration on a line, nested blocks indented. -/
  | pretty
  /-- One outermost block on a line. -/
  | compact
  /-- No character that could be left out. -/
  | minified
  deriving DecidableEq, Repr

def OutputStyle.text : OutputStyle → String
  | .pretty => "pretty"
  | .compact => "compact"
  | .minified => "minified"

def OutputStyle.ofText? (name : String) : Option OutputStyle :=
  [OutputStyle.pretty, .compact, .minified].find? fun style => style.text == name

structure Config where
  output : OutputStyle := .pretty
  /-- How many spaces a nested line is indented by in pretty output. -/
  indentWidth : Nat := 2
  /-- Whether a definition is rejected that sets a custom property to two values for one
  selector. -/
  rejectConflicts : Bool := true
  deriving DecidableEq, Repr

/-! ## Reading a configuration

A configuration is written as an object, whose unknown keys are skipped, or as an array of the
settings in order; what is missing keeps its default. The text is read from front to back, and the
first offence is the error: a setting is judged before what comes after it is looked at.
-/

/-- What a place of a configuration has to hold. -/
inductive ConfigExpectation where
  | config
  | count
  | flag
  | nothing
  deriving DecidableEq, Repr

def ConfigExpectation.text : ConfigExpectation → String
  | .config => "struct CompilerConfig"
  | .count => "usize"
  | .flag => "a boolean"
  | .nothing => "unit"

/-- What stands at a place of a configuration. -/
inductive ConfigValue where
  | null
  | bool (value : Bool)
  | number (value : Json.Number)
  | string (content : String)
  | array
  | object
  deriving DecidableEq, Repr

/-- The wording of a value. A number that is no integer has the fewest digits that read back, and
an even last digit at a tie. -/
def ConfigValue.text : ConfigValue → String
  | .null => "null"
  | .bool value => "boolean `" ++ toString value ++ "`"
  | .number (.integer value _) => "integer `" ++ toString value ++ "`"
  | .number (.real value) => "floating point `" ++ (value.shortest .even).pointed ++ "`"
  | .string content => "string " ++ Text.quoted content
  | .array => "sequence"
  | .object => "map"

/-- One of the settings of a configuration. -/
inductive ConfigField where
  | output
  | indentWidth
  | rejectConflicts
  deriving DecidableEq, Repr

def ConfigField.key : ConfigField → String
  | .output => "output"
  | .indentWidth => "indent_width"
  | .rejectConflicts => "reject_conflicting_vars"

/-- The settings in the order in which an array lists them. -/
def ConfigField.all : List ConfigField := [.output, .indentWidth, .rejectConflicts]

/-- Why a configuration is rejected. -/
inductive ConfigError where
  /-- The text is no JSON, or no configuration in some other way that has no wording of its
  own. -/
  | notAccepted
  /-- A setting stands twice. -/
  | duplicate (field : ConfigField)
  /-- There is no output style of this name. -/
  | unknownStyle (name : String)
  /-- A value of the wrong sort. -/
  | unexpected (found : ConfigValue) (expected : ConfigExpectation)
  /-- A negative number of spaces. -/
  | negative (value : Int)
  deriving DecidableEq, Repr

def ConfigError.message : ConfigError → String
  | .notAccepted => "not accepted by the JSON reader"
  | .duplicate field => "duplicate field `" ++ field.key ++ "`"
  | .unknownStyle name =>
      "unknown variant `" ++ name ++ "`, expected one of `pretty`, `compact`, `minified`"
  | .unexpected found expected =>
      "invalid type: " ++ found.text ++ ", expected " ++ expected.text
  | .negative value => "invalid value: integer `" ++ toString value ++ "`, expected usize"

namespace ConfigReader

open Json (Token)

/-- The value that a list of tokens starts with, without what is in it. -/
def value? : List Token → Option ConfigValue
  | .null :: _ => some .null
  | .bool value :: _ => some (.bool value)
  | .number literal :: _ => literal.number?.map ConfigValue.number
  | .string pieces :: _ => (Json.text? pieces).map ConfigValue.string
  | .openBracket :: _ => some .array
  | .openBrace :: _ => some .object
  | _ => none

/-- The error at a place that holds something else than it has to. -/
def unexpected (expected : ConfigExpectation) (ts : List Token) : ConfigError :=
  match value? ts with
  | some found => .unexpected found expected
  | none => .notAccepted

def count (ts : List Token) : Except ConfigError Nat :=
  match value? ts with
  | some (.number (.integer value _)) =>
      if value < 0 then .error (.negative value) else .ok value.toNat
  | _ => .error (unexpected .count ts)

def flag : List Token → Except ConfigError Bool
  | .bool value :: _ => .ok value
  | ts => .error (unexpected .flag ts)

/-- The output style of a name in pieces. -/
def namedStyle (pieces : List Json.Piece) : Except ConfigError OutputStyle :=
  match Json.text? pieces with
  | none => .error .notAccepted
  | some name =>
      match OutputStyle.ofText? name with
      | some style => .ok style
      | none => .error (.unknownStyle name)

/-- An output style: its name, or an object whose one key is the name and holds `null`. -/
def style : List Token → Except ConfigError OutputStyle
  | .string pieces :: _ => namedStyle pieces
  | .openBrace :: .string pieces :: rest => do
      let found ← namedStyle pieces
      match rest with
      | .colon :: .null :: .closeBrace :: _ => return found
      | .colon :: .null :: _ => throw .notAccepted
      | .colon :: ts => throw (unexpected .nothing ts)
      | _ => throw .notAccepted
  | _ => .error .notAccepted

/-- The settings found so far. -/
structure Settings where
  output : Option OutputStyle := none
  indentWidth : Option Nat := none
  rejectConflicts : Option Bool := none
  deriving DecidableEq, Repr

def Settings.has (settings : Settings) : ConfigField → Bool
  | .output => settings.output.isSome
  | .indentWidth => settings.indentWidth.isSome
  | .rejectConflicts => settings.rejectConflicts.isSome

/-- Reads a setting from the start of a list of tokens. -/
def Settings.read (settings : Settings) (ts : List Token) :
    ConfigField → Except ConfigError Settings
  | .output => do return { settings with output := ← style ts }
  | .indentWidth => do return { settings with indentWidth := ← count ts }
  | .rejectConflicts => do return { settings with rejectConflicts := ← flag ts }

/-- The configuration with these settings and the defaults for the others. -/
def Settings.config (settings : Settings) : Config :=
  let default : Config := {}
  { output := settings.output.getD default.output
    indentWidth := settings.indentWidth.getD default.indentWidth
    rejectConflicts := settings.rejectConflicts.getD default.rejectConflicts }

/-- Reads the settings of an array from its next item on, for the fields that are left. -/
def items : List ConfigField → Settings → List Token → Except ConfigError (Settings × List Token)
  | [], _, _ => .error .notAccepted
  | field :: fields, settings, ts => do
      let settings ← settings.read ts field
      match Json.skip? ts with
      | some (.closeBracket :: rest) => return (settings, rest)
      | some (.comma :: rest) => items fields settings rest
      | _ => throw .notAccepted

/-- The setting of a key, if the key is known. It must not have been found before. -/
def newField? (settings : Settings) (key : String) : Except ConfigError (Option ConfigField) :=
  match ConfigField.all.find? fun field => field.key == key with
  | none => .ok none
  | some field => if settings.has field then .error (.duplicate field) else .ok (some field)

/-- Reads the settings of an object from its next key on. -/
def entries (settings : Settings) (ts : List Token) :
    Except ConfigError (Settings × List Token) :=
  match ts with
  | .string pieces :: afterKey =>
      match Json.text? pieces with
      | none => .error .notAccepted
      | some key => do
          let field? ← newField? settings key
          match afterKey with
          | .colon :: value =>
              let settings ← (match field? with
                | some field => settings.read value field
                | none => .ok settings : Except ConfigError Settings)
              match _hskip : Json.skip? value with
              | some (.closeBrace :: rest) => return (settings, rest)
              | some (.comma :: rest) => entries settings rest
              | _ => throw .notAccepted
          | _ => throw .notAccepted
  | _ => .error .notAccepted
termination_by ts.length
decreasing_by
  have := Json.skip?_length _hskip
  simp only [List.length_cons] at this ⊢
  omega

/-- Reads a configuration from the start of a list of tokens. -/
def config : List Token → Except ConfigError (Settings × List Token)
  | .openBrace :: .closeBrace :: rest => .ok ({}, rest)
  | .openBrace :: ts => entries {} ts
  | .openBracket :: .closeBracket :: rest => .ok ({}, rest)
  | .openBracket :: ts => items ConfigField.all {} ts
  | ts => .error (unexpected .config ts)

end ConfigReader

/-- The configuration that a text writes. -/
def Config.ofText (text : String) : Except ConfigError Config := do
  let (settings, rest) ← ConfigReader.config (Json.tokens text.toList)
  if rest.isEmpty then return settings.config else throw .notAccepted

end ScopedCss
