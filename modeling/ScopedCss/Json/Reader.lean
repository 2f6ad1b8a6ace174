import ScopedCss.Entries
import ScopedCss.Json.Token

/-! # Reading JSON

A JSON value is read from its tokens one by one, with a stack of the containers that are open. A
key that an object repeats keeps its first place and takes its last value.

The reader is strict or lenient. The strict one gives the value and refuses numbers that are too
large, halves of surrogate pairs and containers nested too deeply. The lenient one only follows the
grammar; it skips a value that nobody asks for.
-/

set_option autoImplicit false

namespace ScopedCss.Json

/-! ## Scalars -/

/-- The first unit of a surrogate pair. -/
def isHighSurrogate (unit : Nat) : Bool := 0xD800 ≤ unit && unit < 0xDC00

/-- The second unit of a surrogate pair. -/
def isLowSurrogate (unit : Nat) : Bool := 0xDC00 ≤ unit && unit < 0xE000

/-- The characters that the pieces of a string give; every surrogate has to be in a pair. -/
def characters? : List Piece → Option (List Char)
  | [] => some []
  | .char c :: rest => (characters? rest).map (c :: ·)
  | .unit high :: rest =>
      if isHighSurrogate high then
        match rest with
        | .unit low :: rest =>
            if isLowSurrogate low then
              (characters? rest).map
                (Char.ofNat (0x10000 + (high - 0xD800) * 0x400 + (low - 0xDC00)) :: ·)
            else none
        | _ => none
      else if isLowSurrogate high then none
      else (characters? rest).map (Char.ofNat high :: ·)

/-- The text that the pieces of a string give. -/
def text? (pieces : List Piece) : Option String := (characters? pieces).map String.ofList

/-- The integer that a literal writes; zero with a sign is none. -/
def Literal.integer? (literal : Literal) : Option Int :=
  let d := literal.value
  if literal.isInteger && !(d.negative && d.coefficient == 0) then
    some (if d.negative then -d.coefficient else d.coefficient)
  else none

/-- The number that a literal writes, if it is not too large. -/
def Literal.number? (literal : Literal) : Option Number :=
  match literal.integer? with
  | some value =>
      if fits : FitsWord value then some (.integer value fits)
      else literal.value.nearest?.map Number.real
  | none => literal.value.nearest?.map Number.real

/-! ## Containers -/

/-- Whether values are kept or only skipped. -/
inductive Mode where
  | strict
  | lenient
  deriving DecidableEq, Repr

/-- A container that is open around the value being read. -/
inductive Frame where
  /-- An array with the items before the value, the last of them first. -/
  | array (items : List Json)
  /-- An object with the entries before the value, and the key of the value. -/
  | object (entries : Entries Json) (key : String)
  deriving Repr

/-- What the next token has to be, inside of a stack of containers, the innermost first. -/
inductive State where
  /-- A value. -/
  | value (stack : List Frame)
  /-- The first item of an array, or its end. -/
  | firstItem (stack : List Frame)
  /-- A comma after an item, or the end of the array. -/
  | afterItem (items : List Json) (stack : List Frame)
  /-- The first key of an object, or its end. -/
  | firstKey (stack : List Frame)
  /-- A key. -/
  | key (entries : Entries Json) (stack : List Frame)
  /-- The colon after a key. -/
  | colon (entries : Entries Json) (key : String) (stack : List Frame)
  /-- A comma after an entry, or the end of the object. -/
  | afterEntry (entries : Entries Json) (stack : List Frame)
  deriving Repr

/-- Where reading stands after a token: in a state, or done with the outermost value. -/
inductive Progress where
  | reading (state : State)
  | done (value : Json)
  deriving Repr

/-- The number of containers that may be open at once. -/
def maxDepth : Nat := 127

/-- Hands a value to the container around it. -/
def deliver (value : Json) : List Frame → Progress
  | [] => .done value
  | .array items :: stack => .reading (.afterItem (value :: items) stack)
  | .object entries key :: stack => .reading (.afterEntry (entries.set key value) stack)

/-- Whether one more container may be opened. -/
def Mode.allows (mode : Mode) (stack : List Frame) : Bool :=
  mode == .lenient || stack.length < maxDepth

/-- The key that a string gives; the lenient reader keeps no keys. -/
def Mode.key? (mode : Mode) (pieces : List Piece) : Option String :=
  match mode with
  | .strict => text? pieces
  | .lenient => some ""

/-- The value that a token gives; the lenient reader keeps no values. -/
def Mode.scalar? (mode : Mode) : Token → Option Json
  | .null => some .null
  | .bool value => some (.bool value)
  | .number literal =>
      match mode with
      | .strict => literal.number?.map Json.number
      | .lenient => some .null
  | .string pieces => (mode.key? pieces).map Json.string
  | _ => none

/-- Takes a token that starts a value. -/
def startValue (mode : Mode) (stack : List Frame) (token : Token) : Option Progress :=
  match token with
  | .openBracket => if mode.allows stack then some (.reading (.firstItem stack)) else none
  | .openBrace => if mode.allows stack then some (.reading (.firstKey stack)) else none
  | _ => (mode.scalar? token).map fun value => deliver value stack

/-- Takes one token. -/
def step (mode : Mode) (state : State) (token : Token) : Option Progress :=
  match state, token with
  | .value stack, _ => startValue mode stack token
  | .firstItem stack, .closeBracket => some (deliver (.array []) stack)
  | .firstItem stack, _ => startValue mode (.array [] :: stack) token
  | .afterItem items stack, .comma => some (.reading (.value (.array items :: stack)))
  | .afterItem items stack, .closeBracket => some (deliver (.array items.reverse) stack)
  | .firstKey stack, .closeBrace => some (deliver (.object []) stack)
  | .firstKey stack, .string pieces =>
      (mode.key? pieces).map fun key => .reading (.colon [] key stack)
  | .key entries stack, .string pieces =>
      (mode.key? pieces).map fun key => .reading (.colon entries key stack)
  | .colon entries key stack, .colon => some (.reading (.value (.object entries key :: stack)))
  | .afterEntry entries stack, .comma => some (.reading (.key entries stack))
  | .afterEntry entries stack, .closeBrace => some (deliver (.object entries) stack)
  | _, _ => none

/-- Reads on from a state to the end of the outermost value, and gives the tokens after it. -/
def readFrom (mode : Mode) : State → List Token → Option (Json × List Token)
  | _, [] => none
  | state, token :: rest =>
      match step mode state token with
      | none => none
      | some (.done value) => some (value, rest)
      | some (.reading next) => readFrom mode next rest

theorem readFrom_length {mode : Mode} {state : State} {ts rest : List Token} {value : Json}
    (h : readFrom mode state ts = some (value, rest)) : rest.length < ts.length := by
  induction ts generalizing state with
  | nil => cases h
  | cons token tail ih =>
      unfold readFrom at h
      split at h
      · cases h
      · cases h
        simp
      · exact Nat.lt_succ_of_lt (ih h)

/-! ## Values -/

/-- The value at the start of a list of tokens, and the tokens after it. -/
def read? (ts : List Token) : Option (Json × List Token) := readFrom .strict (.value []) ts

/-- The tokens after the value at the start of a list. -/
def skip? (ts : List Token) : Option (List Token) :=
  (readFrom .lenient (.value []) ts).map Prod.snd

theorem skip?_length {ts rest : List Token} (h : skip? ts = some rest) :
    rest.length < ts.length := by
  obtain ⟨_, hread, h⟩ := Option.map_eq_some_iff.1 h
  cases h
  exact readFrom_length hread

/-- The value that a text writes. -/
def ofText? (text : String) : Option Json :=
  match read? (tokens text.toList) with
  | some (value, []) => some value
  | _ => none

end ScopedCss.Json
