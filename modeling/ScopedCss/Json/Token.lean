import ScopedCss.Json.Basic
import ScopedCss.Number.Decimal

/-! # Tokens of JSON

The text of a JSON value as a list of tokens. The tokens are read by the grammar alone: a number
keeps its decimal and a string its escapes, so that a number out of range and half of a surrogate
pair are still tokens. Where no token starts, the list ends with the token `invalid`.
-/

set_option autoImplicit false

namespace ScopedCss.Json

/-- A number as it is written. -/
structure Literal where
  value : Decimal
  /-- There is neither a fraction nor an exponent. -/
  isInteger : Bool
  deriving DecidableEq, Repr

/-- A piece of a string: a character, or the unit of UTF-16 that an escape `\u` gives. -/
inductive Piece where
  | char (c : Char)
  | unit (value : Nat)
  deriving DecidableEq, Repr

inductive Token where
  | openBrace
  | closeBrace
  | openBracket
  | closeBracket
  | colon
  | comma
  | null
  | bool (value : Bool)
  | number (literal : Literal)
  | string (pieces : List Piece)
  | invalid
  deriving DecidableEq, Repr

/-! ## Strings -/

/-- The value of a hexadecimal digit. -/
def hexValue? (c : Char) : Option Nat :=
  if c.isDigit then some (c.toNat - '0'.toNat)
  else if 'a' ≤ c ∧ c ≤ 'f' then some (c.toNat - 'a'.toNat + 10)
  else if 'A' ≤ c ∧ c ≤ 'F' then some (c.toNat - 'A'.toNat + 10)
  else none

/-- The unit that four hexadecimal digits give. -/
def unit? (a b c d : Char) : Option Nat := do
  return ((← hexValue? a) * 16 + (← hexValue? b)) * 256 + (← hexValue? c) * 16 + (← hexValue? d)

/-- The character that a backslash and one more character stand for. -/
def escaped? : Char → Option Char
  | '"' => some '"'
  | '\\' => some '\\'
  | '/' => some '/'
  | 'b' => some '\x08'
  | 'f' => some '\x0c'
  | 'n' => some '\n'
  | 'r' => some '\r'
  | 't' => some '\t'
  | _ => none

/-- The pieces of a string up to its closing quote, and the text after that. Control characters
have to be escaped. -/
def pieces? : List Char → Option (List Piece × List Char)
  | [] => none
  | '"' :: rest => some ([], rest)
  | '\\' :: 'u' :: a :: b :: c :: d :: rest => do
      let value ← unit? a b c d
      let (pieces, after) ← pieces? rest
      return (.unit value :: pieces, after)
  | '\\' :: c :: rest => do
      let value ← escaped? c
      let (pieces, after) ← pieces? rest
      return (.char value :: pieces, after)
  | c :: rest =>
      if c = '\\' ∨ c.toNat < 0x20 then none
      else do
        let (pieces, after) ← pieces? rest
        return (.char c :: pieces, after)

theorem pieces?_length {cs after : List Char} {pieces : List Piece}
    (h : pieces? cs = some (pieces, after)) : after.length < cs.length := by
  fun_induction pieces? cs generalizing pieces with
  | case1 => cases h
  | case2 rest =>
      cases h
      simp
  | case3 a b c d rest ih =>
      obtain ⟨_, _, h⟩ := Option.bind_eq_some_iff.1 h
      obtain ⟨⟨_, _⟩, hrest, h⟩ := Option.bind_eq_some_iff.1 h
      cases h
      have := ih hrest
      simp
      omega
  | case4 c rest _ ih =>
      obtain ⟨_, _, h⟩ := Option.bind_eq_some_iff.1 h
      obtain ⟨⟨_, _⟩, hrest, h⟩ := Option.bind_eq_some_iff.1 h
      cases h
      have := ih hrest
      simp
      omega
  | case5 => cases h
  | case6 c rest _ _ _ _ ih =>
      obtain ⟨⟨_, _⟩, hrest, h⟩ := Option.bind_eq_some_iff.1 h
      cases h
      have := ih hrest
      simp
      omega

/-! ## Numbers -/

/-- The digits at the start of a text. -/
def leadingDigits (cs : List Char) : List Char := cs.takeWhile Char.isDigit

/-- The text after the digits at its start. -/
def afterDigits (cs : List Char) : List Char := cs.dropWhile Char.isDigit

theorem length_afterDigits_le (cs : List Char) : (afterDigits cs).length ≤ cs.length :=
  (List.dropWhile_sublist _).length_le

/-- The digits of a fraction, if the text starts with a point. -/
def fraction? : List Char → Option (List Char × List Char)
  | '.' :: rest =>
      if leadingDigits rest = [] then none else some (leadingDigits rest, afterDigits rest)
  | cs => some ([], cs)

/-- The value of an exponent from its sign and the text after the sign. -/
def signedExponent? (negative : Bool) (cs : List Char) : Option (Option Int × List Char) :=
  if leadingDigits cs = [] then none
  else
    let magnitude : Int := Decimal.ofDigits (leadingDigits cs)
    some (some (if negative then -magnitude else magnitude), afterDigits cs)

/-- The exponent, if the text starts with one. -/
def exponent? : List Char → Option (Option Int × List Char)
  | c :: rest =>
      if c = 'e' ∨ c = 'E' then
        match rest with
        | '+' :: digits => signedExponent? false digits
        | '-' :: digits => signedExponent? true digits
        | digits => signedExponent? false digits
      else some (none, c :: rest)
  | [] => some (none, [])

/-- The number whose magnitude starts the text: digits without leading zeros, a fraction and an
exponent. -/
def magnitude? (negative : Bool) (cs : List Char) : Option (Literal × List Char) := do
  let whole := leadingDigits cs
  if whole = [] ∨ (whole.head? = some '0' ∧ whole ≠ ['0']) then none
  let (fraction, afterFraction) ← fraction? (afterDigits cs)
  let (exponent, rest) ← exponent? afterFraction
  return (⟨Decimal.ofParts negative whole fraction (exponent.getD 0),
    fraction.isEmpty && exponent.isNone⟩, rest)

theorem fraction?_length {cs rest digits : List Char} (h : fraction? cs = some (digits, rest)) :
    rest.length ≤ cs.length := by
  unfold fraction? at h
  split at h
  · next tail =>
      split at h
      · cases h
      · cases h
        exact Nat.le_trans (length_afterDigits_le tail) (Nat.le_succ _)
  · cases h
    exact Nat.le_refl _

theorem signedExponent?_length {negative : Bool} {cs rest : List Char} {exponent : Option Int}
    (h : signedExponent? negative cs = some (exponent, rest)) : rest.length ≤ cs.length := by
  unfold signedExponent? at h
  split at h
  · cases h
  · cases h
    exact length_afterDigits_le cs

theorem exponent?_length {cs rest : List Char} {exponent : Option Int}
    (h : exponent? cs = some (exponent, rest)) : rest.length ≤ cs.length := by
  unfold exponent? at h
  split at h
  · split at h
    · split at h <;>
        exact Nat.le_trans (signedExponent?_length h) (by simp <;> omega)
    · cases h
      exact Nat.le_refl _
  · cases h
    exact Nat.le_refl _

theorem magnitude?_length {negative : Bool} {cs rest : List Char} {literal : Literal}
    (h : magnitude? negative cs = some (literal, rest)) :
    rest.length ≤ (afterDigits cs).length := by
  unfold magnitude? at h
  simp only [Option.bind_eq_bind] at h
  split at h
  · cases h
  · obtain ⟨⟨fraction, tail⟩, hfraction, h⟩ := Option.bind_eq_some_iff.1 h
    obtain ⟨⟨exponent, after⟩, hexponent, h⟩ := Option.bind_eq_some_iff.1 h
    cases h
    exact Nat.le_trans (exponent?_length hexponent) (fraction?_length hfraction)

theorem afterDigits_cons {c : Char} (h : c.isDigit = true) (cs : List Char) :
    afterDigits (c :: cs) = afterDigits cs := by
  simp [afterDigits, h]

/-! ## Token lists -/

/-- A blank between tokens. -/
def isBlank (c : Char) : Bool := c == ' ' || c == '\t' || c == '\n' || c == '\r'

/-- The word at the start of a text, and the text after it. -/
def word? (cs : List Char) : Option (Token × List Char) :=
  [("null", Token.null), ("true", .bool true), ("false", .bool false)].findSome? fun entry =>
    if cs.take entry.1.length = entry.1.toList then some (entry.2, cs.drop entry.1.length) else none

/-- The token that a character starts, and the text after it. -/
def tokenFrom? (c : Char) (rest : List Char) : Option (Token × List Char) :=
  match c with
  | '\x7b' => some (.openBrace, rest)
  | '\x7d' => some (.closeBrace, rest)
  | '[' => some (.openBracket, rest)
  | ']' => some (.closeBracket, rest)
  | ':' => some (.colon, rest)
  | ',' => some (.comma, rest)
  | '"' => (pieces? rest).map fun found => (.string found.1, found.2)
  | '-' => (magnitude? true rest).map fun found => (.number found.1, found.2)
  | _ =>
      if c.isDigit then (magnitude? false (c :: rest)).map fun found => (.number found.1, found.2)
      else word? (c :: rest)

theorem word?_length {cs rest : List Char} {token : Token} (h : word? cs = some (token, rest)) :
    rest.length < cs.length := by
  unfold word? at h
  obtain ⟨entry, hentry, h⟩ := List.exists_of_findSome?_eq_some h
  split at h
  · next hword =>
      cases h
      have hle := congrArg List.length hword
      have hpos : 0 < entry.1.length := by
        simp only [List.mem_cons, List.not_mem_nil, or_false] at hentry
        rcases hentry with rfl | rfl | rfl <;> decide
      simp only [String.length_toList, List.length_take, List.length_drop] at hle ⊢
      omega
  · cases h

theorem tokenFrom?_length {c : Char} {cs rest : List Char} {token : Token}
    (h : tokenFrom? c cs = some (token, rest)) : rest.length < (c :: cs).length := by
  unfold tokenFrom? at h
  split at h
  iterate 6
    · cases h
      simp
  · obtain ⟨_, hfound, h⟩ := Option.map_eq_some_iff.1 h
    cases h
    exact Nat.lt_succ_of_lt (pieces?_length hfound)
  · obtain ⟨_, hfound, h⟩ := Option.map_eq_some_iff.1 h
    cases h
    exact Nat.lt_succ_of_le
      (Nat.le_trans (magnitude?_length hfound) (length_afterDigits_le cs))
  · split at h
    · next hdigit =>
        obtain ⟨_, hfound, h⟩ := Option.map_eq_some_iff.1 h
        cases h
        have hle := magnitude?_length hfound
        rw [afterDigits_cons hdigit] at hle
        exact Nat.lt_succ_of_le (Nat.le_trans hle (length_afterDigits_le cs))
    · exact word?_length h

def tokens (cs : List Char) : List Token :=
  match _hcs : cs.dropWhile isBlank with
  | [] => []
  | c :: rest =>
      match _htoken : tokenFrom? c rest with
      | none => [.invalid]
      | some (token, after) => token :: tokens after
termination_by cs.length
decreasing_by
  have hle := (List.dropWhile_sublist isBlank : (cs.dropWhile isBlank).Sublist cs).length_le
  have hlt := tokenFrom?_length _htoken
  rw [_hcs] at hle
  omega

end ScopedCss.Json
