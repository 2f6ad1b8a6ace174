import ScopedCss.Condition
import ScopedCss.Config.OfText
import ScopedCss.Definition.Basic
import ScopedCss.Property

/-! # CSS

The blocks that a style sheet is written as, and the three shapes of their text.
-/

set_option autoImplicit false

namespace ScopedCss

/-! ## Blocks

A block has a prelude, declarations and nested blocks. Rules and conditions without any declaration
make no block; keyframes and font faces always make one.
-/

/-- A block of CSS. -/
structure Css.Block where
  prelude : String
  declarations : List Css.Declaration
  children : List Css.Block
  deriving Repr

def Rule.toCss? (rule : Rule) : Option Css.Block :=
  if rule.isEmpty then none
  else some ⟨rule.selector, rule.declarations.map Declaration.written, []⟩

namespace Condition

mutual

/-- The block of a condition: its rules, then the conditions nested in it. -/
def Node.toCss? : Node → Option Css.Block
  | ⟨condition, rules, children⟩ =>
      if rules.all Rule.isEmpty && Forest.isEmpty children then none
      else some ⟨condition.text, [], rules.filterMap Rule.toCss? ++ Forest.toCss children⟩

def Forest.toCss : List (Condition × Node) → List Css.Block
  | [] => []
  | (_, node) :: rest => node.toCss?.toList ++ Forest.toCss rest

end

end Condition

/-- The declarations of a block as they are written: the custom properties, then the
properties. -/
def Block.written (block : Block) : List Css.Declaration :=
  block.custom.map (fun entry => Declaration.written ⟨.custom, entry.1, .text entry.2⟩)
    ++ block.properties.flatMap fun entry => Property.written entry.1 entry.2

/-- The block of an animation, with a block for each of its stops. -/
def Keyframes.toCss (keyframes : Keyframes) : Css.Block :=
  ⟨"@keyframes " ++ keyframes.name, [],
    keyframes.frames.map fun frame => ⟨frame.1, frame.2.written, []⟩⟩

/-- The name of a font family in quotes, unless it is quoted already. -/
def FontFace.quotedFamily (fontFace : FontFace) : String :=
  match fontFace.family.toList with
  | '"' :: _ | '\'' :: _ => fontFace.family
  | _ => "\"" ++ fontFace.family ++ "\""

/-- The block of a font face, whose first declaration names the family. -/
def FontFace.toCss (fontFace : FontFace) : Css.Block :=
  ⟨"@font-face", ⟨"font-family", fontFace.quotedFamily⟩ :: fontFace.block.written, []⟩

/-! ## Writing blocks

The three shapes differ in blanks and in the semicolon before a closing brace only.
-/

namespace Css

/-- The blanks before a line of pretty output. -/
def indentation (width level : Nat) : String := String.ofList (List.replicate (level * width) ' ')

mutual

/-- A block in pretty output: each declaration and each brace ends a line, and what stands in the
block is indented one level deeper. -/
def Block.pretty (width level : Nat) : Block → String
  | ⟨prelude, declarations, children⟩ =>
      indentation width level ++ prelude ++ " \x7b\n"
        ++ String.join (declarations.map fun d => indentation width (level + 1) ++ d.text ++ ";\n")
        ++ prettyAll width (level + 1) children
        ++ indentation width level ++ "\x7d\n"

def prettyAll (width level : Nat) : List Block → String
  | [] => ""
  | block :: rest => block.pretty width level ++ prettyAll width level rest

end

mutual

/-- A block on one line: what stands in it is separated by blanks. -/
def Block.compact : Block → String
  | ⟨prelude, declarations, children⟩ =>
      prelude ++ " \x7b" ++ String.join (declarations.map fun d => " " ++ d.text ++ ";")
        ++ compactAll children ++ " \x7d"

/-- Nested blocks on one line, each after a blank. -/
def compactAll : List Block → String
  | [] => ""
  | block :: rest => " " ++ block.compact ++ compactAll rest

end

/-- A declaration without optional blanks. -/
def Declaration.minified (d : Declaration) : String := d.name ++ ":" ++ d.value

mutual

/-- A block without optional characters: semicolons stand only between declarations, and between
the last declaration and nested blocks. -/
def Block.minified : Block → String
  | ⟨prelude, declarations, children⟩ =>
      prelude ++ "\x7b" ++ String.intercalate ";" (declarations.map Declaration.minified)
        ++ (if declarations.isEmpty || children.isEmpty then "" else ";")
        ++ minifiedAll children ++ "\x7d"

def minifiedAll : List Block → String
  | [] => ""
  | block :: rest => block.minified ++ minifiedAll rest

end

/-- The text of blocks in the style of a configuration. -/
def render (config : Config) (blocks : List Block) : String :=
  match config.output with
  | .pretty => prettyAll config.indentWidth 0 blocks
  | .compact => String.join (blocks.map fun block => block.compact ++ "\n")
  | .minified => minifiedAll blocks

end Css

end ScopedCss
