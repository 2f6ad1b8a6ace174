import Mathlib.Data.List.Basic
import ScopedCss.Css
import ScopedCss.Text

/-! # One layout for the three styles

The three styles of output write the same characters and differ in what they put between them.
`Layout` is what a style puts there, and `Layout.text` writes blocks by any layout.

`lineEnd_append_render` says that the text of a style is the text by its layout. The pretty and the
compact style end lines where a layout starts them, so both texts are completed by one line end, at
the start of the one and at the end of the other.
-/

set_option autoImplicit false

namespace ScopedCss.Css

/-! ## Layouts -/

/-- What stands between the parts of a text; it is blank. -/
structure Layout where
  /-- Before a block or a declaration that stands in so many blocks. -/
  margin : Nat → List Char
  /-- Before the closing brace of a block that stands in so many blocks. -/
  closing : Nat → List Char
  /-- Before an opening brace, and after the colon of a declaration. -/
  gap : List Char
  /-- Whether a declaration ends with a semicolon also if it is the last thing in its block. -/
  semicolon : Bool
  /-- A layout without that semicolon puts nothing in its place. -/
  bare : semicolon = false → ∀ level, closing level = []
  margin_blank : ∀ level, ∀ c ∈ margin level, Text.isBlank c
  closing_blank : ∀ level, ∀ c ∈ closing level, Text.isBlank c
  gap_blank : ∀ c ∈ gap, Text.isBlank c

namespace Layout

def declaration (layout : Layout) (d : Declaration) : List Char :=
  d.name.toList ++ ':' :: layout.gap ++ d.value.toList

/-- Declarations at a level, each with its semicolon. -/
def declarations (layout : Layout) (level : Nat) (ds : List Declaration) : List Char :=
  ds.flatMap fun d => layout.margin level ++ layout.declaration d ++ [';']

mutual

/-- The text of a block that stands in so many blocks. -/
def text (layout : Layout) (level : Nat) : Block → List Char
  | ⟨prelude, ds, children⟩ =>
      layout.margin level ++ prelude.toList ++ layout.gap ++ '\x7b' ::
        ((if layout.semicolon || !children.isEmpty then layout.declarations (level + 1) ds
            else (layout.declarations (level + 1) ds).dropLast)
          ++ textAll layout (level + 1) children ++ layout.closing level ++ ['\x7d'])

def textAll (layout : Layout) (level : Nat) : List Block → List Char
  | [] => []
  | block :: rest => layout.text level block ++ layout.textAll level rest

end

/-- A new line that is indented so far. -/
def newLine (width level : Nat) : List Char := '\n' :: List.replicate (level * width) ' '

theorem newLine_blank (width level : Nat) : ∀ c ∈ newLine width level, Text.isBlank c := by
  intro c hc
  rcases List.mem_cons.1 hc with rfl | hc
  · decide
  · rw [(List.mem_replicate.1 hc).2]
    decide

/-- Every declaration and every brace stands on a line of its own, indented by its level. -/
def pretty (width : Nat) : Layout where
  margin := newLine width
  closing := newLine width
  gap := [' ']
  semicolon := true
  bare := fun h => absurd h (by decide)
  margin_blank := newLine_blank width
  closing_blank := newLine_blank width
  gap_blank := List.forall_mem_singleton.2 (by decide)

/-- Every outermost block stands on a line of its own, and there is a blank before everything in
it. -/
def compact : Layout where
  margin := fun level => if level = 0 then ['\n'] else [' ']
  closing := fun _ => [' ']
  gap := [' ']
  semicolon := true
  bare := fun h => absurd h (by decide)
  margin_blank := by
    intro level
    by_cases hlevel : level = 0
    · rw [if_pos hlevel]
      exact List.forall_mem_singleton.2 (by decide)
    · rw [if_neg hlevel]
      exact List.forall_mem_singleton.2 (by decide)
  closing_blank := fun _ => List.forall_mem_singleton.2 (by decide)
  gap_blank := List.forall_mem_singleton.2 (by decide)

/-- Nothing is put anywhere, and a last semicolon is left out. -/
def minified : Layout where
  margin := fun _ => []
  closing := fun _ => []
  gap := []
  semicolon := false
  bare := fun _ _ => rfl
  margin_blank := fun _ => List.forall_mem_nil _
  closing_blank := fun _ => List.forall_mem_nil _
  gap_blank := List.forall_mem_nil _

/-- The layout of the style of a configuration. -/
def ofConfig (config : Config) : Layout :=
  match config.output with
  | .pretty => pretty config.indentWidth
  | .compact => compact
  | .minified => minified

end Layout

/-- What ends the lines of a style, if it has lines. -/
def lineEnd (config : Config) : List Char :=
  match config.output with
  | .pretty => ['\n']
  | .compact => ['\n']
  | .minified => []

theorem lineEnd_blank (config : Config) : ∀ c ∈ lineEnd config, Text.isBlank c := by
  unfold lineEnd
  cases config.output with
  | pretty => exact List.forall_mem_singleton.2 (by decide)
  | compact => exact List.forall_mem_singleton.2 (by decide)
  | minified => exact List.forall_mem_nil _

/-! ## The pretty style -/

theorem toList_indentation (width level : Nat) :
    (indentation width level).toList = List.replicate (level * width) ' ' := by
  rw [indentation, String.toList_ofList]

/-- The line end before declarations comes to stand after them. -/
theorem pretty_declarations (width level : Nat) (ds : List Declaration) :
    '\n' :: (String.join (ds.map fun d => indentation width level ++ d.text ++ ";\n")).toList =
      (Layout.pretty width).declarations level ds ++ ['\n'] := by
  rw [String.toList_join, Layout.declarations]
  induction ds with
  | nil => rfl
  | cons d ds ih =>
      rw [List.map_cons, List.flatMap_cons, List.flatMap_cons, List.append_assoc, ← ih]
      simp only [String.toList_append, toList_indentation, Declaration.text, Layout.declaration,
        Layout.pretty, Layout.newLine, List.append_assoc, List.cons_append]
      rfl

mutual

theorem pretty_text (width level : Nat) : ∀ block : Block,
    '\n' :: (block.pretty width level).toList =
      (Layout.pretty width).text level block ++ ['\n']
  | ⟨prelude, ds, children⟩ => by
      have hds := pretty_declarations width (level + 1) ds
      have hchildren := pretty_textAll width (level + 1) children
      have hopen : " \x7b\n".toList = [' ', '\x7b', '\n'] := by decide
      have hclose : "\x7d\n".toList = ['\x7d', '\n'] := by decide
      have hsemicolon : (Layout.pretty width).semicolon = true := rfl
      rw [Layout.text, hsemicolon, Bool.true_or, if_pos rfl, Block.pretty]
      simp only [String.toList_append, toList_indentation, hopen, hclose]
      generalize (String.join _).toList = own at hds ⊢
      generalize (prettyAll width (level + 1) children).toList = nested at hchildren ⊢
      calc '\n' :: (List.replicate (level * width) ' ' ++ prelude.toList ++ [' ', '\x7b', '\n']
            ++ own ++ nested ++ List.replicate (level * width) ' ' ++ ['\x7d', '\n'])
          = '\n' :: List.replicate (level * width) ' ' ++ prelude.toList ++ [' '] ++ '\x7b' ::
              ('\n' :: own ++ nested ++ List.replicate (level * width) ' ' ++ ['\x7d', '\n']) := by
            simp
        _ = '\n' :: List.replicate (level * width) ' ' ++ prelude.toList ++ [' '] ++ '\x7b' ::
              ((Layout.pretty width).declarations (level + 1) ds ++ '\n' :: nested
                ++ List.replicate (level * width) ' ' ++ ['\x7d', '\n']) := by
            rw [hds]
            simp
        _ = '\n' :: List.replicate (level * width) ' ' ++ prelude.toList ++ [' '] ++ '\x7b' ::
              ((Layout.pretty width).declarations (level + 1) ds
                ++ (Layout.pretty width).textAll (level + 1) children
                ++ '\n' :: List.replicate (level * width) ' ' ++ ['\x7d', '\n']) := by
            rw [hchildren]
            simp
        _ = _ := by
            simp [Layout.pretty, Layout.newLine]

theorem pretty_textAll (width level : Nat) : ∀ blocks : List Block,
    '\n' :: (prettyAll width level blocks).toList =
      (Layout.pretty width).textAll level blocks ++ ['\n']
  | [] => rfl
  | block :: rest => by
      have hblock := pretty_text width level block
      have hrest := pretty_textAll width level rest
      rw [prettyAll, String.toList_append, ← List.cons_append, hblock, List.append_assoc,
        List.singleton_append, hrest, Layout.textAll, List.append_assoc]

end

/-! ## The compact style -/

theorem compact_declarations (level : Nat) (ds : List Declaration) :
    (String.join (ds.map fun d => " " ++ d.text ++ ";")).toList =
      Layout.compact.declarations (level + 1) ds := by
  rw [String.toList_join, Layout.declarations]
  induction ds with
  | nil => rfl
  | cons d ds ih =>
      rw [List.map_cons, List.flatMap_cons, List.flatMap_cons, ih]
      simp only [String.toList_append, Declaration.text, Layout.declaration, Layout.compact,
        List.append_assoc, List.cons_append]
      rfl

mutual

theorem compact_text (level : Nat) : ∀ block : Block,
    Layout.compact.margin level ++ block.compact.toList = Layout.compact.text level block
  | ⟨prelude, ds, children⟩ => by
      have hopen : " \x7b".toList = [' ', '\x7b'] := by decide
      have hclose : " \x7d".toList = [' ', '\x7d'] := by decide
      have hsemicolon : Layout.compact.semicolon = true := rfl
      rw [Layout.text, hsemicolon, Bool.true_or, if_pos rfl, Block.compact]
      simp only [String.toList_append, hopen, hclose, compact_declarations level,
        compact_textAll level children]
      simp [Layout.compact]

theorem compact_textAll (level : Nat) : ∀ blocks : List Block,
    (compactAll blocks).toList = Layout.compact.textAll (level + 1) blocks
  | [] => rfl
  | block :: rest => by
      have hblock := compact_text (level + 1) block
      have hrest := compact_textAll level rest
      have hmargin : Layout.compact.margin (level + 1) = " ".toList := rfl
      rw [compactAll, String.toList_append, String.toList_append, hrest, Layout.textAll, ← hblock,
        hmargin]

end

/-- The line end after each outermost block comes to stand before the next one. -/
theorem compact_lines (blocks : List Block) :
    '\n' :: (String.join (blocks.map fun block => block.compact ++ "\n")).toList =
      Layout.compact.textAll 0 blocks ++ ['\n'] := by
  rw [String.toList_join]
  induction blocks with
  | nil => rfl
  | cons block blocks ih =>
      have hblock := compact_text 0 block
      have hmargin : Layout.compact.margin 0 = ['\n'] := rfl
      have hend : "\n".toList = ['\n'] := by decide
      rw [List.map_cons, List.flatMap_cons, String.toList_append, hend, Layout.textAll, ← hblock,
        hmargin, List.append_assoc (['\n'] ++ block.compact.toList), ← ih]
      simp

/-! ## The minified style -/

/-- Semicolons between declarations, and one after the last, are one after each. -/
theorem intercalate_append_sep {α : Type} (sep : List α) {pieces : List (List α)}
    (h : pieces ≠ []) :
    List.intercalate sep pieces ++ sep = pieces.flatMap fun piece => piece ++ sep := by
  induction pieces with
  | nil => exact absurd rfl h
  | cons piece rest ih =>
      cases rest with
      | nil => simp
      | cons second rest =>
          have hrest := ih (List.cons_ne_nil second rest)
          rw [List.intercalate_cons_cons, List.append_assoc, hrest]
          rfl

theorem minified_declarations (level : Nat) (ds : List Declaration) (ended : Bool) :
    (String.intercalate ";" (ds.map Declaration.minified)).toList
        ++ (if ds.isEmpty || !ended then "" else ";").toList =
      if ended then Layout.minified.declarations level ds
      else (Layout.minified.declarations level ds).dropLast := by
  have hsep : ";".toList = [';'] := by decide
  have hpiece : ∀ d : Declaration, d.minified.toList = Layout.minified.declaration d := by
    intro d
    have hcolon : ":".toList = [':'] := by decide
    simp [Declaration.minified, Layout.declaration, Layout.minified, hcolon]
  have hpieces : Layout.minified.declarations level ds =
      ((ds.map Declaration.minified).map String.toList).flatMap fun piece => piece ++ [';'] := by
    unfold Layout.declarations
    rw [List.map_map, List.flatMap_map]
    simp only [Function.comp_apply, hpiece]
    rfl
  rw [String.toList_intercalate, hsep]
  cases ds with
  | nil => cases ended <;> rfl
  | cons d ds =>
      have hne : ((d :: ds).map Declaration.minified).map String.toList ≠ [] :=
        List.cons_ne_nil _ _
      rw [hpieces, ← intercalate_append_sep [';'] hne]
      cases ended with
      | true =>
          have hlast : (if (d :: ds).isEmpty || !true then "" else ";").toList = [';'] := hsep
          rw [if_pos rfl, hlast]
      | false =>
          rw [if_neg Bool.false_ne_true, List.dropLast_concat]
          exact List.append_nil _

mutual

theorem minified_text (level : Nat) : ∀ block : Block,
    block.minified.toList = Layout.minified.text level block
  | ⟨prelude, ds, children⟩ => by
      have hds := minified_declarations (level + 1) ds (!children.isEmpty)
      have hchildren := minified_textAll (level + 1) children
      have hopen : "\x7b".toList = ['\x7b'] := by decide
      have hclose : "\x7d".toList = ['\x7d'] := by decide
      have hsemicolon : Layout.minified.semicolon = false := rfl
      rw [Bool.not_not] at hds
      rw [Layout.text, hsemicolon, Bool.false_or, ← hds, ← hchildren, Block.minified]
      simp only [String.toList_append, hopen, hclose]
      simp [Layout.minified]

theorem minified_textAll (level : Nat) : ∀ blocks : List Block,
    (minifiedAll blocks).toList = Layout.minified.textAll level blocks
  | [] => rfl
  | block :: rest => by
      rw [minifiedAll, String.toList_append, minified_text level block, minified_textAll level rest,
        Layout.textAll]

end

/-- **A style is its layout.** -/
theorem lineEnd_append_render (config : Config) (blocks : List Block) :
    lineEnd config ++ (render config blocks).toList =
      (Layout.ofConfig config).textAll 0 blocks ++ lineEnd config := by
  cases houtput : config.output with
  | pretty =>
      simp only [lineEnd, render, Layout.ofConfig, houtput]
      exact pretty_textAll config.indentWidth 0 blocks
  | compact =>
      simp only [lineEnd, render, Layout.ofConfig, houtput]
      exact compact_lines blocks
  | minified =>
      simp only [lineEnd, render, Layout.ofConfig, houtput]
      rw [List.nil_append, List.append_nil]
      exact minified_textAll 0 blocks

end ScopedCss.Css
