import ScopedCss.Proofs.Css.Layout
import ScopedCss.Stylesheet

/-! # What the three styles have in common

Blanks are optional in the texts of all styles, and so is a semicolon before a closing brace.
`essence` takes both out of a text, wherever they stand: it does not know which of them a style has
put there and which belong to an authored text.

Two texts have the same essence before whatever follows (`SameEssence`) if their parts do. So the
text of a block by any layout is compared part by part with that by the plain layout, which puts no
blanks and ends every declaration with a semicolon (`Layout.sameEssence_text`), and the essence of
what is rendered does not depend on the style (`essence_render`).
-/

set_option autoImplicit false

namespace ScopedCss.Css

/-! ## The essence of a text -/

/-- A closing brace follows, or semicolons and then a closing brace. -/
def closesNext (cs : List Char) : Bool := (cs.dropWhile (· == ';')).head? == some '\x7d'

/-- Deletes every run of semicolons that stands directly before a closing brace. -/
def dropSemicolons : List Char → List Char
  | [] => []
  | c :: cs => if c == ';' && closesNext cs then dropSemicolons cs else c :: dropSemicolons cs

def dropBlanks (cs : List Char) : List Char := cs.filter fun c => !Text.isBlank c

/-- A text without its blanks, and then without the semicolons before closing braces. -/
def essence (text : String) : String := String.ofList (dropSemicolons (dropBlanks text.toList))

example : essence ".a \x7b --x: a ; ;; \x7d\n" = ".a\x7b--x:a\x7d" := by decide +kernel

/-! ## Deleting blanks and semicolons -/

theorem dropBlanks_append (cs ds : List Char) :
    dropBlanks (cs ++ ds) = dropBlanks cs ++ dropBlanks ds :=
  List.filter_append ..

theorem dropBlanks_of_blank {cs : List Char} (h : ∀ c ∈ cs, Text.isBlank c) : dropBlanks cs = [] := by
  rw [dropBlanks, List.filter_eq_nil_iff]
  intro c hc
  simp [h c hc]

/-- That a closing brace follows is seen after the deletion as well as before it. -/
theorem closesNext_eq (cs : List Char) :
    closesNext cs = ((dropSemicolons cs).head? == some '\x7d') := by
  induction cs with
  | nil => rfl
  | cons c cs ih =>
      by_cases hc : c = ';'
      · subst hc
        have hnext : closesNext (';' :: cs) = closesNext cs := rfl
        -- what follows a deleted semicolon comes first, or the semicolon itself if it is kept
        cases hcloses : closesNext cs with
        | true => simp [dropSemicolons, hnext, hcloses, ← ih]
        | false => simp [dropSemicolons, hnext, hcloses]
      · have hnext : closesNext (c :: cs) = (some c == some '\x7d') := by
          simp [closesNext, hc]
        simp [dropSemicolons, hnext, hc]

/-- What is deleted before a text depends only on what is left of that text. -/
theorem dropSemicolons_append_congr (cs : List Char) {ds es : List Char}
    (h : dropSemicolons ds = dropSemicolons es) :
    dropSemicolons (cs ++ ds) = dropSemicolons (cs ++ es) := by
  induction cs with
  | nil => exact h
  | cons c cs ih =>
      have hnext : closesNext (cs ++ ds) = closesNext (cs ++ es) := by
        rw [closesNext_eq, closesNext_eq, ih]
      rw [List.cons_append, List.cons_append, dropSemicolons, dropSemicolons, hnext, ih]

/-! ## Texts with the same essence -/

/-- The two texts come to the same essence before whatever follows. -/
def SameEssence (cs ds : List Char) : Prop :=
  ∀ more, dropSemicolons (dropBlanks (cs ++ more)) = dropSemicolons (dropBlanks (ds ++ more))

namespace SameEssence

variable {cs ds es cs' ds' : List Char}

theorem refl (cs : List Char) : SameEssence cs cs := fun _ => rfl

theorem symm (h : SameEssence cs ds) : SameEssence ds cs := fun more => (h more).symm

theorem trans (h : SameEssence cs ds) (h' : SameEssence ds es) : SameEssence cs es :=
  fun more => (h more).trans (h' more)

theorem append (h : SameEssence cs ds) (h' : SameEssence cs' ds') :
    SameEssence (cs ++ cs') (ds ++ ds') := by
  intro more
  rw [List.append_assoc, List.append_assoc, h, dropBlanks_append ds, dropBlanks_append ds]
  exact dropSemicolons_append_congr _ (h' more)

theorem of_blank (h : ∀ c ∈ cs, Text.isBlank c) : SameEssence cs [] := by
  intro more
  rw [dropBlanks_append, dropBlanks_of_blank h]
  rfl

/-- The semicolon before a closing brace is optional. -/
theorem semicolon_brace : SameEssence [';', '\x7d'] ['\x7d'] := by
  intro more
  have hsemicolon : Text.isBlank ';' = false := by decide
  have hbrace : Text.isBlank '\x7d' = false := by decide
  have hleft : dropBlanks ([';', '\x7d'] ++ more) = ';' :: '\x7d' :: dropBlanks more := by
    simp [dropBlanks, hsemicolon, hbrace]
  have hright : dropBlanks (['\x7d'] ++ more) = '\x7d' :: dropBlanks more := by
    simp [dropBlanks, hbrace]
  rw [hleft, hright]
  rfl

theorem essence_eq {text other : String} (h : SameEssence text.toList other.toList) :
    essence text = essence other := by
  have hnil := h []
  rw [List.append_nil, List.append_nil] at hnil
  rw [essence, essence, hnil]

end SameEssence

/-! ## Layouts -/

namespace Layout

/-- Nothing is put between the parts of a text, and every declaration ends with a semicolon. -/
def plain : Layout := { minified with semicolon := true, bare := fun _ _ => rfl }

variable (layout : Layout)

theorem sameEssence_declaration (d : Declaration) :
    SameEssence (layout.declaration d) (plain.declaration d) := by
  have hgap : SameEssence (':' :: layout.gap) [':'] :=
    (SameEssence.refl [':']).append (.of_blank layout.gap_blank)
  exact ((SameEssence.refl d.name.toList).append hgap).append (.refl d.value.toList)

theorem sameEssence_declarations (level : Nat) (ds : List Declaration) :
    SameEssence (layout.declarations level ds) (plain.declarations level ds) := by
  induction ds with
  | nil => exact .refl []
  | cons d ds ih =>
      have hmargin := SameEssence.of_blank (layout.margin_blank level)
      have hline := (hmargin.append (layout.sameEssence_declaration d)).append (.refl [';'])
      exact hline.append ih

/-- The declarations of a block in which nothing is nested may leave out their last semicolon. -/
theorem sameEssence_dropLast (level : Nat) (ds : List Declaration) :
    SameEssence ((layout.declarations level ds).dropLast ++ ['\x7d'])
      (layout.declarations level ds ++ ['\x7d']) := by
  rcases List.eq_nil_or_concat ds with rfl | ⟨init, last, rfl⟩
  · exact .refl ['\x7d']
  · have hlast : layout.declarations level (init.concat last) =
        layout.declarations level init ++ (layout.margin level ++ layout.declaration last)
          ++ [';'] := by
      simp [declarations]
    rw [hlast, List.dropLast_concat, List.append_assoc _ [';']]
    exact (SameEssence.refl _).append SameEssence.semicolon_brace.symm

/-- What stands after the opening brace of a block. -/
theorem sameEssence_body (level : Nat) (ds : List Declaration) {children : List Block}
    (hchildren : SameEssence (layout.textAll (level + 1) children)
      (plain.textAll (level + 1) children)) :
    SameEssence
      ((if layout.semicolon || !children.isEmpty then layout.declarations (level + 1) ds
          else (layout.declarations (level + 1) ds).dropLast)
        ++ layout.textAll (level + 1) children ++ layout.closing level ++ ['\x7d'])
      (plain.declarations (level + 1) ds ++ plain.textAll (level + 1) children ++ ['\x7d']) := by
  have hds := layout.sameEssence_declarations (level + 1) ds
  by_cases hended : layout.semicolon || !children.isEmpty
  · rw [if_pos hended, List.append_assoc _ (layout.closing level)]
    have hclosing : SameEssence (layout.closing level ++ ['\x7d']) ['\x7d'] :=
      (SameEssence.of_blank (layout.closing_blank level)).append (.refl ['\x7d'])
    exact (hds.append hchildren).append hclosing
  · -- nothing stands between the last declaration and the closing brace
    rw [if_neg hended]
    rw [Bool.or_eq_true, not_or, Bool.not_eq_true, Bool.not_eq_true', Bool.not_eq_false] at hended
    obtain ⟨hsemicolon, hempty⟩ := hended
    obtain rfl := List.isEmpty_iff.1 hempty
    rw [layout.bare hsemicolon, textAll, textAll, List.append_nil, List.append_nil, List.append_nil]
    exact (layout.sameEssence_dropLast (level + 1) ds).trans (hds.append (.refl ['\x7d']))

mutual

/-- Whatever the layout, the text of a block has the essence of its plain text. -/
theorem sameEssence_text (level : Nat) : ∀ block : Block,
    SameEssence (layout.text level block) (plain.text level block)
  | ⟨prelude, ds, children⟩ => by
      have hmargin := SameEssence.of_blank (layout.margin_blank level)
      have hgap := SameEssence.of_blank layout.gap_blank
      have hhead := ((hmargin.append (.refl prelude.toList)).append hgap).append (.refl ['\x7b'])
      have hbody := layout.sameEssence_body level ds (sameEssence_textAll (level + 1) children)
      have htext := hhead.append hbody
      simpa [text, plain, minified] using htext

theorem sameEssence_textAll (level : Nat) : ∀ blocks : List Block,
    SameEssence (layout.textAll level blocks) (plain.textAll level blocks)
  | [] => .refl []
  | block :: rest =>
      (sameEssence_text level block).append (sameEssence_textAll level rest)

end

end Layout

/-! ## Styles -/

/-- The text of blocks by the plain layout. -/
def plainText (blocks : List Block) : String := String.ofList (Layout.plain.textAll 0 blocks)

/-- Whatever the style, what is rendered has the essence of the plain text. -/
theorem essence_render (config : Config) (blocks : List Block) :
    essence (render config blocks) = essence (plainText blocks) := by
  -- the text is that of its layout up to a line end on either side, and line ends are blank
  have hend := SameEssence.of_blank (lineEnd_blank config)
  have hstart : SameEssence (render config blocks).toList
      (lineEnd config ++ (render config blocks).toList) :=
    (hend.append (.refl (render config blocks).toList)).symm
  have htext : SameEssence ((Layout.ofConfig config).textAll 0 blocks ++ lineEnd config)
      (Layout.plain.textAll 0 blocks ++ []) :=
    ((Layout.ofConfig config).sameEssence_textAll 0 blocks).append hend
  rw [lineEnd_append_render] at hstart
  rw [List.append_nil] at htext
  apply SameEssence.essence_eq
  rw [plainText, String.toList_ofList]
  exact hstart.trans htext

end ScopedCss.Css

namespace ScopedCss

/-- **The styles differ in optional characters only.** Whatever rules, conditions and style sheets
are written, and whatever texts stand in them, two configurations give texts with the same essence:
that of the plain text of the blocks. -/
theorem Stylesheet.essence_emit (config other : Config) (rules : List Rule)
    (conditions : Condition.Forest) (sheet : Stylesheet) :
    (Css.essence (emitRules config rules conditions) =
        Css.essence (emitRules other rules conditions) ∧
      Css.essence (emitRules config rules conditions) =
        Css.essence (Css.plainText (ruleBlocks rules conditions))) ∧
    Css.essence { sheet with config := config }.emit =
        Css.essence { sheet with config := other }.emit ∧
      Css.essence { sheet with config := config }.emit =
        Css.essence (Css.plainText sheet.blocks) := by
  have hblocks : ∀ config, { sheet with config := config }.blocks = sheet.blocks := fun _ => rfl
  simp only [emitRules, emit, hblocks, Css.essence_render, and_self]

end ScopedCss
