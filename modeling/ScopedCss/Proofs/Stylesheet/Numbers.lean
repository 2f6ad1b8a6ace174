import ScopedCss.Proofs.Flatten.Written
import ScopedCss.Proofs.Stylesheet.Run

/-! # Numbers in the text of a compilation

Every declaration in the text of a style sheet is an authored one, brought into CSS form.
`Stylesheet.declarations` lists them in the order of the text (`declarations_blocks`), and
`Stylesheet.numbers` the numbers among their values, which are all the numbers that are put into
text.

Of a definition they are finite, because flattening rejects it otherwise. Nobody looks at the
numbers of animations and font faces. So `Stylesheet.numbers_finite_iff` says that all numbers in
the text are finite exactly if those of the animations and font faces are.
-/

set_option autoImplicit false

namespace ScopedCss

/-! ## The declarations of blocks -/

namespace Css

mutual

/-- The declarations in a block and in the blocks nested in it, in the order of the text. -/
def Block.allDeclarations : Block → List Declaration
  | ⟨_, declarations, children⟩ => declarations ++ allDeclarations children

def allDeclarations : List Block → List Declaration
  | [] => []
  | block :: rest => block.allDeclarations ++ allDeclarations rest

end

theorem allDeclarations_eq_flatMap (blocks : List Block) :
    allDeclarations blocks = blocks.flatMap Block.allDeclarations := by
  induction blocks with
  | nil => rfl
  | cons block blocks ih => rw [allDeclarations, ih, List.flatMap_cons]

theorem allDeclarations_append (blocks more : List Block) :
    allDeclarations (blocks ++ more) = allDeclarations blocks ++ allDeclarations more := by
  rw [allDeclarations_eq_flatMap, List.flatMap_append, ← allDeclarations_eq_flatMap,
    ← allDeclarations_eq_flatMap]

/-- A block that nothing is nested in has its own declarations only. -/
theorem Block.allDeclarations_leaf (prelude : String) (declarations : List Declaration) :
    Block.allDeclarations ⟨prelude, declarations, []⟩ = declarations := by
  rw [Block.allDeclarations, Css.allDeclarations, List.append_nil]

end Css

/-! ## The declarations that are written -/

/-- The authored declarations of an animation. -/
def Keyframes.declarations (keyframes : Keyframes) : List Declaration :=
  keyframes.frames.flatMap fun frame => frame.2.declarations

/-- The declarations of a font face, the first of which names the family. -/
def FontFace.declarations (fontFace : FontFace) : List Declaration :=
  ⟨.property, "font-family", .text fontFace.quotedFamily⟩ :: fontFace.block.declarations

namespace Condition

mutual

/-- The declarations of the rules of a node and of the nodes below it. -/
def Node.declarations : Node → List Declaration
  | ⟨_, rules, children⟩ => rules.flatMap Rule.declarations ++ Forest.declarations children

def Forest.declarations : List (Condition × Node) → List Declaration
  | [] => []
  | (_, node) :: rest => node.declarations ++ Forest.declarations rest

end

end Condition

namespace Stylesheet

/-- The declarations that come from definitions. -/
def styleDeclarations (sheet : Stylesheet) : List Declaration :=
  sheet.rules.flatMap Rule.declarations ++ Condition.Forest.declarations sheet.conditions

/-- The declarations that are written of a style sheet, as they were authored. -/
def declarations (sheet : Stylesheet) : List Declaration :=
  sheet.fontFaces.flatMap FontFace.declarations
    ++ sheet.keyframes.flatMap Keyframes.declarations ++ sheet.styleDeclarations

/-- The numbers that are put into the text of a style sheet, in order. -/
def numbers (sheet : Stylesheet) : List Number :=
  sheet.declarations.filterMap fun d =>
    match d.value with
    | .number value => some value
    | .text _ => none

end Stylesheet

/-- The declarations of a block in an animation or font face are those of a rule. -/
theorem Block.written_eq (block : Block) :
    block.written = block.declarations.map Declaration.written := by
  unfold Block.written Block.declarations
  rw [List.map_append, List.map_map, List.map_flatMap]
  simp only [List.map_map]
  rfl

theorem Keyframes.allDeclarations_toCss (keyframes : Keyframes) :
    keyframes.toCss.allDeclarations = keyframes.declarations.map Declaration.written := by
  unfold Keyframes.toCss Keyframes.declarations
  rw [Css.Block.allDeclarations, List.nil_append, Css.allDeclarations_eq_flatMap,
    List.flatMap_map, List.map_flatMap]
  simp only [Css.Block.allDeclarations_leaf, Block.written_eq]

theorem FontFace.allDeclarations_toCss (fontFace : FontFace) :
    fontFace.toCss.allDeclarations = fontFace.declarations.map Declaration.written := by
  have hfamily : Declaration.written
      ⟨.property, "font-family", .text fontFace.quotedFamily⟩ =
        ⟨"font-family", fontFace.quotedFamily⟩ := by
    have hname : Property.cssName "font-family" = "font-family" := by decide
    rw [Declaration.written, hname]
    rfl
  unfold FontFace.toCss FontFace.declarations
  rw [Css.Block.allDeclarations_leaf, List.map_cons, hfamily, Block.written_eq]

/-- A rule that is left out has no declarations. -/
theorem allDeclarations_filterMap_toCss? (rules : List Rule) :
    Css.allDeclarations (rules.filterMap Rule.toCss?) =
      (rules.flatMap Rule.declarations).map Declaration.written := by
  induction rules with
  | nil => rfl
  | cons rule rules ih =>
      rw [List.flatMap_cons, List.map_append, ← ih]
      by_cases hempty : rule.isEmpty
      · have hnone : rule.declarations = [] := List.isEmpty_iff.1 hempty
        have hleft : rule.toCss? = none := by rw [Rule.toCss?, if_pos hempty]
        rw [List.filterMap_cons_none hleft, hnone, List.map_nil, List.nil_append]
      · have hmade : rule.toCss? =
            some ⟨rule.selector, rule.declarations.map Declaration.written, []⟩ := by
          rw [Rule.toCss?, if_neg hempty]
        rw [List.filterMap_cons_some hmade, Css.allDeclarations, Css.Block.allDeclarations_leaf]

namespace Condition

mutual

theorem Node.declarations_of_isEmpty : ∀ node : Node, node.isEmpty → node.declarations = []
  | ⟨_, rules, children⟩, h => by
      rw [Node.isEmpty, Bool.and_eq_true, List.all_eq_true] at h
      have hrules : rules.flatMap Rule.declarations = [] :=
        List.flatMap_eq_nil_iff.2 fun rule hrule => List.isEmpty_iff.1 (h.1 rule hrule)
      rw [Node.declarations, hrules, Forest.declarations_of_isEmpty children h.2]
      rfl

/-- An empty forest, which is left out, has no declarations. -/
theorem Forest.declarations_of_isEmpty :
    ∀ forest : List (Condition × Node), Forest.isEmpty forest → Forest.declarations forest = []
  | [], _ => rfl
  | (_, node) :: rest, h => by
      rw [Forest.isEmpty, Bool.and_eq_true] at h
      rw [Forest.declarations, Node.declarations_of_isEmpty node h.1,
        Forest.declarations_of_isEmpty rest h.2]
      rfl

end

mutual

theorem Node.allDeclarations_toCss? : ∀ node : Node,
    Css.allDeclarations node.toCss?.toList = node.declarations.map Declaration.written
  | ⟨condition, rules, children⟩ => by
      have hchildren := Forest.allDeclarations_toCss children
      by_cases hempty : rules.all Rule.isEmpty && Forest.isEmpty children
      · rw [Node.declarations_of_isEmpty ⟨condition, rules, children⟩ hempty, Node.toCss?,
          if_pos hempty]
        rfl
      · rw [Node.toCss?, if_neg hempty, Option.toList_some, Css.allDeclarations,
          Css.Block.allDeclarations, Css.allDeclarations, Css.allDeclarations_append,
          allDeclarations_filterMap_toCss?, hchildren, Node.declarations, List.map_append,
          List.nil_append, List.append_nil]

theorem Forest.allDeclarations_toCss : ∀ forest : List (Condition × Node),
    Css.allDeclarations (Forest.toCss forest) =
      (Forest.declarations forest).map Declaration.written
  | [] => rfl
  | (_, node) :: rest => by
      rw [Forest.toCss, Css.allDeclarations_append, Node.allDeclarations_toCss? node,
        Forest.allDeclarations_toCss rest, Forest.declarations, List.map_append]

end

end Condition

/-- **What is written** are the authored declarations, each in its CSS form. -/
theorem Stylesheet.allDeclarations_blocks (sheet : Stylesheet) :
    Css.allDeclarations sheet.blocks = sheet.declarations.map Declaration.written := by
  have hfontFaces : Css.allDeclarations (sheet.fontFaces.map FontFace.toCss) =
      (sheet.fontFaces.flatMap FontFace.declarations).map Declaration.written := by
    rw [Css.allDeclarations_eq_flatMap, List.flatMap_map, List.map_flatMap]
    simp only [FontFace.allDeclarations_toCss]
  have hkeyframes : Css.allDeclarations (sheet.keyframes.map Keyframes.toCss) =
      (sheet.keyframes.flatMap Keyframes.declarations).map Declaration.written := by
    rw [Css.allDeclarations_eq_flatMap, List.flatMap_map, List.map_flatMap]
    simp only [Keyframes.allDeclarations_toCss]
  have hrules : Css.allDeclarations (ruleBlocks sheet.rules sheet.conditions) =
      sheet.styleDeclarations.map Declaration.written := by
    rw [ruleBlocks, Css.allDeclarations_append, allDeclarations_filterMap_toCss?,
      Condition.Forest.allDeclarations_toCss, styleDeclarations, List.map_append]
  rw [blocks, Css.allDeclarations_append, Css.allDeclarations_append, hfontFaces, hkeyframes,
    hrules, declarations, List.map_append, List.map_append]

/-! ## Definitions contribute finite numbers -/

/-- All numbers in a block are finite if those of its properties are: custom properties are set to
texts. -/
theorem Block.finite_iff_forall_declarations {block : Block} :
    block.Finite ↔ ∀ d ∈ block.declarations, d.value.isFinite := by
  have hcustom : ∀ entry ∈ block.custom, (Value.text entry.2).isFinite := fun _ _ => rfl
  unfold Block.declarations Block.Finite
  rw [List.forall_mem_append, List.forall_mem_map, List.forall_mem_flatMap]
  simp only [List.forall_mem_map]
  exact (and_iff_right hcustom).symm

/-- All numbers in the declarations of a rule are finite. -/
def Rule.Finite (rule : Rule) : Prop := ∀ d ∈ rule.declarations, d.value.isFinite

def FiniteRules (rules : List Rule) : Prop := ∀ rule ∈ rules, rule.Finite

theorem Level.finiteRules_of_rules {target : Target} {level : Level} {rules : List Rule}
    (h : level.rules target = .ok rules) : FiniteRules rules := by
  unfold Level.rules at h
  obtain ⟨all, hall, hrules⟩ := bind_eq_ok h
  have hfinite : ∀ rule ∈ all, rule.Finite := by
    refine forall_of_mapM_eq_ok hall ?_
    intro entry _ rule hentry
    obtain ⟨selector, -, hrule⟩ := bind_eq_ok hentry
    have hblock : entry.2.Finite := Block.rule_isOk_iff.1 ⟨rule, hrule⟩
    rw [Block.rule_eq_ok hrule]
    exact Block.finite_iff_forall_declarations.1 hblock
  rw [← Except.ok.inj hrules]
  intro rule hrule
  exact hfinite rule (List.mem_filter.1 hrule).1

theorem Level.finiteRules_of_flatten {target : Target} {reject : Bool} {level : Level}
    {rules : List Rule} (h : level.flatten target reject = .ok rules) : FiniteRules rules := by
  obtain ⟨own, hown, -⟩ := bind_eq_ok h
  rw [Level.flatten_eq_ok h, ← Level.rules_eq_ok hown]
  exact Level.finiteRules_of_rules hown

/-- Flattening rejects numbers that are not finite, on every level. -/
theorem Definition.finiteRules_of_flatten {target : Target} {reject : Bool}
    {definition : Definition} {flattened : Flattened}
    (h : definition.flatten target reject = .ok flattened) {rules : List Rule}
    (hrules : flattened.Contributes rules) : FiniteRules rules := by
  have hlevels := (flatten_isOk_iff (schemaFault?_of_flatten h) reject).1 ⟨flattened, h⟩
  have hfinite : ∀ entry ∈ definition.levels, FiniteRules (entry.2.ownRules target) := by
    intro entry hentry
    obtain ⟨own, hown⟩ := hlevels entry hentry
    rw [← Level.flatten_eq_ok hown]
    exact Level.finiteRules_of_flatten hown
  exact of_contributes h hfinite hrules

/-! ## Style sheets keep finite numbers -/

namespace Condition

namespace Forest

/-- What a change adds to a node it adds to the forest. -/
theorem mem_declarations_modify {key : Condition} {change : Node → Node} {d : Declaration}
    {added : Prop} (h : ∀ node : Node, d ∈ (change node).declarations ↔ d ∈ node.declarations ∨ added)
    (forest : Forest) :
    d ∈ declarations (forest.modify key change) ↔ d ∈ declarations forest ∨ added := by
  induction forest with
  | nil =>
      have hnew : (Node.new key).declarations = [] := rfl
      simp only [modify, declarations, List.append_nil, h, hnew]
  | cons entry rest ih =>
      obtain ⟨first, node⟩ := entry
      by_cases hfirst : first = key
      · rw [modify, if_pos hfirst, declarations, declarations, List.mem_append, List.mem_append, h,
          or_right_comm]
      · rw [modify, if_neg hfirst, declarations, declarations, List.mem_append, List.mem_append, ih,
          or_assoc]

theorem mem_declarations_extend (path : List Condition) (rules : List Rule) (d : Declaration)
    (node : Node) :
    d ∈ (node.extend path rules).declarations ↔
      d ∈ node.declarations ∨ d ∈ rules.flatMap Rule.declarations := by
  induction path generalizing node with
  | nil =>
      obtain ⟨condition, own, children⟩ := node
      rw [Node.extend, Node.declarations, Node.declarations, List.flatMap_append]
      simp only [List.mem_append, or_right_comm]
  | cons key path ih =>
      obtain ⟨condition, own, children⟩ := node
      rw [Node.extend, Node.declarations, Node.declarations, List.mem_append, List.mem_append,
        mem_declarations_modify ih, or_assoc]

/-- A registration adds the declarations of its rules, unless its path is empty. -/
theorem mem_declarations_register (forest : Forest) (path : List Condition) (rules : List Rule)
    (d : Declaration) :
    d ∈ declarations (forest.register path rules) ↔
      d ∈ declarations forest ∨ path ≠ [] ∧ d ∈ rules.flatMap Rule.declarations := by
  cases path with
  | nil => simp [register]
  | cons key path =>
      rw [register, mem_declarations_modify (mem_declarations_extend path rules d)]
      simp

theorem finite_registerAll {forest : Forest} {entries : History}
    (hforest : ∀ d ∈ declarations forest, d.value.isFinite)
    (hentries : ∀ entry ∈ entries, FiniteRules entry.2) :
    ∀ d ∈ declarations (forest.registerAll entries), d.value.isFinite := by
  induction entries generalizing forest with
  | nil => exact hforest
  | cons entry entries ih =>
      obtain ⟨hentry, hrest⟩ := List.forall_mem_cons.1 hentries
      refine ih ?_ hrest
      intro d hd
      rcases (mem_declarations_register forest entry.1 entry.2 d).1 hd with hold | ⟨-, hnew⟩
      · exact hforest d hold
      · exact List.forall_mem_flatMap.2 hentry d hnew

end Forest

end Condition

namespace Stylesheet

/-- All numbers that a sheet has from definitions are finite. -/
def FiniteStyles (sheet : Stylesheet) : Prop := ∀ d ∈ sheet.styleDeclarations, d.value.isFinite

theorem finiteStyles_iff {sheet : Stylesheet} :
    sheet.FiniteStyles ↔ FiniteRules sheet.rules ∧
      ∀ d ∈ Condition.Forest.declarations sheet.conditions, d.value.isFinite := by
  unfold FiniteStyles styleDeclarations
  rw [List.forall_mem_append, List.forall_mem_flatMap]
  rfl

/-- An addition keeps the numbers from definitions finite, whether it is accepted or not. -/
theorem FiniteStyles.add {sheet : Stylesheet} (h : sheet.FiniteStyles) (addition : Addition) :
    (sheet.add addition).FiniteStyles := by
  cases addition with
  | keyframes added => exact h
  | fontFace added => exact h
  | style target definition =>
      cases hflat : definition.flatten target sheet.config.rejectConflicts with
      | error error =>
          rw [add_style_of_error hflat]
          exact h
      | ok flattened =>
          obtain ⟨hrules, hconditions⟩ := finiteStyles_iff.1 h
          have hown : FiniteRules flattened.rules :=
            Definition.finiteRules_of_flatten hflat (Or.inl rfl)
          have hnested : ∀ entry ∈ flattened.conditional, FiniteRules entry.2 := fun entry hentry =>
            Definition.finiteRules_of_flatten hflat (Or.inr ⟨entry.1, hentry⟩)
          rw [add_style_of_ok hflat]
          exact finiteStyles_iff.2 ⟨List.forall_mem_append.2 ⟨hrules, hown⟩,
            Condition.Forest.finite_registerAll hconditions hnested⟩

theorem FiniteStyles.addAll {sheet : Stylesheet} (h : sheet.FiniteStyles)
    (additions : List Addition) : (sheet.addAll additions).FiniteStyles := by
  induction additions generalizing sheet with
  | nil => exact h
  | cons addition additions ih => exact ih (h.add addition)

end Stylesheet

/-! ## The numbers of a compilation -/

theorem Keyframes.forall_declarations_iff {keyframes : Keyframes} :
    (∀ d ∈ keyframes.declarations, d.value.isFinite) ↔
      ∀ frame ∈ keyframes.frames, frame.2.Finite := by
  unfold Keyframes.declarations
  rw [List.forall_mem_flatMap]
  simp only [Block.finite_iff_forall_declarations]

theorem FontFace.forall_declarations_iff {fontFace : FontFace} :
    (∀ d ∈ fontFace.declarations, d.value.isFinite) ↔ fontFace.block.Finite := by
  unfold FontFace.declarations
  rw [List.forall_mem_cons, Block.finite_iff_forall_declarations]
  exact and_iff_right rfl

/-- The blocks of an addition whose numbers are not looked at. -/
def Addition.uncheckedBlocks : Addition → List Block
  | .style _ _ => []
  | .keyframes added => added.frames.map Prod.snd
  | .fontFace added => [added.block]

theorem Addition.forall_uncheckedBlocks_iff (additions : List Addition) :
    (∀ addition ∈ additions, ∀ block ∈ addition.uncheckedBlocks, block.Finite) ↔
      (∀ fontFace ∈ additions.filterMap Addition.fontFace?, fontFace.block.Finite) ∧
      ∀ keyframes ∈ additions.filterMap Addition.keyframes?, ∀ frame ∈ keyframes.frames,
        frame.2.Finite := by
  induction additions with
  | nil => simp
  | cons addition additions ih =>
      rw [List.forall_mem_cons, ih]
      cases addition with
      | style target definition => simp [uncheckedBlocks, fontFace?, keyframes?]
      | keyframes added =>
          simp only [uncheckedBlocks, List.forall_mem_map, List.filterMap_cons, fontFace?,
            keyframes?, List.forall_mem_cons]
          exact and_left_comm
      | fontFace added =>
          simp only [uncheckedBlocks, List.forall_mem_singleton, List.filterMap_cons, fontFace?,
            keyframes?, List.forall_mem_cons]
          exact and_assoc.symm

namespace Stylesheet

theorem forall_declarations_iff {sheet : Stylesheet} :
    (∀ d ∈ sheet.declarations, d.value.isFinite) ↔
      ((∀ fontFace ∈ sheet.fontFaces, fontFace.block.Finite) ∧
        ∀ keyframes ∈ sheet.keyframes, ∀ frame ∈ keyframes.frames, frame.2.Finite) ∧
      sheet.FiniteStyles := by
  unfold declarations
  rw [List.forall_mem_append, List.forall_mem_append, List.forall_mem_flatMap,
    List.forall_mem_flatMap]
  simp only [FontFace.forall_declarations_iff, Keyframes.forall_declarations_iff]
  rfl

theorem numbers_finite_iff_declarations {sheet : Stylesheet} :
    (∀ number ∈ sheet.numbers, number.isFinite) ↔
      ∀ d ∈ sheet.declarations, d.value.isFinite := by
  unfold numbers
  constructor
  · intro h d hd
    cases hvalue : d.value with
    | text content => rfl
    | number value => exact h value (List.mem_filterMap.2 ⟨d, hd, by rw [hvalue]⟩)
  · intro h number hnumber
    obtain ⟨d, hd, hvalue⟩ := List.mem_filterMap.1 hnumber
    have hfinite := h d hd
    split at hvalue
    next value hnum =>
      rw [hnum] at hfinite
      exact Option.some.inj hvalue ▸ hfinite
    next => exact absurd hvalue (by simp)

/-- **Which numbers are put into the text.** All declarations in the text are authored ones in their
CSS form. Those that come from definitions hold finite numbers only. So all numbers in the text are
finite exactly if those are that stand in the blocks of the animations and font faces added. -/
theorem numbers_finite_iff (config : Config) (additions : List Addition) :
    let sheet := (Stylesheet.new config).addAll additions
    Css.allDeclarations sheet.blocks = sheet.declarations.map Declaration.written ∧
    (∀ d ∈ sheet.styleDeclarations, d.value.isFinite) ∧
    ((∀ number ∈ sheet.numbers, number.isFinite) ↔
      ∀ addition ∈ additions, ∀ block ∈ addition.uncheckedBlocks, block.Finite) := by
  intro sheet
  have hstyles : sheet.FiniteStyles := by
    apply FiniteStyles.addAll
    intro d hd
    exact absurd hd List.not_mem_nil
  have hkeyframes : sheet.keyframes = additions.filterMap Addition.keyframes? := by
    show ((Stylesheet.new config).addAll additions).keyframes = _
    rw [addAll_eq]
    rfl
  have hfontFaces : sheet.fontFaces = additions.filterMap Addition.fontFace? := by
    show ((Stylesheet.new config).addAll additions).fontFaces = _
    rw [addAll_eq]
    rfl
  refine ⟨sheet.allDeclarations_blocks, hstyles, ?_⟩
  rw [numbers_finite_iff_declarations, forall_declarations_iff, hkeyframes, hfontFaces,
    Addition.forall_uncheckedBlocks_iff]
  exact and_iff_left hstyles

/-- An animation and a font face whose numbers are not finite. -/
theorem exists_not_finite_number :
    ∃ additions : List Addition,
      Css.allDeclarations ((Stylesheet.new {}).addAll additions).blocks =
        [⟨"font-family", "\"a\""⟩, ⟨"size", "-infpx"⟩, ⟨"width", "NaNpx"⟩] ∧
      ¬ ∀ number ∈ ((Stylesheet.new {}).addAll additions).numbers, number.isFinite := by
  let faulty (name : String) (number : Number) : Block :=
    { properties := [(name, .single (.number number))] }
  let additions : List Addition :=
    [.keyframes ⟨"b", [("from", faulty "width" .nan)]⟩,
      .fontFace ⟨"a", faulty "size" (.infinite true)⟩]
  have hnumbers := (numbers_finite_iff {} additions).2.2
  refine ⟨additions, by decide +kernel, ?_⟩
  rw [hnumbers]
  intro h
  have hfinite := h _ List.mem_cons_self (faulty "width" .nan) List.mem_cons_self
  exact absurd (hfinite _ List.mem_cons_self (.number .nan) List.mem_cons_self) (by decide)

end Stylesheet

end ScopedCss
