import ScopedCss.Proofs.Condition.Prune
import ScopedCss.Proofs.Definition.Preorder
import ScopedCss.Proofs.Flatten.Levels
import ScopedCss.Stylesheet

/-! # The text of a whole compilation

A style sheet is made by additions only, some of which are rejected. `Addition.contributions` says
what one addition contributes: for an accepted definition the rules of each of its levels, for a
rejected one nothing. The contributions of all additions are the history of the sheet
(`addAll_eq`), and its text is read off that history (`emit_addAll`).
-/

set_option autoImplicit false

namespace ScopedCss

open Condition

/-! ## Contributions -/

namespace Addition

/-- The rules that an addition contributes, level by level; the rules of the outermost level stand
at the empty path. A definition that is rejected contributes nothing. -/
def contributions (reject : Bool) : Addition → History
  | .style target definition =>
      match definition.flatten target reject with
      | .ok _ => definition.levels.map fun entry => (entry.1, entry.2.ownRules target)
      | .error _ => []
  | .keyframes _ => []
  | .fontFace _ => []

def keyframes? : Addition → Option Keyframes
  | .keyframes added => some added
  | _ => none

def fontFace? : Addition → Option FontFace
  | .fontFace added => some added
  | _ => none

end Addition

def contributionsOf (reject : Bool) (additions : List Addition) : History :=
  additions.flatMap (Addition.contributions reject)

theorem Condition.History.rulesAt_append (history more : History) (path : List Condition) :
    History.rulesAt (history ++ more) path = history.rulesAt path ++ more.rulesAt path := by
  simp [History.rulesAt]

/-- Of an accepted definition only the outermost level contributes at the empty path. -/
theorem Definition.rulesAt_nil_contributions (target : Target) (definition : Definition) :
    History.rulesAt (definition.contributions target) [] = [] := by
  have hpaths : (definition.contributions target).filter (fun entry => entry.1 = []) = [] := by
    rw [List.filter_eq_nil_iff]
    intro entry hentry
    obtain ⟨inner, hinner, rfl⟩ := List.mem_map.1 hentry
    simpa using definition.nested_path_ne_nil inner hinner
  rw [History.rulesAt, hpaths, List.flatMap_nil]

/-! ## The sheet after additions -/

namespace Stylesheet

theorem addStyle_of_error {sheet : Stylesheet} {target : Target} {definition : Definition}
    {error : StyleError}
    (h : definition.flatten target sheet.config.rejectConflicts = .error error) :
    sheet.addStyle target definition = .error error := by
  unfold addStyle
  rw [h]
  rfl

theorem addStyle_of_ok {sheet : Stylesheet} {target : Target} {definition : Definition}
    {flattened : Flattened}
    (h : definition.flatten target sheet.config.rejectConflicts = .ok flattened) :
    sheet.addStyle target definition = .ok (sheet.append flattened, flattened.rules) := by
  unfold addStyle
  rw [h]
  rfl

/-- A rejected definition leaves no trace. -/
theorem add_style_of_error {sheet : Stylesheet} {target : Target} {definition : Definition}
    {error : StyleError}
    (h : definition.flatten target sheet.config.rejectConflicts = .error error) :
    sheet.add (.style target definition) = sheet := by
  rw [add, addStyle_of_error h]

theorem add_style_of_ok {sheet : Stylesheet} {target : Target} {definition : Definition}
    {flattened : Flattened}
    (h : definition.flatten target sheet.config.rejectConflicts = .ok flattened) :
    sheet.add (.style target definition) = sheet.append flattened := by
  rw [add, addStyle_of_ok h]

/-- What a flattened definition adds is what the definition contributes. -/
theorem append_eq (sheet : Stylesheet) (target : Target) (definition : Definition) :
    sheet.append ⟨definition.level.ownRules target, definition.contributions target⟩ =
      { sheet with
        rules := sheet.rules ++ History.rulesAt
          (definition.levels.map fun entry => (entry.1, entry.2.ownRules target)) []
        conditions := sheet.conditions.registerAll
          (definition.levels.map fun entry => (entry.1, entry.2.ownRules target)) } := by
  have hlevels : definition.levels.map (fun entry => (entry.1, entry.2.ownRules target)) =
      [([], definition.level.ownRules target)] ++ definition.contributions target := rfl
  have hown : History.rulesAt [([], definition.level.ownRules target)] [] =
      definition.level.ownRules target := by
    simp [History.rulesAt]
  rw [hlevels, History.rulesAt_append, Definition.rulesAt_nil_contributions, List.append_nil, hown]
  -- a registration at the empty path is ignored, so that only the nested levels count
  rfl

/-- The sheet after an addition, told by what the addition contributes. -/
theorem add_eq (sheet : Stylesheet) (addition : Addition) :
    sheet.add addition =
      { config := sheet.config
        rules := sheet.rules
          ++ (addition.contributions sheet.config.rejectConflicts).rulesAt []
        conditions := sheet.conditions.registerAll
          (addition.contributions sheet.config.rejectConflicts)
        keyframes := sheet.keyframes ++ addition.keyframes?.toList
        fontFaces := sheet.fontFaces ++ addition.fontFace?.toList } := by
  cases addition with
  | keyframes added =>
      simp [add, addKeyframes, Addition.contributions, Addition.keyframes?, Addition.fontFace?,
        History.rulesAt, Forest.registerAll]
  | fontFace added =>
      simp [add, addFontFace, Addition.contributions, Addition.keyframes?, Addition.fontFace?,
        History.rulesAt, Forest.registerAll]
  | style target definition =>
      cases hflat : definition.flatten target sheet.config.rejectConflicts with
      | error e =>
          rw [add_style_of_error hflat]
          simp [hflat, Addition.contributions, Addition.keyframes?, Addition.fontFace?,
            History.rulesAt, Forest.registerAll]
      | ok flattened =>
          rw [add_style_of_ok hflat, Definition.flatten_eq_ok hflat, append_eq]
          simp [Addition.contributions, hflat, Addition.keyframes?, Addition.fontFace?]

/-- The sheet after a series of additions, told by what they contribute. -/
theorem addAll_eq (sheet : Stylesheet) (additions : List Addition) :
    sheet.addAll additions =
      { config := sheet.config
        rules := sheet.rules
          ++ (contributionsOf sheet.config.rejectConflicts additions).rulesAt []
        conditions := sheet.conditions.registerAll
          (contributionsOf sheet.config.rejectConflicts additions)
        keyframes := sheet.keyframes ++ additions.filterMap Addition.keyframes?
        fontFaces := sheet.fontFaces ++ additions.filterMap Addition.fontFace? } := by
  induction additions generalizing sheet with
  | nil => simp [addAll, contributionsOf, History.rulesAt, Forest.registerAll]
  | cons addition additions ih =>
      have hcons : sheet.addAll (addition :: additions) = (sheet.add addition).addAll additions :=
        rfl
      have hcontributions : contributionsOf sheet.config.rejectConflicts (addition :: additions) =
          addition.contributions sheet.config.rejectConflicts
            ++ contributionsOf sheet.config.rejectConflicts additions := rfl
      rw [hcons, ih, add_eq, hcontributions, History.rulesAt_append]
      cases hkeyframes : addition.keyframes? <;> cases hfontFace : addition.fontFace? <;>
        simp [hkeyframes, hfontFace, Forest.registerAll]

end Stylesheet

/-! ## The text -/

/-- Only rules with declarations are contributed. -/
theorem isEmpty_of_mem_contributionsOf {reject : Bool} {additions : List Addition}
    {path : List Condition} {rule : Rule}
    (h : rule ∈ (contributionsOf reject additions).rulesAt path) : rule.isEmpty = false := by
  obtain ⟨entry, hentry, -, hrule⟩ := History.mem_rulesAt.1 h
  obtain ⟨addition, -, hentry⟩ := List.mem_flatMap.1 hentry
  cases addition with
  | keyframes added => simp [Addition.contributions] at hentry
  | fontFace added => simp [Addition.contributions] at hentry
  | style target definition =>
      cases hflat : definition.flatten target reject with
      | error e => simp [Addition.contributions, hflat] at hentry
      | ok flattened =>
          simp only [Addition.contributions, hflat] at hentry
          obtain ⟨inner, -, rfl⟩ := List.mem_map.1 hentry
          simpa using (List.mem_filter.1 hrule).2

/-- **The text of a compilation.** Whatever is added in whatever order, accepted or not, the text
shows the font faces, the animations, the unconditional rules of the accepted definitions in the
order in which they were added, and last one block for each condition path below which an accepted
definition has declarations. `Forest.Merges` says what stands in these blocks and in which order,
and there is one forest for which it holds. -/
theorem Stylesheet.emit_addAll (config : Config) (additions : List Addition) :
    ∃ forest : Forest,
      (∀ other : Forest,
        other.Merges (contributionsOf config.rejectConflicts additions) ↔ other = forest) ∧
      ((Stylesheet.new config).addAll additions).emit =
        Css.render config
          ((additions.filterMap Addition.fontFace?).map FontFace.toCss
            ++ (additions.filterMap Addition.keyframes?).map Keyframes.toCss
            ++ ((contributionsOf config.rejectConflicts additions).rulesAt []).map Rule.block
            ++ Forest.blocks forest) := by
  have hmerges :=
    (Forest.records_registerAll (contributionsOf config.rejectConflicts additions)).merges_prune
  refine ⟨_, fun other => ⟨fun hother => hother.unique hmerges, ?_⟩, ?_⟩
  · rintro rfl
    exact hmerges
  · -- no contributed rule is empty, so writing leaves out no unconditional one
    have hrules : ((contributionsOf config.rejectConflicts additions).rulesAt []).filterMap
          Rule.toCss? =
        ((contributionsOf config.rejectConflicts additions).rulesAt []).map Rule.block := by
      rw [filterMap_toCss?, List.filter_eq_self.2]
      intro rule hrule
      simp [isEmpty_of_mem_contributionsOf hrule]
    rw [addAll_eq, emit, blocks, ruleBlocks]
    simp only [new, List.nil_append]
    rw [hrules, Forest.toCss_eq_blocks_prune, List.append_assoc, List.append_assoc,
      List.append_assoc]

end ScopedCss
