import ScopedCss.Proofs.Flatten.Global
import ScopedCss.Proofs.Flatten.Preorder
import ScopedCss.Proofs.Stylesheet.Filled
import ScopedCss.Proofs.Stylesheet.Numbers

/-! # Blocks of animations and font faces

The stops of an animation and the font faces are written by a way of their own: `Block.written`
brings a block into its CSS form at once, without a check. A block of a definition is checked first
and made into a rule, and it is the declarations of the rule that are written. The two ways agree:
of an accepted level each block is written, under the selector that it styles, as it would be as a
stop of an animation (`Level.filterMap_toCss?_rules`).

`Block.written_eq_rules` says so of one block. Only the check differs, which rejects numbers that
are not finite.
-/

set_option autoImplicit false

namespace ScopedCss

/-- The block that a stop of an animation makes, unless it has no declarations. -/
def Block.toCss? (stop : String) (block : Block) : Option Css.Block :=
  if block.written = [] then none else some ⟨stop, block.written, []⟩

/-- Nothing is written of a block that has no declarations. -/
theorem Block.written_eq_nil_iff {block : Block} : block.written = [] ↔ block.declarations = [] := by
  rw [Block.written_eq, List.map_eq_nil_iff]

/-- A rule of a block is written as the block is. -/
theorem Rule.toCss?_of_block (selector : String) (block : Block) :
    Rule.toCss? ⟨selector, block.declarations⟩ = block.toCss? selector := by
  rw [Rule.toCss?, Block.toCss?, ← Block.written_eq]
  refine if_congr ?_ rfl rfl
  rw [Block.written_eq_nil_iff]
  exact List.isEmpty_iff

/-- The rules of an accepted level are written as its blocks are. -/
theorem Level.filterMap_toCss?_rules {target : Target} {level : Level} {rules : List Rule}
    (h : level.rules target = .ok rules) :
    rules.filterMap Rule.toCss? =
      (level.styled target).filterMap fun entry => entry.2.toCss? entry.1 := by
  rw [Level.rules_eq_ok h, Level.ownRules, filterMap_toCss?_filter, Level.allRules_eq,
    List.filterMap_map]
  exact List.filterMap_congr fun entry _ => Rule.toCss?_of_block entry.1 entry.2

theorem Block.rule_of_finite {block : Block} (h : block.Finite) (selector : String) :
    block.rule selector = .ok ⟨selector, block.declarations⟩ := by
  obtain ⟨rule, hrule⟩ := Block.rule_isOk_iff.2 h
  rw [hrule, Block.rule_eq_ok hrule]

/-- A finite block that stands alone makes one rule for the target, unless it has no declarations.
-/
theorem Block.rules_of_finite {block : Block} (h : block.Finite) (target : Target) :
    Level.rules target { base := block } =
      .ok (if block.declarations = [] then [] else [⟨target.selector, block.declarations⟩]) := by
  have hunscoped : Level.Unscoped { base := block } := ⟨rfl, rfl⟩
  rw [Level.rules_of_unscoped hunscoped, Block.rule_of_finite h]
  cases hdeclarations : block.declarations with
  | nil => rfl
  | cons d rest => rfl

/-- **Blocks are written like rules.** A finite block makes the same rule for a target wherever it
stands, or none if it has no declarations. What is written of the rule are the declarations that are
written of the block as a stop of an animation or a font face, one by one in the same order. -/
theorem Block.written_eq_rules {block : Block} (h : block.Finite) (target : Target) :
    ∃ rules, Level.rules target { base := block } = .ok rules ∧
      block.written = rules.flatMap (fun rule => rule.declarations.map Declaration.written) ∧
      rules.filterMap Rule.toCss? = (block.toCss? target.selector).toList ∧
      ∀ other level made, Level.rules other level = .ok made →
        (target.selector, block) ∈ level.styled other → ∀ rule ∈ rules, rule ∈ made := by
  have hrules := Block.rules_of_finite h target
  refine ⟨_, hrules, ?_, ?_, fun other level made hmade hblock rule hrule => ?_⟩
  · rw [Block.written_eq]
    by_cases hempty : block.declarations = []
    · rw [if_pos hempty, hempty]
      rfl
    · rw [if_neg hempty, List.flatMap_singleton]
  · rw [Level.filterMap_toCss?_rules hrules]
    cases hcss : block.toCss? target.selector <;> simp [Level.styled, hcss]
  · rw [Level.rules_eq_ok hrules] at hrule
    obtain ⟨entry, hentry, hne, rfl⟩ := Level.mem_ownRules_iff.1 hrule
    obtain rfl : entry = (target.selector, block) := List.mem_singleton.1 hentry
    rw [Level.rules_eq_ok hmade]
    exact Level.mem_ownRules_iff.2 ⟨_, hblock, hne, rfl⟩

/-- A block with a custom property under a reference to it, a vendor name and fallbacks, for the
selector of a pseudo. -/
theorem Block.written_eq_rules_of_fallbacks :
    ∃ (block : Block) (rules : List Rule), block.Finite ∧
      block.written = [⟨"--gap", "0"⟩, ⟨"-webkit-box-flex", "4"⟩, ⟨"width", "4px"⟩,
        ⟨"width", "auto"⟩] ∧
      Level.rules (.global ".a:hover") { base := block } = .ok rules ∧
      block.written = rules.flatMap (fun rule => rule.declarations.map Declaration.written) := by
  let four : Value := .number (.finite (Json.Number.integer 4 (by decide)).toBinary)
  let block : Block :=
    { custom := [("var(--gap, 1)", "0")]
      properties := [("WebkitBoxFlex", .single four), ("width", .fallbacks [four, .text "auto"])] }
  have hfinite : block.Finite := by
    intro entry hentry value hvalue
    simp only [block, List.mem_cons, List.not_mem_nil, or_false] at hentry
    rcases hentry with rfl | rfl
    · rw [List.mem_singleton.1 hvalue]
      rfl
    · rcases List.mem_pair.1 hvalue with rfl | rfl <;> rfl
  obtain ⟨rules, hrules, hwritten, -, -⟩ := Block.written_eq_rules hfinite (.global ".a:hover")
  exact ⟨block, rules, hfinite, by decide +kernel, hrules, hwritten⟩

end ScopedCss
