import ScopedCss.Proofs.Condition.Prune
import ScopedCss.Stylesheet

/-! # Only what has declarations is written

A node makes a block of the blocks that its rules and the nodes below it make, and none if they make
none (`Node.toCss?_eq_blocks`). So it makes one exactly if a rule with a declaration stands somewhere
in its tree (`Node.isSome_toCss?_iff`), and no block is empty (`madeOf_of_mem_ruleBlocks`).

What makes no block can be left out before: the rules without declarations, and then the nodes with
nothing but such rules in their trees. `Forest.dropEmptyRules` and `Forest.dropEmptyNodes` are the
two steps, and neither of them changes the blocks.
-/

set_option autoImplicit false

namespace ScopedCss

/-! ## Nodes that make a block -/

theorem Rule.isEmpty_eq_false_iff {rule : Rule} :
    rule.isEmpty = false ↔ rule.declarations ≠ [] := by
  simp [Rule.isEmpty]

theorem Rule.toCss?_eq_none_iff {rule : Rule} : rule.toCss? = none ↔ rule.isEmpty := by
  by_cases h : rule.isEmpty <;> simp [Rule.toCss?, h]

namespace Condition

/-- A node stands in a tree: it is the root of the tree, or it stands in a tree directly below the
root. -/
inductive Node.StandsIn : Node → Node → Prop
  | root (node : Node) : StandsIn node node
  | nested {inner child node : Node} {key : Condition} (hchild : (key, child) ∈ node.children)
      (h : inner.StandsIn child) : StandsIn inner node

/-- The tree has a rule with a declaration. -/
def Node.Declares (node : Node) : Prop :=
  ∃ inner : Node, inner.StandsIn node ∧ ∃ rule ∈ inner.rules, rule.declarations ≠ []

theorem Node.Declares.of_child {node child : Node} {key : Condition}
    (hchild : (key, child) ∈ node.children) (h : child.Declares) : node.Declares := by
  obtain ⟨inner, hinner, hrule⟩ := h
  exact ⟨inner, .nested hchild hinner, hrule⟩

theorem Forest.isEmpty_eq_all (forest : Forest) :
    Forest.isEmpty forest = forest.all fun entry => entry.2.isEmpty := by
  induction forest with
  | nil => rfl
  | cons entry forest ih => rw [Forest.isEmpty, ih, List.all_cons]

mutual

theorem Node.declares_of_isEmpty_eq_false : ∀ node : Node, node.isEmpty = false → node.Declares
  | ⟨condition, rules, children⟩, h => by
      rw [Node.isEmpty, Bool.and_eq_false_iff, List.all_eq_false] at h
      rcases h with ⟨rule, hmem, hrule⟩ | hchildren
      · rw [Bool.not_eq_true, Rule.isEmpty_eq_false_iff] at hrule
        exact ⟨_, .root _, rule, hmem, hrule⟩
      · obtain ⟨entry, hentry, hchild⟩ := Forest.declares_of_isEmpty_eq_false children hchildren
        exact hchild.of_child hentry

theorem Forest.declares_of_isEmpty_eq_false : ∀ forest : List (Condition × Node),
    Forest.isEmpty forest = false → ∃ entry ∈ forest, entry.2.Declares
  | [], h => absurd h (by simp [Forest.isEmpty])
  | (key, node) :: rest, h => by
      rw [Forest.isEmpty, Bool.and_eq_false_iff] at h
      rcases h with hnode | hrest
      · exact ⟨_, List.mem_cons_self, Node.declares_of_isEmpty_eq_false node hnode⟩
      · obtain ⟨entry, hentry, hdeclares⟩ := Forest.declares_of_isEmpty_eq_false rest hrest
        exact ⟨entry, List.mem_cons_of_mem _ hentry, hdeclares⟩

end

/-- A tree is empty unless it has a rule with a declaration. -/
theorem Node.isEmpty_eq_false_iff {node : Node} : node.isEmpty = false ↔ node.Declares := by
  constructor
  · exact Node.declares_of_isEmpty_eq_false node
  · rintro ⟨inner, hinner, rule, hmem, hrule⟩
    -- from the node in which the rule stands up to the root
    induction hinner with
    | root =>
        rw [Node.isEmpty_eq, Bool.and_eq_false_iff]
        refine Or.inl (List.all_eq_false.2 ⟨rule, hmem, ?_⟩)
        rw [Rule.isEmpty_eq_false_iff.2 hrule]
        decide
    | nested hchild _ ih =>
        rw [Node.isEmpty_eq, Bool.and_eq_false_iff, Forest.isEmpty_eq_all]
        refine Or.inr (List.all_eq_false.2 ⟨_, hchild, ?_⟩)
        rw [ih]
        decide

theorem Node.isSome_toCss?_iff {node : Node} : node.toCss?.isSome ↔ node.Declares := by
  rw [← Node.isEmpty_eq_false_iff, Node.toCss?_eq]
  cases node.isEmpty <;> simp

end Condition

open Stylesheet (ruleBlocks)

/-- Rules and conditions make no block exactly if they are all empty. -/
theorem ruleBlocks_eq_nil_iff {rules : List Rule} {conditions : Condition.Forest} :
    ruleBlocks rules conditions = [] ↔
      rules.all Rule.isEmpty && Condition.Forest.isEmpty conditions := by
  have hrules : rules.filterMap Rule.toCss? = [] ↔ rules.all Rule.isEmpty := by
    rw [List.filterMap_eq_nil_iff, List.all_eq_true]
    simp only [Rule.toCss?_eq_none_iff]
  have hconditions : Condition.Forest.toCss conditions = [] ↔
      Condition.Forest.isEmpty conditions := by
    induction conditions with
    | nil => simp [Condition.Forest.toCss, Condition.Forest.isEmpty]
    | cons entry rest ih =>
        obtain ⟨key, node⟩ := entry
        rw [Condition.Forest.toCss, Condition.Forest.isEmpty, List.append_eq_nil_iff, ih,
          Bool.and_eq_true, Condition.Node.toCss?_eq]
        cases node.isEmpty <;> simp
  rw [ruleBlocks, List.append_eq_nil_iff, hrules, hconditions, Bool.and_eq_true]

/-- A node makes a block of the blocks in it, unless there are none. -/
theorem Condition.Node.toCss?_eq_blocks (node : Node) :
    node.toCss? = if (ruleBlocks node.rules node.children).isEmpty then none
      else some ⟨node.condition.text, [], ruleBlocks node.rules node.children⟩ := by
  obtain ⟨condition, rules, children⟩ := node
  have hempty : (ruleBlocks rules children).isEmpty =
      (rules.all Rule.isEmpty && Condition.Forest.isEmpty children) := by
    rw [Bool.eq_iff_iff, List.isEmpty_iff, ruleBlocks_eq_nil_iff]
  rw [Node.toCss?, hempty]
  rfl

/-! ## No block is empty -/

/-- What a block is made of: of a rule, which has a declaration, or of a condition, which has at
least one block in it that is made of its rules and of the conditions nested in it. -/
inductive Css.Block.MadeOf : List Rule → Condition.Forest → Css.Block → Prop
  | rule {rules : List Rule} {conditions : Condition.Forest} {rule : Rule} (hrule : rule ∈ rules)
      (h : rule.declarations ≠ []) :
      MadeOf rules conditions ⟨rule.selector, rule.declarations.map Declaration.written, []⟩
  | condition {rules : List Rule} {conditions : Condition.Forest} {key : Condition}
      {node : Condition.Node} {children : List Css.Block} (hnode : (key, node) ∈ conditions)
      (hne : children ≠ []) (h : ∀ child ∈ children, MadeOf node.rules node.children child) :
      MadeOf rules conditions ⟨node.condition.text, [], children⟩

theorem Rule.madeOf_toCss? {rules : List Rule} {rule : Rule} (hrule : rule ∈ rules)
    {block : Css.Block} (h : rule.toCss? = some block) (conditions : Condition.Forest) :
    block.MadeOf rules conditions := by
  by_cases hempty : rule.isEmpty
  · rw [Rule.toCss?_eq_none_iff.2 hempty] at h
    exact absurd h (by simp)
  · rw [Rule.toCss?, if_neg hempty] at h
    obtain rfl := Option.some.inj h
    rw [Bool.not_eq_true, Rule.isEmpty_eq_false_iff] at hempty
    exact .rule hrule hempty

theorem madeOf_of_mem_ruleBlocks {rules : List Rule} {conditions : Condition.Forest}
    (hconditions : ∀ block ∈ Condition.Forest.toCss conditions, block.MadeOf rules conditions) :
    ∀ block ∈ ruleBlocks rules conditions, block.MadeOf rules conditions := by
  intro block hblock
  rcases List.mem_append.1 hblock with hrules | hmem
  · obtain ⟨rule, hrule, hmade⟩ := List.mem_filterMap.1 hrules
    exact Rule.madeOf_toCss? hrule hmade conditions
  · exact hconditions block hmem

mutual

theorem Condition.Node.madeOf_toCss? (rules : List Rule) (key : Condition)
    (conditions : Condition.Forest) : ∀ node : Condition.Node, (key, node) ∈ conditions →
      ∀ block ∈ node.toCss?, block.MadeOf rules conditions
  | ⟨condition, own, children⟩, hnode, block, hblock => by
      rw [Condition.Node.toCss?_eq_blocks] at hblock
      split at hblock
      · exact absurd hblock (by simp)
      · next hempty =>
          obtain rfl := Option.some.inj hblock
          refine .condition hnode (fun hnil => hempty (List.isEmpty_iff.2 hnil)) ?_
          exact madeOf_of_mem_ruleBlocks
            (Condition.Forest.madeOf_toCss own children children fun _ h => h)

-- `conditions` stays the whole list while the recursion goes through the part of it that is left
theorem Condition.Forest.madeOf_toCss (rules : List Rule) (conditions : Condition.Forest) :
    ∀ forest : List (Condition × Condition.Node), (∀ entry ∈ forest, entry ∈ conditions) →
      ∀ block ∈ Condition.Forest.toCss forest, block.MadeOf rules conditions
  | [], _, block, hblock => absurd hblock List.not_mem_nil
  | (key, node) :: rest, hforest, block, hblock => by
      obtain ⟨hnode, hrest⟩ := List.forall_mem_cons.1 hforest
      rcases List.mem_append.1 hblock with hmem | hmem
      · exact Condition.Node.madeOf_toCss? rules key conditions node hnode block
          (Option.mem_toList.1 hmem)
      · exact Condition.Forest.madeOf_toCss rules conditions rest hrest block hmem

end

/-! ## Leaving out what is empty -/

namespace Condition

mutual

/-- A tree without its rules that have no declarations. -/
def Node.dropEmptyRules : Node → Node
  | ⟨condition, rules, children⟩ =>
      ⟨condition, rules.filter fun rule => !rule.isEmpty, Forest.dropEmptyRules children⟩

def Forest.dropEmptyRules : List (Condition × Node) → List (Condition × Node)
  | [] => []
  | (key, node) :: rest => (key, node.dropEmptyRules) :: Forest.dropEmptyRules rest

end

mutual

/-- A tree without the nodes below its root that have an empty tree. -/
def Node.dropEmptyNodes : Node → Node
  | ⟨condition, rules, children⟩ => ⟨condition, rules, Forest.dropEmptyNodes children⟩

def Forest.dropEmptyNodes : List (Condition × Node) → List (Condition × Node)
  | [] => []
  | (key, node) :: rest =>
      if node.isEmpty then Forest.dropEmptyNodes rest
      else (key, node.dropEmptyNodes) :: Forest.dropEmptyNodes rest

end

end Condition

theorem filterMap_toCss?_filter (rules : List Rule) :
    (rules.filter fun rule => !rule.isEmpty).filterMap Rule.toCss? =
      rules.filterMap Rule.toCss? := by
  rw [filterMap_toCss?, filterMap_toCss?, List.filter_filter]
  simp only [Bool.and_self]

namespace Condition

/-- Two nodes of one condition with the same blocks in them make the same block. -/
theorem Node.toCss?_congr {node other : Node} (hcondition : node.condition = other.condition)
    (hblocks : ruleBlocks node.rules node.children = ruleBlocks other.rules other.children) :
    node.toCss? = other.toCss? := by
  rw [Node.toCss?_eq_blocks, Node.toCss?_eq_blocks, hcondition, hblocks]

mutual

theorem Node.toCss?_dropEmptyRules : ∀ node : Node, node.dropEmptyRules.toCss? = node.toCss?
  | ⟨condition, rules, children⟩ => by
      rw [Node.dropEmptyRules]
      apply Node.toCss?_congr
      · rfl
      · rw [ruleBlocks, ruleBlocks, filterMap_toCss?_filter, Forest.toCss_dropEmptyRules children]

theorem Forest.toCss_dropEmptyRules : ∀ forest : List (Condition × Node),
    Forest.toCss (Forest.dropEmptyRules forest) = Forest.toCss forest
  | [] => rfl
  | (key, node) :: rest => by
      rw [Forest.dropEmptyRules, Forest.toCss, Forest.toCss, Node.toCss?_dropEmptyRules node,
        Forest.toCss_dropEmptyRules rest]

end

mutual

theorem Node.toCss?_dropEmptyNodes : ∀ node : Node, node.dropEmptyNodes.toCss? = node.toCss?
  | ⟨condition, rules, children⟩ => by
      rw [Node.dropEmptyNodes]
      apply Node.toCss?_congr
      · rfl
      · rw [ruleBlocks, ruleBlocks, Forest.toCss_dropEmptyNodes children]

theorem Forest.toCss_dropEmptyNodes : ∀ forest : List (Condition × Node),
    Forest.toCss (Forest.dropEmptyNodes forest) = Forest.toCss forest
  | [] => rfl
  | (key, node) :: rest => by
      have hrest := Forest.toCss_dropEmptyNodes rest
      by_cases hempty : node.isEmpty
      · -- a node that is left out makes no block
        have hnone : node.toCss? = none := by rw [Node.toCss?_eq, if_pos hempty]
        rw [Forest.dropEmptyNodes, if_pos hempty, hrest, Forest.toCss, hnone]
        rfl
      · rw [Forest.dropEmptyNodes, if_neg hempty, Forest.toCss, Forest.toCss,
          Node.toCss?_dropEmptyNodes node, hrest]

end

end Condition

/-- Rules and conditions make the same blocks without what is empty. -/
theorem ruleBlocks_dropEmpty (rules : List Rule) (conditions : Condition.Forest) :
    ruleBlocks (rules.filter fun rule => !rule.isEmpty)
        (Condition.Forest.dropEmptyNodes (Condition.Forest.dropEmptyRules conditions)) =
      ruleBlocks rules conditions := by
  rw [ruleBlocks, ruleBlocks, filterMap_toCss?_filter, Condition.Forest.toCss_dropEmptyNodes,
    Condition.Forest.toCss_dropEmptyRules]

/-! ## Texts one after the other -/

namespace Css

theorem prettyAll_append (width level : Nat) (blocks more : List Block) :
    prettyAll width level (blocks ++ more) =
      prettyAll width level blocks ++ prettyAll width level more := by
  induction blocks with
  | nil => simp [prettyAll]
  | cons block blocks ih => rw [List.cons_append, prettyAll, prettyAll, ih, String.append_assoc]

theorem minifiedAll_append (blocks more : List Block) :
    minifiedAll (blocks ++ more) = minifiedAll blocks ++ minifiedAll more := by
  induction blocks with
  | nil => simp [minifiedAll]
  | cons block blocks ih => rw [List.cons_append, minifiedAll, minifiedAll, ih, String.append_assoc]

/-- The text of blocks is that of the first of them followed by that of the others. -/
theorem render_append (config : Config) (blocks more : List Block) :
    render config (blocks ++ more) = render config blocks ++ render config more := by
  unfold render
  cases config.output with
  | pretty => exact prettyAll_append config.indentWidth 0 blocks more
  | compact => rw [List.map_append, String.join_append]
  | minified => exact minifiedAll_append blocks more

end Css

namespace Stylesheet

/-- The text of a style sheet by its parts. -/
theorem emit_eq (sheet : Stylesheet) :
    sheet.emit =
      Css.render sheet.config (sheet.fontFaces.map FontFace.toCss)
        ++ Css.render sheet.config (sheet.keyframes.map Keyframes.toCss)
        ++ emitRules sheet.config sheet.rules sheet.conditions := by
  rw [emit, blocks, Css.render_append, Css.render_append]
  rfl

/-- **Only what has declarations is written.** A node makes a block exactly if a rule with a
declaration stands in its tree. Every block that is made of rules and conditions is made of a rule
with a declaration, or has a block in it, at any depth. The text stays the same in every style if
first all rules without declarations and then all nodes with empty trees are left out. The text of a
style sheet is that of its font faces, that of its animations and then that of its rules and
conditions, so it stays the same as well. -/
theorem emit_filled :
    (∀ node : Condition.Node, node.toCss?.isSome ↔ node.Declares) ∧
    (∀ (rules : List Rule) (conditions : Condition.Forest),
      (∀ block ∈ ruleBlocks rules conditions, block.MadeOf rules conditions) ∧
      ∀ config, emitRules config (rules.filter fun rule => !rule.isEmpty)
          (Condition.Forest.dropEmptyNodes (Condition.Forest.dropEmptyRules conditions)) =
        emitRules config rules conditions) ∧
    ∀ sheet : Stylesheet,
      sheet.emit =
        Css.render sheet.config (sheet.fontFaces.map FontFace.toCss)
          ++ Css.render sheet.config (sheet.keyframes.map Keyframes.toCss)
          ++ emitRules sheet.config sheet.rules sheet.conditions ∧
      { sheet with
        rules := sheet.rules.filter fun rule => !rule.isEmpty
        conditions := Condition.Forest.dropEmptyNodes
          (Condition.Forest.dropEmptyRules sheet.conditions) }.emit = sheet.emit := by
  have hrules : ∀ config rules conditions,
      emitRules config (rules.filter fun rule => !rule.isEmpty)
          (Condition.Forest.dropEmptyNodes (Condition.Forest.dropEmptyRules conditions)) =
        emitRules config rules conditions := by
    intro config rules conditions
    rw [emitRules, emitRules, ruleBlocks_dropEmpty]
  refine ⟨fun node => Condition.Node.isSome_toCss?_iff,
    fun rules conditions => ⟨?_, fun config => hrules config rules conditions⟩,
    fun sheet => ⟨sheet.emit_eq, ?_⟩⟩
  · apply madeOf_of_mem_ruleBlocks
    exact Condition.Forest.madeOf_toCss rules conditions conditions fun _ h => h
  · rw [emit_eq, emit_eq]
    congr 1
    exact hrules sheet.config sheet.rules sheet.conditions

end Stylesheet

end ScopedCss
