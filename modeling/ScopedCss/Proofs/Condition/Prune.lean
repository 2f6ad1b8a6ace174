import ScopedCss.Css
import ScopedCss.Proofs.Condition.History

/-! # What is written of a forest

Nodes without declarations make no block. `Forest.prune` takes them out of a forest, together with
the rules that have no declarations, and `Forest.blocks` writes whatever stands in a forest:
`toCss_eq_blocks_prune` says that the one after the other gives the blocks of the forest.

`Forest.Merges` describes the pruned forest by the history of the registrations alone, place by
place (`Records.merges_prune`), and leaves nothing open (`Merges.unique`).
-/

set_option autoImplicit false

namespace ScopedCss

/-- The block of a rule, also of one without declarations. -/
def Rule.block (rule : Rule) : Css.Block :=
  ⟨rule.selector, rule.declarations.map Declaration.written, []⟩

theorem filterMap_toCss? (rules : List Rule) :
    rules.filterMap Rule.toCss? = (rules.filter fun rule => !rule.isEmpty).map Rule.block := by
  induction rules with
  | nil => rfl
  | cons rule rules ih =>
      by_cases h : rule.isEmpty <;> simp [Rule.toCss?, Rule.block, h, ih]

namespace Condition

mutual

/-- A tree without rules that have no declarations and without empty nodes below its root. -/
def Node.prune : Node → Node
  | ⟨condition, rules, children⟩ =>
      ⟨condition, rules.filter fun rule => !rule.isEmpty, Forest.prune children⟩

def Forest.prune : List (Condition × Node) → List (Condition × Node)
  | [] => []
  | (key, node) :: rest =>
      if node.isEmpty then Forest.prune rest else (key, node.prune) :: Forest.prune rest

end

mutual

/-- The block of a condition with everything in it. -/
def Node.block : Node → Css.Block
  | ⟨condition, rules, children⟩ =>
      ⟨condition.text, [], rules.map Rule.block ++ Forest.blocks children⟩

def Forest.blocks : List (Condition × Node) → List Css.Block
  | [] => []
  | (_, node) :: rest => node.block :: Forest.blocks rest

end

@[simp] theorem Node.prune_condition (node : Node) : node.prune.condition = node.condition := by
  cases node; rfl

@[simp] theorem Node.prune_rules (node : Node) :
    node.prune.rules = node.rules.filter fun rule => !rule.isEmpty := by
  cases node; rfl

@[simp] theorem Node.prune_children (node : Node) :
    node.prune.children = Forest.prune node.children := by
  cases node; rfl

theorem Node.isEmpty_eq (node : Node) :
    node.isEmpty = (node.rules.all Rule.isEmpty && Forest.isEmpty node.children) := by
  cases node; rfl

mutual

/-- A node makes the block of its pruned tree, unless it is empty. -/
theorem Node.toCss?_eq : ∀ node : Node,
    node.toCss? = if node.isEmpty then none else some node.prune.block
  | ⟨condition, rules, children⟩ => by
      simp only [Node.toCss?, Node.isEmpty, Node.prune, Node.block, filterMap_toCss?,
        Forest.toCss_eq_blocks_prune children]

/-- The blocks of a forest are those of the pruned forest. -/
theorem Forest.toCss_eq_blocks_prune : ∀ forest : List (Condition × Node),
    Forest.toCss forest = Forest.blocks (Forest.prune forest)
  | [] => rfl
  | (key, node) :: rest => by
      simp only [Forest.toCss, Forest.prune, Node.toCss?_eq node,
        Forest.toCss_eq_blocks_prune rest]
      by_cases h : node.isEmpty <;> simp [h, Forest.blocks]

end

namespace Forest

/-! ## Finding a node in a pruned forest -/

/-- All that is left of a node: nothing if it is empty. -/
def leftOf (node : Node) : Option Node := if node.isEmpty then none else some node.prune

theorem keys_prune_subset (forest : Forest) (key : Condition) (h : key ∈ keys (prune forest)) :
    key ∈ forest.keys := by
  induction forest with
  | nil => exact h
  | cons entry rest ih =>
      obtain ⟨first, node⟩ := entry
      by_cases hempty : node.isEmpty
      · rw [prune, if_pos hempty] at h
        exact List.mem_cons_of_mem _ (ih h)
      · rw [prune, if_neg hempty] at h
        rcases List.mem_cons.1 h with hfirst | hrest
        · exact hfirst ▸ List.mem_cons_self
        · exact List.mem_cons_of_mem _ (ih hrest)

theorem WellKeyed.at?_prune {forest : Forest} (h : forest.WellKeyed) (key : Condition) :
    at? (prune forest) key = (forest.at? key).bind leftOf := by
  induction h with
  | nil => rfl
  | @cons first node rest _ fresh _ _ _ ih =>
      rw [prune, at?_cons]
      by_cases hkey : key = first
      · subst hkey
        -- an empty first sibling leaves no other one under its key
        have hnone : at? (prune rest) key = none :=
          at?_eq_none_iff.2 fun hmem => fresh (keys_prune_subset rest key hmem)
        by_cases hempty : node.isEmpty
        · simp [hempty, leftOf, hnone]
        · simp [hempty, leftOf, at?_cons]
      · rw [if_neg hkey, ← ih]
        by_cases hempty : node.isEmpty
        · simp [hempty]
        · simp [hempty, at?_cons, hkey]

theorem isEmpty_of_at? {forest : Forest} (h : Forest.isEmpty forest) {key : Condition}
    {node : Node} (hat : forest.at? key = some node) : node.isEmpty := by
  induction forest with
  | nil => simp [at?] at hat
  | cons entry rest ih =>
      obtain ⟨first, other⟩ := entry
      rw [Forest.isEmpty, Bool.and_eq_true] at h
      rw [at?_cons] at hat
      by_cases hkey : key = first
      · rw [if_pos hkey] at hat
        exact Option.some.inj hat ▸ h.1
      · rw [if_neg hkey] at hat
        exact ih h.2 hat

/-- Whatever is found in an empty forest is empty. -/
theorem isEmpty_of_find? {forest : Forest} (h : Forest.isEmpty forest) {place : List Condition}
    {node : Node} (hfind : forest.find? place = some node) : node.isEmpty := by
  induction place generalizing forest with
  | nil => simp [find?] at hfind
  | cons key place ih =>
      cases hat : forest.at? key with
      | none => simp [find?, hat] at hfind
      | some above =>
          have habove := isEmpty_of_at? h hat
          cases place with
          | nil =>
              rw [find?_singleton, hat] at hfind
              exact Option.some.inj hfind ▸ habove
          | cons second place =>
              rw [find?_cons_cons, hat] at hfind
              rw [Node.isEmpty_eq, Bool.and_eq_true] at habove
              exact ih habove.2 hfind

/-- A node is found in the pruned forest where it is found in the forest and is not empty. -/
theorem WellKeyed.find?_prune {forest : Forest} (h : forest.WellKeyed) (place : List Condition) :
    find? (prune forest) place = (forest.find? place).bind leftOf := by
  induction place generalizing forest with
  | nil => rfl
  | cons key place ih =>
      cases place with
      | nil => rw [find?_singleton, find?_singleton, h.at?_prune]
      | cons second place =>
          rw [find?_cons_cons, find?_cons_cons, h.at?_prune]
          cases hat : forest.at? key with
          | none => simp [Node.new]
          | some above =>
              have hchildren := (h.of_at? hat).2
              by_cases hempty : above.isEmpty
              · -- nothing is left of an empty node, nor of anything found below it
                rw [Node.isEmpty_eq, Bool.and_eq_true] at hempty
                have hleft : (find? above.children (second :: place)).bind leftOf = none := by
                  cases hfind : find? above.children (second :: place) with
                  | none => rfl
                  | some node => simp [leftOf, isEmpty_of_find? hempty.2 hfind]
                simp [leftOf, Node.isEmpty_eq, hempty, Node.new, hleft]
              · simp [leftOf, hempty, ih hchildren]

/-- Pruning keeps the order of the siblings that are left. -/
theorem WellKeyed.keys_prune {forest : Forest} (h : forest.WellKeyed) :
    keys (prune forest) = forest.keys.filter fun key => (at? (prune forest) key).isSome := by
  induction h with
  | nil => rfl
  | @cons first node rest condition fresh children siblings _ ih =>
      have hfirst : (at? (prune ((first, node) :: rest)) first).isSome = !node.isEmpty := by
        rw [(WellKeyed.cons condition fresh children siblings).at?_prune, at?_cons, if_pos rfl]
        by_cases hempty : node.isEmpty <;> simp [leftOf, hempty]
      have hrest : (keys rest).filter
            (fun key => (at? (prune ((first, node) :: rest)) key).isSome) =
          (keys rest).filter fun key => (at? (prune rest) key).isSome := by
        apply List.filter_congr
        intro key hkey
        have hne : key ≠ first := fun h => fresh (h ▸ hkey)
        rw [(WellKeyed.cons condition fresh children siblings).at?_prune, at?_cons, if_neg hne,
          siblings.at?_prune]
      have hcons : keys ((first, node) :: rest) = first :: keys rest := rfl
      rw [hcons, List.filter_cons, hfirst, hrest, ← ih, prune]
      by_cases hempty : node.isEmpty <;> simp [hempty, keys]

theorem WellKeyed.prune {forest : Forest} (h : forest.WellKeyed) :
    WellKeyed (Forest.prune forest) := by
  induction h with
  | nil => exact .nil
  | @cons key node rest condition fresh _ _ ihchildren ihrest =>
      rw [Forest.prune]
      by_cases hempty : node.isEmpty
      · rw [if_pos hempty]
        exact ihrest
      · rw [if_neg hempty]
        refine .cons ?_ (fun hmem => fresh (keys_prune_subset rest key hmem)) ?_ ihrest
        · rw [Node.prune_condition, condition]
        · rw [Node.prune_children]
          exact ihchildren

/-! ## Which nodes are empty -/

theorem find?_append (forest : Forest) {place rest : List Condition} {node : Node}
    (hfind : forest.find? place = some node) (hrest : rest ≠ []) :
    forest.find? (place ++ rest) = find? node.children rest := by
  induction place generalizing forest with
  | nil => simp [find?] at hfind
  | cons key place ih =>
      cases place with
      | nil =>
          rw [find?_singleton] at hfind
          cases rest with
          | nil => exact absurd rfl hrest
          | cons second rest =>
              rw [List.cons_append, List.nil_append, find?_cons_cons, hfind]
              rfl
      | cons second place =>
          rw [find?_cons_cons] at hfind
          rw [List.cons_append, List.cons_append, find?_cons_cons]
          exact ih _ hfind

theorem rulesAt_of_find? {forest : Forest} {place : List Condition} {node : Node}
    (h : forest.find? place = some node) : forest.rulesAt place = node.rules := by
  simp [rulesAt, h]

theorem mem_rulesAt {forest : Forest} {place : List Condition} {rule : Rule} :
    rule ∈ forest.rulesAt place ↔ ∃ node, forest.find? place = some node ∧ rule ∈ node.rules := by
  unfold rulesAt
  cases forest.find? place <;> simp

/-- A forest is not empty exactly if a rule with a declaration stands at some place of it. -/
theorem WellKeyed.isEmpty_eq_false_iff {forest : Forest} (h : forest.WellKeyed) :
    Forest.isEmpty forest = false ↔
      ∃ place, ∃ rule ∈ forest.rulesAt place, rule.isEmpty = false := by
  constructor
  · intro hempty
    induction h with
    | nil => simp [Forest.isEmpty] at hempty
    | @cons key node rest _ fresh _ _ ihchildren ihrest =>
        have hkey : find? ((key, node) :: rest) [key] = some node := by
          rw [find?_singleton, at?_cons, if_pos rfl]
        rw [Forest.isEmpty, Node.isEmpty_eq, Bool.and_eq_false_iff, Bool.and_eq_false_iff] at hempty
        -- the declaration stands at the first node, below it, or among the other siblings
        rcases hempty with (hrules | hchildren) | hrest
        · obtain ⟨rule, hmem, hrule⟩ := List.all_eq_false.1 hrules
          exact ⟨[key], rule, mem_rulesAt.2 ⟨node, hkey, hmem⟩, by simpa using hrule⟩
        · obtain ⟨place, rule, hmem, hrule⟩ := ihchildren hchildren
          obtain ⟨below, hfind, hmem⟩ := mem_rulesAt.1 hmem
          have hplace : place ≠ [] := by
            rintro rfl
            simp [find?] at hfind
          refine ⟨[key] ++ place, rule, mem_rulesAt.2 ⟨below, ?_, hmem⟩, hrule⟩
          rw [find?_append _ hkey hplace, hfind]
        · obtain ⟨place, rule, hmem, hrule⟩ := ihrest hrest
          obtain ⟨found, hfind, hmem⟩ := mem_rulesAt.1 hmem
          refine ⟨place, rule, mem_rulesAt.2 ⟨found, ?_, hmem⟩, hrule⟩
          cases place with
          | nil => simp [find?] at hfind
          | cons first place =>
              -- a place in the other siblings starts with one of their keys
              have hne : first ≠ key := by
                rintro rfl
                rw [find?_of_not_mem_keys fresh] at hfind
                simp at hfind
              rw [find?_cons_of_ne node hne]
              exact hfind
  · rintro ⟨place, rule, hmem, hrule⟩
    obtain ⟨node, hfind, hmem⟩ := mem_rulesAt.1 hmem
    cases hempty : Forest.isEmpty forest with
    | false => rfl
    | true =>
        have hnode := isEmpty_of_find? hempty hfind
        rw [Node.isEmpty_eq, Bool.and_eq_true, List.all_eq_true] at hnode
        rw [hnode.1 rule hmem] at hrule
        exact absurd hrule (by decide)

/-- A node is not empty exactly if a rule with a declaration stands at its place or below. -/
theorem WellKeyed.isEmpty_node_iff {forest : Forest} (h : forest.WellKeyed)
    {place : List Condition} {node : Node} (hfind : forest.find? place = some node) :
    node.isEmpty = false ↔
      ∃ rest, ∃ rule ∈ forest.rulesAt (place ++ rest), rule.isEmpty = false := by
  have hchildren := (h.of_find? hfind).2.isEmpty_eq_false_iff
  have hbelow : ∀ rest, rest ≠ [] → forest.rulesAt (place ++ rest) = rulesAt node.children rest := by
    intro rest hrest
    rw [rulesAt, rulesAt, find?_append forest hfind hrest]
  rw [Node.isEmpty_eq, Bool.and_eq_false_iff, hchildren]
  constructor
  · rintro (hrules | ⟨rest, rule, hmem, hrule⟩)
    · obtain ⟨rule, hmem, hrule⟩ := List.all_eq_false.1 hrules
      refine ⟨[], rule, ?_, by simpa using hrule⟩
      rw [List.append_nil, rulesAt_of_find? hfind]
      exact hmem
    · have hrest : rest ≠ [] := by
        rintro rfl
        simp [rulesAt, find?] at hmem
      exact ⟨rest, rule, (hbelow rest hrest).symm ▸ hmem, hrule⟩
  · rintro ⟨rest, rule, hmem, hrule⟩
    by_cases hrest : rest = []
    · subst hrest
      rw [List.append_nil, rulesAt_of_find? hfind] at hmem
      exact Or.inl (List.all_eq_false.2 ⟨rule, hmem, by simp [hrule]⟩)
    · rw [hbelow rest hrest] at hmem
      exact Or.inr ⟨rest, rule, hmem, hrule⟩

/-- Below every place pruning keeps the order of what is left there. -/
theorem WellKeyed.keys_below_prune {forest : Forest} (h : forest.WellKeyed)
    (place : List Condition) :
    keys (Forest.below (Forest.prune forest) place) =
      (forest.below place).keys.filter fun key =>
        (find? (Forest.prune forest) (place ++ [key])).isSome := by
  by_cases hplace : place = []
  · subst hplace
    simp only [below_nil, List.nil_append, find?_singleton]
    exact h.keys_prune
  · have hpruned := h.find?_prune place
    cases hfind : forest.find? place with
    | none =>
        rw [hfind, Option.bind_none] at hpruned
        rw [below_of_find?_eq_none hplace hfind, below_of_find?_eq_none hplace hpruned]
        rfl
    | some node =>
        rw [hfind, Option.bind_some] at hpruned
        rw [below_of_find? hfind]
        by_cases hempty : node.isEmpty
        · -- an empty node is taken out with all the nodes below it
          have hnone : find? (Forest.prune forest) place = none := by simp [hpruned, leftOf, hempty]
          have hgone : ∀ key, find? (Forest.prune forest) (place ++ [key]) = none := by
            intro key
            rw [h.find?_prune, find?_append forest hfind (List.cons_ne_nil _ _)]
            rw [Node.isEmpty_eq, Bool.and_eq_true] at hempty
            cases hkey : find? node.children [key] with
            | none => rfl
            | some child => simp [leftOf, isEmpty_of_find? hempty.2 hkey]
          rw [below_of_find?_eq_none hplace hnone]
          simp [hgone, keys]
        · have hsome : find? (Forest.prune forest) place = some node.prune := by
            simp [hpruned, leftOf, hempty]
          rw [below_of_find? hsome, Node.prune_children, (h.of_find? hfind).2.keys_prune]
          simp only [find?_append _ hsome (List.cons_ne_nil _ _), find?_singleton,
            Node.prune_children]

end Forest

/-! ## The pruned forest of a history -/

/-- A rule with a declaration was registered at the place or at a place below it. -/
def History.declares (history : History) (place : List Condition) : Bool :=
  history.any fun entry => place.isPrefixOf entry.1 && entry.2.any fun rule => !rule.isEmpty

theorem History.mem_rulesAt {history : History} {place : List Condition} {rule : Rule} :
    rule ∈ history.rulesAt place ↔ ∃ entry ∈ history, entry.1 = place ∧ rule ∈ entry.2 := by
  simp [rulesAt, and_assoc]

theorem History.declares_iff {history : History} {place : List Condition} :
    history.declares place ↔
      ∃ rest, ∃ rule ∈ history.rulesAt (place ++ rest), rule.isEmpty = false := by
  simp only [declares, List.any_eq_true, Bool.and_eq_true, List.isPrefixOf_iff_prefix,
    Bool.not_eq_true', mem_rulesAt]
  constructor
  · rintro ⟨entry, hentry, ⟨rest, hpath⟩, rule, hmem, hrule⟩
    exact ⟨rest, rule, ⟨entry, hentry, hpath.symm, hmem⟩, hrule⟩
  · rintro ⟨rest, rule, ⟨entry, hentry, hpath, hmem⟩, hrule⟩
    exact ⟨entry, hentry, ⟨rest, hpath.symm⟩, rule, hmem, hrule⟩

/-- The forest has a node at a place exactly if a rule with a declaration was registered there or
below, the node has the rules with declarations that were registered at its place, and siblings
stand in the order in which they were first needed. -/
structure Forest.Merges (forest : Forest) (history : History) : Prop where
  isSome_find? : ∀ place, (forest.find? place).isSome ↔ place ≠ [] ∧ history.declares place
  rules_eq : ∀ place node, forest.find? place = some node →
    node.rules = (history.rulesAt place).filter fun rule => !rule.isEmpty
  keys_below : ∀ place, (forest.below place).keys =
    (history.nextConditions place).filter fun key => history.declares (place ++ [key])
  /-- Keys are distinct, and each node has the condition of its key. -/
  wellKeyed : forest.WellKeyed

namespace Forest.Merges

variable {forest other : Forest} {history : History}

theorem rulesAt_eq (h : forest.Merges history) (place : List Condition) :
    forest.rulesAt place =
      if place ≠ [] ∧ history.declares place then
        (history.rulesAt place).filter fun rule => !rule.isEmpty
      else [] := by
  have hfound := h.isSome_find? place
  unfold rulesAt
  cases hfind : forest.find? place with
  | none =>
      rw [hfind] at hfound
      rw [if_neg fun hdeclared => absurd (hfound.2 hdeclared) (by decide)]
      rfl
  | some node =>
      rw [hfind] at hfound
      rw [if_pos (hfound.1 rfl), ← h.rules_eq place node hfind]
      rfl

/-- There is one forest only that merges a history. -/
theorem unique (h : forest.Merges history) (hother : other.Merges history) : forest = other := by
  apply h.wellKeyed.ext hother.wellKeyed
  · intro place
    rw [h.keys_below, hother.keys_below]
  · intro place
    rw [h.rulesAt_eq, hother.rulesAt_eq]

end Forest.Merges

namespace Forest.Records

variable {forest : Forest} {history : History}

theorem isEmpty_node_iff (h : forest.Records history) {place : List Condition} {node : Node}
    (hfind : forest.find? place = some node) :
    node.isEmpty = false ↔ history.declares place := by
  have hplace : place ≠ [] := ((h.isSome_find? place).1 (by rw [hfind]; rfl)).1
  rw [h.wellKeyed.isEmpty_node_iff hfind, History.declares_iff]
  have hrules : ∀ rest, forest.rulesAt (place ++ rest) = history.rulesAt (place ++ rest) := by
    intro rest
    exact h.rulesAt_eq _ (by simp [hplace])
  simp only [hrules]

theorem isSome_find?_prune (h : forest.Records history) (place : List Condition) :
    (Forest.find? (Forest.prune forest) place).isSome ↔ place ≠ [] ∧ history.declares place := by
  rw [h.wellKeyed.find?_prune]
  constructor
  · intro hsome
    cases hfind : forest.find? place with
    | none => simp [hfind] at hsome
    | some node =>
        have hplace : place ≠ [] := ((h.isSome_find? place).1 (by rw [hfind]; rfl)).1
        refine ⟨hplace, (h.isEmpty_node_iff hfind).1 ?_⟩
        by_cases hempty : node.isEmpty
        · simp [hfind, leftOf, hempty] at hsome
        · simpa using hempty
  · rintro ⟨hplace, hdeclares⟩
    obtain ⟨rest, rule, hmem, -⟩ := History.declares_iff.1 hdeclares
    obtain ⟨entry, hentry, hpath, -⟩ := History.mem_rulesAt.1 hmem
    -- a place with a declaration at it or below was reached, so the forest has a node there
    have hreached : history.Reaches place := ⟨entry, hentry, ⟨rest, hpath.symm⟩⟩
    obtain ⟨node, hfind⟩ :=
      Option.isSome_iff_exists.1 ((h.isSome_find? place).2 ⟨hplace, hreached⟩)
    have hempty := (h.isEmpty_node_iff hfind).2 hdeclares
    simp [hfind, leftOf, hempty]

/-- **What is written of a recorded forest** is described by its history. -/
theorem merges_prune (h : forest.Records history) :
    Forest.Merges (Forest.prune forest) history where
  isSome_find? := h.isSome_find?_prune
  rules_eq := by
    intro place node hfind
    rw [h.wellKeyed.find?_prune] at hfind
    obtain ⟨above, habove, hleft⟩ := Option.bind_eq_some_iff.1 hfind
    have hplace : place ≠ [] := ((h.isSome_find? place).1 (by rw [habove]; rfl)).1
    have hnode : above.prune = node := by
      by_cases hempty : above.isEmpty
      · simp [leftOf, hempty] at hleft
      · simpa [leftOf, hempty] using hleft
    rw [← hnode, Node.prune_rules, ← h.rulesAt_eq place hplace, rulesAt_of_find? habove]
  keys_below := by
    intro place
    rw [h.wellKeyed.keys_below_prune, h.keys_below place]
    apply List.filter_congr
    intro key _
    have hfound := h.isSome_find?_prune (place ++ [key])
    simp only [ne_eq, List.append_eq_nil_iff, List.cons_ne_nil, and_false, not_false_eq_true,
      true_and] at hfound
    exact Bool.eq_iff_iff.2 hfound
  wellKeyed := h.wellKeyed.prune

end Forest.Records

end Condition

end ScopedCss
