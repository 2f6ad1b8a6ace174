import ScopedCss.Flatten
import ScopedCss.Proofs.Pass

/-! # What an accepted definition is flattened into

Flattening checks and builds at once. Here what it builds is told apart from what it checks:
`Level.ownRules` lists the rules of a level without any check, and an accepted definition is
flattened into exactly these, level by level (`Definition.flatten_eq_ok`).
-/

set_option autoImplicit false

namespace ScopedCss

/-! ## Rules without checks -/

/-- The selector that a key stands for, if it stands for any. -/
def Target.resolved : Target → String → String
  | .scoped scope, key => Selector.resolve scope key
  | .global _, key => key

/-- The rules of the blocks of a level, in the order base, pseudos, selectors. -/
def Level.allRules (target : Target) (level : Level) : List Rule :=
  ⟨target.selector, level.base.declarations⟩
    :: level.pseudos.map (fun entry => ⟨target.selector ++ entry.1, entry.2.declarations⟩)
    ++ level.selectors.map fun entry => ⟨target.resolved entry.1, entry.2.declarations⟩

/-- The rules of a level that have declarations. -/
def Level.ownRules (target : Target) (level : Level) : List Rule :=
  (level.allRules target).filter fun rule => !rule.isEmpty

/-! ## Accepted blocks, levels and definitions -/

theorem Block.rule_eq_ok {block : Block} {selector : String} {rule : Rule}
    (h : block.rule selector = .ok rule) : rule = ⟨selector, block.declarations⟩ := by
  unfold Block.rule at h
  split at h
  · exact absurd h (by simp)
  · exact (Except.ok.inj h).symm

/-- For a scope a key is checked, and then resolved. -/
theorem Target.resolve_scoped (scope : Scope) (key : String) :
    (Target.scoped scope).resolve key =
      (scope.check key >>= fun _ => pure (Selector.resolve scope key)) := rfl

theorem Target.resolve_eq_ok {target : Target} {key selector : String}
    (h : target.resolve key = .ok selector) : selector = target.resolved key := by
  obtain scope | _ := target
  · obtain ⟨_, -, hselector⟩ := bind_eq_ok h
    exact (Except.ok.inj hselector).symm
  · exact absurd h (by simp [Target.resolve])

/-- The blocks of a level, as far as they are accepted, make its rules. -/
theorem Level.blocks_accepted (target : Target) (level : Level) :
    List.Forall₂
      (fun (entry : Except StyleError String × Block) (rule : Rule) =>
        ∀ made, (do entry.2.rule (← entry.1)) = .ok made → made = rule)
      (level.blocks target) (level.allRules target) := by
  unfold Level.blocks Level.allRules
  -- the base and the pseudos have their selectors, the others have to be resolved
  refine List.rel_append (.cons ?_ ?_) ?_
  · intro made h
    obtain ⟨selector, hselector, hrule⟩ := bind_eq_ok h
    rw [Except.ok.inj hselector]
    exact Block.rule_eq_ok hrule
  · rw [List.forall₂_map_left_iff, List.forall₂_map_right_iff]
    refine List.forall₂_same.2 fun entry _ made h => ?_
    obtain ⟨selector, hselector, hrule⟩ := bind_eq_ok h
    rw [Except.ok.inj hselector]
    exact Block.rule_eq_ok hrule
  · rw [List.forall₂_map_left_iff, List.forall₂_map_right_iff]
    refine List.forall₂_same.2 fun entry _ made h => ?_
    obtain ⟨selector, hselector, hrule⟩ := bind_eq_ok h
    have hresolve : target.resolve entry.1 = .ok selector := hselector
    rw [← Target.resolve_eq_ok hresolve]
    exact Block.rule_eq_ok hrule

theorem Level.rules_eq_ok {target : Target} {level : Level} {rules : List Rule}
    (h : level.rules target = .ok rules) : rules = level.ownRules target := by
  obtain ⟨all, hall, hrules⟩ := bind_eq_ok h
  rw [eq_of_mapM_eq_ok hall (level.blocks_accepted target)] at hrules
  exact (Except.ok.inj hrules).symm

theorem Level.flatten_eq_ok {target : Target} {reject : Bool} {level : Level} {rules : List Rule}
    (h : level.flatten target reject = .ok rules) : rules = level.ownRules target := by
  obtain ⟨own, hown, hrules⟩ := bind_eq_ok h
  rw [← Level.rules_eq_ok hown]
  split at hrules
  · exact absurd hrules (by simp)
  · exact (Except.ok.inj hrules).symm

/-- The levels below conditions in order, each with its path and its rules. -/
def Definition.contributions (target : Target) (definition : Definition) :
    List (List Condition × List Rule) :=
  definition.nested.map fun entry => (entry.1, entry.2.ownRules target)

/-- **An accepted definition** is flattened into the rules of its own level and, in the order of
its levels, the rules of each level below conditions. -/
theorem Definition.flatten_eq_ok {target : Target} {reject : Bool} {definition : Definition}
    {flattened : Flattened} (h : definition.flatten target reject = .ok flattened) :
    flattened = ⟨definition.level.ownRules target, definition.contributions target⟩ := by
  unfold Definition.flatten at h
  split at h
  · exact absurd h (by simp)
  · obtain ⟨rules, hrules, h⟩ := bind_eq_ok h
    obtain ⟨conditional, hconditional, h⟩ := bind_eq_ok h
    have hnested : conditional = definition.contributions target := by
      apply eq_of_mapM_eq_ok hconditional
      unfold Definition.contributions
      rw [List.forall₂_map_right_iff]
      refine List.forall₂_same.2 fun entry _ made h => ?_
      obtain ⟨own, hown, hmade⟩ := bind_eq_ok h
      rw [← Level.flatten_eq_ok hown]
      exact (Except.ok.inj hmade).symm
    rw [← Level.flatten_eq_ok hrules, ← hnested]
    exact (Except.ok.inj h).symm

end ScopedCss
