import ScopedCss.Proofs.Definition.Preorder
import ScopedCss.Proofs.Flatten.Levels

/-! # Flattening goes through a definition in preorder

What an accepted definition contributes and in which order, told by the addresses of the definitions
nested in it and by relations that do not compute: `Block.Declares` says which declarations a block
stands for and `Level.Makes` which rules a level does. `Definition.flatten_preorder` says that
flattening gives these rules for every nested definition, each once and in preorder.
-/

set_option autoImplicit false

namespace ScopedCss

/-! ## Rules of a level -/

/-- A block stands for one declaration of each of its custom properties, in the order of their keys,
and after these, for each of its properties in order, for one declaration of each of its values. -/
def Block.Declares (block : Block) (declarations : List Declaration) : Prop :=
  ∃ custom properties, declarations = custom ++ List.flatten properties ∧
    List.Forall₂ (fun entry d => d = ⟨.custom, entry.1, .text entry.2⟩) block.custom custom ∧
    List.Forall₂ (fun entry ds =>
        List.Forall₂ (fun value d => d = ⟨.property, entry.1, value⟩) entry.2.values ds)
      block.properties properties

/-- The blocks of a level with the selectors that they style: first the element itself, then it with
each pseudo-class or pseudo-element, then what each selector stands for. -/
def Level.styled (target : Target) (level : Level) : List (String × Block) :=
  (target.selector, level.base)
    :: level.pseudos.map (fun entry => (target.selector ++ entry.1, entry.2))
    ++ level.selectors.map fun entry => (target.resolved entry.1, entry.2)

/-- A level makes a rule of each of its blocks that has declarations, in order. -/
def Level.Makes (target : Target) (level : Level) (rules : List Rule) : Prop :=
  ∃ all : List Rule, rules = all.filter (fun rule => rule.declarations ≠ []) ∧
    List.Forall₂ (fun entry rule => rule.selector = entry.1 ∧ entry.2.Declares rule.declarations)
      (level.styled target) all

theorem forall₂_eq_map {α β : Type} (f : α → β) (as : List α) :
    List.Forall₂ (fun a b => b = f a) as (as.map f) := by
  rw [List.forall₂_map_right_iff]
  exact List.forall₂_same.2 fun _ _ => rfl

theorem Block.declares_declarations (block : Block) : block.Declares block.declarations := by
  refine ⟨_, block.properties.map fun entry =>
    entry.2.values.map fun v => (⟨.property, entry.1, v⟩ : Declaration), ?_, forall₂_eq_map _ _, ?_⟩
  · rw [Block.declarations, List.flatMap_def]
  · rw [List.forall₂_map_right_iff]
    exact List.forall₂_same.2 fun _ _ => forall₂_eq_map _ _

/-- Every block that is styled has its rule. -/
theorem Level.allRules_eq (target : Target) (level : Level) :
    level.allRules target =
      (level.styled target).map fun entry => ⟨entry.1, entry.2.declarations⟩ := by
  simp [Level.allRules, Level.styled, Function.comp_def]

/-- The rules of a level are those of its blocks that have declarations. -/
theorem Level.ownRules_eq (target : Target) (level : Level) :
    level.ownRules target =
      (level.allRules target).filter fun rule => rule.declarations ≠ [] := by
  rw [Level.ownRules]
  refine List.filter_congr fun rule _ => ?_
  cases hdeclarations : rule.declarations <;> simp [Rule.isEmpty, hdeclarations]

theorem Level.mem_ownRules_iff {target : Target} {level : Level} {rule : Rule} :
    rule ∈ level.ownRules target ↔
      ∃ entry ∈ level.styled target, entry.2.declarations ≠ [] ∧
        rule = ⟨entry.1, entry.2.declarations⟩ := by
  rw [Level.ownRules_eq, List.mem_filter, Level.allRules_eq, List.mem_map]
  constructor
  · rintro ⟨⟨entry, hentry, rfl⟩, hne⟩
    exact ⟨entry, hentry, of_decide_eq_true hne, rfl⟩
  · rintro ⟨entry, hentry, hne, rfl⟩
    exact ⟨⟨entry, hentry, rfl⟩, decide_eq_true hne⟩

theorem Level.makes_ownRules (target : Target) (level : Level) :
    level.Makes target (level.ownRules target) := by
  refine ⟨level.allRules target, level.ownRules_eq target, ?_⟩
  rw [Level.allRules_eq, List.forall₂_map_right_iff]
  exact List.forall₂_same.2 fun entry _ => ⟨rfl, entry.2.declares_declarations⟩

/-! ## Rules of a definition -/

/-- The rules of the levels below conditions stand at the addresses of these levels. -/
theorem Definition.forall₂_contributions (target : Target) (definition : Definition) :
    List.Forall₂
      (fun address entry => ∃ inner, definition.at? address = some (entry.1, inner) ∧
        inner.level.Makes target entry.2)
      definition.addresses.tail (definition.contributions target) := by
  rw [Definition.contributions, List.forall₂_map_right_iff]
  refine definition.forall₂_nested.imp ?_
  rintro address entry ⟨inner, hinner, hlevel⟩
  exact ⟨inner, hinner, hlevel ▸ inner.level.makes_ownRules target⟩

/-- **Flattening goes in preorder.** An accepted definition has the rules of its own level as
unconditional ones. Its other rules are listed by the addresses of the definitions nested in it, all
of them and in their order, each with the conditions that lead there and the rules of its level. So
the paths of these conditions are not empty, none stands twice, and the paths on the way to one are
listed before it. -/
theorem Definition.flatten_preorder {target : Target} {reject : Bool} {definition : Definition}
    {flattened : Flattened} (h : definition.flatten target reject = .ok flattened) :
    definition.level.Makes target flattened.rules ∧
    (∃ addresses : List Address,
      addresses.Pairwise Address.Before ∧
      (∀ address, address ∈ addresses ↔ address ≠ [] ∧ (definition.at? address).isSome) ∧
      List.Forall₂
        (fun address entry => ∃ inner, definition.at? address = some (entry.1, inner) ∧
          inner.level.Makes target entry.2)
        addresses flattened.conditional) ∧
    (∀ entry ∈ flattened.conditional, entry.1 ≠ []) ∧
    (definition.Distinct → (flattened.conditional.map Prod.fst).Nodup) ∧
    ∀ before entry after, flattened.conditional = before ++ entry :: after →
      ∀ path, path ≠ [] → path <+: entry.1 → path ≠ entry.1 → ∃ outer ∈ before, outer.1 = path := by
  obtain rfl := Definition.flatten_eq_ok h
  have hpaths : (definition.contributions target).map Prod.fst =
      definition.nested.map Prod.fst := by
    rw [Definition.contributions, List.map_map]
    rfl
  refine ⟨definition.level.makes_ownRules target,
    ⟨definition.addresses.tail, definition.pairwise_addresses.tail,
      fun address => mem_tail_addresses, definition.forall₂_contributions target⟩, ?_, ?_, ?_⟩
  · intro entry hentry
    obtain ⟨inner, hinner, rfl⟩ := List.mem_map.1 hentry
    exact definition.nested_path_ne_nil inner hinner
  · intro hdistinct
    rw [hpaths]
    exact (List.nodup_cons.1 (nodup_paths hdistinct)).2
  · intro before entry after hsplit path hne hbeginning hproper
    obtain ⟨first, rest, hnested, rfl, hrest⟩ := List.map_eq_append_iff.1 hsplit
    obtain ⟨inner, last, rfl, rfl, -⟩ := List.map_eq_cons_iff.1 hrest
    have hlevels : definition.levels = (([], definition.level) :: first) ++ inner :: last := by
      rw [Definition.levels, hnested]
      rfl
    obtain ⟨outer, houter, rfl⟩ := exists_outer_level hlevels hbeginning hproper
    -- only the outermost level has no conditions
    rcases List.mem_cons.1 houter with rfl | houter
    · exact absurd rfl hne
    · exact ⟨_, List.mem_map_of_mem houter, rfl⟩

/-- The media queries of a definition come before its supports queries, also where the first of them
contains one of the others. -/
theorem Definition.flatten_preorder_of_nested :
    ∃ (definition : Definition) (flattened : Flattened),
      definition.flatten (.scoped ⟨"a"⟩) true = .ok flattened ∧
      flattened.conditional.map Prod.fst =
        [[⟨.media, "print"⟩], [⟨.media, "print"⟩, ⟨.supports, "(gap: 0)"⟩], [⟨.media, "screen"⟩],
          [⟨.supports, "(gap: 0)"⟩]] ∧
      definition.level.Makes (.scoped ⟨"a"⟩) flattened.rules ∧
      ∀ before entry after, flattened.conditional = before ++ entry :: after →
        ∀ path, path ≠ [] → path <+: entry.1 → path ≠ entry.1 →
          ∃ outer ∈ before, outer.1 = path := by
  let gap : Definition := { level := { base := { custom := [("--gap", "0")] } } }
  let definition : Definition :=
    { level := { pseudos := [(":hover", { properties := [("color", .single (.text "red"))] })] }
      media := [("print", { supports := [("(gap: 0)", gap)] }), ("screen", {})]
      supports := [("(gap: 0)", gap)] }
  have h : definition.flatten (.scoped ⟨"a"⟩) true =
      .ok ⟨definition.level.ownRules (.scoped ⟨"a"⟩),
        definition.contributions (.scoped ⟨"a"⟩)⟩ := by rfl
  obtain ⟨hown, -, -, -, houter⟩ := Definition.flatten_preorder h
  exact ⟨definition, _, h, rfl, hown, houter⟩

end ScopedCss
