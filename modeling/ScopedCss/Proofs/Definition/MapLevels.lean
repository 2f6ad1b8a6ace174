import ScopedCss.Proofs.Definition.Preorder

/-! # Changing the levels of a definition

A change of a level is carried out on all levels of a definition at once: `Definition.mapLevels`.
The conditions stay, and so do all addresses with their paths (`Definition.at?_mapLevels`), so that
the levels are listed in the same order and each of them changed (`Definition.levels_mapLevels`).
-/

set_option autoImplicit false

namespace ScopedCss

mutual

/-- A definition with each of its levels changed. -/
def Definition.mapLevels (change : Level → Level) : Definition → Definition
  | ⟨level, media, supports⟩ =>
      ⟨change level, mapLevelsUnder change media, mapLevelsUnder change supports⟩

/-- The definitions below queries of one kind, with each of their levels changed. -/
def mapLevelsUnder (change : Level → Level) :
    List (String × Definition) → List (String × Definition)
  | [] => []
  | (query, definition) :: rest =>
      (query, definition.mapLevels change) :: mapLevelsUnder change rest

end

theorem mapLevelsUnder_eq (change : Level → Level) (definitions : List (String × Definition)) :
    mapLevelsUnder change definitions =
      definitions.map fun entry => (entry.1, entry.2.mapLevels change) := by
  induction definitions with
  | nil => rfl
  | cons entry rest ih => rw [mapLevelsUnder, ih, List.map_cons]

namespace Definition

variable (change : Level → Level)

theorem level_mapLevels (definition : Definition) :
    (definition.mapLevels change).level = change definition.level := by
  cases definition
  rfl

theorem children_mapLevels (definition : Definition) (kind : ConditionKind) :
    (definition.mapLevels change).children kind =
      (definition.children kind).map fun entry => (entry.1, entry.2.mapLevels change) := by
  obtain ⟨level, media, supports⟩ := definition
  rw [mapLevels]
  cases kind <;> exact mapLevelsUnder_eq change _

theorem nestedUnder_mapLevels (kind : ConditionKind) {definitions : List (String × Definition)}
    (h : ∀ entry ∈ definitions, (entry.2.mapLevels change).levels =
      entry.2.levels.map fun found => (found.1, change found.2)) :
    nestedUnder kind (definitions.map fun entry => (entry.1, entry.2.mapLevels change)) =
      (nestedUnder kind definitions).map fun found => (found.1, change found.2) := by
  induction definitions with
  | nil => rfl
  | cons entry rest ih =>
      obtain ⟨hentry, hrest⟩ := List.forall_mem_cons.1 h
      rw [List.map_cons, nestedUnder_cons, nestedUnder_cons, hentry, ih hrest, List.map_append,
        List.map_map, List.map_map]
      rfl

/-- The levels are changed one by one, and stay under their conditions. -/
theorem levels_mapLevels (definition : Definition) :
    (definition.mapLevels change).levels =
      definition.levels.map fun entry => (entry.1, change entry.2) := by
  induction definition using Definition.induction with
  | step definition ih =>
      rw [levels_eq, levels_eq, level_mapLevels, children_mapLevels, children_mapLevels,
        nestedUnder_mapLevels change _ (ih .media), nestedUnder_mapLevels change _ (ih .supports),
        List.map_cons, List.map_append]

/-- What is at an address is changed, and stays under its conditions. -/
theorem at?_mapLevels (definition : Definition) (address : Address) :
    (definition.mapLevels change).at? address =
      (definition.at? address).map fun found => (found.1, found.2.mapLevels change) := by
  induction address generalizing definition with
  | nil => rfl
  | cons turn rest ih =>
      rw [at?, at?, children_mapLevels, List.getElem?_map]
      cases (definition.children turn.kind)[turn.position]? with
      | none => rfl
      | some entry =>
          rw [Option.map_some, Option.bind_some, Option.bind_some, ih, Option.map_map, Option.map_map]
          rfl

/-- If the changed levels have no key twice, neither has the changed definition: its queries are
those of the definition. -/
theorem Distinct.mapLevels {definition : Definition} (h : definition.Distinct)
    (hlevels : ∀ address path inner, definition.at? address = some (path, inner) →
      (change inner.level).Distinct) : (definition.mapLevels change).Distinct := by
  induction h with
  | @mk definition level queries children ih =>
      refine .mk ?_ (fun kind => ?_) (fun kind entry hentry => ?_)
      · rw [level_mapLevels]
        exact hlevels [] [] definition rfl
      · rw [children_mapLevels, Entries.Distinct, Entries.keys, List.map_map]
        exact queries kind
      · rw [children_mapLevels] at hentry
        obtain ⟨⟨query, child⟩, hchild, rfl⟩ := List.mem_map.1 hentry
        refine ih kind _ hchild fun address path inner hinner => ?_
        obtain ⟨i, hi, hget⟩ := List.mem_iff_getElem.1 hchild
        exact hlevels (⟨kind, i⟩ :: address) (⟨kind, query⟩ :: path) inner
          (at?_cons_eq_some_iff.2
            ⟨query, child, path, List.getElem?_eq_some_iff.2 ⟨hi, hget⟩, hinner, rfl⟩)

end Definition

end ScopedCss
