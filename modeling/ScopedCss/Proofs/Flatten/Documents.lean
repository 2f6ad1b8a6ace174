import ScopedCss.Proofs.Definition.Contents
import ScopedCss.Proofs.Flatten.Fallbacks
import ScopedCss.Proofs.Flatten.Global
import ScopedCss.Proofs.Stylesheet.Numbers

/-! # Definitions that are read from documents

Flattening looks at every number again, since a definition that is built by hand may hold one that
is not finite. A document cannot: each of its numbers has a finite value, so a definition that is
read from it is finite at all depths (`Definition.ReadFrom.finite`). What is left to reject are keys,
selectors and conflicts (`Definition.Finite.rejectsFor`).
-/

set_option autoImplicit false

namespace ScopedCss

/-! ## Finite definitions -/

/-- All numbers of a level are finite. -/
def Level.Finite (level : Level) : Prop := ∀ block ∈ level.allBlocks, block.Finite

/-- All numbers of a definition are finite, at any depth. -/
def Definition.Finite (definition : Definition) : Prop :=
  ∀ address path inner, definition.at? address = some (path, inner) → inner.level.Finite

/-! ## What is read is finite -/

theorem Value.ReadFrom.isFinite {value : Value} {source : Json} (h : value.ReadFrom source) :
    value.isFinite := by
  cases h with
  | text content => rfl
  | number number => rfl

theorem PropertyValue.ReadFrom.isFinite {property : PropertyValue} {source : Json}
    (h : property.ReadFrom source) : ∀ value ∈ property.values, value.isFinite := by
  cases h with
  | single h => exact List.forall_mem_singleton.2 h.isFinite
  | fallbacks h =>
      intro value hvalue
      obtain ⟨item, -, hitem⟩ := exists_mem_of_forall₂ h hvalue
      exact hitem.isFinite

/-- What is read from each entry is known of every value under a key. -/
theorem forall_of_entriesReadFrom {α : Type} {ReadFrom : α → Json → Prop} {P : α → Prop}
    (hP : ∀ read source, ReadFrom read source → P read) {entries : List (String × α)}
    {sources : List (String × Json)} (h : List.Forall₂ (EntryReadFrom ReadFrom) entries sources) :
    ∀ entry ∈ entries, P entry.2 := by
  intro entry hentry
  obtain ⟨source, -, hsource⟩ := exists_mem_of_forall₂ h hentry
  cases hsource with
  | intro hread => exact hP _ _ hread

theorem Block.ReadFrom.finite {block : Block} {source : Json} (h : block.ReadFrom source) :
    block.Finite := by
  have hproperty : ∀ (property : PropertyValue) (source : Json), property.ReadFrom source →
      ∀ value ∈ property.values, value.isFinite := fun _ _ hread => hread.isFinite
  exact forall_of_entriesReadFrom hproperty h.properties

theorem Definition.ReadFrom.level_finite {definition : Definition} {source : Json}
    (h : definition.ReadFrom source) : definition.level.Finite := by
  obtain ⟨hbase, hpseudos, hselectors, -⟩ := h
  have hblock : ∀ (block : Block) (source : Json), block.ReadFrom source → block.Finite :=
    fun _ _ hread => hread.finite
  unfold Level.Finite Level.allBlocks
  rw [List.forall_mem_append, List.forall_mem_cons, List.forall_mem_map, List.forall_mem_map]
  exact ⟨⟨hbase.finite, forall_of_entriesReadFrom hblock hpseudos⟩,
    forall_of_entriesReadFrom hblock hselectors⟩

/-- A definition that is read from a document is finite, by induction on the address of the level:
what is nested in it is read from a part of the document. -/
theorem Definition.ReadFrom.finite {definition : Definition} {source : Json}
    (h : definition.ReadFrom source) : definition.Finite := by
  intro address
  induction address generalizing definition source with
  | nil =>
      intro path inner hinner
      obtain ⟨-, rfl⟩ := Prod.mk.inj (Option.some.inj hinner)
      exact h.level_finite
  | cons turn rest ih =>
      intro path inner hinner
      obtain ⟨query, child, tail, hchild, hrest, -⟩ := at?_cons_eq_some_iff.1 hinner
      obtain ⟨-, -, -, hdefinitions⟩ := h
      obtain ⟨part, -, hpart⟩ :=
        exists_mem_of_forall₂ (hdefinitions turn.kind) (List.mem_of_getElem? hchild)
      cases hpart with
      | intro hread => exact ih hread tail inner hrest

/-! ## What a finite definition is rejected for -/

/-- What a target rejects a definition for whose numbers are finite: for a scope a selector that
does not target its element, for a global style a key that it does not have, and for either a
conflict. -/
inductive Target.RejectsFor : Target → StyleError → Prop
  | selector (scope : Scope) (selector : String) (fault : Selector.TargetFault) :
      RejectsFor (.scoped scope) (.selectorTarget selector fault)
  | key (selector key : String) :
      RejectsFor (.global selector) (.unsupportedKey key (.globalStyle selector))
  | conflict (target : Target) (name selector first second : String) :
      RejectsFor target (.duplicateVariable name selector first second)

theorem Block.Finite.not_firstNotFinite {block : Block} (h : block.Finite) (name : String)
    (number : Number) : ¬ block.FirstNotFinite name number := by
  rintro ⟨before, after, hvalues, -, hnumber⟩
  have hfinite := Block.finite_iff.1 h (name, .number number) (by simp [hvalues])
  have hvalue : (Value.number number).isFinite = number.isFinite := rfl
  rw [hvalue, hnumber] at hfinite
  exact absurd hfinite (by decide)

theorem Scope.check_eq_error {scope : Scope} {selector : String} {error : StyleError}
    (h : scope.check selector = .error error) : ∃ fault, error = .selectorTarget selector fault := by
  unfold Scope.check at h
  split at h
  · next fault _ => exact ⟨fault, (Except.error.inj h).symm⟩
  · exact absurd h (by simp)

theorem Section.block_mem_allBlocks {scope : Scope} {level : Level} {s : Section}
    (h : s ∈ level.sections scope) : s.block ∈ level.allBlocks := by
  have hblocks : level.allBlocks = (level.sections scope).map Section.block := by
    simp [Level.allBlocks, Level.sections, Function.comp_def]
  rw [hblocks]
  exact List.mem_map_of_mem h

theorem Level.Finite.rejectsFor_scoped {level : Level} (h : level.Finite) {scope : Scope}
    {reject : Bool} {error : StyleError}
    (herror : level.flatten (.scoped scope) reject = .error error) :
    (Target.scoped scope).RejectsFor error := by
  cases Level.flatten_scoped_eq_error_iff.1 herror with
  | conflict _ _ _ => exact .conflict _ _ _ _ _
  | @inSection before after s error hsplit _ hfails =>
      cases hfails with
      | key _ hcheck =>
          obtain ⟨fault, rfl⟩ := Scope.check_eq_error hcheck
          exact .selector scope _ fault
      | @number name number _ hnumber =>
          -- the block is one of the level, and all numbers of those are finite
          have hs : s ∈ level.sections scope := by simp [hsplit]
          have hmem := Section.block_mem_allBlocks hs
          exact absurd hnumber ((h s.block hmem).not_firstNotFinite name number)

theorem Level.Finite.rejectsFor_unscoped {level : Level} (h : level.Finite)
    (hunscoped : level.Unscoped) {target : Target} {reject : Bool} {error : StyleError}
    (herror : level.flatten target reject = .error error) : target.RejectsFor error := by
  rcases Level.flatten_eq_error_of_unscoped hunscoped herror with
    ⟨name, number, hnumber, -⟩ | ⟨_, _, _, _, rfl⟩
  · have hmem : level.base ∈ level.allBlocks := List.mem_append_left _ List.mem_cons_self
    exact absurd hnumber ((h level.base hmem).not_firstNotFinite name number)
  · exact .conflict _ _ _ _ _

theorem Definition.Finite.rejectsFor {definition : Definition} (h : definition.Finite)
    {target : Target} {reject : Bool} {error : StyleError}
    (herror : definition.flatten target reject = .error error) : target.RejectsFor error := by
  have hlevels := forall_levels_iff.2 h
  cases hschema : target.schemaFault? definition with
  | some fault =>
      rw [flatten, hschema] at herror
      obtain rfl := Except.error.inj herror
      obtain scope | selector := target
      · -- a scope allows all keys
        exact absurd hschema (by simp [Target.schemaFault?])
      · obtain ⟨key, -, rfl⟩ := Target.schemaFault?_global_eq_some_iff.1 hschema
        exact .key selector key
  | none =>
      obtain ⟨before, entry, after, hsplit, -, hentry⟩ :=
        (flatten_eq_error_iff hschema reject error).1 herror
      have hmem : entry ∈ definition.levels := by simp [hsplit]
      obtain scope | selector := target
      · exact (hlevels entry hmem).rejectsFor_scoped hentry
      · -- what a global style allows leaves only the block of the element at each level
        have hunscoped := forall_levels_iff.2 (Target.schemaFault?_global_eq_none_iff.1 hschema)
        exact (hlevels entry hmem).rejectsFor_unscoped (hunscoped entry hmem) hentry

/-- **Documents hold finite numbers only.** A definition that is read from a document has finite
numbers, at all depths. So flattening, for whatever target and with conflicts rejected or not, gives
rules with finite numbers only, or rejects the definition for a selector, a key or a conflict, and
never for a number. -/
theorem Definition.flatten_ofJson {document : Json} {definition : Definition}
    (h : Definition.ofJson document = .ok definition) (target : Target) (reject : Bool) :
    definition.Finite ∧
    ((∃ flattened, definition.flatten target reject = .ok flattened ∧
        ∀ rules, flattened.Contributes rules → FiniteRules rules) ∨
      ∃ error, definition.flatten target reject = .error error ∧ target.RejectsFor error) := by
  have hfinite : definition.Finite := (OfJson.definition_readFrom [] document h).finite
  refine ⟨hfinite, ?_⟩
  cases hflat : definition.flatten target reject with
  | ok flattened =>
      exact Or.inl ⟨flattened, rfl, fun _ hrules => finiteRules_of_flatten hflat hrules⟩
  | error error => exact Or.inr ⟨error, rfl, hfinite.rejectsFor hflat⟩

/-- A document with numbers among fallbacks, below a pseudo and below a query. -/
theorem Definition.flatten_ofJson_of_numbers :
    ∃ (document : Json) (definition : Definition),
      Definition.ofJson document = .ok definition ∧ definition.Finite ∧
      ∃ flattened, definition.flatten (.scoped ⟨"a"⟩) false = .ok flattened ∧
        ∀ rules, flattened.Contributes rules → FiniteRules rules := by
  let four : Json.Number := .integer 4 (by decide)
  let document : Json := .object
    [("width", .array [.number four, .string "auto"]), ("vars", .object [("--x", .string "4")]),
      (":hover", .object [("gap", .number four)]),
      ("@media", .object [("print", .object [("left", .number four)])])]
  let single (name : String) : Block :=
    { properties := [(name, .single (.number (.finite four.toBinary)))] }
  let definition : Definition :=
    { level :=
        { base :=
            { custom := [("--x", "4")]
              properties :=
                [("width", .fallbacks [.number (.finite four.toBinary), .text "auto"])] }
          pseudos := [(":hover", single "gap")] }
      media := [("print", .ofLevel { base := single "left" })] }
  have h : Definition.ofJson document = .ok definition := by rfl
  have haccepted : definition.flatten (.scoped ⟨"a"⟩) false =
      .ok ⟨definition.level.ownRules (.scoped ⟨"a"⟩),
        definition.contributions (.scoped ⟨"a"⟩)⟩ := by rfl
  obtain ⟨hfinite, hok | ⟨error, herror, -⟩⟩ := Definition.flatten_ofJson h (.scoped ⟨"a"⟩) false
  · exact ⟨document, definition, h, hfinite, hok⟩
  · exact absurd (haccepted.symm.trans herror) (by simp)

end ScopedCss
