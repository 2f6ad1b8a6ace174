import ScopedCss.Definition.OfText
import ScopedCss.Proofs.Pass
import ScopedCss.Proofs.Selector.Places

/-! # The documents that make a definition

Which JSON values are accepted is told here by a grammar, one predicate for each sort of value and
one production for each form of it, without any path and any error. A definition is an object with
entries of its own forms, and the queries under `@media` and `@supports` hold definitions again; a
block has fewer forms of entries.

`OfJson.definition_isOk_iff`: at whatever path, exactly the definitions of the grammar are accepted.
-/

set_option autoImplicit false

namespace ScopedCss

/-- The key of a definition that holds the queries of one kind. -/
def ConditionKind.key (kind : ConditionKind) : String := "@" ++ kind.keyword

namespace Json

/-! ## The grammar -/

/-- A string or a number. -/
inductive IsScalar : Json → Prop
  | string (content : String) : IsScalar (.string content)
  | number (value : Number) : IsScalar (.number value)

/-- What a property is set to: a scalar, or an array of scalars. -/
inductive IsPropertyValue : Json → Prop
  | single {value : Json} (h : value.IsScalar) : IsPropertyValue value
  | fallbacks {items : List Json} (h : ∀ item ∈ items, item.IsScalar) :
      IsPropertyValue (.array items)

/-- An object with values of one sort, whatever its keys. -/
inductive IsObjectOf (IsValue : Json → Prop) : Json → Prop
  | object {entries : List (String × Json)} (h : ∀ entry ∈ entries, IsValue entry.2) :
      IsObjectOf IsValue (.object entries)

/-- A key that names a property: no key of the schema, no pseudo and no at-rule. -/
structure IsPropertyKey (key : String) : Prop where
  ne_vars : key ≠ "vars"
  ne_selectors : key ≠ "selectors"
  no_pseudo : key.toList.head? ≠ some ':'
  no_at_rule : key.toList.head? ≠ some '@'

/-- An entry of a block: custom properties or a property. -/
inductive IsBlockEntry : String → Json → Prop
  | vars {value : Json} (h : value.IsObjectOf IsScalar) : IsBlockEntry "vars" value
  | property {key : String} {value : Json} (hkey : IsPropertyKey key) (h : value.IsPropertyValue) :
      IsBlockEntry key value

inductive IsBlock : Json → Prop
  | object {entries : List (String × Json)} (h : ∀ entry ∈ entries, IsBlockEntry entry.1 entry.2) :
      IsBlock (.object entries)

mutual

/-- An object whose entries are those of a definition. -/
inductive IsDefinition : Json → Prop
  | object {entries : List (String × Json)}
      (h : ∀ entry ∈ entries, IsDefinitionEntry entry.1 entry.2) : IsDefinition (.object entries)

/-- An entry of a definition: custom properties, blocks by selector, definitions by query, a block
of a simple pseudo, or a property. -/
inductive IsDefinitionEntry : String → Json → Prop
  | vars {value : Json} (h : value.IsObjectOf IsScalar) : IsDefinitionEntry "vars" value
  | selectors {value : Json} (h : value.IsObjectOf IsBlock) : IsDefinitionEntry "selectors" value
  | conditions (kind : ConditionKind) {entries : List (String × Json)}
      (h : ∀ entry ∈ entries, IsDefinition entry.2) : IsDefinitionEntry kind.key (.object entries)
  | pseudo {key : String} {value : Json} (hkey : Selector.isSimplePseudo key) (h : value.IsBlock) :
      IsDefinitionEntry key value
  | property {key : String} {value : Json} (hkey : IsPropertyKey key) (h : value.IsPropertyValue) :
      IsDefinitionEntry key value

end

end Json

/-! ## What keys introduce -/

namespace OfJson

/-- The keys that introduce one thing. -/
def Key.Spells : Key → String → Prop
  | .custom, text => text = "vars"
  | .selectors, text => text = "selectors"
  | .condition kind, text => text = kind.key
  | .pseudo, text => text.toList.head? = some ':'
  | .atRule, text => text.toList.head? = some '@' ∧ ∀ kind : ConditionKind, text ≠ kind.key
  | .property, text => Json.IsPropertyKey text

/-- Keys that are not of the schema are told apart by their first character. -/
theorem Key.ofText_of_ne {text : String} (hvars : text ≠ "vars") (hselectors : text ≠ "selectors")
    (hconditions : ∀ kind : ConditionKind, text ≠ kind.key) :
    Key.ofText text = match text.toList with
      | ':' :: _ => .pseudo
      | '@' :: _ => .atRule
      | _ => .property := by
  have hmedia : text ≠ "@media" := hconditions .media
  have hsupports : text ≠ "@supports" := hconditions .supports
  exact (if_neg hvars).trans ((if_neg hselectors).trans
    ((if_neg hmedia).trans (if_neg hsupports)))

theorem Key.ofText_eq_of_spells {key : Key} {text : String} (h : key.Spells text) :
    Key.ofText text = key := by
  cases key with
  | custom =>
      obtain rfl : text = "vars" := h
      rfl
  | selectors =>
      obtain rfl : text = "selectors" := h
      rfl
  | condition kind =>
      obtain rfl : text = kind.key := h
      cases kind <;> rfl
  | pseudo =>
      -- no key of the schema starts with a colon
      have hne : ∀ key : String, key.toList.head? ≠ some ':' → text ≠ key := by
        rintro key hkey rfl
        exact hkey h
      obtain ⟨rest, hlist⟩ := List.head?_eq_some_iff.1 h
      rw [ofText_of_ne (hne _ (by decide)) (hne _ (by decide))
        (fun kind => hne _ (by cases kind <;> decide)), hlist]
      rfl
  | atRule =>
      -- the only keys of the schema that start like one are those of the conditions
      obtain ⟨hhead, hconditions⟩ := h
      have hne : ∀ key : String, key.toList.head? ≠ some '@' → text ≠ key := by
        rintro key hkey rfl
        exact hkey hhead
      obtain ⟨rest, hlist⟩ := List.head?_eq_some_iff.1 hhead
      rw [ofText_of_ne (hne _ (by decide)) (hne _ (by decide)) hconditions, hlist]
      rfl
  | property =>
      obtain ⟨hvars, hselectors, hpseudo, hat⟩ := h
      have hconditions : ∀ kind : ConditionKind, text ≠ kind.key := by
        rintro kind rfl
        exact hat (by cases kind <;> rfl)
      rw [ofText_of_ne hvars hselectors hconditions]
      split
      · rename_i rest hlist
        exact absurd (congrArg List.head? hlist) hpseudo
      · rename_i rest hlist
        exact absurd (congrArg List.head? hlist) hat
      · rfl

theorem Key.exists_spells (text : String) : ∃ key : Key, key.Spells text := by
  by_cases hvars : text = "vars"
  · exact ⟨.custom, hvars⟩
  by_cases hselectors : text = "selectors"
  · exact ⟨.selectors, hselectors⟩
  by_cases hpseudo : text.toList.head? = some ':'
  · exact ⟨.pseudo, hpseudo⟩
  by_cases hat : text.toList.head? = some '@'
  · by_cases hcondition : ∃ kind : ConditionKind, text = kind.key
    · obtain ⟨kind, hkind⟩ := hcondition
      exact ⟨.condition kind, hkind⟩
    · exact ⟨.atRule, hat, fun kind hkind => hcondition ⟨kind, hkind⟩⟩
  · exact ⟨.property, hvars, hselectors, hpseudo, hat⟩

theorem Key.spells_ofText (text : String) : (Key.ofText text).Spells text := by
  obtain ⟨key, h⟩ := exists_spells text
  rwa [ofText_eq_of_spells h]

/-! ## Entries by what their key introduces -/

/-- What a key of a definition holds. -/
def Key.Holds : Key → String → Json → Prop
  | .custom, _, value => value.IsObjectOf Json.IsScalar
  | .selectors, _, value => value.IsObjectOf Json.IsBlock
  | .condition _, _, value => value.IsObjectOf Json.IsDefinition
  | .pseudo, text, value => Selector.isSimplePseudo text ∧ value.IsBlock
  | .atRule, _, _ => False
  | .property, _, value => value.IsPropertyValue

/-- What a key of a block holds. -/
def Key.HoldsInBlock : Key → Json → Prop
  | .custom, value => value.IsObjectOf Json.IsScalar
  | .property, value => value.IsPropertyValue
  | _, _ => False

theorem isBlockEntry_iff {text : String} {value : Json} :
    Json.IsBlockEntry text value ↔ (Key.ofText text).HoldsInBlock value := by
  constructor
  · intro h
    cases h with
    | vars h => exact h
    | property hkey h =>
        have htext : Key.ofText text = .property := Key.ofText_eq_of_spells hkey
        rwa [htext]
  · intro h
    have hspells := Key.spells_ofText text
    generalize Key.ofText text = key at h hspells
    cases key with
    | custom =>
        obtain rfl : text = "vars" := hspells
        exact .vars h
    | property => exact .property hspells h
    -- a block has no production for other keys
    | selectors | condition kind | pseudo | atRule => exact h.elim

/-- The tokens of the simple pseudos start with a colon. -/
theorem spells_pseudo_of_isSimplePseudo {text : String} (h : Selector.isSimplePseudo text) :
    Key.pseudo.Spells text := by
  obtain ⟨⟨name, hname⟩, -⟩ := Selector.simplePseudo_inert h
  exact congrArg List.head? hname

theorem isDefinitionEntry_iff {text : String} {value : Json} :
    Json.IsDefinitionEntry text value ↔ (Key.ofText text).Holds text value := by
  constructor
  · intro h
    -- the key of a production tells what it introduces
    cases h with
    | vars h => exact h
    | selectors h => exact h
    | conditions kind h =>
        have htext : Key.ofText kind.key = .condition kind := Key.ofText_eq_of_spells rfl
        rw [htext]
        exact .object h
    | pseudo hkey h =>
        have htext : Key.ofText text = .pseudo :=
          Key.ofText_eq_of_spells (spells_pseudo_of_isSimplePseudo hkey)
        rw [htext]
        exact ⟨hkey, h⟩
    | property hkey h =>
        have htext : Key.ofText text = .property := Key.ofText_eq_of_spells hkey
        rwa [htext]
  · intro h
    have hspells := Key.spells_ofText text
    generalize Key.ofText text = key at h hspells
    cases key with
    | custom =>
        obtain rfl : text = "vars" := hspells
        exact .vars h
    | selectors =>
        obtain rfl : text = "selectors" := hspells
        exact .selectors h
    | condition kind =>
        obtain rfl : text = kind.key := hspells
        obtain ⟨h⟩ := h
        exact .conditions kind h
    | pseudo => exact .pseudo h.1 h.2
    | property => exact .property hspells h
    | atRule => exact h.elim

/-! ## What is accepted -/

theorem entries_eq_ok_iff {path : Path} {value : Json} {entries : List (String × Json)} :
    OfJson.entries path value = .ok entries ↔ value = .object entries := by
  cases value <;> simp [OfJson.entries]

theorem scalar_isOk_iff {path : Path} {value : Json} :
    (∃ read, scalar path value = .ok read) ↔ value.IsScalar := by
  constructor
  · rintro ⟨read, h⟩
    cases value with
    | string content => exact .string content
    | number value => exact .number value
    | null | bool _ | array _ | object _ => exact absurd h (by simp [scalar])
  · rintro (content | value)
    · exact ⟨_, rfl⟩
    · exact ⟨_, rfl⟩

/-- What is read entry by entry from an object is accepted if the value of each entry is. -/
theorem entries_mapM_isOk_iff {α : Type} {read : String × Json → Except StyleError α}
    {IsValue : Json → Prop} (hread : ∀ entry, (∃ x, read entry = .ok x) ↔ IsValue entry.2)
    {path : Path} {value : Json} :
    (∃ xs, (do (← OfJson.entries path value).mapM read) = .ok xs) ↔ value.IsObjectOf IsValue := by
  rw [bind_isOk_iff]
  constructor
  · rintro ⟨entries, hentries, hall⟩
    obtain rfl := entries_eq_ok_iff.1 hentries
    rw [mapM_isOk_iff] at hall
    exact .object fun entry hentry => (hread entry).1 (hall entry hentry)
  · rintro ⟨hall⟩
    refine ⟨_, rfl, (mapM_isOk_iff ..).2 fun entry hentry => ?_⟩
    exact (hread entry).2 (hall entry hentry)

theorem customProperties_isOk_iff {path : Path} {value : Json} :
    (∃ custom, customProperties path value = .ok custom) ↔ value.IsObjectOf Json.IsScalar :=
  entries_mapM_isOk_iff fun _ => bind_pure_isOk_iff.trans scalar_isOk_iff

theorem fallbacks_isOk_iff {path : Path} {position : Nat} {items : List Json} :
    (∃ values, fallbacks path position items = .ok values) ↔ ∀ item ∈ items, item.IsScalar := by
  induction items generalizing position with
  | nil => simp [fallbacks]
  | cons item rest ih =>
      rw [fallbacks, seq_isOk_iff, scalar_isOk_iff, ih, List.forall_mem_cons]

theorem property_single {name : String} {path : Path} {value : Json}
    (harray : ∀ items, value ≠ .array items) (hobject : ∀ entries, value ≠ .object entries) :
    property name path value = do return .single (← scalar path value) := by
  cases value with
  | array items => exact absurd rfl (harray items)
  | object entries => exact absurd rfl (hobject entries)
  | null | bool _ | number _ | string _ => rfl

theorem property_isOk_iff {name : String} {path : Path} {value : Json} :
    (∃ read, property name path value = .ok read) ↔ value.IsPropertyValue := by
  cases value with
  | array items =>
      rw [property, bind_pure_isOk_iff, fallbacks_isOk_iff]
      constructor
      · exact .fallbacks
      · rintro (⟨⟨⟩⟩ | h)
        exact h
  | object entries =>
      constructor
      · rintro ⟨read, h⟩
        exact absurd h (by simp [property])
      · rintro ⟨⟨⟩⟩
  | null | bool _ | number _ | string _ =>
      rw [property_single, bind_pure_isOk_iff, scalar_isOk_iff]
      · constructor
        · exact .single
        · rintro ⟨h⟩
          exact h
      · nofun
      · nofun

theorem blockEntry_isOk_iff {path : Path} {key : String} {value : Json} :
    (∃ block, blockEntry path key value = .ok block) ↔ Json.IsBlockEntry key value := by
  rw [isBlockEntry_iff, blockEntry]
  cases Key.ofText key with
  | custom => exact bind_pure_isOk_iff.trans customProperties_isOk_iff
  | property => exact bind_pure_isOk_iff.trans property_isOk_iff
  | selectors | condition kind | pseudo | atRule => simp [Key.HoldsInBlock]

theorem blockEntries_isOk_iff {path : Path} {entries : List (String × Json)} :
    (∃ block, blockEntries path entries = .ok block) ↔
      ∀ entry ∈ entries, Json.IsBlockEntry entry.1 entry.2 := by
  induction entries with
  | nil => simp [blockEntries]
  | cons entry rest ih =>
      obtain ⟨key, value⟩ := entry
      rw [blockEntries, seq_isOk_iff, blockEntry_isOk_iff, ih, List.forall_mem_cons]

theorem block_isOk_iff {path : Path} {value : Json} :
    (∃ read, block path value = .ok read) ↔ value.IsBlock := by
  rw [block, bind_isOk_iff]
  constructor
  · rintro ⟨entries, hentries, hall⟩
    obtain rfl := entries_eq_ok_iff.1 hentries
    exact .object (blockEntries_isOk_iff.1 hall)
  · rintro ⟨hall⟩
    exact ⟨_, rfl, blockEntries_isOk_iff.2 hall⟩

theorem selectors_isOk_iff {path : Path} {value : Json} :
    (∃ read, selectors path value = .ok read) ↔ value.IsObjectOf Json.IsBlock :=
  entries_mapM_isOk_iff fun _ => bind_pure_isOk_iff.trans block_isOk_iff

/-- The definition that one entry makes. -/
def definitionEntry (path : Path) (key : String) (value : Json) : Except StyleError Definition :=
  match Key.ofText key with
  | .condition kind => Definition.ofConditions kind <$> conditions (path ++ [.key key]) value
  | _ => Definition.ofLevel <$> levelEntry path key value

theorem definitionEntries_cons (path : Path) (key : String) (value : Json)
    (rest : List (String × Json)) :
    definitionEntries path ((key, value) :: rest) = (do
      let first ← definitionEntry path key value
      let others ← definitionEntries path rest
      return first ++ others) := by
  rw [definitionEntries]
  rfl

/-- An entry is accepted if its key may hold its value. -/
theorem definitionEntry_isOk_iff {path : Path} {key : String} {value : Json}
    (hconditions : (∃ definitions, conditions (path ++ [.key key]) value = .ok definitions) ↔
      value.IsObjectOf Json.IsDefinition) :
    (∃ definition, definitionEntry path key value = .ok definition) ↔
      Json.IsDefinitionEntry key value := by
  rw [isDefinitionEntry_iff, definitionEntry, levelEntry]
  cases Key.ofText key with
  | condition kind => exact map_isOk_iff.trans hconditions
  | custom => exact map_isOk_iff.trans (bind_pure_isOk_iff.trans customProperties_isOk_iff)
  | selectors => exact map_isOk_iff.trans (bind_pure_isOk_iff.trans selectors_isOk_iff)
  | property => exact map_isOk_iff.trans (bind_pure_isOk_iff.trans property_isOk_iff)
  | pseudo =>
      rw [map_isOk_iff]
      by_cases hpseudo : Selector.isSimplePseudo key
      · simp only [hpseudo, if_true, Key.Holds, true_and]
        exact bind_pure_isOk_iff.trans block_isOk_iff
      · simp [hpseudo, Key.Holds]
  | atRule =>
      rw [map_isOk_iff]
      simp [Key.Holds]

-- by induction on the document, along the calls of the reader
mutual

theorem definition_isOk_iff (path : Path) (value : Json) :
    (∃ read, definition path value = .ok read) ↔ value.IsDefinition := by
  match value with
  | .object entries =>
      rw [definition, definitionEntries_isOk_iff path entries]
      constructor
      · exact .object
      · rintro ⟨h⟩
        exact h
  | .null | .bool _ | .number _ | .string _ | .array _ =>
      constructor
      · rintro ⟨read, h⟩
        exact absurd h (by simp [definition])
      · rintro ⟨⟩

theorem definitionEntries_isOk_iff (path : Path) (entries : List (String × Json)) :
    (∃ read, definitionEntries path entries = .ok read) ↔
      ∀ entry ∈ entries, Json.IsDefinitionEntry entry.1 entry.2 := by
  match entries with
  | [] => simp [definitionEntries]
  | (key, value) :: rest =>
      have hkey := definitionEntry_isOk_iff (conditions_isOk_iff (path ++ [.key key]) value)
      rw [definitionEntries_cons, seq_isOk_iff, hkey, definitionEntries_isOk_iff path rest,
        List.forall_mem_cons]

theorem conditions_isOk_iff (path : Path) (value : Json) :
    (∃ read, conditions path value = .ok read) ↔ value.IsObjectOf Json.IsDefinition := by
  match value with
  | .object entries =>
      rw [conditions, conditionEntries_isOk_iff path entries]
      constructor
      · exact .object
      · rintro ⟨h⟩
        exact h
  | .null | .bool _ | .number _ | .string _ | .array _ =>
      constructor
      · rintro ⟨read, h⟩
        exact absurd h (by simp [conditions])
      · rintro ⟨⟩

theorem conditionEntries_isOk_iff (path : Path) (entries : List (String × Json)) :
    (∃ read, conditionEntries path entries = .ok read) ↔
      ∀ entry ∈ entries, entry.2.IsDefinition := by
  match entries with
  | [] => simp [conditionEntries]
  | (query, body) :: rest =>
      rw [conditionEntries, seq_isOk_iff, definition_isOk_iff _ body,
        conditionEntries_isOk_iff path rest, List.forall_mem_cons]

end

end OfJson

/-- Reading a document decides whether it is in the grammar. -/
instance (source : Json) : Decidable source.IsDefinition :=
  match h : Definition.ofJson source with
  | .ok definition => isTrue ((OfJson.definition_isOk_iff [] source).1 ⟨definition, h⟩)
  | .error _ => isFalse fun hsource => by
      obtain ⟨_, hok⟩ := (OfJson.definition_isOk_iff [] source).2 hsource
      cases h.symm.trans hok

example : ¬ Json.IsDefinition (.object [(":not(.b)", .object [])]) := by decide

end ScopedCss
