import ScopedCss.Proofs.Definition.Address
import ScopedCss.Proofs.Definition.Grammar

/-! # What a document is read as

Each entry of a document belongs in one map of its definition: the entries of the objects under
`vars`, `selectors`, `@media` and `@supports` in the map of that name, and every other entry among
the pseudos or the properties (`Json.places`). A definition is read from a document if each of its
maps lists what belongs there, in order and each value under its own key, and the definitions below
its queries are read from theirs in the same way (`Definition.ReadFrom`).
-/

set_option autoImplicit false

namespace ScopedCss

/-! ## Where entries belong -/

/-- The maps of a definition. -/
inductive Slot where
  | custom
  | properties
  | pseudos
  | selectors
  | definitions (kind : ConditionKind)
  deriving DecidableEq, Repr

/-- The map that takes the entries of the object at a key, for the keys that stand for a map. -/
def Slot.ofMapKey? (key : String) : Option Slot :=
  if key = "vars" then some .custom
  else if key = "selectors" then some .selectors
  else if key = "@media" then some (.definitions .media)
  else if key = "@supports" then some (.definitions .supports)
  else none

/-- The map that takes the entry of any other key. -/
def Slot.ofKey (key : String) : Slot :=
  if key.toList.head? = some ':' then .pseudos else .properties

namespace Json

/-- The entries of an object; other values have none. -/
def entries : Json → List (String × Json)
  | .object entries => entries
  | _ => []

/-- What an entry brings into a definition, each with the one map that it belongs in. -/
def places (entry : String × Json) : List (Slot × String × Json) :=
  match Slot.ofMapKey? entry.1 with
  | some slot => entry.2.entries.map fun inner => (slot, inner)
  | none => [(Slot.ofKey entry.1, entry)]

/-- What belongs in one map, in the order of the document. -/
def filed (value : Json) (slot : Slot) : List (String × Json) :=
  ((value.entries.flatMap places).filter fun place => place.1 = slot).map Prod.snd

end Json

/-! ## What is read -/

inductive Value.ReadFrom : Value → Json → Prop
  | text (content : String) : ReadFrom (.text content) (.string content)
  | number (value : Json.Number) : ReadFrom (.number (.finite value.toBinary)) (.number value)

/-- A custom property is a text: a string as it is, a number as it is written without a unit. -/
inductive CustomReadFrom : String → Json → Prop
  | text (content : String) : CustomReadFrom content (.string content)
  | number (value : Json.Number) :
      CustomReadFrom (Number.finite value.toBinary).text (.number value)

/-- An array is a list of fallbacks, whatever its length. -/
inductive PropertyValue.ReadFrom : PropertyValue → Json → Prop
  | single {value : Value} {source : Json} (h : value.ReadFrom source) :
      ReadFrom (.single value) source
  | fallbacks {values : List Value} {items : List Json}
      (h : List.Forall₂ Value.ReadFrom values items) : ReadFrom (.fallbacks values) (.array items)

/-- What is read from an entry stands under its key. -/
inductive EntryReadFrom {α : Type} (ReadFrom : α → Json → Prop) : String × α → String × Json → Prop
  | intro {key : String} {read : α} {source : Json} (h : ReadFrom read source) :
      EntryReadFrom ReadFrom (key, read) (key, source)

structure Block.ReadFrom (block : Block) (source : Json) : Prop where
  custom : List.Forall₂ (EntryReadFrom CustomReadFrom) block.custom (source.filed .custom)
  properties : List.Forall₂ (EntryReadFrom PropertyValue.ReadFrom) block.properties
    (source.filed .properties)

/-- Every map of a definition lists what belongs in it, and so do those of the definitions below its
queries. -/
inductive Definition.ReadFrom : Definition → Json → Prop
  | mk {definition : Definition} {source : Json} (base : definition.level.base.ReadFrom source)
      (pseudos : List.Forall₂ (EntryReadFrom Block.ReadFrom) definition.level.pseudos
        (source.filed .pseudos))
      (selectors : List.Forall₂ (EntryReadFrom Block.ReadFrom) definition.level.selectors
        (source.filed .selectors))
      (definitions : ∀ kind, List.Forall₂ (EntryReadFrom ReadFrom) (definition.children kind)
        (source.filed (.definitions kind))) :
      ReadFrom definition source

/-! ## Entry by entry -/

namespace Json

theorem filed_cons (entry : String × Json) (rest : List (String × Json)) (slot : Slot) :
    filed (.object (entry :: rest)) slot
      = filed (.object [entry]) slot ++ filed (.object rest) slot := by
  simp [filed, entries]

theorem filed_singleton (entry : String × Json) (slot : Slot) :
    filed (.object [entry]) slot
      = ((places entry).filter fun place => place.1 = slot).map Prod.snd := by
  simp [filed, entries]

/-- A key that stands for a map brings the entries of its object there. -/
theorem filed_of_mapKey {key : String} {found : Slot} (h : Slot.ofMapKey? key = some found)
    (value : Json) (slot : Slot) :
    filed (.object [(key, value)]) slot = if found = slot then value.entries else [] := by
  have hplaces : places (key, value) = value.entries.map fun inner => (found, inner) := by
    simp [places, h]
  rw [filed_singleton, hplaces, List.filter_map, List.map_map]
  by_cases hslot : found = slot
  · rw [if_pos hslot, List.filter_eq_self.2 (by simp [hslot])]
    exact List.map_id _
  · rw [if_neg hslot, List.filter_eq_nil_iff.2 (by simp [hslot])]
    rfl

/-- Any other key brings its entry into one map. -/
theorem filed_of_key {key : String} (h : Slot.ofMapKey? key = none) (value : Json) (slot : Slot) :
    filed (.object [(key, value)]) slot = if Slot.ofKey key = slot then [(key, value)] else [] := by
  have hplaces : places (key, value) = [(Slot.ofKey key, key, value)] := by simp [places, h]
  rw [filed_singleton, hplaces]
  by_cases hslot : Slot.ofKey key = slot
  · simp [hslot]
  · simp [hslot]

end Json

/-! ## Readings joined -/

/-- A scalar that is read makes a custom property by its text. -/
theorem Value.ReadFrom.custom {value : Value} {source : Json} (h : value.ReadFrom source) :
    CustomReadFrom value.display source := by
  cases h with
  | text content => exact .text content
  | number value => exact .number value

theorem Block.ReadFrom.empty : Block.ReadFrom {} (.object []) := ⟨.nil, .nil⟩

theorem Block.ReadFrom.append {a b : Block} {entry : String × Json} {rest : List (String × Json)}
    (ha : a.ReadFrom (.object [entry])) (hb : b.ReadFrom (.object rest)) :
    (a ++ b).ReadFrom (.object (entry :: rest)) := by
  constructor
  · rw [Json.filed_cons]
    exact List.rel_append ha.custom hb.custom
  · rw [Json.filed_cons]
    exact List.rel_append ha.properties hb.properties

theorem Definition.ReadFrom.empty : Definition.ReadFrom {} (.object []) :=
  ⟨.empty, .nil, .nil, fun kind => by cases kind <;> exact .nil⟩

theorem Definition.children_append (a b : Definition) (kind : ConditionKind) :
    (a ++ b).children kind = a.children kind ++ b.children kind := by
  cases kind <;> rfl

theorem Definition.ReadFrom.append {a b : Definition} {entry : String × Json}
    {rest : List (String × Json)} (ha : a.ReadFrom (.object [entry]))
    (hb : b.ReadFrom (.object rest)) : (a ++ b).ReadFrom (.object (entry :: rest)) := by
  obtain ⟨hbase, hpseudos, hselectors, hdefinitions⟩ := ha
  obtain ⟨hbase', hpseudos', hselectors', hdefinitions'⟩ := hb
  refine ⟨hbase.append hbase', ?_, ?_, fun kind => ?_⟩
  · rw [Json.filed_cons]
    exact List.rel_append hpseudos hpseudos'
  · rw [Json.filed_cons]
    exact List.rel_append hselectors hselectors'
  · rw [Json.filed_cons, Definition.children_append]
    exact List.rel_append (hdefinitions kind) (hdefinitions' kind)

@[simp] theorem Definition.children_ofLevel (level : Level) (kind : ConditionKind) :
    (Definition.ofLevel level).children kind = [] := by
  cases kind <;> rfl

theorem Definition.children_ofConditions (kind other : ConditionKind)
    (definitions : List (String × Definition)) :
    (Definition.ofConditions kind definitions).children other
      = if kind = other then definitions else [] := by
  cases kind <;> cases other <;> rfl

@[simp] theorem Definition.level_ofConditions (kind : ConditionKind)
    (definitions : List (String × Definition)) :
    (Definition.ofConditions kind definitions).level = {} := by
  cases kind <;> rfl

@[simp] theorem Definition.level_ofLevel (level : Level) :
    (Definition.ofLevel level).level = level := rfl

/-! ## What is accepted is read -/

namespace OfJson

/-- The map of a key, by what the key introduces. -/
theorem ofMapKey?_eq (key : String) :
    Slot.ofMapKey? key = match Key.ofText key with
      | .custom => some .custom
      | .selectors => some .selectors
      | .condition kind => some (.definitions kind)
      | .pseudo | .atRule | .property => none := by
  by_cases hvars : key = "vars"
  · subst hvars
    rfl
  by_cases hselectors : key = "selectors"
  · subst hselectors
    rfl
  by_cases hcondition : ∃ kind : ConditionKind, key = kind.key
  · obtain ⟨kind, rfl⟩ := hcondition
    cases kind <;> rfl
  -- every other key stands for itself
  have hconditions : ∀ kind : ConditionKind, key ≠ kind.key := fun kind hkind =>
    hcondition ⟨kind, hkind⟩
  have hmedia : key ≠ "@media" := hconditions .media
  have hsupports : key ≠ "@supports" := hconditions .supports
  have hother : Key.ofText key = .pseudo ∨ Key.ofText key = .atRule ∨
      Key.ofText key = .property := by
    rw [Key.ofText_of_ne hvars hselectors hconditions]
    split
    · exact Or.inl rfl
    · exact Or.inr (Or.inl rfl)
    · exact Or.inr (Or.inr rfl)
  rw [Slot.ofMapKey?, if_neg hvars, if_neg hselectors, if_neg hmedia, if_neg hsupports]
  rcases hother with h | h | h <;> rw [h]

theorem scalar_readFrom {path : Path} {source : Json} {value : Value}
    (h : scalar path source = .ok value) : value.ReadFrom source := by
  cases source with
  | string content =>
      obtain rfl := Except.ok.inj h
      exact .text content
  | number value =>
      obtain rfl := Except.ok.inj h
      exact .number value
  | null | bool _ | array _ | object _ => exact absurd h (by simp [scalar])

theorem fallbacks_readFrom {path : Path} {position : Nat} {items : List Json} {values : List Value}
    (h : fallbacks path position items = .ok values) :
    List.Forall₂ Value.ReadFrom values items := by
  induction items generalizing position values with
  | nil =>
      obtain rfl := Except.ok.inj h
      exact .nil
  | cons item rest ih =>
      obtain ⟨value, hvalue, h⟩ := bind_eq_ok h
      obtain ⟨others, hothers, h⟩ := bind_eq_ok h
      obtain rfl := Except.ok.inj h
      exact .cons (scalar_readFrom hvalue) (ih hothers)

theorem property_readFrom {name : String} {path : Path} {source : Json} {value : PropertyValue}
    (h : property name path source = .ok value) : value.ReadFrom source := by
  cases source with
  | array items =>
      obtain ⟨values, hvalues, h⟩ := bind_eq_ok h
      obtain rfl := Except.ok.inj h
      exact .fallbacks (fallbacks_readFrom hvalues)
  | object entries => exact absurd h (by simp [property])
  | null | bool _ | number _ | string _ =>
      obtain ⟨read, hread, h⟩ := bind_eq_ok h
      obtain rfl := Except.ok.inj h
      exact .single (scalar_readFrom hread)

/-- What is read entry by entry from an object lists its entries in order. -/
theorem entries_mapM_readFrom {α : Type} {read : String × Json → Except StyleError (String × α)}
    {ReadFrom : α → Json → Prop}
    (hread : ∀ entry made, read entry = .ok made → EntryReadFrom ReadFrom made entry)
    {path : Path} {source : Json} {all : List (String × α)}
    (h : (do (← OfJson.entries path source).mapM read) = .ok all) :
    List.Forall₂ (EntryReadFrom ReadFrom) all source.entries := by
  obtain ⟨entries, hentries, hall⟩ := bind_eq_ok h
  obtain rfl := entries_eq_ok_iff.1 hentries
  rw [mapM_eq_ok_iff] at hall
  exact (hall.imp hread).flip

theorem customProperties_readFrom {path : Path} {source : Json} {custom : Entries String}
    (h : customProperties path source = .ok custom) :
    List.Forall₂ (EntryReadFrom CustomReadFrom) custom source.entries := by
  refine entries_mapM_readFrom (fun entry made hmade => ?_) h
  obtain ⟨value, hvalue, hmade⟩ := bind_eq_ok hmade
  obtain rfl := Except.ok.inj hmade
  exact .intro (scalar_readFrom hvalue).custom

theorem blockEntry_readFrom {path : Path} {key : String} {source : Json} {block : Block}
    (h : blockEntry path key source = .ok block) : block.ReadFrom (.object [(key, source)]) := by
  have hmap := ofMapKey?_eq key
  have hspells := Key.spells_ofText key
  rw [blockEntry] at h
  cases hkey : Key.ofText key with
  | custom =>
      rw [hkey] at h hmap
      obtain ⟨custom, hcustom, h⟩ := bind_eq_ok h
      obtain rfl := Except.ok.inj h
      have hread := customProperties_readFrom hcustom
      exact ⟨by simpa [Json.filed_of_mapKey hmap] using hread, by simp [Json.filed_of_mapKey hmap]⟩
  | property =>
      rw [hkey] at h hmap hspells
      obtain ⟨value, hvalue, h⟩ := bind_eq_ok h
      obtain rfl := Except.ok.inj h
      have hread := property_readFrom hvalue
      have hslot : Slot.ofKey key = .properties := if_neg hspells.no_pseudo
      exact ⟨by simp [Json.filed_of_key hmap, hslot],
        by simpa [Json.filed_of_key hmap, hslot] using .intro hread⟩
  | selectors | condition kind | pseudo | atRule =>
      rw [hkey] at h
      exact absurd h (by simp)

theorem blockEntries_readFrom {path : Path} {entries : List (String × Json)} {block : Block}
    (h : blockEntries path entries = .ok block) : block.ReadFrom (.object entries) := by
  induction entries generalizing block with
  | nil =>
      obtain rfl := Except.ok.inj h
      exact .empty
  | cons entry rest ih =>
      obtain ⟨first, hfirst, h⟩ := bind_eq_ok h
      obtain ⟨others, hothers, h⟩ := bind_eq_ok h
      obtain rfl := Except.ok.inj h
      exact (blockEntry_readFrom hfirst).append (ih hothers)

theorem block_readFrom {path : Path} {source : Json} {read : Block}
    (h : block path source = .ok read) : read.ReadFrom source := by
  obtain ⟨entries, hentries, h⟩ := bind_eq_ok h
  obtain rfl := entries_eq_ok_iff.1 hentries
  exact blockEntries_readFrom h

theorem selectors_readFrom {path : Path} {source : Json} {read : Entries Block}
    (h : selectors path source = .ok read) :
    List.Forall₂ (EntryReadFrom Block.ReadFrom) read source.entries := by
  refine entries_mapM_readFrom (fun entry made hmade => ?_) h
  obtain ⟨value, hvalue, hmade⟩ := bind_eq_ok hmade
  obtain rfl := Except.ok.inj hmade
  exact .intro (block_readFrom hvalue)

theorem levelEntry_readFrom {path : Path} {key : String} {source : Json} {level : Level}
    (h : levelEntry path key source = .ok level) :
    (Definition.ofLevel level).ReadFrom (.object [(key, source)]) := by
  have hmap := ofMapKey?_eq key
  have hspells := Key.spells_ofText key
  rw [levelEntry] at h
  -- in each case one map takes what the entry brings, and nothing belongs in the others
  cases hkey : Key.ofText key with
  | custom =>
      rw [hkey] at h hmap
      obtain ⟨custom, hcustom, h⟩ := bind_eq_ok h
      obtain rfl := Except.ok.inj h
      have hfiled := Json.filed_of_mapKey hmap source
      have hread := customProperties_readFrom hcustom
      exact ⟨⟨by simpa [hfiled] using hread, by simp [hfiled]⟩, by simp [hfiled], by simp [hfiled],
        fun kind => by simp [hfiled]⟩
  | selectors =>
      rw [hkey] at h hmap
      obtain ⟨blocks, hblocks, h⟩ := bind_eq_ok h
      obtain rfl := Except.ok.inj h
      have hfiled := Json.filed_of_mapKey hmap source
      have hread := selectors_readFrom hblocks
      exact ⟨⟨by simp [hfiled], by simp [hfiled]⟩, by simp [hfiled], by simpa [hfiled] using hread,
        fun kind => by simp [hfiled]⟩
  | pseudo =>
      rw [hkey] at h hmap hspells
      have hslot : Slot.ofKey key = .pseudos := if_pos hspells
      have hfiled := Json.filed_of_key hmap source
      rw [hslot] at hfiled
      dsimp only at h
      split at h
      · obtain ⟨body, hbody, h⟩ := bind_eq_ok h
        obtain rfl := Except.ok.inj h
        have hread := block_readFrom hbody
        exact ⟨⟨by simp [hfiled], by simp [hfiled]⟩, by simpa [hfiled] using .intro hread,
          by simp [hfiled], fun kind => by simp [hfiled]⟩
      · exact absurd h (by simp)
  | property =>
      rw [hkey] at h hmap hspells
      have hslot : Slot.ofKey key = .properties := if_neg hspells.no_pseudo
      have hfiled := Json.filed_of_key hmap source
      rw [hslot] at hfiled
      obtain ⟨value, hvalue, h⟩ := bind_eq_ok h
      obtain rfl := Except.ok.inj h
      have hread := property_readFrom hvalue
      exact ⟨⟨by simp [hfiled], by simpa [hfiled] using .intro hread⟩, by simp [hfiled],
        by simp [hfiled], fun kind => by simp [hfiled]⟩
  | condition kind | atRule =>
      rw [hkey] at h
      exact absurd h (by simp)

theorem definitionEntry_readFrom {path : Path} {key : String} {source : Json}
    (hconditions : ∀ definitions, conditions (path ++ [.key key]) source = .ok definitions →
      List.Forall₂ (EntryReadFrom Definition.ReadFrom) definitions source.entries)
    {read : Definition} (h : definitionEntry path key source = .ok read) :
    read.ReadFrom (.object [(key, source)]) := by
  rw [definitionEntry] at h
  split at h
  · rename_i kind hkey
    obtain ⟨definitions, hdefinitions, rfl⟩ := map_eq_ok h
    have hread := hconditions definitions hdefinitions
    have hmap := ofMapKey?_eq key
    rw [hkey] at hmap
    have hfiled := Json.filed_of_mapKey hmap source
    refine ⟨⟨by simp [hfiled], by simp [hfiled]⟩, by simp [hfiled], by simp [hfiled],
      fun other => ?_⟩
    rw [Definition.children_ofConditions, hfiled]
    by_cases hother : kind = other
    · simpa [hother] using hread
    · simp [hother]
  · obtain ⟨level, hlevel, rfl⟩ := map_eq_ok h
    exact levelEntry_readFrom hlevel

-- by induction on the document, along the calls of the reader
mutual

theorem definition_readFrom (path : Path) (source : Json) {read : Definition}
    (h : definition path source = .ok read) : read.ReadFrom source := by
  match source with
  | .object entries => exact definitionEntries_readFrom path entries h
  | .null | .bool _ | .number _ | .string _ | .array _ =>
      exact absurd h (by simp [definition])

theorem definitionEntries_readFrom (path : Path) (entries : List (String × Json))
    {read : Definition} (h : definitionEntries path entries = .ok read) :
    read.ReadFrom (.object entries) := by
  match entries with
  | [] =>
      obtain rfl := Except.ok.inj h
      exact .empty
  | (key, value) :: rest =>
      rw [definitionEntries_cons] at h
      obtain ⟨first, hfirst, h⟩ := bind_eq_ok h
      obtain ⟨others, hothers, h⟩ := bind_eq_ok h
      obtain rfl := Except.ok.inj h
      have hread := definitionEntry_readFrom
        (fun _ hdefinitions => conditions_readFrom _ value hdefinitions) hfirst
      exact hread.append (definitionEntries_readFrom path rest hothers)

theorem conditions_readFrom (path : Path) (source : Json) {read : List (String × Definition)}
    (h : conditions path source = .ok read) :
    List.Forall₂ (EntryReadFrom Definition.ReadFrom) read source.entries := by
  match source with
  | .object entries => exact conditionEntries_readFrom path entries h
  | .null | .bool _ | .number _ | .string _ | .array _ =>
      exact absurd h (by simp [conditions])

theorem conditionEntries_readFrom (path : Path) (entries : List (String × Json))
    {read : List (String × Definition)} (h : conditionEntries path entries = .ok read) :
    List.Forall₂ (EntryReadFrom Definition.ReadFrom) read entries := by
  match entries with
  | [] =>
      obtain rfl := Except.ok.inj h
      exact .nil
  | (query, body) :: rest =>
      obtain ⟨first, hfirst, h⟩ := bind_eq_ok h
      obtain ⟨others, hothers, h⟩ := bind_eq_ok h
      obtain rfl := Except.ok.inj h
      exact .cons (.intro (definition_readFrom _ body hfirst))
        (conditionEntries_readFrom path rest hothers)

end

end OfJson

end ScopedCss
