import ScopedCss.Proofs.Definition.Contents
import ScopedCss.Proofs.Definition.Preorder
import ScopedCss.Proofs.Json.Reader

/-! # Reading a definition

A document is accepted exactly if it is a definition of the grammar, and what it is then read as is
told by the document alone (`Definition.ofJson_eq_ok_iff`): an entry is neither lost nor put
anywhere else than where it belongs. If no key of the document stands twice, then none stands twice
in any map either, so that no entry hides another; and this is so of every definition that is read
from text (`Definition.distinct_of_ofText`).
-/

set_option autoImplicit false

namespace ScopedCss

/-! ## Keys of what belongs in a map -/

/-- The key that stands for a map, where one does. -/
def Slot.mapKey? : Slot → Option String
  | .custom => some "vars"
  | .selectors => some "selectors"
  | .definitions kind => some kind.key
  | .properties | .pseudos => none

theorem Slot.mapKey?_of_ofMapKey? {key : String} {slot : Slot}
    (h : Slot.ofMapKey? key = some slot) : slot.mapKey? = some key := by
  have hspells := OfJson.Key.spells_ofText key
  rw [OfJson.ofMapKey?_eq] at h
  cases hkey : OfJson.Key.ofText key with
  | custom | selectors | condition kind =>
      rw [hkey] at h hspells
      obtain rfl := Option.some.inj h
      exact congrArg some hspells.symm
  | pseudo | atRule | property =>
      rw [hkey] at h
      exact absurd h (by simp)

theorem Slot.mapKey?_ofKey (key : String) : (Slot.ofKey key).mapKey? = none := by
  unfold ofKey
  split <;> rfl

namespace Json

theorem mem_places {entry inner : String × Json} {slot : Slot} :
    (slot, inner) ∈ places entry ↔
      Slot.ofMapKey? entry.1 = some slot ∧ inner ∈ entry.2.entries ∨
        Slot.ofMapKey? entry.1 = none ∧ slot = Slot.ofKey entry.1 ∧ inner = entry := by
  unfold places
  cases Slot.ofMapKey? entry.1 with
  | some found =>
      simp only [List.mem_map, Prod.mk.injEq, Option.some.injEq]
      constructor
      · rintro ⟨inner, hinner, rfl, rfl⟩
        exact Or.inl ⟨rfl, hinner⟩
      · rintro (⟨rfl, hinner⟩ | ⟨hnone, -⟩)
        · exact ⟨inner, hinner, rfl, rfl⟩
        · exact absurd hnone (by simp)
  | none => simp

theorem mem_filed {source : Json} {slot : Slot} {inner : String × Json} :
    inner ∈ source.filed slot ↔ ∃ entry ∈ source.entries, (slot, inner) ∈ places entry := by
  simp [filed]

/-- A map and a key in it tell the key of the entry that brought it there. -/
theorem key_eq_of_mem_places {entry other inner inner' : String × Json} {slot : Slot}
    (h : (slot, inner) ∈ places entry) (h' : (slot, inner') ∈ places other)
    (hkey : inner.1 = inner'.1) : entry.1 = other.1 := by
  have hne : ∀ key key' : String, Slot.ofMapKey? key ≠ some (Slot.ofKey key') := by
    intro key key' hmap
    have hnone := Slot.mapKey?_of_ofMapKey? hmap
    rw [Slot.mapKey?_ofKey] at hnone
    exact absurd hnone (by simp)
  -- a map takes either the entries of one object or entries of the document itself
  rcases mem_places.1 h with ⟨hmap, -⟩ | ⟨-, rfl, rfl⟩
  · rcases mem_places.1 h' with ⟨hmap', -⟩ | ⟨-, rfl, -⟩
    · exact Option.some.inj
        ((Slot.mapKey?_of_ofMapKey? hmap).symm.trans (Slot.mapKey?_of_ofMapKey? hmap'))
    · exact absurd hmap (hne _ _)
  · rcases mem_places.1 h' with ⟨hmap', -⟩ | ⟨-, -, rfl⟩
    · exact absurd hmap' (hne _ _)
    · exact hkey

namespace Distinct

theorem entries {source : Json} (h : source.Distinct) : Entries.Distinct source.entries := by
  cases h with
  | object keys values => exact keys
  | null | bool _ | number _ | string _ | array _ => exact List.nodup_nil

theorem of_mem_entries {source : Json} (h : source.Distinct) {entry : String × Json}
    (hentry : entry ∈ source.entries) : entry.2.Distinct := by
  cases h with
  | object keys values => exact values entry hentry
  | null | bool _ | number _ | string _ | array _ => exact absurd hentry List.not_mem_nil

theorem of_mem_filed {source : Json} (h : source.Distinct) {slot : Slot} {inner : String × Json}
    (hinner : inner ∈ source.filed slot) : inner.2.Distinct := by
  obtain ⟨entry, hentry, hplaces⟩ := mem_filed.1 hinner
  rcases mem_places.1 hplaces with ⟨-, hmem⟩ | ⟨-, -, rfl⟩
  · exact (h.of_mem_entries hentry).of_mem_entries hmem
  · exact h.of_mem_entries hentry

/-- What one entry brings into a map has different keys. -/
theorem filed_singleton {entry : String × Json} (h : entry.2.Distinct) (slot : Slot) :
    Entries.Distinct (Json.filed (.object [entry]) slot) := by
  obtain ⟨key, value⟩ := entry
  cases hmap : Slot.ofMapKey? key with
  | some found =>
      rw [filed_of_mapKey hmap]
      split
      · exact h.entries
      · exact List.nodup_nil
  | none =>
      rw [filed_of_key hmap]
      split
      · exact List.pairwise_singleton _ _
      · exact List.nodup_nil

/-- No key stands twice in what belongs in one map, since different entries bring different keys. -/
theorem filed {source : Json} (h : source.Distinct) (slot : Slot) :
    Entries.Distinct (source.filed slot) := by
  have hkeys := h.entries
  have hvalues : ∀ entry ∈ source.entries, entry.2.Distinct := fun _ => h.of_mem_entries
  have hsource : source.filed slot = Json.filed (.object source.entries) slot := rfl
  rw [hsource]
  generalize source.entries = entries at hkeys hvalues
  induction entries with
  | nil => exact List.nodup_nil
  | cons entry rest ih =>
      obtain ⟨hnew, hrest⟩ := List.nodup_cons.1 hkeys
      obtain ⟨hvalue, hvalues⟩ := List.forall_mem_cons.1 hvalues
      rw [filed_cons, Entries.distinct_append_iff]
      refine ⟨filed_singleton hvalue slot, ih hrest hvalues, fun key hkey hother => ?_⟩
      -- a key on both sides would have come from two entries of the same key
      obtain ⟨inner, hinner, rfl⟩ := List.mem_map.1 hkey
      obtain ⟨inner', hinner', heq⟩ := List.mem_map.1 hother
      obtain ⟨_, hentry, hplaces⟩ := mem_filed.1 hinner
      obtain rfl := List.mem_singleton.1 hentry
      obtain ⟨later, hlater, hplaces'⟩ := mem_filed.1 hinner'
      rw [key_eq_of_mem_places hplaces hplaces' heq.symm] at hnew
      exact hnew (List.mem_map_of_mem hlater)

end Distinct

end Json

/-! ## Maps without a key twice -/

section

variable {α : Type} {R : α → Json → Prop} {read : Entries α}

/-- What is read stands under the keys that it is read from. -/
theorem keys_eq_of_readFrom {source : List (String × Json)}
    (h : List.Forall₂ (EntryReadFrom R) read source) : Entries.keys read = Entries.keys source := by
  induction h with
  | nil => rfl
  | cons hentry _ ih =>
      obtain ⟨-⟩ := hentry
      exact congrArg _ ih

theorem distinct_of_readFrom {source : Json} {slot : Slot}
    (h : List.Forall₂ (EntryReadFrom R) read (source.filed slot)) (hsource : source.Distinct) :
    Entries.Distinct read := by
  rw [Entries.Distinct, keys_eq_of_readFrom h]
  exact hsource.filed slot

theorem exists_distinct_of_readFrom {source : Json} {slot : Slot}
    (h : List.Forall₂ (EntryReadFrom R) read (source.filed slot)) (hsource : source.Distinct)
    {entry : String × α} (hentry : entry ∈ read) :
    ∃ value : Json, value.Distinct ∧ R entry.2 value := by
  obtain ⟨inner, hinner, hread⟩ := exists_mem_of_forall₂ h hentry
  obtain ⟨hread⟩ := hread
  exact ⟨_, hsource.of_mem_filed hinner, hread⟩

end

theorem Block.ReadFrom.distinct {block : Block} {source : Json} (h : block.ReadFrom source)
    (hsource : source.Distinct) : block.Distinct :=
  ⟨distinct_of_readFrom h.custom hsource, distinct_of_readFrom h.properties hsource⟩

/-- If no key of a document stands twice, none stands twice in a map that is read from it. -/
theorem Definition.ReadFrom.distinct {definition : Definition} {source : Json}
    (h : definition.ReadFrom source) (hsource : source.Distinct) : definition.Distinct := by
  induction definition using Definition.induction generalizing source with
  | step definition ih =>
      obtain ⟨hbase, hpseudos, hselectors, hdefinitions⟩ := h
      have hblocks : ∀ {slot : Slot} {blocks : Entries Block},
          List.Forall₂ (EntryReadFrom Block.ReadFrom) blocks (source.filed slot) →
            ∀ entry ∈ blocks, entry.2.Distinct := by
        intro slot blocks hread entry hentry
        obtain ⟨value, hvalue, hblock⟩ := exists_distinct_of_readFrom hread hsource hentry
        exact hblock.distinct hvalue
      refine ⟨⟨hbase.distinct hsource, distinct_of_readFrom hpseudos hsource,
        distinct_of_readFrom hselectors hsource, hblocks hpseudos, hblocks hselectors⟩,
        fun kind => distinct_of_readFrom (hdefinitions kind) hsource, fun kind entry hentry => ?_⟩
      obtain ⟨value, hvalue, hnested⟩ :=
        exists_distinct_of_readFrom (hdefinitions kind) hsource hentry
      exact ih kind entry hentry hnested hvalue

/-! ## One reading for each document -/

/-- Entries that are read from the same ones are the same, if their values are. -/
theorem eq_of_readFrom {α : Type} {R : α → Json → Prop} {as bs : Entries α}
    {source : List (String × Json)} (ha : List.Forall₂ (EntryReadFrom R) as source)
    (hb : List.Forall₂ (EntryReadFrom R) bs source)
    (hunique : ∀ entry ∈ as, ∀ other value, R entry.2 value → R other value → entry.2 = other) :
    as = bs := by
  induction ha generalizing bs with
  | nil => exact (List.forall₂_nil_right_iff.1 hb).symm
  | cons hentry _ ih =>
      obtain ⟨first, rest, hfirst, hrest, rfl⟩ := List.forall₂_cons_right_iff.1 hb
      obtain ⟨hread⟩ := hentry
      obtain ⟨hread'⟩ := hfirst
      obtain ⟨hunique, hothers⟩ := List.forall_mem_cons.1 hunique
      obtain rfl := hunique _ _ hread hread'
      rw [ih hrest hothers]

theorem Value.ReadFrom.unique {a b : Value} {source : Json} (ha : a.ReadFrom source)
    (hb : b.ReadFrom source) : a = b := by
  cases ha <;> cases hb <;> rfl

theorem CustomReadFrom.unique {a b : String} {source : Json} (ha : CustomReadFrom a source)
    (hb : CustomReadFrom b source) : a = b := by
  cases ha <;> cases hb <;> rfl

theorem PropertyValue.ReadFrom.unique {a b : PropertyValue} {source : Json} (ha : a.ReadFrom source)
    (hb : b.ReadFrom source) : a = b := by
  cases ha with
  | single ha =>
      cases hb with
      | single hb => rw [ha.unique hb]
      | fallbacks _ => cases ha
  | fallbacks ha =>
      cases hb with
      -- no single value is read from an array
      | single hb => cases hb
      | fallbacks hb =>
          have hunique : Relator.LeftUnique Value.ReadFrom := fun _ _ _ ha hb => ha.unique hb
          rw [hunique.forall₂ ha hb]

theorem Block.ReadFrom.unique {a b : Block} {source : Json} (ha : a.ReadFrom source)
    (hb : b.ReadFrom source) : a = b := by
  obtain ⟨custom, properties⟩ := a
  obtain ⟨custom', properties'⟩ := b
  obtain rfl : custom = custom' :=
    eq_of_readFrom ha.custom hb.custom fun _ _ _ _ hread hread' => hread.unique hread'
  obtain rfl : properties = properties' :=
    eq_of_readFrom ha.properties hb.properties fun _ _ _ _ hread hread' => hread.unique hread'
  rfl

theorem Definition.ReadFrom.unique {a b : Definition} {source : Json} (ha : a.ReadFrom source)
    (hb : b.ReadFrom source) : a = b := by
  induction a using Definition.induction generalizing b source with
  | step a ih =>
      obtain ⟨hbase, hpseudos, hselectors, hdefinitions⟩ := ha
      obtain ⟨hbase', hpseudos', hselectors', hdefinitions'⟩ := hb
      have hchildren : ∀ kind, a.children kind = b.children kind := fun kind =>
        eq_of_readFrom (hdefinitions kind) (hdefinitions' kind)
          fun entry hentry _ _ hread hread' => ih kind entry hentry hread hread'
      obtain ⟨⟨base, pseudos, selectors⟩, media, supports⟩ := a
      obtain ⟨⟨base', pseudos', selectors'⟩, media', supports'⟩ := b
      obtain rfl : base = base' := hbase.unique hbase'
      obtain rfl : pseudos = pseudos' :=
        eq_of_readFrom hpseudos hpseudos' fun _ _ _ _ hread hread' => hread.unique hread'
      obtain rfl : selectors = selectors' :=
        eq_of_readFrom hselectors hselectors' fun _ _ _ _ hread hread' => hread.unique hread'
      obtain rfl : media = media' := hchildren .media
      obtain rfl : supports = supports' := hchildren .supports
      rfl

/-! ## The reader -/

/-- A document gives a definition exactly if it is one of the grammar and the definition is what is
read from it. -/
theorem Definition.ofJson_eq_ok_iff {source : Json} {definition : Definition} :
    Definition.ofJson source = .ok definition ↔
      source.IsDefinition ∧ definition.ReadFrom source := by
  constructor
  · intro h
    exact ⟨(OfJson.definition_isOk_iff [] source).1 ⟨definition, h⟩,
      OfJson.definition_readFrom [] source h⟩
  · rintro ⟨hsource, hread⟩
    obtain ⟨made, hmade⟩ := (OfJson.definition_isOk_iff [] source).2 hsource
    rw [hread.unique (OfJson.definition_readFrom [] source hmade)]
    exact hmade

/-- **Reading a document.** Exactly the documents of the grammar are accepted. Of an accepted one
every entry stands in the map where it belongs, under its own key and in the order of the document,
at every depth; and if no key of the document stands twice, none does in these maps. -/
theorem Definition.ofJson_reads (source : Json) :
    ((∃ definition, Definition.ofJson source = .ok definition) ↔ source.IsDefinition) ∧
      ∀ definition, Definition.ofJson source = .ok definition →
        definition.ReadFrom source ∧ (source.Distinct → definition.Distinct) := by
  constructor
  · exact OfJson.definition_isOk_iff [] source
  · intro definition h
    have hread := (Definition.ofJson_eq_ok_iff.1 h).2
    exact ⟨hread, hread.distinct⟩

-- an array of one scalar is no scalar, and an empty one still sets its property
example :
    Definition.ofJson (.object [("overflow", .array [.string "auto"]), ("top", .array [])]) =
      .ok (.ofLevel ⟨⟨[], [("overflow", .fallbacks [.text "auto"]), ("top", .fallbacks [])]⟩,
        [], []⟩) := by
  rfl

/-! ## Definitions from text -/

/-- A text is read as a definition exactly if it is a document of the grammar in JSON. -/
theorem Definition.ofText_eq_ok_iff {text : String} {definition : Definition} :
    Definition.ofText text = .ok definition ↔
      ∃ source, Json.ofText? text = some source ∧ source.IsDefinition ∧
        definition.ReadFrom source := by
  unfold ofText
  cases htext : Json.ofText? text with
  | none => simp
  | some source => simp [ofJson_eq_ok_iff]

/-- **Definitions from text** have no key twice, at any depth: the reader has joined the entries of
a key that the text repeats. -/
theorem Definition.distinct_of_ofText {text : String} {definition : Definition}
    (h : Definition.ofText text = .ok definition) : definition.Distinct := by
  obtain ⟨source, htext, -, hread⟩ := ofText_eq_ok_iff.1 h
  exact hread.distinct (Json.ofText?_distinct htext)

/-- The reading that stops at the end of the first value accepts the same texts, and makes the same
definitions of them. -/
theorem Definition.ofLeadingText_eq_ok_iff {text : String} {definition : Definition} :
    Definition.ofLeadingText text = .ok definition ↔ Definition.ofText text = .ok definition := by
  unfold ofLeadingText ofText Json.ofText?
  cases Json.read? (Json.tokens text.toList) with
  | none => rfl
  | some read =>
      obtain ⟨source, rest⟩ := read
      cases rest with
      | nil => simp
      | cons token rest =>
          -- something follows the value, so there is no definition even if the value makes one
          constructor
          · intro h
            obtain ⟨made, -, hthrow⟩ := bind_eq_ok h
            cases hthrow
          · intro h
            cases h

end ScopedCss
