import Mathlib.Data.List.Nodup
import ScopedCss.Proofs.Definition.MapLevels
import ScopedCss.Proofs.Definition.Reading
import ScopedCss.Proofs.Flatten.Acceptance
import ScopedCss.Proofs.Selector.Splitting

/-! # Pseudos as selectors

A pseudo of a definition is put behind the class of the scope unread, while a selector is split,
checked and resolved. For the simple pseudos this comes to the same: `:hover` is the selector
`&:hover`. Their tokens are inert, so that `&:hover` is one alternative with one mention, whatever
the class of the scope is.

`Definition.flatten_asSelectors`: a definition is flattened like the one in which all pseudos have
been moved to the front of the selectors. Every definition that is read from a document is one with
simple pseudos only (`Definition.ReadFrom.simplePseudos`).
-/

set_option autoImplicit false

namespace ScopedCss

namespace Selector

/-! ## The selector of a simple pseudo -/

/-- Inert characters make no marks, whatever the class is. -/
theorem marks_of_inert {cs : List Char} (h : ∀ c ∈ cs, IsInert c) (own : List Char)
    {s : Surroundings} (hs : s.isBare) : marks own s 0 cs = [] := by
  induction cs with
  | nil => rfl
  | cons c cs ih =>
      obtain ⟨hc, hcs⟩ := List.forall_mem_cons.1 h
      have hdot : c ≠ '.' := hc.ne_of_mem (by decide)
      have hamp : c ≠ '&' := hc.ne_of_mem (by decide)
      have hmark : markAt s c cs = none := by simp [markAt, hamp, hc.2.1]
      rw [marks, hmark, Surroundings.after_of_not_mem_signs hs hc.1, ih hcs]
      simp [hdot]

theorem toList_ampersand_append (token : String) :
    ("&" ++ token).toList = '&' :: token.toList := by
  rw [String.toList_append]
  rfl

section

variable {token : String} (h : isSimplePseudo token) (scope : Scope)

include h

/-- It is one alternative, with nothing to trim. -/
theorem alternatives_ampersand_append : alternatives ("&" ++ token) = ["&" ++ token] := by
  obtain ⟨-, hinert⟩ := simplePseudo_inert h
  have hplain : ∀ c ∈ '&' :: token.toList, Text.isBlank c = false ∧ c ≠ ',' :=
    List.forall_mem_cons.2 ⟨⟨by decide, by decide⟩, fun c hc =>
      ⟨(hinert c hc).not_isBlank, (hinert c hc).ne_of_mem (by decide)⟩⟩
  have hwhole : segments ('&' :: token.toList) = ['&' :: token.toList] := by
    refine segments_eq_singleton fun i hi => ?_
    exact (hplain ',' (List.mem_of_getElem? hi.1)).2 rfl
  have htrim : Text.trim ('&' :: token.toList) = '&' :: token.toList :=
    trim_eq_self (fun c hc => (hplain c (List.mem_of_head? hc)).1)
      fun c hc => (hplain c (List.mem_of_getLast? hc)).1
  rw [alternatives, toList_ampersand_append, hwhole, List.map_singleton, htrim,
    ← toList_ampersand_append, String.ofList_toList]

/-- It mentions the element once, at its start. -/
theorem check_ampersand_append : scope.check ("&" ++ token) = .ok () := by
  obtain ⟨⟨name, hname⟩, hinert⟩ := simplePseudo_inert h
  have hcolon : startsWithName token.toList = false := by
    rw [hname]
    rfl
  have hmarks : marks scope.selector.toList {} 0 ('&' :: token.toList) = [.mention 0] := by
    have hfirst : markAt {} '&' token.toList = some (.mention 0) := by
      simp [markAt, hcolon, Surroundings.isBare]
    rw [marks, hfirst, Surroundings.after_of_not_mem_signs rfl (by decide),
      marks_of_inert hinert _ rfl]
    rfl
  have hfault : alternativeFault? scope ("&" ++ token) = none := by
    rw [alternativeFault?, toList_ampersand_append, hmarks]
    rfl
  rw [Scope.check, targetFault?, alternatives_ampersand_append h, List.findSome?_cons, hfault]
  rfl

theorem resolve_ampersand_append : resolve scope ("&" ++ token) = scope.selector ++ token := by
  obtain ⟨-, hinert⟩ := simplePseudo_inert h
  have hkept : replacePlaceholders scope.selector.toList {} token.toList = token.toList := by
    have happend := replacePlaceholders_of_ne scope.selector.toList {}
      (fun c hc => (hinert c hc).ne_of_mem (by decide)) []
    rwa [replacePlaceholders, List.append_nil] at happend
  have hamp : isPlaceholder {} '&' := by decide
  rw [resolve, toList_ampersand_append, replacePlaceholders, if_pos hamp,
    Surroundings.after_of_not_mem_signs rfl (by decide), hkept, String.ofList_append,
    String.ofList_toList, String.ofList_toList]

end

end Selector

theorem Target.resolve_ampersand_append {token : String} (h : Selector.isSimplePseudo token)
    (scope : Scope) :
    (Target.scoped scope).resolve ("&" ++ token) = .ok (scope.selector ++ token) := by
  rw [Target.resolve_scoped, Selector.check_ampersand_append h, Selector.resolve_ampersand_append h]
  rfl

/-! ## Levels -/

/-- A level with each pseudo moved to the front of the selectors, as a selector of the element. -/
def Level.asSelectors (level : Level) : Level :=
  { level with
    pseudos := []
    selectors := level.pseudos.map (fun entry => ("&" ++ entry.1, entry.2)) ++ level.selectors }

/-- All pseudos of a level are simple. -/
def Level.SimplePseudos (level : Level) : Prop :=
  ∀ token ∈ Entries.keys level.pseudos, Selector.isSimplePseudo token

/-- No selector of a level is one of its pseudos behind an ampersand. -/
def Level.NoPseudoTwice (level : Level) : Prop :=
  ∀ token ∈ Entries.keys level.pseudos, "&" ++ token ∉ Entries.keys level.selectors

namespace Level

variable {level : Level}

/-- The blocks of the level style the same selectors in the same order. -/
theorem blocks_asSelectors (h : level.SimplePseudos) (scope : Scope) :
    level.asSelectors.blocks (.scoped scope) = level.blocks (.scoped scope) := by
  have hpseudos : (level.pseudos.map fun entry => ("&" ++ entry.1, entry.2)).map
        (fun entry => ((Target.scoped scope).resolve entry.1, entry.2)) =
      level.pseudos.map fun entry =>
        (Except.ok ((Target.scoped scope).selector ++ entry.1), entry.2) := by
    rw [List.map_map]
    refine List.map_congr_left fun entry hentry => ?_
    have htoken : Selector.isSimplePseudo entry.1 := h entry.1 (List.mem_map_of_mem hentry)
    rw [Function.comp_apply, Target.resolve_ampersand_append htoken]
    rfl
  unfold blocks asSelectors
  rw [List.map_append, hpseudos, List.map_nil, List.cons_append, List.nil_append,
    List.cons_append]

theorem flatten_asSelectors_eq (h : level.SimplePseudos) (scope : Scope) (reject : Bool) :
    level.asSelectors.flatten (.scoped scope) reject = level.flatten (.scoped scope) reject := by
  have hrules : level.asSelectors.rules (.scoped scope) = level.rules (.scoped scope) := by
    rw [rules, blocks_asSelectors h, rules]
  rw [flatten, hrules, flatten]

/-- The selectors stay told apart, if none of them is there already. -/
theorem Distinct.asSelectors (h : level.Distinct) (hnew : level.NoPseudoTwice) :
    level.asSelectors.Distinct := by
  have hkeys : Entries.keys level.asSelectors.selectors =
      (Entries.keys level.pseudos).map ("&" ++ ·) ++ Entries.keys level.selectors := by
    rw [Level.asSelectors, Entries.keys, List.map_append, List.map_map, Entries.keys, List.map_map]
    rfl
  have hinjective : Function.Injective fun token : String => "&" ++ token := fun _ _ =>
    (String.append_right_inj "&").1
  refine ⟨h.base, List.nodup_nil, ?_, by simp [Level.asSelectors], ?_⟩
  · rw [Entries.Distinct, hkeys, List.nodup_append]
    refine ⟨List.Nodup.map hinjective h.pseudos, h.selectors, fun key hkey other hother => ?_⟩
    obtain ⟨token, htoken, rfl⟩ := List.mem_map.1 hkey
    rintro rfl
    exact hnew token htoken hother
  · intro entry hentry
    rcases List.mem_append.1 hentry with hmoved | hselector
    · obtain ⟨pseudo, hpseudo, rfl⟩ := List.mem_map.1 hmoved
      exact h.pseudo_blocks pseudo hpseudo
    · exact h.selector_blocks entry hselector

end Level

/-! ## Definitions from documents -/

/-- What the grammar allows among the pseudos of a definition. -/
theorem Json.IsDefinition.isSimplePseudo {source : Json} (h : source.IsDefinition)
    {entry : String × Json} (hentry : entry ∈ source.filed .pseudos) :
    Selector.isSimplePseudo entry.1 := by
  obtain ⟨hentries⟩ := h
  obtain ⟨outer, houter, hplaces⟩ := Json.mem_filed.1 hentry
  rcases Json.mem_places.1 hplaces with ⟨hmap, -⟩ | ⟨hnone, hslot, rfl⟩
  · exact absurd (Slot.mapKey?_of_ofMapKey? hmap) (by simp [Slot.mapKey?])
  · have hholds := OfJson.isDefinitionEntry_iff.1 (hentries entry houter)
    have hspells := OfJson.Key.spells_ofText entry.1
    rw [OfJson.ofMapKey?_eq] at hnone
    cases hkey : OfJson.Key.ofText entry.1 with
    | pseudo =>
        rw [hkey] at hholds
        exact hholds.1
    | property =>
        rw [hkey] at hspells
        have hproperties : Slot.ofKey entry.1 = .properties := if_neg hspells.no_pseudo
        exact absurd (hslot.trans hproperties) (by decide)
    | atRule =>
        rw [hkey] at hholds
        exact hholds.elim
    | custom | selectors | condition kind =>
        rw [hkey] at hnone
        exact absurd hnone (by simp)

/-- What the grammar allows below the queries of a definition. -/
theorem Json.IsDefinition.of_mem_definitions {source : Json} (h : source.IsDefinition)
    {kind : ConditionKind} {entry : String × Json}
    (hentry : entry ∈ source.filed (.definitions kind)) : entry.2.IsDefinition := by
  obtain ⟨hentries⟩ := h
  obtain ⟨⟨key, value⟩, houter, hplaces⟩ := Json.mem_filed.1 hentry
  rcases Json.mem_places.1 hplaces with ⟨hmap, hmem⟩ | ⟨-, hslot, -⟩
  · have hholds := OfJson.isDefinitionEntry_iff.1 (hentries _ houter)
    rw [OfJson.ofMapKey?_eq] at hmap
    cases hkey : OfJson.Key.ofText key with
    | condition found =>
        rw [hkey] at hholds
        obtain ⟨hqueries⟩ := hholds
        exact hqueries entry hmem
    | custom | selectors | pseudo | atRule | property =>
        rw [hkey] at hmap
        exact absurd hmap (by simp)
  · have hnone := Slot.mapKey?_ofKey key
    rw [← hslot] at hnone
    exact absurd hnone (by simp [Slot.mapKey?])

/-- Every definition that is read from a document has simple pseudos only, at every depth. -/
theorem Definition.ReadFrom.simplePseudos {definition : Definition} {source : Json}
    (h : definition.ReadFrom source) (hsource : source.IsDefinition) :
    ∀ address path inner, definition.at? address = some (path, inner) →
      inner.level.SimplePseudos := by
  intro address
  obtain ⟨-, hpseudos, -, hdefinitions⟩ := h
  induction address generalizing definition source with
  | nil =>
      intro path inner hinner token htoken
      obtain ⟨-, rfl⟩ := Prod.mk.inj (Option.some.inj hinner)
      obtain ⟨entry, hentry, rfl⟩ := List.mem_map.1 htoken
      obtain ⟨part, hpart, hread⟩ := exists_mem_of_forall₂ hpseudos hentry
      cases hread with
      | intro hread => exact hsource.isSimplePseudo hpart
  | cons turn rest ih =>
      intro path inner hinner
      obtain ⟨query, child, tail, hchild, hrest, -⟩ := at?_cons_eq_some_iff.1 hinner
      obtain ⟨part, hpart, hread⟩ :=
        exists_mem_of_forall₂ (hdefinitions turn.kind) (List.mem_of_getElem? hchild)
      cases hread with
      | intro hread =>
          obtain ⟨-, hpseudos, -, hdefinitions⟩ := hread
          exact ih (hsource.of_mem_definitions hpart) hpseudos hdefinitions tail inner hrest

/-! ## Definitions -/

/-- A definition in which each pseudo is written as a selector, at every depth. -/
def Definition.asSelectors (definition : Definition) : Definition :=
  definition.mapLevels Level.asSelectors

/-- **A simple pseudo is the same as a selector.** If all pseudos of a definition are simple, they
may be written behind an ampersand at the front of the selectors: for every scope the definition is
flattened into the same rules under the same conditions, or rejected for the same error. What is
written so is again a definition in which no key stands twice, if none of these selectors was there
before. -/
theorem Definition.flatten_asSelectors {definition : Definition}
    (h : ∀ address path inner, definition.at? address = some (path, inner) →
      inner.level.SimplePseudos) :
    (∀ scope reject, definition.asSelectors.flatten (.scoped scope) reject =
      definition.flatten (.scoped scope) reject) ∧
    (definition.Distinct →
      (∀ address path inner, definition.at? address = some (path, inner) →
        inner.level.NoPseudoTwice) → definition.asSelectors.Distinct) ∧
    ∀ address path inner, definition.at? address = some (path, inner) →
      ∃ moved, definition.asSelectors.at? address = some (path, moved) ∧
        moved.level = inner.level.asSelectors := by
  refine ⟨fun scope reject => ?_, fun hdistinct hnew => ?_, fun address path inner hinner => ?_⟩
  · rw [flatten_eq_mapM rfl, flatten_eq_mapM rfl, asSelectors, levels_mapLevels, List.mapM_map]
    refine congrArg _ (mapM_congr fun entry hentry => ?_)
    have hlevel := Level.flatten_asSelectors_eq (forall_levels_iff.2 h entry hentry) scope reject
    rw [Function.comp_apply, flattenAt, flattenAt, hlevel]
  · refine hdistinct.mapLevels _ fun address path inner hinner => ?_
    obtain ⟨hlevel, -, -⟩ := hdistinct.of_at? hinner
    exact hlevel.asSelectors (hnew address path inner hinner)
  · refine ⟨inner.asSelectors, ?_, level_mapLevels _ inner⟩
    rw [asSelectors, at?_mapLevels, hinner]
    rfl

/-- A document with pseudos at two depths, for a class that has a blank in its name. Below the query
a selector that names the class conflicts with a pseudo, and is found to do so in both ways to write
the pseudo. -/
theorem Definition.flatten_asSelectors_of_hover :
    ∃ (document : Json) (definition : Definition) (made : Flattened),
      Definition.ofJson document = .ok definition ∧
      (∀ address path inner, definition.at? address = some (path, inner) →
        inner.level.SimplePseudos) ∧
      definition.asSelectors.level.selectors.keys = ["&:hover", "&::before", ".x &"] ∧
      made.rules.map Rule.selector = [".a b:hover", ".a b::before", ".x .a b"] ∧
      definition.asSelectors.flatten (.scoped ⟨"a b"⟩) false = .ok made ∧
      definition.asSelectors.flatten (.scoped ⟨"a b"⟩) true =
        .error (.duplicateVariable "--gap" ".a b:active" "0" "1") := by
  let setsGap (value : String) : Json := .object [("vars", .object [("--gap", .string value)])]
  let gap (value : String) : Block := { custom := [("--gap", value)] }
  let document : Json := .object
    [(":hover", setsGap "0"), ("::before", setsGap "0"),
      ("selectors", .object [(".x &", setsGap "0")]),
      ("@media", .object [("print", .object
        [(":active", setsGap "0"), ("selectors", .object [(".a b:active", setsGap "1")])])])]
  let definition : Definition :=
    { level := { pseudos := [(":hover", gap "0"), ("::before", gap "0")]
                 selectors := [(".x &", gap "0")] }
      media := [("print", { level := { pseudos := [(":active", gap "0")]
                                       selectors := [(".a b:active", gap "1")] } })] }
  let made : Flattened :=
    ⟨[⟨".a b:hover", (gap "0").declarations⟩, ⟨".a b::before", (gap "0").declarations⟩,
        ⟨".x .a b", (gap "0").declarations⟩],
      [([⟨.media, "print"⟩], [⟨".a b:active", (gap "0").declarations⟩,
        ⟨".a b:active", (gap "1").declarations⟩])]⟩
  have hread : Definition.ofJson document = .ok definition := by rfl
  have hmade : definition.flatten (.scoped ⟨"a b"⟩) false = .ok made := by decide +kernel
  have hconflict : definition.flatten (.scoped ⟨"a b"⟩) true =
      .error (.duplicateVariable "--gap" ".a b:active" "0" "1") := by
    decide +kernel
  obtain ⟨hsource, hfrom⟩ := Definition.ofJson_eq_ok_iff.1 hread
  have hsimple := hfrom.simplePseudos hsource
  obtain ⟨hflat, -, -⟩ := Definition.flatten_asSelectors hsimple
  exact ⟨document, definition, made, hread, hsimple, by decide, by decide,
    (hflat _ _).trans hmade, (hflat _ _).trans hconflict⟩

end ScopedCss
