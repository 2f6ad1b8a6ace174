import ScopedCss.Proofs.Definition.Reading

/-! # Reading entry by entry

Nothing is carried from one entry of a document to the next, and the path is only there for errors.
So each entry of an object is read as if it stood alone, each body of a query as if it were the whole
document, and an error differs by where its paths start (`StyleError.under`).

The second is told of each function of the reader first, along its calls
(`OfJson.definition_under`); `Definition.ofJson_entrywise` then needs to speak of whole documents
only.
-/

set_option autoImplicit false

namespace ScopedCss

/-- An error of what stands at a path: the paths in it start there. -/
def StyleError.under (path : Path) : StyleError → StyleError
  | .unexpectedKind inner expected found => .unexpectedKind (path ++ inner) expected found
  | .unsupportedKey key (.nestedBlock inner) => .unsupportedKey key (.nestedBlock (path ++ inner))
  | other => other

/-- The first of a list that a check rejects, after accepting all before it, is rejected for this
error. -/
def FirstError {α β ε : Type} (check : α → Except ε β) (xs : List α) (error : ε) : Prop :=
  ∃ before x after, xs = before ++ x :: after ∧ (∀ passed ∈ before, ∃ y, check passed = .ok y) ∧
    check x = .error error

/-- A path that starts elsewhere is written as before, but for the sign of the whole document. -/
theorem Path.text_append (path inner : Path) :
    ∃ steps, inner.text = "$" ++ steps ∧ (path ++ inner).text = path.text ++ steps := by
  refine ⟨String.join (inner.map Path.Step.text), rfl, ?_⟩
  rw [text, text, List.map_append, String.join_append, String.append_assoc]

theorem Path.text_body (path : Path) (kind : ConditionKind) (query : String) :
    Path.text (path ++ [.key kind.key, .quoted query]) =
      path.text ++ "." ++ kind.key ++ "[" ++ Text.quoted query ++ "]" := by
  simp [text, Step.text, String.join_append, String.append_assoc]

/-! ## Reading elsewhere -/

namespace OfJson

variable (path inner : Path)

theorem entries_under (value : Json) :
    OfJson.entries (path ++ inner) value = (OfJson.entries inner value).mapError (.under path) := by
  cases value <;> rfl

theorem scalar_under (value : Json) :
    scalar (path ++ inner) value = (scalar inner value).mapError (.under path) := by
  cases value <;> rfl

theorem fallbacks_under (position : Nat) (items : List Json) :
    fallbacks (path ++ inner) position items =
      (fallbacks inner position items).mapError (.under path) := by
  induction items generalizing position with
  | nil => rfl
  | cons item rest ih =>
      rw [fallbacks, fallbacks, mapError_seq, List.append_assoc, scalar_under, ih]

theorem property_under (name : String) (value : Json) :
    property name (path ++ inner) value = (property name inner value).mapError (.under path) := by
  cases value with
  | array items => rw [property, property, mapError_bind_pure, fallbacks_under]
  | null | bool _ | number _ | string _ | object _ => rfl

/-- What is read entry by entry from an object is read so at any path, if its entries are. -/
theorem entries_mapM_under {α : Type} (read : Path → String × Json → Except StyleError α)
    (hread : ∀ entry, read (path ++ inner) entry = (read inner entry).mapError (.under path))
    (value : Json) :
    (do (← OfJson.entries (path ++ inner) value).mapM (read (path ++ inner))) =
      (do (← OfJson.entries inner value).mapM (read inner) : Except StyleError (List α)).mapError
        (.under path) := by
  rw [mapError_bind, entries_under, funext hread]
  simp only [mapError_mapM]

theorem customProperties_under (value : Json) :
    customProperties (path ++ inner) value =
      (customProperties inner value).mapError (.under path) := by
  refine entries_mapM_under path inner (fun path entry => do
    return (entry.1, (← scalar (path ++ [.quoted entry.1]) entry.2).display)) (fun entry => ?_) value
  rw [mapError_bind_pure, List.append_assoc, scalar_under]

theorem blockEntry_under (key : String) (value : Json) :
    blockEntry (path ++ inner) key value = (blockEntry inner key value).mapError (.under path) := by
  rw [blockEntry, blockEntry, List.append_assoc]
  cases Key.ofText key with
  | custom => simp only [mapError_bind_pure, customProperties_under]
  | property => simp only [mapError_bind_pure, property_under]
  | selectors | condition kind | pseudo | atRule => rfl

theorem blockEntries_under (entries : List (String × Json)) :
    blockEntries (path ++ inner) entries = (blockEntries inner entries).mapError (.under path) := by
  induction entries with
  | nil => rfl
  | cons entry rest ih => rw [blockEntries, blockEntries, mapError_seq, blockEntry_under, ih]

theorem block_under (value : Json) :
    block (path ++ inner) value = (block inner value).mapError (.under path) := by
  rw [block, block, mapError_bind, entries_under]
  simp only [blockEntries_under]

theorem selectors_under (value : Json) :
    selectors (path ++ inner) value = (selectors inner value).mapError (.under path) := by
  refine entries_mapM_under path inner (fun path entry => do
    return (entry.1, ← block (path ++ [.quoted entry.1]) entry.2)) (fun entry => ?_) value
  rw [mapError_bind_pure, List.append_assoc, block_under]

theorem levelEntry_under (key : String) (value : Json) :
    levelEntry (path ++ inner) key value = (levelEntry inner key value).mapError (.under path) := by
  rw [levelEntry, levelEntry, List.append_assoc]
  cases Key.ofText key with
  | custom => simp only [mapError_bind_pure, customProperties_under]
  | selectors => simp only [mapError_bind_pure, selectors_under]
  | property => simp only [mapError_bind_pure, property_under]
  | pseudo =>
      by_cases hpseudo : Selector.isSimplePseudo key
      · simp only [if_pos hpseudo, mapError_bind_pure, block_under]
      · simp only [if_neg hpseudo]
        rfl
  | condition kind | atRule => rfl

theorem definitionEntry_under (key : String) (value : Json)
    (hconditions : conditions (path ++ (inner ++ [.key key])) value =
      (conditions (inner ++ [.key key]) value).mapError (.under path)) :
    definitionEntry (path ++ inner) key value =
      (definitionEntry inner key value).mapError (.under path) := by
  rw [definitionEntry, definitionEntry, List.append_assoc]
  cases Key.ofText key with
  | condition kind => rw [hconditions, mapError_map]
  | custom | selectors | pseudo | atRule | property => rw [levelEntry_under, mapError_map]

-- by induction on the document, along the calls of the reader
mutual

theorem definition_under (path inner : Path) (value : Json) :
    definition (path ++ inner) value = (definition inner value).mapError (.under path) := by
  match value with
  | .object entries => rw [definition, definition, definitionEntries_under path inner entries]
  | .null | .bool _ | .number _ | .string _ | .array _ => rfl

theorem definitionEntries_under (path inner : Path) (entries : List (String × Json)) :
    definitionEntries (path ++ inner) entries =
      (definitionEntries inner entries).mapError (.under path) := by
  match entries with
  | [] => rfl
  | (key, value) :: rest =>
      have hentry := definitionEntry_under path inner key value
        (conditions_under path (inner ++ [.key key]) value)
      rw [definitionEntries_cons, definitionEntries_cons, mapError_seq, hentry,
        definitionEntries_under path inner rest]

theorem conditions_under (path inner : Path) (value : Json) :
    conditions (path ++ inner) value = (conditions inner value).mapError (.under path) := by
  match value with
  | .object entries => rw [conditions, conditions, conditionEntries_under path inner entries]
  | .null | .bool _ | .number _ | .string _ | .array _ => rfl

theorem conditionEntries_under (path inner : Path) (entries : List (String × Json)) :
    conditionEntries (path ++ inner) entries =
      (conditionEntries inner entries).mapError (.under path) := by
  match entries with
  | [] => rfl
  | (query, body) :: rest =>
      rw [conditionEntries, conditionEntries, mapError_seq, List.append_assoc,
        definition_under path _ body, conditionEntries_under path inner rest]

end

end OfJson

/-! ## Joining definitions -/

namespace Definition

/-- Each map of a definition lists what those of its parts list, part by part in order. -/
structure IsUnion (whole : Definition) (parts : List Definition) : Prop where
  custom : whole.level.base.custom = parts.flatMap fun part => part.level.base.custom
  properties : whole.level.base.properties = parts.flatMap fun part => part.level.base.properties
  pseudos : whole.level.pseudos = parts.flatMap fun part => part.level.pseudos
  selectors : whole.level.selectors = parts.flatMap fun part => part.level.selectors
  children : ∀ kind, whole.children kind = parts.flatMap fun part => part.children kind

def join (parts : List Definition) : Definition := parts.foldr (· ++ ·) {}

theorem isUnion_join (parts : List Definition) : (join parts).IsUnion parts := by
  induction parts with
  | nil => exact ⟨rfl, rfl, rfl, rfl, fun kind => by cases kind <;> rfl⟩
  | cons part parts ih =>
      have hjoin : join (part :: parts) = part ++ join parts := rfl
      refine ⟨?_, ?_, ?_, ?_, fun kind => ?_⟩
      · exact congrArg (part.level.base.custom ++ ·) ih.custom
      · exact congrArg (part.level.base.properties ++ ·) ih.properties
      · exact congrArg (part.level.pseudos ++ ·) ih.pseudos
      · exact congrArg (part.level.selectors ++ ·) ih.selectors
      · rw [hjoin, children_append, List.flatMap_cons, ih.children kind]

/-- The maps of a definition are all that there is in it. -/
theorem isUnion_iff {whole : Definition} {parts : List Definition} :
    whole.IsUnion parts ↔ whole = join parts := by
  constructor
  · intro h
    have hjoin := isUnion_join parts
    generalize join parts = joined at hjoin
    obtain ⟨⟨⟨custom, properties⟩, pseudos, selectors⟩, media, supports⟩ := whole
    obtain ⟨⟨⟨custom', properties'⟩, pseudos', selectors'⟩, media', supports'⟩ := joined
    obtain rfl : custom = custom' := h.custom.trans hjoin.custom.symm
    obtain rfl : properties = properties' := h.properties.trans hjoin.properties.symm
    obtain rfl : pseudos = pseudos' := h.pseudos.trans hjoin.pseudos.symm
    obtain rfl : selectors = selectors' := h.selectors.trans hjoin.selectors.symm
    obtain rfl : media = media' := (h.children .media).trans (hjoin.children .media).symm
    obtain rfl : supports = supports' := (h.children .supports).trans (hjoin.children .supports).symm
    rfl
  · rintro rfl
    exact isUnion_join parts

theorem append_empty (definition : Definition) : definition ++ ({} : Definition) = definition := by
  have hunion : definition.IsUnion [definition] :=
    ⟨by simp, by simp, by simp, by simp, fun kind => by simp⟩
  exact (isUnion_iff.1 hunion).symm

end Definition

/-! ## Reading by parts -/

namespace OfJson

/-- A document of one entry is what that entry makes. -/
theorem definition_singleton (path : Path) (entry : String × Json) :
    definition path (.object [entry]) = definitionEntry path entry.1 entry.2 := by
  rw [definition, definitionEntries_cons, definitionEntries]
  cases definitionEntry path entry.1 entry.2 with
  | error e => rfl
  | ok first => exact congrArg Except.ok first.append_empty

/-- The entries of a document are read one by one and joined. -/
theorem definition_object (path : Path) (entries : List (String × Json)) :
    definition path (.object entries) =
      Definition.join <$> entries.mapM fun entry => definition path (.object [entry]) := by
  simp only [definition_singleton]
  rw [definition]
  induction entries with
  | nil => rfl
  | cons entry rest ih =>
      rw [definitionEntries_cons, ih, List.mapM_cons]
      cases definitionEntry path entry.1 entry.2 with
      | error e => rfl
      | ok first => cases rest.mapM fun entry => definitionEntry path entry.1 entry.2 <;> rfl

/-- The bodies of queries are read one by one. -/
theorem conditionEntries_eq (path : Path) (queries : List (String × Json)) :
    conditionEntries path queries = queries.mapM fun query =>
      Prod.mk query.1 <$> definition (path ++ [.quoted query.1]) query.2 := by
  induction queries with
  | nil => rfl
  | cons query rest ih =>
      rw [conditionEntries, ih, List.mapM_cons]
      cases definition (path ++ [.quoted query.1]) query.2 <;> rfl

end OfJson

namespace Definition

theorem ofJson_under (path : Path) (source : Json) :
    OfJson.definition path source = (ofJson source).mapError (.under path) := by
  have hunder := OfJson.definition_under path [] source
  rwa [List.append_nil] at hunder

/-- The queries of one kind are read body by body. -/
theorem ofJson_condition (path : Path) (kind : ConditionKind) (queries : List (String × Json)) :
    OfJson.definition path (.object [(kind.key, .object queries)]) =
      ofConditions kind <$> queries.mapM fun query =>
        Prod.mk query.1 <$>
          (ofJson query.2).mapError (.under (path ++ [.key kind.key, .quoted query.1])) := by
  have hkey : OfJson.Key.ofText kind.key = .condition kind := OfJson.Key.ofText_eq_of_spells rfl
  rw [OfJson.definition_singleton, OfJson.definitionEntry, hkey]
  simp only [OfJson.conditions, OfJson.conditionEntries_eq, ofJson_under, List.append_assoc,
    List.singleton_append]

/-- **Reading is entry by entry, and the same everywhere.** An object is accepted exactly if each of
its entries is accepted alone, as the union of what they make, and otherwise it is rejected for the
first entry that is not, with its error; if no key stands twice in the object, none does in the
union. The same goes for the bodies of the queries of one kind, each of which is read as if it were a
document, wherever it stands: only the paths in its error start at the body. -/
theorem ofJson_entrywise :
    (∀ entries : List (String × Json),
      (∀ whole, ofJson (.object entries) = .ok whole ↔
        ∃ parts, List.Forall₂ (fun entry part => ofJson (.object [entry]) = .ok part) entries parts ∧
          whole.IsUnion parts) ∧
      (∀ error, ofJson (.object entries) = .error error ↔
        FirstError (fun entry => ofJson (.object [entry])) entries error) ∧
      ((Json.object entries).Distinct →
        ∀ whole, ofJson (.object entries) = .ok whole → whole.Distinct)) ∧
    (∀ path kind (queries : List (String × Json)),
      (∀ read, OfJson.definition path (.object [(kind.key, .object queries)]) = .ok read ↔
        ∃ bodies : List (String × Definition),
          List.Forall₂ (fun query body => ofJson query.2 = .ok body.2 ∧ body.1 = query.1)
            queries bodies ∧ read = ofConditions kind bodies) ∧
      ∀ error, OfJson.definition path (.object [(kind.key, .object queries)]) = .error error ↔
        FirstError (fun query =>
            (ofJson query.2).mapError (.under (path ++ [.key kind.key, .quoted query.1])))
          queries error) ∧
    (∀ path source, OfJson.definition path source = (ofJson source).mapError (.under path)) ∧
    (∀ path inner : Path,
      ∃ steps, inner.text = "$" ++ steps ∧ (path ++ inner).text = path.text ++ steps) ∧
    ∀ (path : Path) (kind : ConditionKind) (query : String),
      Path.text (path ++ [.key kind.key, .quoted query]) =
        path.text ++ "." ++ kind.key ++ "[" ++ Text.quoted query ++ "]" := by
  refine ⟨fun entries => ⟨fun whole => ?_, fun error => ?_, ?_⟩,
    fun path kind queries => ⟨fun read => ?_, fun error => ?_⟩, ofJson_under, Path.text_append,
    Path.text_body⟩
  · unfold ofJson
    rw [OfJson.definition_object, map_eq_ok_iff]
    simp only [mapM_eq_ok_iff, isUnion_iff]
  · unfold ofJson
    rw [OfJson.definition_object, map_eq_error_iff, mapM_eq_error_iff]
    rfl
  · intro hdistinct whole hwhole
    exact (ofJson_eq_ok_iff.1 hwhole).2.distinct hdistinct
  · have hbody : ∀ (query : String × Json) (body : String × Definition),
        (∃ definition, ofJson query.2 = .ok definition ∧ body = (query.1, definition)) ↔
          ofJson query.2 = .ok body.2 ∧ body.1 = query.1 := by
      rintro query ⟨name, definition⟩
      constructor
      · rintro ⟨_, hread, hpair⟩
        obtain ⟨rfl, rfl⟩ := Prod.mk.inj hpair
        exact ⟨hread, rfl⟩
      · rintro ⟨hread, rfl⟩
        exact ⟨definition, hread, rfl⟩
    rw [ofJson_condition, map_eq_ok_iff]
    simp only [mapM_eq_ok_iff, map_eq_ok_iff, mapError_eq_ok_iff, hbody]
  · rw [ofJson_condition, map_eq_error_iff, mapM_eq_error_iff]
    simp only [map_isOk_iff, map_eq_error_iff]
    rfl

-- the body of the query alone is rejected at `$.top[0]`
example :
    ofJson (.object [("@media", .object [("print", .object [("top", .array [.null])])])]) =
      .error (.unexpectedKind [.key "@media", .quoted "print", .key "top", .index 0] .scalar
        .null) := by
  rfl

end Definition

end ScopedCss
