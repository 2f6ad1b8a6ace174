import ScopedCss.Proofs.Definition.Entrywise
import ScopedCss.Proofs.Flatten.Documents
import ScopedCss.Proofs.Selector.Splitting
import ScopedCss.Proofs.Stylesheet.Blocks

/-! # Two spellings of a custom property

A document may set a custom property among its `vars` or by a key of its own. Among the `vars` a
number becomes a text while the document is read, by its own key it stays a number until it is
written. A name among the `vars` may also be a reference or have blanks around it, and is taken out
of them; a key is brought into its CSS form. `Definition.flatten_spellings` says that nothing of
this makes a difference, neither to what is written nor to the check of conflicts.
-/

set_option autoImplicit false

namespace ScopedCss

/-! ## The name -/

namespace Property

/-- A name of a custom property without blanks at its end is its own name as a variable. -/
theorem variableName_of_isCustom {name : String} (h : isCustom name)
    (hend : ∀ c, name.toList.getLast? = some c → Text.isBlank c = false) :
    variableName name = name := by
  obtain ⟨cs, hcs⟩ := isCustom_iff.1 h
  have htrim : Text.trim name.toList = name.toList := by
    refine Selector.trim_eq_self (fun c hc => ?_) hend
    rw [hcs] at hc
    obtain rfl : '-' = c := Option.some.inj hc
    decide
  have hreference : referenceBody? name.toList = none := by
    rw [hcs]
    rfl
  rw [variableName, htrim]
  simp only [hreference]
  exact String.ofList_toList

/-- It is a key of a property in a document. -/
theorem isPropertyKey_of_isCustom {name : String} (h : isCustom name) : Json.IsPropertyKey name := by
  obtain ⟨cs, hcs⟩ := isCustom_iff.1 h
  constructor
  · rintro rfl
    exact absurd h (by decide)
  · rintro rfl
    exact absurd h (by decide)
  · simp [hcs]
  · simp [hcs]

end Property

/-! ## The documents -/

section

variable {value : Json} {read : Value} (hread : read.ReadFrom value)

include hread

theorem Definition.ofJson_vars (name : String) :
    Definition.ofJson (.object [("vars", .object [(name, value)])]) =
      .ok (.ofLevel { base := { custom := [(name, read.display)] } }) := by
  cases hread <;> rfl

variable {name : String} (hname : Property.isCustom name)

include hname

theorem Definition.ofJson_customKey :
    Definition.ofJson (.object [(name, value)]) =
      .ok (.ofLevel { base := { properties := [(name, .single read)] } }) := by
  have hkey : OfJson.Key.ofText name = .property :=
    OfJson.Key.ofText_eq_of_spells (Property.isPropertyKey_of_isCustom hname)
  rw [Definition.ofJson, OfJson.definition_singleton, OfJson.definitionEntry, hkey]
  simp only [OfJson.levelEntry, hkey]
  cases hread <;> rfl

theorem Definition.ofJson_customKey_vars :
    Definition.ofJson (.object [(name, value), ("vars", .object [(name, value)])]) =
      .ok (.ofLevel
        { base := { custom := [(name, read.display)], properties := [(name, .single read)] } }) := by
  have hvars := Definition.ofJson_vars hread name
  have hkey := Definition.ofJson_customKey hread hname
  unfold Definition.ofJson at hvars hkey ⊢
  rw [OfJson.definition_object, List.mapM_cons, List.mapM_cons, List.mapM_nil, hvars, hkey]
  rfl

end

/-! ## Definitions of one block -/

/-- Declarations that are all set to one text do not conflict. -/
theorem settingsAgree_of_display {rule : Rule} {text : String}
    (h : ∀ d ∈ rule.declarations, d.value.display = text) : SettingsAgree [rule] := by
  intro r₁ hr₁ r₂ hr₂ _ d₁ hd₁ d₂ hd₂ _ _ _
  obtain rfl := List.mem_singleton.1 hr₁
  obtain rfl := List.mem_singleton.1 hr₂
  exact (h d₁ hd₁).trans (h d₂ hd₂).symm

/-- A block of its own makes one rule, if it has declarations and these do not conflict. -/
theorem Definition.flatten_ofBlock {block : Block} (hfinite : block.Finite)
    (hne : block.declarations ≠ []) {text : String}
    (htext : ∀ d ∈ block.declarations, d.value.display = text) (scope : Scope) (reject : Bool) :
    (Definition.ofLevel { base := block }).flatten (.scoped scope) reject =
      .ok ⟨[⟨scope.selector, block.declarations⟩], []⟩ := by
  have hrules := Block.rules_of_finite hfinite (.scoped scope)
  have hagree : SettingsAgree [(⟨scope.selector, block.declarations⟩ : Rule)] :=
    settingsAgree_of_display htext
  rw [settingsAgree_iff, ← conflict?_eq_none_iff] at hagree
  have hlevel : Level.flatten (.scoped scope) reject { base := block } =
      .ok [⟨scope.selector, block.declarations⟩] := by
    rw [if_neg hne] at hrules
    rw [Level.flatten_of_rules hrules]
    cases reject with
    | false => rfl
    | true =>
        rw [if_pos rfl]
        simp only [Target.selector, hagree]
  show (Level.flatten (.scoped scope) reject { base := block } >>= _) = _
  rw [hlevel]
  rfl

/-- **Two spellings of a custom property.** A string or a number under a name that starts with two
hyphens and does not end with a blank may stand among the `vars` or by its own key. Either
definition is flattened into one rule with one declaration, and the two declarations are written
alike: under the name, with the string or the number as it is written without a unit. A document may
even have both, which do not conflict. -/
theorem Definition.flatten_spellings {name : String} (hname : Property.isCustom name)
    (hend : ∀ c, name.toList.getLast? = some c → Text.isBlank c = false) {value : Json}
    (hvalue : value.IsScalar) :
    ∃ (vars key both : Definition) (inVars byKey : Declaration) (text : String),
      Definition.ofJson (.object [("vars", .object [(name, value)])]) = .ok vars ∧
      Definition.ofJson (.object [(name, value)]) = .ok key ∧
      Definition.ofJson (.object [(name, value), ("vars", .object [(name, value)])]) = .ok both ∧
      CustomReadFrom text value ∧
      inVars.written = ⟨name, text⟩ ∧ byKey.written = ⟨name, text⟩ ∧
      ∀ scope reject,
        vars.flatten (.scoped scope) reject = .ok ⟨[⟨scope.selector, [inVars]⟩], []⟩ ∧
        key.flatten (.scoped scope) reject = .ok ⟨[⟨scope.selector, [byKey]⟩], []⟩ ∧
        both.flatten (.scoped scope) reject = .ok ⟨[⟨scope.selector, [inVars, byKey]⟩], []⟩ := by
  obtain ⟨read, hread⟩ : ∃ read : Value, read.ReadFrom value := by
    cases hvalue with
    | string content => exact ⟨_, .text content⟩
    | number number => exact ⟨_, .number number⟩
  have hfinite : ∀ custom, Block.Finite ⟨custom, [(name, .single read)]⟩ := by
    intro custom entry hentry found hfound
    obtain rfl := List.mem_singleton.1 hentry
    obtain rfl := List.mem_singleton.1 hfound
    exact hread.isFinite
  have hempty : Block.Finite ⟨[(name, read.display)], []⟩ := fun _ hentry =>
    absurd hentry List.not_mem_nil
  have hinVars : Declaration.Sets ⟨.custom, name, .text read.display⟩ name := by
    have hsets := Declaration.Sets.custom name (.text read.display)
    rwa [Property.variableName_of_isCustom hname hend] at hsets
  have hbyKey : Declaration.Sets ⟨.property, name, read⟩ name := .property hname read
  refine ⟨_, _, _, ⟨.custom, name, .text read.display⟩, ⟨.property, name, read⟩, read.display,
    ofJson_vars hread name, ofJson_customKey hread hname, ofJson_customKey_vars hread hname,
    hread.custom, hinVars.written_eq, hbyKey.written_eq, fun scope reject => ⟨?_, ?_, ?_⟩⟩
  · exact flatten_ofBlock hempty (List.cons_ne_nil _ _)
      (List.forall_mem_singleton.2 rfl) scope reject
  · exact flatten_ofBlock (hfinite []) (List.cons_ne_nil _ _)
      (List.forall_mem_singleton.2 rfl) scope reject
  · exact flatten_ofBlock (hfinite [(name, read.display)]) (List.cons_ne_nil _ _)
      (List.forall_mem_cons.2 ⟨rfl, List.forall_mem_singleton.2 rfl⟩) scope reject

/-- A number, which is kept as it is in the one spelling and as a text in the other. -/
theorem Definition.flatten_spellings_of_number :
    ∃ (four : Json.Number) (both : Definition) (inVars byKey : Declaration),
      Definition.ofJson (.object
        [("--Gap x", .number four), ("vars", .object [("--Gap x", .number four)])]) = .ok both ∧
      inVars.written = ⟨"--Gap x", "4"⟩ ∧ byKey.written = ⟨"--Gap x", "4"⟩ ∧
      both.flatten (.scoped ⟨"a"⟩) true = .ok ⟨[⟨".a", [inVars, byKey]⟩], []⟩ := by
  let four : Json.Number := .integer 4 (by decide)
  have hname : Property.isCustom "--Gap x" := by decide +kernel
  have hend : ∀ c, "--Gap x".toList.getLast? = some c → Text.isBlank c = false := by
    have hlast : "--Gap x".toList.getLast? = some 'x' := by decide +kernel
    intro c hc
    obtain rfl := Option.some.inj (hlast.symm.trans hc)
    decide
  have hfour : (Number.finite four.toBinary).text = "4" := by decide +kernel
  obtain ⟨_, _, both, inVars, byKey, text, -, -, hboth, htext, hinVars, hbyKey, hflat⟩ :=
    Definition.flatten_spellings hname hend (.number four)
  obtain rfl : text = "4" := (htext.unique (.number four)).trans hfour
  exact ⟨four, both, inVars, byKey, hboth, hinVars, hbyKey, (hflat ⟨"a"⟩ true).2.2⟩

end ScopedCss
