import ScopedCss.Proofs.Stylesheet.Run

/-! # A style sheet only grows

A definition is added as a whole or not at all. If it is rejected, the sheet stays as it is. If it
is accepted, `Stylesheet.Appends` says what becomes of the sheet: everything in it stays where it
is, and what is new comes after it, among the rules, at every node of the forest and among the
siblings at every place.

So rejected definitions may be left out of a series of additions (`Stylesheet.addStyle_appends`).
-/

set_option autoImplicit false

namespace ScopedCss

namespace Condition

/-! ## Forests that grow -/

/-- Whatever stands in a forest stands in the later one, at the same place. New roots, new rules of
a node and new conditions below it come after the old ones. -/
structure Forest.ExtendedTo (forest later : Forest) : Prop where
  roots : forest.keys <+: later.keys
  nodes : ∀ place node, forest.find? place = some node →
    ∃ grown, later.find? place = some grown ∧ grown.condition = node.condition ∧
      node.rules <+: grown.rules ∧ Forest.keys node.children <+: Forest.keys grown.children

namespace Forest

theorem ExtendedTo.refl (forest : Forest) : forest.ExtendedTo forest where
  roots := List.prefix_refl _
  nodes := fun _ node hnode => ⟨node, hnode, rfl, List.prefix_refl _, List.prefix_refl _⟩

theorem ExtendedTo.trans {forest later last : Forest} (h : forest.ExtendedTo later)
    (hlast : later.ExtendedTo last) : forest.ExtendedTo last where
  roots := h.roots.trans hlast.roots
  nodes := by
    intro place node hnode
    obtain ⟨grown, hgrown, hcondition, hrules, hchildren⟩ := h.nodes place node hnode
    obtain ⟨final, hfinal, hcondition', hrules', hchildren'⟩ := hlast.nodes place grown hgrown
    exact ⟨final, hfinal, hcondition'.trans hcondition, hrules.trans hrules',
      hchildren.trans hchildren'⟩

theorem keys_prefix_register (forest : Forest) (path : List Condition) (rules : List Rule) :
    forest.keys <+: (forest.register path rules).keys := by
  rw [keys_register]
  exact List.prefix_append _ _

/-- One registration adds rules to one node, and below each place at most one condition. -/
theorem extendedTo_register (forest : Forest) (path : List Condition) (rules : List Rule) :
    forest.ExtendedTo (forest.register path rules) where
  roots := keys_prefix_register forest path rules
  nodes := by
    intro place node hnode
    have hplace : place ≠ [] := by
      rintro rfl
      exact absurd hnode (by simp [find?])
    have hfind := find?_register forest path rules place hplace
    by_cases hthrough : place <+: path
    · rw [if_pos hthrough, hnode, Option.getD_some] at hfind
      refine ⟨_, hfind, Node.extend_condition _ _ _, ?_, ?_⟩
      · rw [Node.extend_rules]
        exact List.prefix_append _ _
      · rw [Node.extend_children]
        exact keys_prefix_register _ _ _
    · rw [if_neg hthrough, hnode] at hfind
      exact ⟨node, hfind, rfl, List.prefix_refl _, List.prefix_refl _⟩

theorem extendedTo_registerAll (forest : Forest) (entries : History) :
    forest.ExtendedTo (forest.registerAll entries) := by
  induction entries generalizing forest with
  | nil => exact .refl forest
  | cons entry entries ih => exact (extendedTo_register forest entry.1 entry.2).trans (ih _)

end Forest

end Condition

namespace Stylesheet

/-! ## One definition -/

/-- The sheet `later` has the rules `added` at the end, what its forest had before in its place, and
everything else unchanged. -/
structure Appends (sheet later : Stylesheet) (added : List Rule) : Prop where
  config : later.config = sheet.config
  rules : later.rules = sheet.rules ++ added
  conditions : sheet.conditions.ExtendedTo later.conditions
  keyframes : later.keyframes = sheet.keyframes
  fontFaces : later.fontFaces = sheet.fontFaces

theorem appends_append (sheet : Stylesheet) (flattened : Flattened) :
    sheet.Appends (sheet.append flattened) flattened.rules where
  config := rfl
  rules := rfl
  conditions := Condition.Forest.extendedTo_registerAll _ _
  keyframes := rfl
  fontFaces := rfl

/-- A definition is rejected or accepted by what it is flattened into. -/
theorem addStyle_cases (sheet : Stylesheet) (target : Target) (definition : Definition) :
    (∃ error, sheet.addStyle target definition = .error error ∧
      sheet.add (.style target definition) = sheet) ∨
    ∃ flattened, sheet.addStyle target definition =
        .ok (sheet.append flattened, flattened.rules) ∧
      sheet.add (.style target definition) = sheet.append flattened := by
  cases hflat : definition.flatten target sheet.config.rejectConflicts with
  | error error => exact Or.inl ⟨error, addStyle_of_error hflat, add_style_of_error hflat⟩
  | ok flattened => exact Or.inr ⟨flattened, addStyle_of_ok hflat, add_style_of_ok hflat⟩

/-! ## Series of additions -/

/-- Animations and font faces are always accepted, definitions may be rejected. -/
def accepts (sheet : Stylesheet) : Addition → Bool
  | .style target definition => (sheet.addStyle target definition).isOk
  | .keyframes _ => true
  | .fontFace _ => true

/-- Of a series of additions those that are accepted, each by the sheet that it comes to. -/
def accepted (sheet : Stylesheet) : List Addition → List Addition
  | [] => []
  | addition :: rest =>
      if sheet.accepts addition then addition :: (sheet.add addition).accepted rest
      else (sheet.add addition).accepted rest

theorem add_of_not_accepts {sheet : Stylesheet} {addition : Addition}
    (h : ¬ sheet.accepts addition) : sheet.add addition = sheet := by
  cases addition with
  | keyframes added => exact absurd rfl h
  | fontFace added => exact absurd rfl h
  | style target definition =>
      rcases sheet.addStyle_cases target definition with ⟨_, -, hadd⟩ | ⟨flattened, hok, -⟩
      · exact hadd
      · have haccepts : sheet.accepts (.style target definition) := by
          show (sheet.addStyle target definition).isOk
          rw [hok]
          rfl
        exact absurd haccepts h

theorem accepted_cons_of_accepts {sheet : Stylesheet} {addition : Addition}
    (h : sheet.accepts addition) (rest : List Addition) :
    sheet.accepted (addition :: rest) = addition :: (sheet.add addition).accepted rest := by
  rw [accepted, if_pos h]

/-- What is rejected can be left out at once. -/
theorem accepted_cons_of_not_accepts {sheet : Stylesheet} {addition : Addition}
    (h : ¬ sheet.accepts addition) (rest : List Addition) :
    sheet.accepted (addition :: rest) = sheet.accepted rest := by
  rw [accepted, if_neg h, add_of_not_accepts h]

theorem accepted_sublist (sheet : Stylesheet) (additions : List Addition) :
    (sheet.accepted additions).Sublist additions := by
  induction additions generalizing sheet with
  | nil => exact List.Sublist.refl _
  | cons addition rest ih =>
      by_cases h : sheet.accepts addition
      · rw [accepted_cons_of_accepts h]
        exact (ih _).cons_cons addition
      · rw [accepted_cons_of_not_accepts h]
        exact (ih sheet).cons addition

/-- The accepted additions are accepted also when the others are left out. -/
theorem accepted_accepted (sheet : Stylesheet) (additions : List Addition) :
    sheet.accepted (sheet.accepted additions) = sheet.accepted additions := by
  induction additions generalizing sheet with
  | nil => rfl
  | cons addition rest ih =>
      by_cases h : sheet.accepts addition
      · rw [accepted_cons_of_accepts h, accepted_cons_of_accepts h, ih]
      · rw [accepted_cons_of_not_accepts h, ih]

/-- The sheet after a series of additions is the one after those that are accepted. -/
theorem addAll_accepted (sheet : Stylesheet) (additions : List Addition) :
    sheet.addAll (sheet.accepted additions) = sheet.addAll additions := by
  induction additions generalizing sheet with
  | nil => rfl
  | cons addition rest ih =>
      have hcons : ∀ more, sheet.addAll (addition :: more) = (sheet.add addition).addAll more :=
        fun _ => rfl
      by_cases h : sheet.accepts addition
      · calc sheet.addAll (sheet.accepted (addition :: rest))
            = (sheet.add addition).addAll ((sheet.add addition).accepted rest) := by
              rw [accepted_cons_of_accepts h, hcons]
          _ = (sheet.add addition).addAll rest := ih _
          _ = sheet.addAll (addition :: rest) := (hcons rest).symm
      · calc sheet.addAll (sheet.accepted (addition :: rest))
            = sheet.addAll (sheet.accepted rest) := by rw [accepted_cons_of_not_accepts h]
          _ = sheet.addAll rest := ih sheet
          _ = sheet.addAll (addition :: rest) := by rw [hcons, add_of_not_accepts h]

/-- **A definition is added as a whole or not at all.** If it is rejected, the sheet stays exactly
as it was. If it is accepted, the rules that are given back are those at the end of the new sheet,
and everything that stood in the old one stands there as before, with new rules and conditions only
after the old ones.

So of a series of additions only the accepted ones matter: alone they are accepted again, and they
leave the same sheet and the same text. -/
theorem addStyle_appends (sheet : Stylesheet) :
    (∀ target definition error, sheet.addStyle target definition = .error error →
      sheet.add (.style target definition) = sheet) ∧
    (∀ target definition later added, sheet.addStyle target definition = .ok (later, added) →
      sheet.add (.style target definition) = later ∧ sheet.Appends later added) ∧
    ∀ additions,
      (sheet.accepted additions).Sublist additions ∧
      sheet.accepted (sheet.accepted additions) = sheet.accepted additions ∧
      sheet.addAll (sheet.accepted additions) = sheet.addAll additions ∧
      (sheet.addAll (sheet.accepted additions)).emit = (sheet.addAll additions).emit := by
  refine ⟨?_, ?_, ?_⟩
  · intro target definition error h
    rcases sheet.addStyle_cases target definition with ⟨_, -, hadd⟩ | ⟨flattened, hok, -⟩
    · exact hadd
    · exact absurd (h.symm.trans hok) (by simp)
  · intro target definition later added h
    rcases sheet.addStyle_cases target definition with ⟨_, herror, -⟩ | ⟨flattened, hok, hadd⟩
    · exact absurd (herror.symm.trans h) (by simp)
    · obtain ⟨rfl, rfl⟩ := Prod.mk.inj (Except.ok.inj (hok.symm.trans h))
      exact ⟨hadd, sheet.appends_append flattened⟩
  · intro additions
    exact ⟨sheet.accepted_sublist additions, sheet.accepted_accepted additions,
      sheet.addAll_accepted additions, by rw [addAll_accepted]⟩

end Stylesheet

end ScopedCss
