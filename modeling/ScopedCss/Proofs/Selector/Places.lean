import Mathlib.Data.List.Range
import ScopedCss.Selector.Target

/-! # Places of a selector

A reading of a selector carries its surroundings from character to character. Seen from a place,
they are what the text before the place has left open: `before cs i`. All statements about
mentions, combinators and placeholders are made place by place in these terms.

The file also collects which characters leave the surroundings alone: blanks, the characters of a
plain class name, and those of the simple pseudo-classes and pseudo-elements, to which a reading of
selectors pays no attention at all (`simplePseudo_inert`).
-/

set_option autoImplicit false

namespace ScopedCss

namespace Selector

/-- What is open before a place of a text. -/
def before (cs : List Char) (i : Nat) : Surroundings := Surroundings.afterAll {} (cs.take i)

/-- Places after a text that leaves nothing open are places of the rest. -/
theorem before_append {us : List Char} (hus : Surroundings.afterAll {} us = {}) (cs : List Char)
    (i : Nat) : before (us ++ cs) (us.length + i) = before cs i := by
  unfold before
  rw [List.take_length_add_append, Surroundings.afterAll_append, hus]

/-- What comes after a place does not matter before it. -/
theorem before_append_left (cs vs : List Char) {i : Nat} (hi : i ≤ cs.length) :
    before (cs ++ vs) i = before cs i := by
  unfold before
  rw [List.take_append_of_le_length hi]

/-! ## Characters that change nothing -/

namespace Surroundings

theorem isBare_iff {s : Surroundings} : s.isBare ↔ s.escaped = false ∧ s.quote = none := by
  simp [isBare]

/-- Nothing at all is open. -/
theorem eq_empty_iff {s : Surroundings} : s = {} ↔ s.isBare ∧ s.depth = 0 := by
  obtain ⟨quote, escaped, depth⟩ := s
  rw [isBare_iff, mk.injEq]
  constructor
  · rintro ⟨h₁, h₂, h₃⟩
    exact ⟨⟨h₂, h₁⟩, h₃⟩
  · rintro ⟨⟨h₂, h₁⟩, h₃⟩
    exact ⟨h₁, h₂, h₃⟩

/-- The characters that open or close something. -/
def signs : List Char := ['\\', '"', '\'', '(', '[', ')', ']']

/-- Where characters stand for themselves, all but the signs leave everything as it is. -/
theorem after_of_not_mem_signs {s : Surroundings} (hs : s.isBare) {c : Char} (hc : c ∉ signs) :
    s.after c = s := by
  obtain ⟨hescaped, hquote⟩ := isBare_iff.1 hs
  simp only [signs, List.mem_cons, List.not_mem_nil, or_false, not_or] at hc
  obtain ⟨h₁, h₂, h₃, h₄, h₅, h₆, h₇⟩ := hc
  simp [after, hescaped, hquote, h₁, h₂, h₃, h₄, h₅, h₆, h₇]

theorem afterAll_of_not_mem_signs {s : Surroundings} (hs : s.isBare) {cs : List Char}
    (hcs : ∀ c ∈ cs, c ∉ signs) : s.afterAll cs = s := by
  induction cs with
  | nil => rfl
  | cons c cs ih =>
      rw [afterAll_cons, after_of_not_mem_signs hs (hcs c List.mem_cons_self)]
      exact ih fun d hd => hcs d (List.mem_cons_of_mem _ hd)

end Surroundings

theorem not_mem_signs_of_isBlank {c : Char} (h : Text.isBlank c) : c ∉ Surroundings.signs := by
  intro hc
  have hsigns : Surroundings.signs.all fun m => !Text.isBlank m := by decide
  have hblank := List.all_eq_true.1 hsigns c hc
  rw [h] at hblank
  exact absurd hblank (by decide)

/-- A character of a plain class name: it goes on with a name, and is neither a backslash nor a
blank. -/
def IsPlain (c : Char) : Prop := continuesName c ∧ c ≠ '\\' ∧ Text.isBlank c = false

instance (c : Char) : Decidable (IsPlain c) := inferInstanceAs (Decidable (_ ∧ _))

namespace IsPlain

variable {c : Char}

/-- A plain character differs from every character that does not go on with a name. -/
theorem ne_of_continuesName (h : IsPlain c) {d : Char} (hd : continuesName d = false) : c ≠ d := by
  rintro rfl
  have hc := h.1
  rw [hd] at hc
  exact absurd hc (by decide)

theorem not_mem_signs (h : IsPlain c) : c ∉ Surroundings.signs := by
  intro hc
  have hsigns : Surroundings.signs.all fun m => m == '\\' || !continuesName m := by decide
  have hsign := List.all_eq_true.1 hsigns c hc
  rw [Bool.or_eq_true, beq_iff_eq, Bool.not_eq_true'] at hsign
  rcases hsign with hslash | hname
  · exact h.2.1 hslash
  · exact h.ne_of_continuesName hname rfl

theorem isCombinator_eq_false (h : IsPlain c) : isCombinator c = false := by
  have hgreater : c ≠ '>' := h.ne_of_continuesName (by decide)
  have hplus : c ≠ '+' := h.ne_of_continuesName (by decide)
  have htilde : c ≠ '~' := h.ne_of_continuesName (by decide)
  simp [isCombinator, h.2.2, hgreater, hplus, htilde]

end IsPlain

/-! ## Characters of the simple pseudos -/

/-- The character opens and closes nothing, ends no compound, separates no alternatives and starts
no mention. -/
def IsInert (c : Char) : Prop :=
  c ∉ Surroundings.signs ∧ isCombinator c = false ∧ c ∉ [',', '&', '.']

instance (c : Char) : Decidable (IsInert c) := inferInstanceAs (Decidable (_ ∧ _))

namespace IsInert

variable {c : Char} (h : IsInert c)

include h

theorem not_isBlank : Text.isBlank c = false := by
  have hcombinator := h.2.1
  simp only [isCombinator, Bool.or_eq_false_iff] at hcombinator
  exact hcombinator.1.1.1

theorem ne_of_mem {d : Char} (hd : d ∈ [',', '&', '.']) : c ≠ d := by
  rintro rfl
  exact h.2.2 hd

end IsInert

theorem forall_simplePseudos : ∀ token ∈ simplePseudos, ∃ name,
    token = String.ofList (':' :: name) ∧ name.all fun c => decide (IsInert c) := by
  unfold simplePseudos
  -- each token as the list of its characters, so that no string has to be decoded
  repeat' first
    | exact List.forall_mem_nil _
    | refine List.forall_mem_cons.2 ⟨⟨_, rfl, by decide⟩, ?_⟩

/-- A token of a simple pseudo starts with a colon, and all its characters are inert. -/
theorem simplePseudo_inert {token : String} (h : isSimplePseudo token) :
    (∃ name, token.toList = ':' :: name) ∧ ∀ c ∈ token.toList, IsInert c := by
  obtain ⟨name, rfl, hname⟩ := forall_simplePseudos token (List.contains_iff_mem.1 h)
  rw [String.toList_ofList]
  refine ⟨⟨name, rfl⟩, List.forall_mem_cons.2 ⟨by decide, fun c hc => ?_⟩⟩
  exact of_decide_eq_true (List.all_eq_true.1 hname c hc)

end Selector

/-- The class of the scope is written with plain characters only. -/
def Scope.Plain (scope : Scope) : Prop := ∀ c ∈ scope.ident.toList, Selector.IsPlain c

instance (scope : Scope) : Decidable scope.Plain :=
  List.decidableBAll Selector.IsPlain scope.ident.toList

theorem Scope.toList_selector (scope : Scope) :
    scope.selector.toList = '.' :: scope.ident.toList := by
  rw [Scope.selector, String.toList_append]
  rfl

end ScopedCss
