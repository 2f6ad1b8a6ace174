import ScopedCss.Proofs.Selector.Mentions
import ScopedCss.Proofs.Selector.Parts

/-! # Placeholders of an accepted selector

Resolving puts the class of the scope in the place of every placeholder, also of one that the
check has not counted as a mention. `SafelyResolved` says what should hold of a selector that has
passed the check: each class put in stands as a whole class, and no alternative has two of them.
`Scope.safelyResolved_iff` says which of the accepted selectors have this: those in which every
placeholder is a mention within its alternative and stands before no blank outside of ASCII.

The second condition is there for the trimming. Such a blank goes on with a name, but at the end
of an alternative it is taken off before the check reads it.
-/

set_option autoImplicit false

namespace ScopedCss

namespace Selector

/-! ## Replacing placeholders -/

/-- A placeholder stands at a place. -/
def PlaceholderAt (cs : List Char) (i : Nat) : Prop := (before cs i).isBare ∧ cs[i]? = some '&'

instance (cs : List Char) (i : Nat) : Decidable (PlaceholderAt cs i) :=
  inferInstanceAs (Decidable (_ ∧ _))

theorem replacePlaceholders_append (own : List Char) (s : Surroundings) (cs ds : List Char) :
    replacePlaceholders own s (cs ++ ds) =
      replacePlaceholders own s cs ++ replacePlaceholders own (s.afterAll cs) ds := by
  induction cs generalizing s with
  | nil => rfl
  | cons c cs ih =>
      rw [List.cons_append, replacePlaceholders, replacePlaceholders, ih, List.append_assoc]
      rfl

/-- A replacement starts with a name exactly where the text does. -/
theorem startsWithName_replacePlaceholders {own : List Char} (hown : startsWithName own = false)
    (hne : own ≠ []) (s : Surroundings) (cs : List Char) :
    startsWithName (replacePlaceholders own s cs) = startsWithName cs := by
  cases cs with
  | nil => rfl
  | cons c cs =>
      rw [replacePlaceholders]
      split_ifs with hplaceholder
      · obtain ⟨o, os, rfl⟩ := List.exists_cons_of_ne_nil hne
        rw [isPlaceholder, Bool.and_eq_true, beq_iff_eq] at hplaceholder
        have hamp : startsWithName ('&' :: cs) = false := rfl
        rw [hplaceholder.1, hamp]
        exact hown
      · rfl

namespace PlaceholderAt

variable {cs : List Char} {i : Nat}

theorem lt_length (h : PlaceholderAt cs i) : i < cs.length :=
  (List.getElem?_eq_some_iff.1 h.2).1

theorem drop_eq (h : PlaceholderAt cs i) : cs.drop i = '&' :: cs.drop (i + 1) := by
  rw [List.drop_eq_getElem_cons h.lt_length, (List.getElem?_eq_some_iff.1 h.2).2]

/-- The class stands in the replacement after the replacement of what is before the placeholder. -/
theorem replacePlaceholders_eq (h : PlaceholderAt cs i) (own : List Char) :
    replacePlaceholders own {} cs =
      replacePlaceholders own {} (cs.take i) ++
        (own ++ replacePlaceholders own ((before cs i).after '&') (cs.drop (i + 1))) := by
  have hplaceholder : isPlaceholder (before cs i) '&' := by
    rw [isPlaceholder, h.1]
    rfl
  calc replacePlaceholders own {} cs
      = replacePlaceholders own {} (cs.take i ++ '&' :: cs.drop (i + 1)) := by
        rw [← h.drop_eq, List.take_append_drop]
    _ = replacePlaceholders own {} (cs.take i) ++
          replacePlaceholders own (before cs i) ('&' :: cs.drop (i + 1)) :=
        replacePlaceholders_append own {} _ _
    _ = _ := by rw [replacePlaceholders, if_pos hplaceholder]

/-- A placeholder is a mention if no name goes on after it. -/
theorem mentionAt_iff {ident : List Char} (h : PlaceholderAt cs i) :
    MentionAt ('.' :: ident) cs i ↔ startsWithName (cs.drop (i + 1)) = false := by
  rw [MentionAt, h.drop_eq]
  constructor
  · rintro ⟨-, rest, hrest | hrest, hname⟩
    · rwa [(List.cons.inj hrest).2]
    · exact absurd (List.cons.inj hrest).1 (by decide)
  · intro hname
    exact ⟨h.1, _, Or.inl rfl, hname⟩

end PlaceholderAt

/-! ## Placeholders of the alternatives -/

theorem PartIn.placeholderAt_iff {cs us part vs : List Char} (h : PartIn cs us part vs) {k : Nat}
    (hk : k < part.length) : PlaceholderAt cs (us.length + k) ↔ PlaceholderAt part k := by
  rw [PlaceholderAt, PlaceholderAt, h.before_eq (by omega), h.getElem?_eq hk]

/-- Every placeholder of a selector is one of an alternative. -/
theorem PlaceholderAt.exists_partIn {selector : String} {i : Nat}
    (h : PlaceholderAt selector.toList i) :
    ∃ part ∈ alternatives selector, ∃ us vs k, PartIn selector.toList us part.toList vs ∧
      i = us.length + k ∧ PlaceholderAt part.toList k := by
  obtain ⟨part, hmem, us, vs, hpart, hle, hlt⟩ :=
    exists_partIn_of_place h.2 (by decide) (by decide)
  obtain ⟨k, rfl⟩ := Nat.exists_eq_add_of_le hle
  exact ⟨part, hmem, us, vs, k, hpart, rfl, (hpart.placeholderAt_iff (by omega)).1 h⟩

/-- A blank goes on with a name exactly if it is outside of ASCII. -/
theorem continuesName_iff_of_isBlank {c : Char} (h : Text.isBlank c) :
    continuesName c = false ↔ c.toNat < 0x80 := by
  have hascii : ∀ n < 0x80, Text.isBlank (Char.ofNat n) → continuesName (Char.ofNat n) = false := by
    decide
  constructor
  · intro hname
    by_contra hge
    simp [continuesName] at hname
    omega
  · intro hlt
    have hc := hascii c.toNat hlt
    rw [Char.ofNat_toNat] at hc
    exact hc h

/-! ## What an accepted selector should resolve to -/

/-- The class that stands in the resolved selector for the placeholder at `i` is a whole class. -/
def StandsWhole (own cs : List Char) (i : Nat) : Prop :=
  startsWithClass own
    ((replacePlaceholders own {} cs).drop (replacePlaceholders own {} (cs.take i)).length)

theorem PlaceholderAt.standsWhole {ident cs : List Char} {i : Nat} (h : PlaceholderAt cs i)
    (hname : startsWithName (cs.drop (i + 1)) = false) : StandsWhole ('.' :: ident) cs i := by
  have hdot : startsWithName ('.' :: ident) = false := rfl
  unfold StandsWhole
  rw [h.replacePlaceholders_eq, List.drop_left, startsWithClass_iff]
  exact ⟨_, rfl,
    (startsWithName_replacePlaceholders hdot (List.cons_ne_nil _ _) _ _).trans hname⟩

/-- No placeholder of a selector resolves to another class than that of the scope. -/
structure SafelyResolved (scope : Scope) (selector : String) : Prop where
  /-- No name goes on after a placeholder. -/
  unglued : ∀ i, PlaceholderAt selector.toList i →
    startsWithName (selector.toList.drop (i + 1)) = false
  /-- An alternative has at most one placeholder. -/
  single : ∀ part ∈ alternatives selector, ∀ i j, PlaceholderAt part.toList i →
    PlaceholderAt part.toList j → i = j
  /-- What is put in for a placeholder is not the beginning of a longer class. -/
  whole : ∀ i, PlaceholderAt selector.toList i →
    StandsWhole scope.selector.toList selector.toList i

/-- The check counts every placeholder of a selector as a mention. -/
def CountsPlaceholders (scope : Scope) (selector : String) : Prop :=
  ∀ part ∈ alternatives selector, ∀ i, PlaceholderAt part.toList i →
    MentionAt scope.selector.toList part.toList i

/-- No blank outside of ASCII stands directly after a placeholder. -/
def BlanksApart (selector : String) : Prop :=
  ∀ i c, PlaceholderAt selector.toList i → selector.toList[i + 1]? = some c → Text.isBlank c →
    c.toNat < 0x80

/-- What comes after an alternative starts with a name only if it starts with a blank outside of
ASCII. -/
theorem PartIn.startsWithName_eq_false {cs us part vs : List Char} (h : PartIn cs us part vs)
    (hblank : ∀ c, vs.head? = some c → Text.isBlank c → c.toNat < 0x80) :
    startsWithName vs = false := by
  obtain ⟨blanks, rest, rfl, hblanks, hrest⟩ := h.ends
  cases blanks with
  | cons c blanks =>
      have hc : Text.isBlank c := hblanks c List.mem_cons_self
      exact (continuesName_iff_of_isBlank hc).2 (hblank c rfl hc)
  | nil =>
      rcases hrest with rfl | ⟨more, rfl⟩
      · rfl
      · have hcomma : continuesName ',' = false := by decide
        exact hcomma

/-- If every placeholder is counted and blanks are apart, no name goes on after a placeholder. -/
theorem CountsPlaceholders.unglued {scope : Scope} {selector : String}
    (hcounts : CountsPlaceholders scope selector) (hblanks : BlanksApart selector) {i : Nat}
    (hi : PlaceholderAt selector.toList i) :
    startsWithName (selector.toList.drop (i + 1)) = false := by
  obtain ⟨part, hmem, us, vs, k, hpart, rfl, hk⟩ := hi.exists_partIn
  have hmention := hcounts part hmem k hk
  rw [Scope.toList_selector, hk.mentionAt_iff] at hmention
  have hlt := hk.lt_length
  have hdrop : selector.toList.drop (us.length + k + 1) = part.toList.drop (k + 1) ++ vs := by
    rw [Nat.add_assoc]
    exact hpart.drop_eq (by omega)
  rw [hdrop]
  cases hafter : part.toList.drop (k + 1) with
  | cons c more =>
      rw [hafter] at hmention
      exact hmention
  | nil =>
      -- the alternative ends with the placeholder, so trimming decides what comes next
      rw [hafter] at hdrop
      refine hpart.startsWithName_eq_false fun c hc hblank => hblanks _ c hi ?_ hblank
      rw [← List.head?_drop, hdrop]
      exact hc

/-- Conversely a placeholder after which no name goes on is a mention in its alternative. -/
theorem SafelyResolved.countsPlaceholders {scope : Scope} {selector : String}
    (h : SafelyResolved scope selector) : CountsPlaceholders scope selector := by
  intro part hmem k hk
  obtain ⟨us, vs, hpart⟩ := exists_partIn_of_mem hmem
  have hlt := hk.lt_length
  have hname := h.unglued (us.length + k) ((hpart.placeholderAt_iff hlt).2 hk)
  rw [Nat.add_assoc, hpart.drop_eq (by omega)] at hname
  rw [Scope.toList_selector, hk.mentionAt_iff]
  cases hafter : part.toList.drop (k + 1) with
  | nil => rfl
  | cons c more =>
      rw [hafter] at hname
      exact hname

theorem SafelyResolved.blanksApart {scope : Scope} {selector : String}
    (h : SafelyResolved scope selector) : BlanksApart selector := by
  intro i c hi hc hblank
  have hname := h.unglued i hi
  obtain ⟨hlt, hget⟩ := List.getElem?_eq_some_iff.1 hc
  rw [List.drop_eq_getElem_cons hlt, hget] at hname
  exact (continuesName_iff_of_isBlank hblank).1 hname

end Selector

open Selector

/-- In an alternative of an accepted selector the element is mentioned once. -/
theorem Scope.exists_onlyMention_of_check {scope : Scope} (h : scope.Plain) {selector : String}
    (hcheck : scope.check selector = .ok ()) {part : String} (hpart : part ∈ alternatives selector) :
    ∃ i, OnlyMention scope.selector.toList part.toList i := by
  have hfault : targetFault? scope selector = none := by
    unfold Scope.check at hcheck
    cases hfault : targetFault? scope selector with
    | none => rfl
    | some fault =>
        rw [hfault] at hcheck
        exact absurd hcheck (by simp)
  have hnone := List.findSome?_eq_none_iff.1 hfault part hpart
  obtain ⟨i, hi, -, -⟩ := (alternativeFault?_eq_iff h part none).1 hnone
  exact ⟨i, hi⟩

/-- **Which accepted selectors are resolved safely.** They are those in which the check has counted
every placeholder and no blank outside of ASCII stands after one. -/
theorem Scope.safelyResolved_iff (scope : Scope) (h : scope.Plain) (selector : String)
    (hcheck : scope.check selector = .ok ()) :
    SafelyResolved scope selector ↔ CountsPlaceholders scope selector ∧ BlanksApart selector := by
  constructor
  · intro hsafe
    exact ⟨hsafe.countsPlaceholders, hsafe.blanksApart⟩
  · rintro ⟨hcounts, hblanks⟩
    refine ⟨fun i hi => hcounts.unglued hblanks hi, ?_, ?_⟩
    · -- all placeholders of an alternative are mentions, and the check has found one mention
      intro part hpart i j hi hj
      obtain ⟨k, hk⟩ := Scope.exists_onlyMention_of_check h hcheck hpart
      have hik : i = k := hk.2 i (hcounts part hpart i hi)
      have hjk : j = k := hk.2 j (hcounts part hpart j hj)
      rw [hik, hjk]
    · intro i hi
      rw [Scope.toList_selector]
      exact hi.standsWhole (hcounts.unglued hblanks hi)

/-- Two accepted selectors that are not resolved safely: to `.ab .a`, and to `.a` with a no-break
space that goes on with its name. -/
theorem Scope.not_safelyResolved_of_check :
    Scope.Plain ⟨"a"⟩ ∧
      Scope.check ⟨"a"⟩ "&b &" = .ok () ∧ ¬ SafelyResolved ⟨"a"⟩ "&b &" ∧
      Scope.check ⟨"a"⟩ "&\u00a0" = .ok () ∧ ¬ SafelyResolved ⟨"a"⟩ "&\u00a0" := by
  have hplain : Scope.Plain ⟨"a"⟩ := by decide
  have hglued : Scope.check ⟨"a"⟩ "&b &" = .ok () := by rfl
  have hblank : Scope.check ⟨"a"⟩ "&\u00a0" = .ok () := by rfl
  refine ⟨hplain, hglued, ?_, hblank, ?_⟩
  · rw [Scope.safelyResolved_iff ⟨"a"⟩ hplain "&b &" hglued]
    rintro ⟨hcounts, -⟩
    have hfirst : PlaceholderAt "&b &".toList 0 := by decide
    have hmention := hcounts "&b &" (by decide +kernel) 0 hfirst
    rw [Scope.toList_selector, hfirst.mentionAt_iff] at hmention
    exact absurd hmention (by decide)
  · rw [Scope.safelyResolved_iff ⟨"a"⟩ hplain "&\u00a0" hblank]
    rintro ⟨-, hblanks⟩
    have hafter := hblanks 0 '\u00a0' (by decide) (by decide) (by decide)
    exact absurd hafter (by decide)

end ScopedCss
