import Mathlib.Data.List.DropRight
import ScopedCss.Proofs.Selector.Placeholders

/-! # Resolved selectors

Resolving a selector puts the class of the scope in the place of its placeholders. The class is one
more way to mention the element, so the resolved selector is judged like the selector itself: it is
cut into the same alternatives, each of them resolved (`alternatives_resolve`), and the reading of
each makes the same marks in the same order (`marks_replacePlaceholders`).

`Scope.check_resolve`: the check of the resolved selector comes to the same verdict, and resolving
once more changes nothing.
-/

set_option autoImplicit false

namespace ScopedCss

namespace Selector

/-! ## Text that holds no placeholder -/

section

variable (own : List Char) (s : Surroundings) {us : List Char}

/-- Without an ampersand there is nothing to replace. -/
theorem replacePlaceholders_of_ne (hus : ∀ u ∈ us, u ≠ '&') (cs : List Char) :
    replacePlaceholders own s (us ++ cs) = us ++ replacePlaceholders own (s.afterAll us) cs := by
  induction us generalizing s with
  | nil => rfl
  | cons u us ih =>
      have hu : ¬ isPlaceholder s u := by
        simp [isPlaceholder, hus u List.mem_cons_self]
      rw [List.cons_append, replacePlaceholders, if_neg hu,
        ih (s.after u) fun v hv => hus v (List.mem_cons_of_mem _ hv)]
      rfl

/-- Without a comma there is nothing to cut. -/
theorem cut_of_ne (hus : ∀ u ∈ us, u ≠ ',') (cs : List Char) :
    cut s (us ++ cs) = (us ++ (cut (s.afterAll us) cs).1, (cut (s.afterAll us) cs).2) := by
  induction us generalizing s with
  | nil => rfl
  | cons u us ih =>
      have hu : ¬ separates s u := by
        simp [separates, hus u List.mem_cons_self]
      rw [List.cons_append, cut_cons, if_neg hu,
        ih (s.after u) fun v hv => hus v (List.mem_cons_of_mem _ hv)]
      rfl

end

/-- A placeholder opens and closes nothing. -/
theorem eq_ampersand_of_isPlaceholder {s : Surroundings} {c : Char} (h : isPlaceholder s c) :
    c = '&' ∧ s.isBare ∧ s.after c = s := by
  rw [isPlaceholder, Bool.and_eq_true, beq_iff_eq] at h
  obtain ⟨rfl, hbare⟩ := h
  exact ⟨rfl, hbare, Surroundings.after_of_not_mem_signs hbare (by decide)⟩

theorem not_isPlaceholder_of_isBlank {s : Surroundings} {c : Char} (hblank : Text.isBlank c) :
    ¬ isPlaceholder s c := by
  intro h
  obtain ⟨rfl, -⟩ := eq_ampersand_of_isPlaceholder h
  exact absurd hblank (by decide)

/-! ## The ends of a text -/

theorem trimEnd_append_blank {c : Char} (hc : Text.isBlank c) (cs : List Char) :
    Text.trimEnd (cs ++ [c]) = Text.trimEnd cs :=
  List.rdropWhile_concat_pos Text.isBlank cs c hc

/-- Nothing is taken off a text that ends with characters that are not blank. -/
theorem trimEnd_append_of_not_blank {ws : List Char} (hne : ws ≠ [])
    (hws : ∀ c ∈ ws, Text.isBlank c = false) (cs : List Char) :
    Text.trimEnd (cs ++ ws) = cs ++ ws := by
  obtain ⟨init, last, rfl⟩ := List.eq_nil_or_concat ws |>.resolve_left hne
  have hlast : ¬ Text.isBlank last := by
    rw [Bool.not_eq_true]
    exact hws last (by simp)
  rw [List.concat_eq_append, ← List.append_assoc]
  exact List.rdropWhile_concat_neg Text.isBlank (cs ++ init) last hlast

/-! ## The start of a resolved text -/

section

variable {ident : List Char} {s : Surroundings}

/-- Plain text starts the replacement only where it starts the text. -/
theorem prefix_replacePlaceholders_iff (hs : s.isBare) {us : List Char}
    (hus : ∀ u ∈ us, IsPlain u) {cs rest : List Char} :
    replacePlaceholders ('.' :: ident) s cs = us ++ rest ↔
      ∃ more, cs = us ++ more ∧ replacePlaceholders ('.' :: ident) s more = rest := by
  constructor
  · intro h
    induction us generalizing cs with
    | nil => exact ⟨cs, rfl, h⟩
    | cons u us ih =>
        obtain ⟨hu, hus'⟩ := List.forall_mem_cons.1 hus
        cases cs with
        | nil => exact absurd h (List.cons_ne_nil u _).symm
        | cons c cs =>
            rw [replacePlaceholders] at h
            split_ifs at h with hplaceholder
            · -- a class starts with a dot, and the text does not
              exact absurd (List.cons.inj h).1.symm (hu.ne_of_continuesName (by decide))
            · obtain ⟨rfl, htail⟩ := List.cons.inj h
              rw [Surroundings.after_of_not_mem_signs hs hu.not_mem_signs] at htail
              obtain ⟨more, rfl, hmore⟩ := ih hus' htail
              exact ⟨more, rfl, hmore⟩
  · rintro ⟨more, rfl, rfl⟩
    have hamp : ∀ u ∈ us, u ≠ '&' := fun u hu => (hus u hu).ne_of_continuesName (by decide)
    have hafter : s.afterAll us = s :=
      Surroundings.afterAll_of_not_mem_signs hs fun u hu => (hus u hu).not_mem_signs
    rw [replacePlaceholders_of_ne _ _ hamp, hafter]

/-- The class put in for a placeholder makes the mark of the placeholder. -/
theorem headMark_class (hs : s.isBare) (cs : List Char) :
    headMark ('.' :: ident) s ('.' :: ident ++ replacePlaceholders ('.' :: ident) s cs) =
      headMark ('.' :: ident) s ('&' :: cs) := by
  have hname : startsWithName (replacePlaceholders ('.' :: ident) s cs) = startsWithName cs :=
    startsWithName_replacePlaceholders rfl (List.cons_ne_nil _ _) s cs
  have hdot : markAt s '.' (ident ++ replacePlaceholders ('.' :: ident) s cs) = none := by
    have hno : isCombinator '.' = false := by decide
    simp [markAt, hno]
  have hclass : startsWithClass ('.' :: ident)
      ('.' :: (ident ++ replacePlaceholders ('.' :: ident) s cs)) = !startsWithName cs := by
    rw [Bool.eq_iff_iff, startsWithClass_iff, Bool.not_eq_true', ← hname]
    constructor
    · rintro ⟨rest, hrest, hfree⟩
      rwa [List.append_cancel_left (List.cons_append.trans hrest)]
    · intro hfree
      exact ⟨_, rfl, hfree⟩
  rw [List.cons_append, headMark, headMark, hclass, hdot, hs]
  cases hcs : startsWithName cs <;> simp [markAt, hs, hcs]

/-- Blanks at the start are no placeholders, and the class starts with none. -/
theorem trimStart_replacePlaceholders (hs : s.isBare) (cs : List Char) :
    Text.trimStart (replacePlaceholders ('.' :: ident) s cs) =
      replacePlaceholders ('.' :: ident) s (Text.trimStart cs) := by
  induction cs with
  | nil => rfl
  | cons c cs ih =>
      by_cases hblank : Text.isBlank c
      · rw [replacePlaceholders, if_neg (not_isPlaceholder_of_isBlank hblank), List.singleton_append,
          Surroundings.after_of_not_mem_signs hs (not_mem_signs_of_isBlank hblank)]
        unfold Text.trimStart at ih ⊢
        rw [List.dropWhile_cons_of_pos hblank, List.dropWhile_cons_of_pos hblank, ih]
      · have hrest : Text.trimStart (c :: cs) = c :: cs := List.dropWhile_cons_of_neg hblank
        have hdot : ¬ Text.isBlank '.' := by decide
        rw [hrest, replacePlaceholders]
        by_cases hplaceholder : isPlaceholder s c
        · rw [if_pos hplaceholder]
          exact List.dropWhile_cons_of_neg hdot
        · rw [if_neg hplaceholder]
          exact List.dropWhile_cons_of_neg hblank

end

/-! ## The class of a scope -/

section

variable {ident : List Char} (hident : ∀ c ∈ ident, IsPlain c)

include hident

/-- The class differs in each of its characters from those that do not go on with a name, the dot
apart. -/
theorem ne_of_mem_class {c : Char} (hc : c ∈ '.' :: ident) {d : Char} (hd : continuesName d = false)
    (hdot : d ≠ '.') : c ≠ d := by
  rcases List.mem_cons.1 hc with rfl | hc
  · exact hdot.symm
  · exact (hident c hc).ne_of_continuesName hd

theorem not_isBlank_of_mem_class {c : Char} (hc : c ∈ '.' :: ident) : Text.isBlank c = false := by
  rcases List.mem_cons.1 hc with rfl | hc
  · decide
  · exact (hident c hc).2.2

/-- The class opens and closes nothing. -/
theorem afterAll_class {s : Surroundings} (hs : s.isBare) : s.afterAll ('.' :: ident) = s := by
  refine Surroundings.afterAll_of_not_mem_signs hs fun c hc => ?_
  rcases List.mem_cons.1 hc with rfl | hc
  · decide
  · exact (hident c hc).not_mem_signs

/-- Replacing leaves the class alone, wherever it already stands. -/
theorem replacePlaceholders_class {s : Surroundings} (hs : s.isBare) (cs : List Char) :
    replacePlaceholders ('.' :: ident) s ('.' :: ident ++ cs) =
      '.' :: ident ++ replacePlaceholders ('.' :: ident) s cs := by
  rw [replacePlaceholders_of_ne _ _ fun c hc => ne_of_mem_class hident hc (by decide) (by decide),
    afterAll_class hident hs]

theorem cut_class {s : Surroundings} (hs : s.isBare) (cs : List Char) :
    cut s ('.' :: ident ++ cs) = ('.' :: ident ++ (cut s cs).1, (cut s cs).2) := by
  rw [cut_of_ne _ fun c hc => ne_of_mem_class hident hc (by decide) (by decide),
    afterAll_class hident hs]

/-! ## Resolving twice -/

/-- No placeholder is left after replacing. -/
theorem replacePlaceholders_replacePlaceholders (s : Surroundings) (cs : List Char) :
    replacePlaceholders ('.' :: ident) s (replacePlaceholders ('.' :: ident) s cs) =
      replacePlaceholders ('.' :: ident) s cs := by
  induction cs generalizing s with
  | nil => rfl
  | cons c cs ih =>
      by_cases hplaceholder : isPlaceholder s c
      · obtain ⟨-, hbare, hafter⟩ := eq_ampersand_of_isPlaceholder hplaceholder
        rw [replacePlaceholders, if_pos hplaceholder, hafter, replacePlaceholders_class hident hbare,
          ih]
      · rw [replacePlaceholders, if_neg hplaceholder, List.singleton_append, replacePlaceholders,
          if_neg hplaceholder, ih]
        rfl

/-! ## Reading a resolved alternative -/

/-- The class stands in the replacement where it stands in the text, the placeholders apart. -/
theorem startsWithClass_replacePlaceholders {s : Surroundings} (hs : s.isBare) (cs : List Char) :
    startsWithClass ('.' :: ident) ('.' :: replacePlaceholders ('.' :: ident) s cs) =
      startsWithClass ('.' :: ident) ('.' :: cs) := by
  have hname : ∀ more, startsWithName (replacePlaceholders ('.' :: ident) s more) =
      startsWithName more :=
    startsWithName_replacePlaceholders rfl (List.cons_ne_nil _ _) s
  rw [Bool.eq_iff_iff, startsWithClass_iff, startsWithClass_iff]
  simp only [List.cons_append, List.cons.injEq, true_and,
    prefix_replacePlaceholders_iff hs hident]
  constructor
  · rintro ⟨_, ⟨more, rfl, rfl⟩, hrest⟩
    exact ⟨more, rfl, (hname more).symm.trans hrest⟩
  · rintro ⟨more, rfl, hmore⟩
    exact ⟨_, ⟨more, rfl, rfl⟩, (hname more).trans hmore⟩

/-- Where there is no placeholder, the first character makes the same mark before the replacement. -/
theorem headMark_replacePlaceholders {s : Surroundings} {c : Char}
    (hplaceholder : ¬ isPlaceholder s c) (cs : List Char) :
    headMark ('.' :: ident) s (c :: replacePlaceholders ('.' :: ident) (s.after c) cs) =
      headMark ('.' :: ident) s (c :: cs) := by
  have hmark : markAt s c (replacePlaceholders ('.' :: ident) (s.after c) cs) = markAt s c cs := by
    rw [isPlaceholder, Bool.and_eq_true, beq_iff_eq, not_and_or] at hplaceholder
    rcases hplaceholder with hamp | hbare
    · simp [markAt, hamp]
    · simp [markAt, hbare]
  by_cases hdot : s.isBare ∧ c = '.'
  · obtain ⟨hbare, rfl⟩ := hdot
    have hafter : s.after '.' = s := Surroundings.after_of_not_mem_signs hbare (by decide)
    rw [hafter] at hmark ⊢
    rw [headMark, headMark, startsWithClass_replacePlaceholders hident hbare, hmark]
  · have hno : (s.isBare && c == '.') = false := by
      rw [Bool.eq_false_iff, Ne, Bool.and_eq_true, beq_iff_eq]
      exact hdot
    rw [headMark, headMark, hno, hmark]
    rfl

/-- **The marks of an alternative stay when it is resolved**: a class makes the mark of the
placeholder that it stands for, and nothing else changes. -/
theorem marks_replacePlaceholders (s : Surroundings) (cs : List Char) :
    marks ('.' :: ident) s 0 (replacePlaceholders ('.' :: ident) s cs) =
      marks ('.' :: ident) s 0 cs := by
  induction cs generalizing s with
  | nil => rfl
  | cons c cs ih =>
      by_cases hplaceholder : isPlaceholder s c
      · obtain ⟨rfl, hbare, hafter⟩ := eq_ampersand_of_isPlaceholder hplaceholder
        have hdot : s.after '.' = s := Surroundings.after_of_not_mem_signs hbare (by decide)
        calc marks ('.' :: ident) s 0 (replacePlaceholders ('.' :: ident) s ('&' :: cs))
            = marks ('.' :: ident) s 0
                ('.' :: (ident ++ replacePlaceholders ('.' :: ident) s cs)) := by
              rw [replacePlaceholders, if_pos hplaceholder, hafter, List.cons_append]
          _ = (headMark ('.' :: ident) s ('&' :: cs)).toList ++
                marks ('.' :: ident) s 0 (replacePlaceholders ('.' :: ident) s cs) := by
              rw [marks_cons hident, hdot, marks_plain hident _ hbare, ← List.cons_append,
                headMark_class hbare]
          _ = marks ('.' :: ident) s 0 ('&' :: cs) := by
              rw [ih, marks_cons hident, hafter]
      · rw [replacePlaceholders, if_neg hplaceholder, List.singleton_append, marks_cons hident,
          marks_cons hident, ih, headMark_replacePlaceholders hident hplaceholder]

/-! ## Cutting a resolved selector -/

/-- The segments of the replacement are the replaced segments. -/
theorem cut_replacePlaceholders (s : Surroundings) (cs : List Char) :
    cut s (replacePlaceholders ('.' :: ident) s cs) =
      (replacePlaceholders ('.' :: ident) s (cut s cs).1,
        (cut s cs).2.map (replacePlaceholders ('.' :: ident) {})) := by
  induction cs generalizing s with
  | nil => rfl
  | cons c cs ih =>
      by_cases hplaceholder : isPlaceholder s c
      · obtain ⟨rfl, hbare, hafter⟩ := eq_ampersand_of_isPlaceholder hplaceholder
        have hsep : ¬ separates s '&' := by simp [separates]
        rw [replacePlaceholders, if_pos hplaceholder, hafter, cut_class hident hbare, ih, cut_cons,
          if_neg hsep, hafter, replacePlaceholders, if_pos hplaceholder, hafter]
      · rw [replacePlaceholders, if_neg hplaceholder, List.singleton_append, cut_cons, cut_cons, ih]
        by_cases hsep : separates s c
        · obtain ⟨rfl, rfl⟩ := eq_empty_of_separates hsep
          rw [if_pos hsep, if_pos hsep]
          rfl
        · rw [if_neg hsep, if_neg hsep, replacePlaceholders, if_neg hplaceholder,
            List.singleton_append]

theorem segments_replacePlaceholders (cs : List Char) :
    segments (replacePlaceholders ('.' :: ident) {} cs) =
      (segments cs).map (replacePlaceholders ('.' :: ident) {}) := by
  rw [segments, cut_replacePlaceholders hident]
  rfl

/-! ## Trimming a resolved segment -/

theorem trimEnd_replacePlaceholders (s : Surroundings) (cs : List Char) :
    Text.trimEnd (replacePlaceholders ('.' :: ident) s cs) =
      replacePlaceholders ('.' :: ident) s (Text.trimEnd cs) := by
  induction cs using List.reverseRecOn with
  | nil => rfl
  | append_singleton cs c ih =>
      have hlast : ∀ s, replacePlaceholders ('.' :: ident) s [c] =
          if isPlaceholder s c then '.' :: ident else [c] := by
        intro s
        rw [replacePlaceholders, replacePlaceholders, List.append_nil]
      rw [replacePlaceholders_append, hlast]
      by_cases hblank : Text.isBlank c
      · rw [if_neg (not_isPlaceholder_of_isBlank hblank), trimEnd_append_blank hblank,
          trimEnd_append_blank hblank, ih]
      · rw [Bool.not_eq_true] at hblank
        have hwhole : Text.trimEnd (cs ++ [c]) = cs ++ [c] :=
          trimEnd_append_of_not_blank (List.cons_ne_nil _ _) (by simpa using hblank) cs
        rw [hwhole, replacePlaceholders_append, hlast]
        by_cases hplaceholder : isPlaceholder (s.afterAll cs) c
        · rw [if_pos hplaceholder]
          exact trimEnd_append_of_not_blank (List.cons_ne_nil _ _)
            (fun d hd => not_isBlank_of_mem_class hident hd) _
        · rw [if_neg hplaceholder]
          exact trimEnd_append_of_not_blank (List.cons_ne_nil _ _) (by simpa using hblank) _

theorem trim_replacePlaceholders (cs : List Char) :
    Text.trim (replacePlaceholders ('.' :: ident) {} cs) =
      replacePlaceholders ('.' :: ident) {} (Text.trim cs) := by
  rw [Text.trim, trimStart_replacePlaceholders rfl, trimEnd_replacePlaceholders hident, Text.trim]

end

section

variable {scope : Scope} (h : scope.Plain)

include h

/-- **The alternatives of a resolved selector** are the resolved alternatives. -/
theorem alternatives_resolve (selector : String) :
    alternatives (resolve scope selector) = (alternatives selector).map (resolve scope) := by
  rw [alternatives, resolve, String.toList_ofList, Scope.toList_selector,
    segments_replacePlaceholders h, alternatives, List.map_map, List.map_map]
  refine List.map_congr_left fun segment _ => ?_
  simp only [Function.comp_apply, resolve, String.toList_ofList, Scope.toList_selector,
    trim_replacePlaceholders h]

theorem alternativeFault?_resolve (alternative : String) :
    alternativeFault? scope (resolve scope alternative) = alternativeFault? scope alternative := by
  rw [alternativeFault?, resolve, String.toList_ofList, Scope.toList_selector,
    marks_replacePlaceholders h, alternativeFault?, Scope.toList_selector]

theorem targetFault?_resolve (selector : String) :
    targetFault? scope (resolve scope selector) = targetFault? scope selector := by
  have hparts : alternativeFault? scope ∘ resolve scope = alternativeFault? scope := by
    funext alternative
    rw [Function.comp_apply, alternativeFault?_resolve h]
  rw [targetFault?, alternatives_resolve h, List.findSome?_map, hparts, targetFault?]

end

end Selector

open Selector

/-- **Resolving keeps the verdict.** A resolved selector passes the check exactly if the selector
does, and otherwise it is rejected for the same fault; and there is nothing left in it to resolve. -/
theorem Scope.check_resolve (scope : Scope) (h : scope.Plain) (selector : String) :
    (scope.check (resolve scope selector) = .ok () ↔ scope.check selector = .ok ()) ∧
    (∀ fault, scope.check (resolve scope selector) =
        .error (.selectorTarget (resolve scope selector) fault) ↔
      scope.check selector = .error (.selectorTarget selector fault)) ∧
    resolve scope (resolve scope selector) = resolve scope selector := by
  refine ⟨?_, fun fault => ?_, ?_⟩
  · unfold Scope.check
    rw [targetFault?_resolve h]
    cases targetFault? scope selector <;> simp
  · unfold Scope.check
    rw [targetFault?_resolve h]
    cases targetFault? scope selector <;> simp
  · rw [resolve, resolve, String.toList_ofList, Scope.toList_selector,
      replacePlaceholders_replacePlaceholders h]

/-- A class next to a placeholder, which the resolved selector mentions twice as well. The
ampersands that are quoted or go on with a name are no mentions in either. -/
theorem Scope.check_resolve_of_adjacent :
    Scope.Plain ⟨"a"⟩ ∧
      resolve ⟨"a"⟩ ":is(&b) > &:hover, [title='&'] .a&" = ":is(.ab) > .a:hover, [title='&'] .a.a" ∧
      Scope.check ⟨"a"⟩ ":is(.ab) > .a:hover, [title='&'] .a.a" =
        .error (.selectorTarget ":is(.ab) > .a:hover, [title='&'] .a.a" .multipleOccurrences) := by
  have hplain : Scope.Plain ⟨"a"⟩ := by decide
  have hresolved : resolve ⟨"a"⟩ ":is(&b) > &:hover, [title='&'] .a&" =
      ":is(.ab) > .a:hover, [title='&'] .a.a" := by decide +kernel
  have hverdict : Scope.check ⟨"a"⟩ ":is(&b) > &:hover, [title='&'] .a&" =
      .error (.selectorTarget ":is(&b) > &:hover, [title='&'] .a&" .multipleOccurrences) := by
    decide +kernel
  have hkept := ((Scope.check_resolve ⟨"a"⟩ hplain _).2.1 .multipleOccurrences).2 hverdict
  rw [hresolved] at hkept
  exact ⟨hplain, hresolved, hkept⟩

end ScopedCss
