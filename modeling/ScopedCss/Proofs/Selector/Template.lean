import ScopedCss.Flatten
import ScopedCss.Proofs.Selector.Mentions
import ScopedCss.Proofs.Selector.Parts

/-! # Selectors as templates

A selector of a definition does not know the class of its element. It is a template with a hole for
each placeholder, and resolving it fills the holes (`fill_template`). Two templates in which a class
does not occur are filled to the same text with this class only if they are equal
(`Template.fill_injective`), so whether two selectors come to the same text does not depend on the
class.

Neither does the check: it compares the selector with the class, but a class that does not occur in
the selector is never found (`Scope.check_eq_check`).
-/

set_option autoImplicit false

namespace ScopedCss

namespace Selector

/-! ## Templates -/

/-- A piece of a template: a character, or a hole for the class of the scope. -/
inductive Piece where
  | char (c : Char)
  | hole
  deriving DecidableEq, Repr

abbrev Template := List Piece

/-- The text of a piece if the class selector is `own`. -/
def Piece.fill (own : List Char) : Piece → List Char
  | .char c => [c]
  | .hole => own

/-- The character that a piece comes from. -/
def Piece.source : Piece → Char
  | .char c => c
  | .hole => '&'

/-- The template of a text: its placeholders are the holes. -/
def template : Surroundings → List Char → Template
  | _, [] => []
  | s, c :: cs => (if isPlaceholder s c then .hole else .char c) :: template (s.after c) cs

namespace Template

def fill (own : List Char) (t : Template) : List Char := t.flatMap (Piece.fill own)

def source (t : Template) : List Char := t.map Piece.source

/-- The class selector `own` does not stand in the text around the holes. -/
def Avoids (own : List Char) (t : Template) : Prop := ¬ own.map Piece.char <:+: t

theorem fill_char (own : List Char) (c : Char) (t : Template) :
    fill own (.char c :: t) = c :: fill own t := rfl

theorem fill_hole (own : List Char) (t : Template) :
    fill own (.hole :: t) = own ++ fill own t := rfl

theorem fill_map_char (own cs : List Char) : fill own (cs.map .char) = cs := by
  rw [fill, List.flatMap_map]
  exact List.flatMap_singleton' cs

theorem source_map_char (cs : List Char) : source (cs.map .char) = cs := by
  rw [source, List.map_map]
  exact List.map_id cs

theorem Avoids.tail {own : List Char} {piece : Piece} {t : Template}
    (h : Avoids own (piece :: t)) : Avoids own t := by
  intro hinfix
  exact h (List.infix_cons_iff.2 (Or.inr hinfix))

/-- What does not occur in a text does not occur in its template. -/
theorem avoids_of_source {own : List Char} {t : Template} (h : ¬ own <:+: source t) :
    Avoids own t := by
  intro hinfix
  have hsource := hinfix.map Piece.source
  rw [← source, source_map_char] at hsource
  exact h hsource

end Template

theorem fill_template (own : List Char) (s : Surroundings) (cs : List Char) :
    (template s cs).fill own = replacePlaceholders own s cs := by
  induction cs generalizing s with
  | nil => rfl
  | cons c cs ih =>
      rw [template, replacePlaceholders, ← ih]
      by_cases hplaceholder : isPlaceholder s c
      · rw [if_pos hplaceholder, if_pos hplaceholder, Template.fill_hole]
      · rw [if_neg hplaceholder, if_neg hplaceholder, Template.fill_char, List.singleton_append]

theorem source_template (s : Surroundings) (cs : List Char) : (template s cs).source = cs := by
  induction cs generalizing s with
  | nil => rfl
  | cons c cs ih =>
      have htail : Template.source (template s (c :: cs)) =
          (if isPlaceholder s c then Piece.hole else .char c).source
            :: (template (s.after c) cs).source := rfl
      rw [htail, ih]
      by_cases hplaceholder : isPlaceholder s c
      · have hc : c = '&' := by
          rw [isPlaceholder, Bool.and_eq_true, beq_iff_eq] at hplaceholder
          exact hplaceholder.1
        rw [if_pos hplaceholder, hc]
        rfl
      · rw [if_neg hplaceholder]
        rfl

/-! ## Filling is injective -/

namespace Template

variable {ident : List Char}

/-- Without a dot in it a text can only come from the characters of a template: a hole would put a
dot there. -/
theorem prefix_of_fill_eq {word : List Char} (hword : '.' ∉ word) {t : Template}
    {rest : List Char} (h : t.fill ('.' :: ident) = word ++ rest) : word.map Piece.char <+: t := by
  -- on the word: each of its characters takes one piece off the template
  induction word generalizing t with
  | nil => exact List.nil_prefix
  | cons c word ih =>
      rw [List.mem_cons, not_or] at hword
      obtain ⟨hc, hword⟩ := hword
      cases t with
      | nil => exact absurd h (List.cons_ne_nil c _).symm
      | cons piece t =>
          cases piece with
          | hole =>
              rw [fill_hole] at h
              exact absurd (List.cons.inj h).1 hc
          | char d =>
              rw [fill_char] at h
              obtain ⟨rfl, hrest⟩ := List.cons.inj h
              exact List.cons_prefix_cons.2 ⟨rfl, ih hword hrest⟩

/-- If a hole is filled to what another template has there, the class stands in that template. -/
theorem not_avoids_of_fill_hole_eq (hident : '.' ∉ ident) {t t' : Template} {c : Char}
    (h : fill ('.' :: ident) (.hole :: t) = fill ('.' :: ident) (.char c :: t')) :
    ¬ Avoids ('.' :: ident) (.char c :: t') := by
  rw [fill_hole, fill_char] at h
  obtain ⟨rfl, hident'⟩ := List.cons.inj h
  have hprefix := prefix_of_fill_eq hident hident'.symm
  rw [Avoids, not_not]
  exact (List.cons_prefix_cons.2 ⟨rfl, hprefix⟩).isInfix

/-- **Different templates come to different texts**, if the class stands in neither of them. -/
theorem fill_injective (hident : '.' ∉ ident) {t t' : Template}
    (ht : t.Avoids ('.' :: ident)) (ht' : t'.Avoids ('.' :: ident))
    (h : t.fill ('.' :: ident) = t'.fill ('.' :: ident)) : t = t' := by
  have hfilled : ∀ (piece : Piece) (t : Template), fill ('.' :: ident) (piece :: t) ≠ [] := by
    intro piece t
    cases piece <;> exact List.cons_ne_nil _ _
  induction t generalizing t' with
  | nil =>
      cases t' with
      | nil => rfl
      | cons piece' t' => exact absurd h.symm (hfilled piece' t')
  | cons piece t ih =>
      cases t' with
      | nil => exact absurd h (hfilled piece t)
      | cons piece' t' =>
          have htails := ih ht.tail ht'.tail
          -- a hole against a character: the rest of the class would have to follow the character
          cases piece with
          | hole =>
              cases piece' with
              | hole => rw [htails (List.append_cancel_left h)]
              | char c => exact absurd ht' (not_avoids_of_fill_hole_eq hident h)
          | char c =>
              cases piece' with
              | hole => exact absurd ht (not_avoids_of_fill_hole_eq hident h.symm)
              | char d =>
                  obtain ⟨rfl, hrest⟩ := List.cons.inj h
                  rw [htails hrest]

end Template

/-! ## The check -/

/-- Classes that do not occur in a text leave the same marks. -/
theorem marks_eq_marks {own own' cs : List Char} (h : ¬ own <:+: cs) (h' : ¬ own' <:+: cs)
    (s : Surroundings) : marks own s 0 cs = marks own' s 0 cs := by
  have habsent : ∀ {own c cs}, ¬ own <:+: c :: cs → startsWithClass own (c :: cs) = false := by
    intro own c cs h
    rw [Bool.eq_false_iff]
    intro hstarts
    obtain ⟨rest, hrest, -⟩ := startsWithClass_iff.1 hstarts
    exact h ⟨[], rest, hrest.symm⟩
  induction cs generalizing s with
  | nil => rfl
  | cons c cs ih =>
      have htail : marks own (s.after c) 0 cs = marks own' (s.after c) 0 cs :=
        ih (fun hcs => h (List.infix_cons hcs)) (fun hcs => h' (List.infix_cons hcs)) (s.after c)
      rw [marks, marks, habsent h, habsent h', Bool.and_false, if_neg Bool.false_ne_true,
        if_neg Bool.false_ne_true, htail]

end Selector

open Selector

namespace Scope

/-- The class selector of the scope is a part of a text. -/
def OccursIn (scope : Scope) (text : String) : Prop := scope.selector.toList <:+: text.toList

instance (scope : Scope) (text : String) : Decidable (scope.OccursIn text) :=
  inferInstanceAs (Decidable (_ <:+: _))

/-- A template filled for the scope. -/
def fill (scope : Scope) (t : Template) : String := String.ofList (t.fill scope.selector.toList)

def Avoids (scope : Scope) (t : Template) : Prop := t.Avoids scope.selector.toList

theorem fill_injective {scope : Scope} (h : '.' ∉ scope.ident.toList) {t t' : Template}
    (ht : scope.Avoids t) (ht' : scope.Avoids t') (heq : scope.fill t = scope.fill t') : t = t' := by
  unfold Avoids at ht ht'
  rw [toList_selector] at ht ht'
  have htext := String.ofList_injective heq
  rw [toList_selector] at htext
  exact Template.fill_injective h ht ht' htext

/-- **The check does not depend on the scope**, as long as its class does not occur in the
selector. -/
theorem check_eq_check {a b : Scope} {selector : String} (ha : ¬ a.OccursIn selector)
    (hb : ¬ b.OccursIn selector) : a.check selector = b.check selector := by
  have hparts : ∀ part ∈ alternatives selector,
      alternativeFault? a part = alternativeFault? b part := by
    intro part hpart
    obtain ⟨us, vs, hin⟩ := exists_partIn_of_mem hpart
    have hinfix : part.toList <:+: selector.toList := ⟨us, vs, hin.eq_append.symm⟩
    unfold alternativeFault?
    rw [marks_eq_marks (fun h => ha (h.trans hinfix)) (fun h => hb (h.trans hinfix))]
  have hfault : targetFault? a selector = targetFault? b selector := by
    calc (alternatives selector).findSome? (alternativeFault? a)
        = ((alternatives selector).map (alternativeFault? a)).findSome? id := by
          rw [List.findSome?_map, Function.id_comp]
      _ = ((alternatives selector).map (alternativeFault? b)).findSome? id := by
          rw [List.map_congr_left hparts]
      _ = _ := by rw [List.findSome?_map, Function.id_comp, targetFault?]
  rw [check, check, hfault]

end Scope

end ScopedCss
