import ScopedCss.Flatten
import ScopedCss.Proofs.Selector.Places

/-! # Mentions of the element

The reading of an alternative makes a list of marks and skips over the class selectors that it has
counted. Here the marks are found place by place: `MentionAt` and `CombinatorAt` say of one place
of the text whether it mentions the element or holds a combinator, and `Judged` what follows for
the alternative. `judged_markFault?` says that reading and places come to the same judgement, and
`Scope.check_iff` what this means for a whole selector.

The class of the scope has to be plain: the reading passes over its characters unread.
-/

set_option autoImplicit false

namespace ScopedCss

namespace Selector

/-! ## Judging an alternative by its places -/

/-- The element is mentioned at a place: by `&` or by its class, standing for itself, and no name
goes on after the mention. -/
def MentionAt (own cs : List Char) (i : Nat) : Prop :=
  (before cs i).isBare ∧
    ∃ rest, (cs.drop i = '&' :: rest ∨ cs.drop i = own ++ rest) ∧ startsWithName rest = false

/-- There is a combinator at a place, standing for itself and outside of brackets. -/
def CombinatorAt (cs : List Char) (i : Nat) : Prop :=
  (before cs i).isBare ∧ (before cs i).depth = 0 ∧ ∃ c, cs[i]? = some c ∧ isCombinator c

/-- The element is mentioned at this place and nowhere else. -/
def OnlyMention (own cs : List Char) (i : Nat) : Prop :=
  MentionAt own cs i ∧ ∀ j, MentionAt own cs j → j = i

/-- What has to be said of an alternative in which the class selector is `own`. -/
def Judged (own cs : List Char) : Option TargetFault → Prop
  | none =>
      ∃ i, OnlyMention own cs i ∧ (before cs i).depth = 0 ∧ ∀ j, i < j → ¬ CombinatorAt cs j
  | some .zeroOccurrences => ∀ i, ¬ MentionAt own cs i
  | some .multipleOccurrences => ∃ i j, i ≠ j ∧ MentionAt own cs i ∧ MentionAt own cs j
  | some .targetsDescendant =>
      ∃ i, OnlyMention own cs i ∧ ((before cs i).depth ≠ 0 ∨ ∃ j, i < j ∧ CombinatorAt cs j)

theorem OnlyMention.unique {own cs : List Char} {i j : Nat} (hi : OnlyMention own cs i)
    (hj : OnlyMention own cs j) : i = j := hj.2 i hi.1

theorem OnlyMention.not_zero {own cs : List Char} {i : Nat} (hi : OnlyMention own cs i) :
    ¬ Judged own cs (some .zeroOccurrences) := fun hzero => hzero i hi.1

theorem OnlyMention.not_multiple {own cs : List Char} {i : Nat} (hi : OnlyMention own cs i) :
    ¬ Judged own cs (some .multipleOccurrences) := by
  rintro ⟨j, k, hne, hj, hk⟩
  exact hne ((hi.2 j hj).trans (hi.2 k hk).symm)

/-- A single mention cannot both be the target and not be it. -/
theorem not_targetsDescendant {own cs : List Char} (h : Judged own cs none) :
    ¬ Judged own cs (some .targetsDescendant) := by
  obtain ⟨i, hi, hdepth, hlast⟩ := h
  rintro ⟨j, hj, hfault⟩
  obtain rfl := hi.unique hj
  rcases hfault with hdeep | ⟨k, hk, hcombinator⟩
  · exact hdeep hdepth
  · exact hlast k hk hcombinator

theorem not_zero_and_multiple {own cs : List Char} (h : Judged own cs (some .zeroOccurrences)) :
    ¬ Judged own cs (some .multipleOccurrences) := by
  rintro ⟨i, -, -, hi, -⟩
  exact h i hi

/-- With a single mention the alternative is accepted or targets a descendant. -/
theorem OnlyMention.judged_cases {own cs : List Char} {i : Nat} (hi : OnlyMention own cs i)
    {v : Option TargetFault} (hv : Judged own cs v) : v = none ∨ v = some .targetsDescendant := by
  match v with
  | none => exact Or.inl rfl
  | some .zeroOccurrences => exact absurd hv hi.not_zero
  | some .multipleOccurrences => exact absurd hv hi.not_multiple
  | some .targetsDescendant => exact Or.inr rfl

/-- An alternative is judged in one way only. -/
theorem Judged.unique {own cs : List Char} {v w : Option TargetFault} (hv : Judged own cs v)
    (hw : Judged own cs w) : v = w := by
  -- by the number of mentions: one in the first and the last case, none or several in the others
  match v with
  | none =>
      obtain ⟨i, hi, -⟩ := id hv
      rcases hi.judged_cases hw with rfl | rfl
      · rfl
      · exact absurd hw (not_targetsDescendant hv)
  | some .zeroOccurrences =>
      match w with
      | none =>
          obtain ⟨i, hi, -⟩ := hw
          exact absurd hv hi.not_zero
      | some .zeroOccurrences => rfl
      | some .multipleOccurrences => exact absurd hw (not_zero_and_multiple hv)
      | some .targetsDescendant =>
          obtain ⟨i, hi, -⟩ := hw
          exact absurd hv hi.not_zero
  | some .multipleOccurrences =>
      match w with
      | none =>
          obtain ⟨i, hi, -⟩ := hw
          exact absurd hv hi.not_multiple
      | some .zeroOccurrences => exact absurd hv (not_zero_and_multiple hw)
      | some .multipleOccurrences => rfl
      | some .targetsDescendant =>
          obtain ⟨i, hi, -⟩ := hw
          exact absurd hv hi.not_multiple
  | some .targetsDescendant =>
      obtain ⟨i, hi, -⟩ := id hv
      rcases hi.judged_cases hw with rfl | rfl
      · exact absurd hv (not_targetsDescendant hw)
      · rfl

/-! ## The mark of a place -/

/-- The mark that the first character of a text makes. -/
def headMark (own : List Char) (s : Surroundings) : List Char → Option Mark
  | [] => none
  | c :: cs =>
      if s.isBare && c == '.' && startsWithClass own (c :: cs) then some (.mention s.depth)
      else markAt s c cs

/-- The mark that the character at a place makes. -/
def placeMark (own : List Char) (s : Surroundings) (cs : List Char) (i : Nat) : Option Mark :=
  headMark own (s.afterAll (cs.take i)) (cs.drop i)

theorem markAt_of_isPlain {c : Char} (hc : IsPlain c) (s : Surroundings) (cs : List Char) :
    markAt s c cs = none := by
  have hamp : c ≠ '&' := hc.ne_of_continuesName (by decide)
  simp [markAt, hamp, hc.isCombinator_eq_false]

/-- Characters that are skipped make no marks and leave the surroundings alone. -/
theorem marks_skip (own : List Char) (s : Surroundings) (us cs : List Char) :
    marks own s us.length (us ++ cs) = marks own s 0 cs := by
  induction us with
  | nil => rfl
  | cons u us ih => exact ih

/-- Plain characters that are read do the same. -/
theorem marks_plain {us : List Char} (hus : ∀ u ∈ us, IsPlain u) (own : List Char)
    {s : Surroundings} (hs : s.isBare) (cs : List Char) :
    marks own s 0 (us ++ cs) = marks own s 0 cs := by
  induction us with
  | nil => rfl
  | cons u us ih =>
      have hu : IsPlain u := hus u List.mem_cons_self
      have hdot : u ≠ '.' := hu.ne_of_continuesName (by decide)
      rw [List.cons_append, marks, markAt_of_isPlain hu,
        Surroundings.after_of_not_mem_signs hs hu.not_mem_signs,
        ih fun v hv => hus v (List.mem_cons_of_mem _ hv)]
      simp [hdot]

theorem startsWithClass_iff {own cs : List Char} :
    startsWithClass own cs ↔ ∃ rest, cs = own ++ rest ∧ startsWithName rest = false := by
  rw [startsWithClass, Bool.and_eq_true, List.isPrefixOf_iff_prefix, Bool.not_eq_true']
  constructor
  · rintro ⟨⟨rest, rfl⟩, hname⟩
    rw [List.drop_left] at hname
    exact ⟨rest, rfl, hname⟩
  · rintro ⟨rest, rfl, hname⟩
    rw [List.drop_left]
    exact ⟨List.prefix_append own rest, hname⟩

/-- Reading an alternative is reading its first character and then the rest, also where a class
selector is skipped. -/
theorem marks_cons {ident : List Char} (hident : ∀ c ∈ ident, IsPlain c) (s : Surroundings)
    (c : Char) (cs : List Char) :
    marks ('.' :: ident) s 0 (c :: cs) =
      (headMark ('.' :: ident) s (c :: cs)).toList ++ marks ('.' :: ident) (s.after c) 0 cs := by
  rw [marks, headMark]
  by_cases hclass : s.isBare && c == '.' && startsWithClass ('.' :: ident) (c :: cs)
  · rw [if_pos hclass, if_pos hclass]
    rw [Bool.and_eq_true, Bool.and_eq_true, beq_iff_eq] at hclass
    obtain ⟨⟨hbare, rfl⟩, hstarts⟩ := hclass
    obtain ⟨rest, hrest, -⟩ := startsWithClass_iff.1 hstarts
    obtain rfl : cs = ident ++ rest := (List.cons.inj hrest).2
    -- the characters skipped are plain: read one by one they would make no marks either
    have hlength : ('.' :: ident).length - 1 = ident.length := rfl
    rw [hlength, marks_skip,
      Surroundings.after_of_not_mem_signs hbare (by decide), marks_plain hident _ hbare]
    rfl
  · rw [if_neg hclass, if_neg hclass]

/-- The marks of an alternative are those of its places in order. -/
theorem marks_eq {ident : List Char} (hident : ∀ c ∈ ident, IsPlain c) (s : Surroundings)
    (cs : List Char) :
    marks ('.' :: ident) s 0 cs =
      (List.range cs.length).filterMap (placeMark ('.' :: ident) s cs) := by
  induction cs generalizing s with
  | nil => rfl
  | cons c cs ih =>
      have hshift : placeMark ('.' :: ident) s (c :: cs) ∘ Nat.succ =
          placeMark ('.' :: ident) (s.after c) cs := rfl
      rw [marks_cons hident, ih, List.length_cons, List.range_succ_eq_map, List.filterMap_cons,
        List.filterMap_map, hshift]
      cases hhead : placeMark ('.' :: ident) s (c :: cs) 0 with
      | none =>
          have h : headMark ('.' :: ident) s (c :: cs) = none := hhead
          rw [h]
          rfl
      | some m =>
          have h : headMark ('.' :: ident) s (c :: cs) = some m := hhead
          rw [h]
          rfl

/-! ## Marks and places -/

theorem markAt_eq_mention_iff {s : Surroundings} {c : Char} {cs : List Char} {d : Nat} :
    markAt s c cs = some (.mention d) ↔
      s.isBare ∧ c = '&' ∧ startsWithName cs = false ∧ s.depth = d := by
  unfold markAt
  by_cases hbare : s.isBare
  · by_cases hamp : c = '&'
    · cases hname : startsWithName cs <;> simp [hbare, hamp]
    · by_cases hcombinator : s.depth = 0 ∧ isCombinator c <;> simp [hbare, hamp, hcombinator]
  · simp [hbare]

theorem markAt_eq_combinator_iff {s : Surroundings} {c : Char} {cs : List Char} :
    markAt s c cs = some .combinator ↔ s.isBare ∧ s.depth = 0 ∧ isCombinator c := by
  unfold markAt
  by_cases hbare : s.isBare
  · by_cases hamp : c = '&'
    · have hno : isCombinator '&' = false := by decide
      cases hname : startsWithName cs <;> simp [hbare, hamp, hno]
    · by_cases hcombinator : s.depth = 0 ∧ isCombinator c <;> simp [hbare, hamp, hcombinator]
  · simp [hbare]

theorem headMark_eq_mention_iff {ident : List Char} {s : Surroundings} {cs : List Char} {d : Nat} :
    headMark ('.' :: ident) s cs = some (.mention d) ↔
      (s.isBare ∧ ∃ rest, (cs = '&' :: rest ∨ cs = '.' :: ident ++ rest) ∧
        startsWithName rest = false) ∧ s.depth = d := by
  cases cs with
  | nil => simp [headMark]
  | cons c cs =>
      rw [headMark]
      by_cases hclass : s.isBare && c == '.' && startsWithClass ('.' :: ident) (c :: cs)
      · rw [if_pos hclass]
        rw [Bool.and_eq_true, Bool.and_eq_true, startsWithClass_iff] at hclass
        obtain ⟨⟨hbare, -⟩, rest, hrest, hname⟩ := hclass
        simp only [Option.some.injEq, Mark.mention.injEq, hbare, true_and]
        exact ⟨fun h => ⟨⟨rest, Or.inr hrest, hname⟩, h⟩, fun h => h.2⟩
      · rw [if_neg hclass, markAt_eq_mention_iff]
        constructor
        · rintro ⟨hbare, rfl, hname, hdepth⟩
          exact ⟨⟨hbare, cs, Or.inl rfl, hname⟩, hdepth⟩
        · rintro ⟨⟨hbare, rest, hrest | hrest, hname⟩, hdepth⟩
          · obtain ⟨rfl, rfl⟩ := List.cons.inj hrest
            exact ⟨hbare, rfl, hname, hdepth⟩
          · have hdot : c = '.' := (List.cons.inj hrest).1
            have hstarts := startsWithClass_iff.2 ⟨rest, hrest, hname⟩
            exact absurd (by simp [hbare, hdot, hdot ▸ hstarts]) hclass

theorem headMark_eq_combinator_iff {ident : List Char} {s : Surroundings} {cs : List Char} :
    headMark ('.' :: ident) s cs = some .combinator ↔
      s.isBare ∧ s.depth = 0 ∧ ∃ c, cs.head? = some c ∧ isCombinator c := by
  cases cs with
  | nil => simp [headMark]
  | cons c cs =>
      rw [headMark]
      by_cases hclass : s.isBare && c == '.' && startsWithClass ('.' :: ident) (c :: cs)
      · rw [if_pos hclass]
        rw [Bool.and_eq_true, Bool.and_eq_true, beq_iff_eq] at hclass
        have hno : isCombinator '.' = false := by decide
        simp [hclass.1.2, hno]
      · rw [if_neg hclass, markAt_eq_combinator_iff]
        simp

theorem placeMark_eq_mention_iff {ident cs : List Char} {i d : Nat} :
    placeMark ('.' :: ident) {} cs i = some (.mention d) ↔
      MentionAt ('.' :: ident) cs i ∧ (before cs i).depth = d :=
  headMark_eq_mention_iff

theorem placeMark_eq_combinator_iff {ident cs : List Char} {i : Nat} :
    placeMark ('.' :: ident) {} cs i = some .combinator ↔ CombinatorAt cs i := by
  rw [CombinatorAt, ← List.head?_drop]
  exact headMark_eq_combinator_iff

/-! ## The judgement of the reading -/

theorem filter_filterMap_eq {α β : Type} (f : α → Option β) (p : β → Bool) (xs : List α) :
    (xs.filterMap f).filter p = (xs.filter fun x => (f x).any p).filterMap f := by
  induction xs with
  | nil => rfl
  | cons x xs ih =>
      cases hx : f x with
      | none => simp [hx, ih]
      | some y => by_cases hy : p y <;> simp [hx, hy, ih]

/-- The last mark is the one after whose place there are no marks. -/
theorem getLast?_filterMap_range {β : Type} (f : Nat → Option β) (n : Nat) (b : β) :
    ((List.range n).filterMap f).getLast? = some b ↔
      ∃ j, j < n ∧ f j = some b ∧ ∀ k, j < k → k < n → f k = none := by
  induction n with
  | zero => simp
  | succ n ih =>
      rw [List.range_succ, List.filterMap_append]
      cases hn : f n with
      | none =>
          simp only [List.filterMap_cons, hn, List.filterMap_nil, List.append_nil]
          rw [ih]
          constructor
          · rintro ⟨j, hj, hb, hafter⟩
            refine ⟨j, by omega, hb, fun k hk hkn => ?_⟩
            by_cases hlast : k = n
            · rw [hlast, hn]
            · exact hafter k hk (by omega)
          · rintro ⟨j, hj, hb, hafter⟩
            have hne : j ≠ n := by
              rintro rfl
              rw [hn] at hb
              exact absurd hb (by simp)
            exact ⟨j, by omega, hb, fun k hk hkn => hafter k hk (by omega)⟩
      | some c =>
          simp only [List.filterMap_cons, hn, List.filterMap_nil, List.getLast?_concat,
            Option.some.injEq]
          constructor
          · rintro rfl
            exact ⟨n, by omega, hn, fun k hk hkn => absurd hkn (by omega)⟩
          · rintro ⟨j, hj, hb, hafter⟩
            have hlast : j = n := by
              by_contra hne
              have hnone := hafter n (by omega) (by omega)
              rw [hn] at hnone
              exact absurd hnone (by simp)
            rw [hlast, hn] at hb
            exact Option.some.inj hb

section

variable {ident : List Char} (cs : List Char)

/-- The places at which the element is mentioned, in order. -/
def mentionPlaces (own cs : List Char) : List Nat :=
  (List.range cs.length).filter fun i => (placeMark own {} cs i).any Mark.isMention

theorem lt_length_of_placeMark {own : List Char} {i : Nat} {m : Mark}
    (h : placeMark own {} cs i = some m) : i < cs.length := by
  by_contra hi
  rw [placeMark, List.drop_eq_nil_of_le (by omega)] at h
  exact absurd h (by simp [headMark])

theorem mem_mentionPlaces {i : Nat} :
    i ∈ mentionPlaces ('.' :: ident) cs ↔ MentionAt ('.' :: ident) cs i := by
  rw [mentionPlaces, List.mem_filter, List.mem_range]
  constructor
  · rintro ⟨-, hany⟩
    cases hmark : placeMark ('.' :: ident) {} cs i with
    | none => simp [hmark] at hany
    | some m =>
        cases m with
        | combinator => simp [hmark, Mark.isMention] at hany
        | mention d => exact (placeMark_eq_mention_iff.1 hmark).1
  · intro hmention
    have hmark := placeMark_eq_mention_iff.2 ⟨hmention, rfl⟩
    exact ⟨lt_length_of_placeMark cs hmark, by simp [hmark, Mark.isMention]⟩

theorem nodup_mentionPlaces (own : List Char) : (mentionPlaces own cs).Nodup :=
  List.nodup_range.filter _

/-- **Reading and places agree**: the fault found by reading is the judgement by places. -/
theorem judged_markFault? (hident : ∀ c ∈ ident, IsPlain c) :
    Judged ('.' :: ident) cs (markFault? (marks ('.' :: ident) {} 0 cs)) := by
  have hfilter : (marks ('.' :: ident) {} 0 cs).filter Mark.isMention =
      (mentionPlaces ('.' :: ident) cs).filterMap (placeMark ('.' :: ident) {} cs) := by
    rw [marks_eq hident, filter_filterMap_eq]
    rfl
  have hmark : ∀ i ∈ mentionPlaces ('.' :: ident) cs,
      placeMark ('.' :: ident) {} cs i = some (.mention (before cs i).depth) := by
    intro i hi
    exact placeMark_eq_mention_iff.2 ⟨(mem_mentionPlaces cs).1 hi, rfl⟩
  have hnodup := nodup_mentionPlaces cs ('.' :: ident)
  unfold markFault?
  rw [hfilter]
  -- one case for each number of places at which there is a mention
  match hplaces : mentionPlaces ('.' :: ident) cs with
  | [] =>
      intro i hi
      rw [← mem_mentionPlaces, hplaces] at hi
      exact List.not_mem_nil hi
  | [i] =>
      have hi : placeMark ('.' :: ident) {} cs i = some (.mention (before cs i).depth) :=
        hmark i (by simp [hplaces])
      have honly : OnlyMention ('.' :: ident) cs i := by
        refine ⟨(placeMark_eq_mention_iff.1 hi).1, fun j hj => ?_⟩
        rw [← mem_mentionPlaces, hplaces] at hj
        exact List.mem_singleton.1 hj
      simp only [List.filterMap_cons, hi, List.filterMap_nil]
      rw [marks_eq hident]
      split_ifs with hlast
      · obtain ⟨j, -, hj, hafter⟩ := (getLast?_filterMap_range _ _ _).1 hlast
        obtain ⟨hmention, hdepth⟩ := placeMark_eq_mention_iff.1 hj
        obtain rfl := honly.2 j hmention
        refine ⟨j, honly, hdepth, fun k hk hcombinator => ?_⟩
        have hk' : placeMark ('.' :: ident) {} cs k = some .combinator :=
          placeMark_eq_combinator_iff.2 hcombinator
        rw [hafter k hk (lt_length_of_placeMark cs hk')] at hk'
        exact absurd hk' (by simp)
      · refine ⟨i, honly, ?_⟩
        by_contra hnone
        rw [not_or, not_not, not_exists] at hnone
        obtain ⟨hdepth, hcombinator⟩ := hnone
        -- then the mention would be the last mark after all
        refine hlast ((getLast?_filterMap_range _ _ _).2
          ⟨i, lt_length_of_placeMark cs hi, by rw [hi, hdepth], fun k hk _ => ?_⟩)
        cases hk' : placeMark ('.' :: ident) {} cs k with
        | none => rfl
        | some m =>
            cases m with
            | mention d =>
                have := honly.2 k (placeMark_eq_mention_iff.1 hk').1
                omega
            | combinator => exact absurd ⟨hk, placeMark_eq_combinator_iff.1 hk'⟩ (hcombinator k)
  | i :: j :: rest =>
      have hi := hmark i (by simp [hplaces])
      have hj := hmark j (by simp [hplaces])
      have hne : i ≠ j := by
        rintro rfl
        rw [hplaces] at hnodup
        exact absurd hnodup (by simp)
      simp only [List.filterMap_cons, hi, hj]
      exact ⟨i, j, hne, (placeMark_eq_mention_iff.1 hi).1, (placeMark_eq_mention_iff.1 hj).1⟩

end

end Selector

/-! ## Checking a selector -/

open Selector

/-- An alternative has a fault exactly if it is judged to have it. -/
theorem alternativeFault?_eq_iff {scope : Scope} (h : scope.Plain) (alternative : String)
    (v : Option TargetFault) :
    alternativeFault? scope alternative = v ↔
      Judged scope.selector.toList alternative.toList v := by
  have hjudged : Judged scope.selector.toList alternative.toList
      (alternativeFault? scope alternative) := by
    rw [alternativeFault?, Scope.toList_selector]
    exact judged_markFault? alternative.toList h
  constructor
  · rintro rfl
    exact hjudged
  · exact hjudged.unique

/-- **What the check of a selector finds.** It passes exactly if in every alternative the element
is mentioned once, outside of brackets and with no combinator after the mention. Otherwise its
error names the whole selector, and what is wrong with the first alternative that is not such. -/
theorem Scope.check_iff (scope : Scope) (h : scope.Plain) (selector : String) :
    (scope.check selector = .ok () ↔
      ∀ part ∈ alternatives selector, Judged scope.selector.toList part.toList none) ∧
    ∀ error, scope.check selector = .error error ↔
      ∃ first part rest fault, alternatives selector = first ++ part :: rest ∧
        (∀ passed ∈ first, Judged scope.selector.toList passed.toList none) ∧
        Judged scope.selector.toList part.toList (some fault) ∧
        error = .selectorTarget selector fault := by
  simp only [← alternativeFault?_eq_iff h]
  unfold Scope.check
  constructor
  · rw [← List.findSome?_eq_none_iff]
    show _ ↔ targetFault? scope selector = none
    cases targetFault? scope selector <;> simp
  · intro error
    cases hfault : targetFault? scope selector with
    | none =>
        have hpass := List.findSome?_eq_none_iff.1 hfault
        simp only [reduceCtorEq, false_iff]
        rintro ⟨first, part, rest, fault, hparts, -, hpart, -⟩
        have hnone := hpass part (by rw [hparts]; simp)
        rw [hpart] at hnone
        exact absurd hnone (by simp)
    | some found =>
        simp only [Except.error.injEq]
        constructor
        · rintro rfl
          obtain ⟨first, part, rest, hparts, hpart, hfirst⟩ := List.findSome?_eq_some_iff.1 hfault
          exact ⟨first, part, rest, found, hparts, hfirst, hpart, rfl⟩
        · rintro ⟨first, part, rest, fault, hparts, hfirst, hpart, rfl⟩
          have hsame : targetFault? scope selector = some fault :=
            List.findSome?_eq_some_iff.2 ⟨first, part, rest, hparts, hpart, hfirst⟩
          rw [hfault] at hsame
          rw [Option.some.inj hsame]

/-- Mentions in a string or glued to a name do not count, and the class is a mention like `&`. -/
theorem Scope.check_iff_of_mixed :
    Scope.Plain ⟨"a"⟩ ∧
      ∀ part ∈ alternatives ":is(.x, &y) > &:hover, .ab .a[title='&, .b']",
        Judged (Scope.selector ⟨"a"⟩).toList part.toList none :=
  ⟨by decide, (Scope.check_iff ⟨"a"⟩ (by decide) _).1.1 (by decide +kernel)⟩

end ScopedCss
