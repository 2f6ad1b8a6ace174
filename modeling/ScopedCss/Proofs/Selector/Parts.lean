import Mathlib.Data.List.TakeWhile
import ScopedCss.Proofs.Selector.Places

/-! # Where the alternatives of a selector stand

Cutting a selector at its separating commas leaves every character in its place. `SegmentIn` and
`PartIn` say where a segment and an alternative stand in the text: what is before them leaves
nothing open, so that their places are read as places of the whole text. Every alternative stands
somewhere (`exists_partIn_of_mem`), and every character but the commas and blanks stands in an
alternative (`exists_partIn_of_place`).
-/

set_option autoImplicit false

namespace ScopedCss.Selector

/-! ## Segments -/

/-- A comma that separates has nothing open before it, and leaves nothing open. -/
theorem eq_empty_of_separates {s : Surroundings} {c : Char} (h : separates s c) :
    c = ',' ∧ s = {} := by
  simp only [separates, Bool.and_eq_true, beq_iff_eq] at h
  exact ⟨h.1.1, Surroundings.eq_empty_iff.2 ⟨h.1.2, h.2⟩⟩

theorem cut_cases (s : Surroundings) (cs : List Char) :
    cut s cs = (cs, []) ∨
      ∃ first rest, cs = first ++ ',' :: rest ∧ s.afterAll first = {} ∧
        cut s cs = (first, segments rest) := by
  induction cs generalizing s with
  | nil => exact Or.inl rfl
  | cons c cs ih =>
      rw [cut_cons]
      by_cases hsep : separates s c
      · obtain ⟨rfl, rfl⟩ := eq_empty_of_separates hsep
        refine Or.inr ⟨[], cs, rfl, rfl, ?_⟩
        rw [if_pos hsep]
        rfl
      · rw [if_neg hsep]
        rcases ih (s.after c) with hwhole | ⟨first, rest, rfl, hfirst, hcut⟩
        · exact Or.inl (by rw [hwhole])
        · exact Or.inr ⟨c :: first, rest, rfl, hfirst, by rw [hcut]⟩

/-- A text is one segment, or a segment up to its first separating comma and the segments of what
comes after. -/
theorem segments_cases (cs : List Char) :
    segments cs = [cs] ∨
      ∃ first rest, cs = first ++ ',' :: rest ∧ Surroundings.afterAll {} first = {} ∧
        segments cs = first :: segments rest := by
  have hsegments : segments cs = (cut {} cs).1 :: (cut {} cs).2 := rfl
  rcases cut_cases {} cs with hwhole | ⟨first, rest, hcs, hfirst, hcut⟩
  · exact Or.inl (by rw [hsegments, hwhole])
  · exact Or.inr ⟨first, rest, hcs, hfirst, by rw [hsegments, hcut]⟩

/-- What holds of a text that is one segment, and of a text with a separating comma as soon as it
holds of what comes after the comma, holds of every text. -/
theorem segments_induction {motive : List Char → Prop}
    (whole : ∀ cs, segments cs = [cs] → motive cs)
    (comma : ∀ first rest, Surroundings.afterAll {} first = {} →
      segments (first ++ ',' :: rest) = first :: segments rest → motive rest →
        motive (first ++ ',' :: rest))
    (cs : List Char) : motive cs := by
  induction hn : cs.length using Nat.strong_induction_on generalizing cs with
  | _ n ih =>
      rcases segments_cases cs with hwhole | ⟨first, rest, rfl, hfirst, hsegments⟩
      · exact whole cs hwhole
      · have hshorter : rest.length < n := by
          rw [← hn, List.length_append, List.length_cons]
          omega
        exact comma first rest hfirst hsegments (ih rest.length hshorter rest rfl)

/-- In the text a segment stands after `us` and before `vs`. -/
structure SegmentIn (cs us segment vs : List Char) : Prop where
  mem : segment ∈ segments cs
  eq_append : cs = us ++ segment ++ vs
  /-- Nothing is open where the segment starts. -/
  fresh : Surroundings.afterAll {} us = {}
  /-- The segment ends at a comma or with the text. -/
  ends : vs = [] ∨ ∃ rest, vs = ',' :: rest

theorem SegmentIn.after_comma {first rest us segment vs : List Char}
    (hfirst : Surroundings.afterAll {} first = {})
    (hsegments : segments (first ++ ',' :: rest) = first :: segments rest)
    (h : SegmentIn rest us segment vs) :
    SegmentIn (first ++ ',' :: rest) (first ++ ',' :: us) segment vs where
  mem := by
    rw [hsegments]
    exact List.mem_cons_of_mem _ h.mem
  eq_append := by
    rw [h.eq_append]
    simp
  fresh := by
    rw [Surroundings.afterAll_append, hfirst]
    exact h.fresh
  ends := h.ends

/-- Every segment stands somewhere in the text. -/
theorem exists_segmentIn_of_mem {cs segment : List Char} (h : segment ∈ segments cs) :
    ∃ us vs, SegmentIn cs us segment vs := by
  induction cs using segments_induction with
  | whole cs hwhole =>
      obtain rfl : segment = cs := by simpa [hwhole] using h
      exact ⟨[], [], h, by simp, rfl, Or.inl rfl⟩
  | comma first rest hfirst hsegments ih =>
      have hmem := h
      rw [hsegments, List.mem_cons] at h
      rcases h with rfl | hrest
      · exact ⟨[], ',' :: rest, hmem, by simp, rfl, Or.inr ⟨rest, rfl⟩⟩
      · obtain ⟨us, vs, hsegment⟩ := ih hrest
        exact ⟨first ++ ',' :: us, vs, hsegment.after_comma hfirst hsegments⟩

/-- Every character but a comma stands in a segment. -/
theorem exists_segmentIn_of_place {cs : List Char} {i : Nat} {c : Char} (hi : cs[i]? = some c)
    (hc : c ≠ ',') :
    ∃ us segment vs, SegmentIn cs us segment vs ∧ us.length ≤ i ∧
      i < us.length + segment.length := by
  induction cs using segments_induction generalizing i with
  | whole cs hwhole =>
      obtain ⟨hlt, -⟩ := List.getElem?_eq_some_iff.1 hi
      exact ⟨[], cs, [], ⟨by simp [hwhole], by simp, rfl, Or.inl rfl⟩, by simp, by simpa using hlt⟩
  | comma first rest hfirst hsegments ih =>
      by_cases hin : i < first.length
      · exact ⟨[], first, ',' :: rest,
          ⟨by simp [hsegments], by simp, rfl, Or.inr ⟨rest, rfl⟩⟩, by simp, by simpa using hin⟩
      · -- the comma itself is excluded, so the place lies in the rest
        obtain ⟨k, rfl⟩ := Nat.exists_eq_add_of_le (Nat.le_of_not_lt hin)
        rw [List.getElem?_append_right (by omega), Nat.add_sub_cancel_left] at hi
        cases k with
        | zero => exact absurd (Option.some.inj hi).symm hc
        | succ k =>
            rw [List.getElem?_cons_succ] at hi
            obtain ⟨us, segment, vs, hsegment, hle, hlt⟩ := ih hi
            refine ⟨first ++ ',' :: us, segment, vs, hsegment.after_comma hfirst hsegments,
              ?_, ?_⟩
            · rw [List.length_append, List.length_cons]
              omega
            · rw [List.length_append, List.length_cons]
              omega

/-! ## Trimming -/

/-- Trimming takes blanks off the two ends. -/
theorem exists_trim (cs : List Char) :
    ∃ us vs, cs = us ++ Text.trim cs ++ vs ∧ (∀ c ∈ us, Text.isBlank c) ∧
      ∀ c ∈ vs, Text.isBlank c := by
  refine ⟨cs.takeWhile Text.isBlank,
    ((Text.trimStart cs).reverse.takeWhile Text.isBlank).reverse, ?_, ?_, ?_⟩
  · have hend : Text.trim cs ++ ((Text.trimStart cs).reverse.takeWhile Text.isBlank).reverse =
        Text.trimStart cs := by
      rw [Text.trim, Text.trimEnd, Text.trimStart, ← List.reverse_append,
        List.takeWhile_append_dropWhile, List.reverse_reverse]
    rw [List.append_assoc, hend, Text.trimStart, List.takeWhile_append_dropWhile]
  · intro c hc
    exact List.mem_takeWhile_imp hc
  · intro c hc
    exact List.mem_takeWhile_imp (List.mem_reverse.1 hc)

/-- A character between blanks that is not blank itself stands in the middle. -/
theorem bounds_of_not_blank {cs us ws vs : List Char} (h : cs = us ++ ws ++ vs)
    (hus : ∀ c ∈ us, Text.isBlank c) (hvs : ∀ c ∈ vs, Text.isBlank c) {k : Nat} {c : Char}
    (hk : cs[k]? = some c) (hc : Text.isBlank c = false) :
    us.length ≤ k ∧ k < us.length + ws.length := by
  have hne : ∀ ds : List Char, (∀ d ∈ ds, Text.isBlank d) → c ∉ ds := by
    intro ds hds hmem
    have hblank := hds c hmem
    rw [hc] at hblank
    exact absurd hblank (by decide)
  subst h
  constructor
  · by_contra hlt
    rw [List.append_assoc, List.getElem?_append_left (by omega)] at hk
    exact hne us hus (List.mem_of_getElem? hk)
  · by_contra hge
    rw [List.getElem?_append_right (by rw [List.length_append]; omega)] at hk
    exact hne vs hvs (List.mem_of_getElem? hk)

/-! ## Alternatives -/

/-- In the text an alternative stands after `us` and before `vs`. -/
structure PartIn (cs us part vs : List Char) : Prop where
  mem : part ∈ (segments cs).map Text.trim
  eq_append : cs = us ++ part ++ vs
  /-- Nothing is open where the alternative starts. -/
  fresh : Surroundings.afterAll {} us = {}
  /-- After the alternative there are blanks, and then a comma or the end of the text. -/
  ends : ∃ blanks rest, vs = blanks ++ rest ∧ (∀ c ∈ blanks, Text.isBlank c) ∧
    (rest = [] ∨ ∃ more, rest = ',' :: more)

namespace PartIn

variable {cs us part vs : List Char}

/-- A place of the alternative has the same before it in the text. -/
theorem before_eq (h : PartIn cs us part vs) {k : Nat} (hk : k ≤ part.length) :
    before cs (us.length + k) = before part k := by
  rw [h.eq_append, List.append_assoc, before_append h.fresh, before_append_left part vs hk]

/-- What follows a place of the alternative goes on after the alternative. -/
theorem drop_eq (h : PartIn cs us part vs) {k : Nat} (hk : k ≤ part.length) :
    cs.drop (us.length + k) = part.drop k ++ vs := by
  rw [h.eq_append, List.append_assoc, List.drop_length_add_append,
    List.drop_append_of_le_length hk]

/-- The character at a place of the alternative is the one in the text. -/
theorem getElem?_eq (h : PartIn cs us part vs) {k : Nat} (hk : k < part.length) :
    cs[us.length + k]? = part[k]? := by
  rw [h.eq_append, List.append_assoc, List.getElem?_append_right (by omega),
    Nat.add_sub_cancel_left, List.getElem?_append_left hk]

end PartIn

theorem afterAll_blanks {us : List Char} (h : ∀ c ∈ us, Text.isBlank c) :
    Surroundings.afterAll {} us = {} :=
  Surroundings.afterAll_of_not_mem_signs rfl fun c hc => not_mem_signs_of_isBlank (h c hc)

theorem SegmentIn.partIn {cs us segment vs : List Char} (h : SegmentIn cs us segment vs) :
    ∃ blanks blanks', segment = blanks ++ Text.trim segment ++ blanks' ∧
      (∀ c ∈ blanks, Text.isBlank c) ∧ (∀ c ∈ blanks', Text.isBlank c) ∧
      PartIn cs (us ++ blanks) (Text.trim segment) (blanks' ++ vs) := by
  obtain ⟨blanks, blanks', hsegment, hblanks, hblanks'⟩ := exists_trim segment
  refine ⟨blanks, blanks', hsegment, hblanks, hblanks', List.mem_map_of_mem h.mem, ?_, ?_,
    blanks', vs, rfl, hblanks', h.ends⟩
  · calc cs = us ++ segment ++ vs := h.eq_append
      _ = us ++ (blanks ++ Text.trim segment ++ blanks') ++ vs := by rw [← hsegment]
      _ = us ++ blanks ++ Text.trim segment ++ (blanks' ++ vs) := by simp
  · rw [Surroundings.afterAll_append, h.fresh, afterAll_blanks hblanks]

/-- Every alternative stands somewhere in the text. -/
theorem exists_partIn_of_mem {selector part : String} (h : part ∈ alternatives selector) :
    ∃ us vs, PartIn selector.toList us part.toList vs := by
  obtain ⟨segment, hmem, rfl⟩ := List.mem_map.1 h
  obtain ⟨us, vs, hsegment⟩ := exists_segmentIn_of_mem hmem
  obtain ⟨blanks, blanks', -, -, -, hpart⟩ := hsegment.partIn
  rw [String.toList_ofList]
  exact ⟨_, _, hpart⟩

/-- Every character but a comma and a blank stands in an alternative. -/
theorem exists_partIn_of_place {selector : String} {i : Nat} {c : Char}
    (hi : selector.toList[i]? = some c) (hcomma : c ≠ ',') (hblank : Text.isBlank c = false) :
    ∃ part ∈ alternatives selector, ∃ us vs, PartIn selector.toList us part.toList vs ∧
      us.length ≤ i ∧ i < us.length + part.toList.length := by
  obtain ⟨us, segment, vs, hsegment, hle, hlt⟩ := exists_segmentIn_of_place hi hcomma
  obtain ⟨blanks, blanks', htrim, hblanks, hblanks', hpart⟩ := hsegment.partIn
  obtain ⟨k, rfl⟩ := Nat.exists_eq_add_of_le hle
  have hk : segment[k]? = some c := by
    rw [hsegment.eq_append, List.append_assoc, List.getElem?_append_right (by omega),
      Nat.add_sub_cancel_left, List.getElem?_append_left (by omega)] at hi
    exact hi
  -- the character is not blank, so it is not among those that trimming takes off
  obtain ⟨hfrom, hto⟩ := bounds_of_not_blank htrim hblanks hblanks' hk hblank
  refine ⟨String.ofList (Text.trim segment), List.mem_map_of_mem hsegment.mem, us ++ blanks,
    blanks' ++ vs, ?_⟩
  rw [String.toList_ofList, List.length_append]
  exact ⟨hpart, by omega, by omega⟩

end ScopedCss.Selector
