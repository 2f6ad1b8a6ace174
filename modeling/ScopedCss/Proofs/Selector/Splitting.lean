import ScopedCss.Proofs.Selector.Resolution

/-! # Splitting a selector

The alternatives of a selector are told here by the places of its commas. `Divides` says which
pieces a text is divided into: joined by commas they give the text back, and the commas that join
them are those that separate, no more and no less. There is one such list of pieces
(`Divides.unique`), and `segments` finds it (`divides_segments`).

From this the alternatives inherit their laws. One of them has no separating comma left and is its
own only alternative. Texts joined by a comma have the alternatives of both, if the first of them
leaves nothing open. And resolving comes to the same before and after splitting.
-/

set_option autoImplicit false

namespace ScopedCss

namespace Selector

/-! ## Divided texts -/

/-- The comma at a place separates: it stands for itself and outside of all brackets. -/
def SeparatorAt (cs : List Char) (i : Nat) : Prop :=
  cs[i]? = some ',' ∧ (before cs i).isBare ∧ (before cs i).depth = 0

/-- Of the commas that join pieces one stands at the place `i`, after the first of the pieces and
before the rest of them. -/
def JointAt (pieces : List (List Char)) (i : Nat) : Prop :=
  ∃ first rest, pieces = first ++ rest ∧ first ≠ [] ∧ rest ≠ [] ∧
    i = ([','].intercalate first).length

/-- The pieces into which the separating commas divide a text. -/
structure Divides (cs : List Char) (pieces : List (List Char)) : Prop where
  ne_nil : pieces ≠ []
  joined : [','].intercalate pieces = cs
  joints : ∀ i, JointAt pieces i ↔ SeparatorAt cs i

theorem not_jointAt_singleton (piece : List Char) (i : Nat) : ¬ JointAt [piece] i := by
  rintro ⟨first, rest, hsplit, hfirst, hrest, -⟩
  rcases List.append_eq_singleton_iff.1 hsplit.symm with ⟨rfl, -⟩ | ⟨-, rfl⟩
  · exact hfirst rfl
  · exact hrest rfl

/-- The first comma stands after the first piece, and the others where they join the rest. -/
theorem jointAt_cons_iff {piece : List Char} {rest : List (List Char)} (hrest : rest ≠ [])
    {i : Nat} :
    JointAt (piece :: rest) i ↔
      i = piece.length ∨ ∃ j, i = piece.length + 1 + j ∧ JointAt rest j := by
  constructor
  · rintro ⟨first, last, hsplit, hfirst, hlast, rfl⟩
    obtain ⟨_, first, rfl⟩ := List.exists_cons_of_ne_nil hfirst
    obtain ⟨rfl, rfl⟩ := List.cons.inj hsplit
    by_cases hnil : first = []
    · rw [hnil, List.intercalate_singleton]
      exact Or.inl rfl
    · refine Or.inr ⟨([','].intercalate first).length, ?_, first, last, rfl, hnil, hlast, rfl⟩
      rw [List.intercalate_cons_of_ne_nil hnil, List.length_append, List.length_append,
        List.length_singleton]
  · rintro (rfl | ⟨j, rfl, first, last, rfl, hfirst, hlast, rfl⟩)
    · exact ⟨[piece], rest, rfl, List.cons_ne_nil _ _, hrest, by rw [List.intercalate_singleton]⟩
    · refine ⟨piece :: first, last, rfl, List.cons_ne_nil _ _, hlast, ?_⟩
      rw [List.intercalate_cons_of_ne_nil hfirst, List.length_append, List.length_append,
        List.length_singleton]

theorem jointAt_cons_add_iff {piece : List Char} {rest : List (List Char)} (hrest : rest ≠ [])
    (j : Nat) : JointAt (piece :: rest) (piece.length + 1 + j) ↔ JointAt rest j := by
  rw [jointAt_cons_iff hrest]
  constructor
  · rintro (hat | ⟨k, hk, hjoint⟩)
    · omega
    · obtain rfl : j = k := by omega
      exact hjoint
  · intro hjoint
    exact Or.inr ⟨j, rfl, hjoint⟩

/-- Pieces are told by the text that they are joined to and the places of the joining commas. -/
theorem eq_of_jointAt_iff {pieces others : List (List Char)} (hpieces : pieces ≠ [])
    (hothers : others ≠ []) (htext : [','].intercalate pieces = [','].intercalate others)
    (hjoints : ∀ i, JointAt pieces i ↔ JointAt others i) : pieces = others := by
  induction pieces generalizing others with
  | nil => exact absurd rfl hpieces
  | cons piece rest ih =>
      obtain ⟨other, rest', rfl⟩ := List.exists_cons_of_ne_nil hothers
      by_cases hrest : rest = [] <;> by_cases hrest' : rest' = []
      · rw [hrest, hrest', List.intercalate_singleton, List.intercalate_singleton] at htext
        rw [hrest, hrest', htext]
      · have hjoint := (hjoints _).2 ((jointAt_cons_iff hrest').2 (Or.inl rfl))
        rw [hrest] at hjoint
        exact absurd hjoint (not_jointAt_singleton _ _)
      · have hjoint := (hjoints _).1 ((jointAt_cons_iff hrest).2 (Or.inl rfl))
        rw [hrest'] at hjoint
        exact absurd hjoint (not_jointAt_singleton _ _)
      · -- the first comma stands at one place, so the first pieces are equally long
        have hle := (jointAt_cons_iff hrest').1
          ((hjoints _).1 ((jointAt_cons_iff hrest).2 (Or.inl rfl)))
        have hge := (jointAt_cons_iff hrest).1
          ((hjoints _).2 ((jointAt_cons_iff hrest').2 (Or.inl rfl)))
        have hlength : piece.length = other.length := by
          rcases hle with hle | ⟨j, hle, -⟩
          · exact hle
          · rcases hge with hge | ⟨k, hge, -⟩ <;> omega
        rw [List.intercalate_cons_of_ne_nil hrest, List.intercalate_cons_of_ne_nil hrest',
          List.append_assoc, List.append_assoc] at htext
        obtain ⟨rfl, htail⟩ := List.append_inj htext hlength
        refine congrArg (piece :: ·) (ih hrest hrest' (List.append_cancel_left htail) fun j => ?_)
        rw [← jointAt_cons_add_iff hrest, ← jointAt_cons_add_iff hrest', hjoints]

/-- A text is divided in one way only. -/
theorem Divides.unique {cs : List Char} {pieces others : List (List Char)} (h : Divides cs pieces)
    (h' : Divides cs others) : pieces = others := by
  refine eq_of_jointAt_iff h.ne_nil h'.ne_nil (h.joined.trans h'.joined.symm) fun i => ?_
  rw [h.joints, h'.joints]

/-- Without a separating comma a text is one piece. -/
theorem divides_singleton {cs : List Char} (h : ∀ i, ¬ SeparatorAt cs i) : Divides cs [cs] where
  ne_nil := List.cons_ne_nil _ _
  joined := List.intercalate_singleton
  joints i := by simp [not_jointAt_singleton, h]

/-! ## Segments divide a text -/

theorem separatorAt_iff {cs : List Char} {i : Nat} :
    SeparatorAt cs i ↔ ∃ c, cs[i]? = some c ∧ separates (before cs i) c := by
  simp only [SeparatorAt, separates, Bool.and_eq_true, beq_iff_eq]
  constructor
  · rintro ⟨hc, hbare, hdepth⟩
    exact ⟨',', hc, ⟨rfl, hbare⟩, hdepth⟩
  · rintro ⟨c, hc, ⟨rfl, hbare⟩, hdepth⟩
    exact ⟨hc, hbare, hdepth⟩

theorem SeparatorAt.lt_length {cs : List Char} {i : Nat} (h : SeparatorAt cs i) : i < cs.length :=
  (List.getElem?_eq_some_iff.1 h.1).1

/-- Commas after a text that leaves nothing open separate as they do in the rest. -/
theorem separatorAt_append_iff {us : List Char} (hus : Surroundings.afterAll {} us = {})
    (cs : List Char) (i : Nat) :
    SeparatorAt (us ++ cs) (us.length + i) ↔ SeparatorAt cs i := by
  unfold SeparatorAt
  rw [before_append hus, List.getElem?_append_right (by omega), Nat.add_sub_cancel_left]

/-- What comes after a comma does not matter. -/
theorem SeparatorAt.append {cs : List Char} {i : Nat} (h : SeparatorAt cs i) (vs : List Char) :
    SeparatorAt (cs ++ vs) i := by
  have hlt := h.lt_length
  unfold SeparatorAt
  rw [before_append_left cs vs (Nat.le_of_lt hlt), List.getElem?_append_left hlt]
  exact h

/-- Nothing separates before the end of the first segment. -/
theorem not_separates_of_lt_cut {s : Surroundings} {cs : List Char} {i : Nat}
    (hi : i < (cut s cs).1.length) {c : Char} (hc : cs[i]? = some c) :
    ¬ separates (s.afterAll (cs.take i)) c := by
  induction cs generalizing s i with
  | nil => exact absurd hi (Nat.not_lt_zero i)
  | cons d cs ih =>
      rw [cut_cons] at hi
      by_cases hsep : separates s d
      · rw [if_pos hsep] at hi
        exact absurd hi (Nat.not_lt_zero i)
      · rw [if_neg hsep, List.length_cons] at hi
        cases i with
        | zero =>
            obtain rfl := Option.some.inj hc
            exact hsep
        | succ i => exact ih (Nat.lt_of_succ_lt_succ hi) hc

theorem SeparatorAt.length_le {cs first : List Char} {rest : List (List Char)} {i : Nat}
    (h : SeparatorAt cs i) (hsegments : segments cs = first :: rest) : first.length ≤ i := by
  by_contra hlt
  have hcut : (cut {} cs).1 = first := (List.cons.inj hsegments).1
  obtain ⟨c, hc, hsep⟩ := separatorAt_iff.1 h
  exact not_separates_of_lt_cut (hcut ▸ Nat.lt_of_not_le hlt) hc hsep

theorem not_separatorAt_of_segments {cs : List Char} (hwhole : segments cs = [cs]) (i : Nat) :
    ¬ SeparatorAt cs i := by
  intro h
  exact absurd h.lt_length (Nat.not_lt_of_le (h.length_le hwhole))

/-- Up to its first separating comma nothing separates in a text, and then what does in the rest. -/
theorem separatorAt_comma_iff {first rest : List Char}
    (hfirst : Surroundings.afterAll {} first = {})
    (hsegments : segments (first ++ ',' :: rest) = first :: segments rest) {i : Nat} :
    SeparatorAt (first ++ ',' :: rest) i ↔
      i = first.length ∨ ∃ j, i = first.length + 1 + j ∧ SeparatorAt rest j := by
  have hcomma : SeparatorAt (first ++ ',' :: rest) (first.length + 0) :=
    (separatorAt_append_iff hfirst _ 0).2 ⟨rfl, rfl, rfl⟩
  have hlater : ∀ j, SeparatorAt (first ++ ',' :: rest) (first.length + 1 + j) ↔
      SeparatorAt rest j := by
    intro j
    have hclosed : Surroundings.afterAll {} (first ++ [',']) = {} := by
      rw [Surroundings.afterAll_append, hfirst]
      rfl
    have hiff := separatorAt_append_iff hclosed rest j
    rwa [List.length_append, List.length_singleton, List.append_assoc,
      List.singleton_append] at hiff
  constructor
  · intro h
    obtain ⟨k, rfl⟩ := Nat.exists_eq_add_of_le (h.length_le hsegments)
    cases k with
    | zero => exact Or.inl rfl
    | succ j =>
        have hplace : first.length + (j + 1) = first.length + 1 + j := by omega
        rw [hplace] at h
        exact Or.inr ⟨j, hplace, (hlater j).1 h⟩
  · rintro (rfl | ⟨j, rfl, h⟩)
    · exact hcomma
    · exact (hlater j).2 h

/-- **The segments of a text are what it is divided into.** -/
theorem divides_segments (cs : List Char) : Divides cs (segments cs) := by
  induction cs using segments_induction with
  | whole cs hwhole =>
      rw [hwhole]
      exact divides_singleton (not_separatorAt_of_segments hwhole)
  | comma first rest hfirst hsegments ih =>
      rw [hsegments]
      refine ⟨List.cons_ne_nil _ _, ?_, fun i => ?_⟩
      · rw [List.intercalate_cons_of_ne_nil ih.ne_nil, ih.joined, List.append_assoc,
          List.singleton_append]
      · rw [jointAt_cons_iff ih.ne_nil, separatorAt_comma_iff hfirst hsegments]
        simp only [ih.joints]

theorem segments_eq_singleton {cs : List Char} (h : ∀ i, ¬ SeparatorAt cs i) :
    segments cs = [cs] :=
  (divides_segments cs).unique (divides_singleton h)

theorem not_separatorAt_of_mem_segments {cs segment : List Char} (h : segment ∈ segments cs)
    (i : Nat) : ¬ SeparatorAt segment i := by
  induction cs using segments_induction with
  | whole cs hwhole =>
      obtain rfl : segment = cs := by simpa [hwhole] using h
      exact not_separatorAt_of_segments hwhole i
  | comma first rest hfirst hsegments ih =>
      rw [hsegments, List.mem_cons] at h
      rcases h with rfl | hrest
      · intro hi
        have hle := (hi.append (',' :: rest)).length_le hsegments
        exact absurd hi.lt_length (Nat.not_lt_of_le hle)
      · exact ih hrest

/-! ## Texts joined by a comma -/

theorem cut_append_comma {s : Surroundings} {us : List Char} (hus : s.afterAll us = {})
    (cs : List Char) : cut s (us ++ ',' :: cs) = ((cut s us).1, (cut s us).2 ++ segments cs) := by
  induction us generalizing s with
  | nil =>
      obtain rfl : s = {} := hus
      rfl
  | cons u us ih =>
      rw [List.cons_append, cut_cons, cut_cons, ih hus]
      by_cases hsep : separates s u
      · rw [if_pos hsep, if_pos hsep, List.cons_append]
      · rw [if_neg hsep, if_neg hsep]

theorem segments_append_comma {us : List Char} (hus : Surroundings.afterAll {} us = {})
    (cs : List Char) : segments (us ++ ',' :: cs) = segments us ++ segments cs := by
  rw [segments, cut_append_comma hus]
  rfl

/-! ## Trimming -/

theorem trim_eq (cs : List Char) :
    Text.trim cs = (cs.dropWhile Text.isBlank).rdropWhile Text.isBlank := rfl

/-- Nothing is taken off a text that neither starts nor ends with a blank. -/
theorem trim_eq_self {cs : List Char} (hstart : ∀ c, cs.head? = some c → Text.isBlank c = false)
    (hend : ∀ c, cs.getLast? = some c → Text.isBlank c = false) : Text.trim cs = cs := by
  have hfirst : cs.dropWhile Text.isBlank = cs := by
    cases cs with
    | nil => rfl
    | cons c cs => exact List.dropWhile_cons_of_neg (by simp [hstart c rfl])
  rw [trim_eq, hfirst, List.rdropWhile_eq_self_iff]
  intro hne
  rw [Bool.not_eq_true]
  exact hend _ (List.getLast?_eq_some_getLast hne)

theorem trimStart_trim (cs : List Char) : Text.trimStart (Text.trim cs) = Text.trim cs := by
  rw [Text.trimStart, List.dropWhile_eq_self_iff]
  intro hlt
  -- what is left starts as it did before its end was trimmed
  have hstart : Text.trim cs <+: cs.dropWhile Text.isBlank := by
    rw [trim_eq]
    exact List.rdropWhile_prefix _ _
  rw [hstart.getElem hlt]
  exact List.dropWhile_get_zero_not Text.isBlank cs _

theorem trim_trim (cs : List Char) : Text.trim (Text.trim cs) = Text.trim cs := by
  calc Text.trim (Text.trim cs) = (Text.trim cs).rdropWhile Text.isBlank := by
        rw [trim_eq (Text.trim cs), ← Text.trimStart, trimStart_trim]
    _ = Text.trim cs := by
        rw [trim_eq cs, List.rdropWhile_idempotent]

/-! ## Alternatives -/

/-- An alternative has no alternatives but itself. -/
theorem alternatives_of_mem {selector part : String} (h : part ∈ alternatives selector) :
    alternatives part = [part] := by
  obtain ⟨segment, hmem, rfl⟩ := List.mem_map.1 h
  obtain ⟨us, vs, hsegment, hus, -⟩ := exists_trim segment
  have hwhole : segments (Text.trim segment) = [Text.trim segment] := by
    refine segments_eq_singleton fun i hi => ?_
    have hlater := (separatorAt_append_iff (afterAll_blanks hus) _ i).2 (hi.append vs)
    rw [← List.append_assoc, ← hsegment] at hlater
    exact not_separatorAt_of_mem_segments hmem _ hlater
  rw [alternatives, String.toList_ofList, hwhole, List.map_singleton, trim_trim]

/-- **Splitting is exact.** There is one way to divide a selector at the commas that stand for
themselves outside of brackets, and its alternatives are the pieces without the blanks around them.
Hence an alternative is not split again. A selector that leaves nothing open, joined by a comma to
another, has its own alternatives and then those of the other. The alternatives of a resolved
selector are the resolved alternatives. -/
theorem alternatives_divide (selector : String) :
    (∃ pieces, (∀ others, Divides selector.toList others ↔ others = pieces) ∧
      alternatives selector = pieces.map fun piece => String.ofList (Text.trim piece)) ∧
    (∀ part ∈ alternatives selector, alternatives part = [part]) ∧
    (∀ other : String, (Surroundings.afterAll {} selector.toList).isBare →
      (Surroundings.afterAll {} selector.toList).depth = 0 →
        alternatives (selector ++ "," ++ other) = alternatives selector ++ alternatives other) ∧
    ∀ scope : Scope, scope.Plain →
      alternatives (resolve scope selector) = (alternatives selector).map (resolve scope) := by
  refine ⟨⟨segments selector.toList, fun others => ?_, rfl⟩, fun part => alternatives_of_mem,
    fun other hbare hdepth => ?_, fun scope h => alternatives_resolve h selector⟩
  · constructor
    · intro h
      exact h.unique (divides_segments _)
    · rintro rfl
      exact divides_segments _
  · have hclosed := Surroundings.eq_empty_iff.2 ⟨hbare, hdepth⟩
    have htext : (selector ++ "," ++ other).toList = selector.toList ++ ',' :: other.toList := by
      rw [String.toList_append, String.toList_append, List.append_assoc]
      rfl
    rw [alternatives, htext, segments_append_comma hclosed, List.map_append]
    rfl

/-- The commas in brackets and in a string do not divide, and the closing bracket at the start
closes nothing. -/
theorem alternatives_divide_of_brackets :
    Scope.Plain ⟨"a"⟩ ∧
      alternatives ")&, :is(.x, &) [title=',']" = [")&", ":is(.x, &) [title=',']"] ∧
      alternatives (")&, :is(.x, &) [title=',']" ++ "," ++ "\\,&") =
        [")&", ":is(.x, &) [title=',']", "\\,&"] ∧
      alternatives (resolve ⟨"a"⟩ ")&, :is(.x, &) [title=',']") =
        [").a", ":is(.x, .a) [title=',']"] := by
  have hplain : Scope.Plain ⟨"a"⟩ := by decide
  have hparts : alternatives ")&, :is(.x, &) [title=',']" = [")&", ":is(.x, &) [title=',']"] := by
    decide +kernel
  have hother : alternatives "\\,&" = ["\\,&"] := by decide +kernel
  have hresolved : [")&", ":is(.x, &) [title=',']"].map (resolve ⟨"a"⟩) =
      [").a", ":is(.x, .a) [title=',']"] := by
    decide +kernel
  obtain ⟨-, -, hjoined, hkept⟩ := alternatives_divide ")&, :is(.x, &) [title=',']"
  refine ⟨hplain, hparts, ?_, ?_⟩
  · rw [hjoined "\\,&" (by decide +kernel) (by decide +kernel), hparts, hother]
    rfl
  · rw [hkept ⟨"a"⟩ hplain, hparts, hresolved]

end Selector

end ScopedCss
