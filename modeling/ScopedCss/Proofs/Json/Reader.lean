import ScopedCss.Json.Reader

/-! # What the reader builds

An object that repeats a key is read with that key once, so in a value that was read no key stands
twice, at any depth (`Json.Distinct`). Statements about documents and definitions that ask for
distinct keys therefore hold of whatever was read from text.

The reader holds values in unfinished containers on its stack. `State.Distinct` says that no key
stands twice in any of these as far as they were read. One token keeps it (`step_distinct`), so the
value of a whole run has it too (`readFrom_distinct`).
-/

set_option autoImplicit false

namespace ScopedCss

/-- No key stands twice in an object, at any depth. -/
inductive Json.Distinct : Json → Prop
  | null : Distinct .null
  | bool (value : Bool) : Distinct (.bool value)
  | number (value : Json.Number) : Distinct (.number value)
  | string (content : String) : Distinct (.string content)
  | array {items : List Json} (h : ∀ item ∈ items, Distinct item) : Distinct (.array items)
  | object {entries : List (String × Json)} (keys : Entries.Distinct entries)
      (values : ∀ entry ∈ entries, Distinct entry.2) : Distinct (.object entries)

namespace Json

/-! ## Containers that grow -/

theorem distinct_array_iff {items : List Json} :
    Distinct (.array items) ↔ ∀ item ∈ items, item.Distinct := by
  constructor
  · intro h
    cases h with
    | array hitems => exact hitems
  · exact .array

theorem distinct_object_iff {entries : Entries Json} :
    Distinct (.object entries) ↔ Entries.Distinct entries ∧ ∀ entry ∈ entries, entry.2.Distinct := by
  constructor
  · intro h
    cases h with
    | object hkeys hvalues => exact ⟨hkeys, hvalues⟩
  · rintro ⟨hkeys, hvalues⟩
    exact .object hkeys hvalues

theorem distinct_array_nil : Distinct (.array []) := .array (List.forall_mem_nil _)

theorem distinct_object_nil : Distinct (.object []) :=
  .object List.nodup_nil (List.forall_mem_nil _)

namespace Distinct

/-- An array takes one more item. -/
theorem cons {items : List Json} (h : Distinct (.array items)) {value : Json}
    (hvalue : value.Distinct) : Distinct (.array (value :: items)) :=
  .array (List.forall_mem_cons.2 ⟨hvalue, distinct_array_iff.1 h⟩)

theorem reverse {items : List Json} (h : Distinct (.array items)) :
    Distinct (.array items.reverse) :=
  .array fun item hitem => distinct_array_iff.1 h item (List.mem_reverse.1 hitem)

/-- An object takes one more entry, whether its key is new or not. -/
theorem set {entries : Entries Json} (h : Distinct (.object entries)) (key : String)
    {value : Json} (hvalue : value.Distinct) : Distinct (.object (entries.set key value)) := by
  obtain ⟨hkeys, hvalues⟩ := distinct_object_iff.1 h
  refine .object (hkeys.set key value) fun entry hentry => ?_
  rcases Entries.mem_of_mem_set hentry with hold | rfl
  · exact hvalues entry hold
  · exact hvalue

end Distinct

/-! ## The invariant -/

/-- No key stands twice in an open container, as far as it was read. -/
def Frame.Distinct : Frame → Prop
  | .array items => Json.Distinct (.array items)
  | .object entries _ => Json.Distinct (.object entries)

/-- No key stands twice in any open container. -/
def State.Distinct : State → Prop
  | .value stack | .firstItem stack | .firstKey stack => ∀ frame ∈ stack, frame.Distinct
  | .afterItem items stack => Json.Distinct (.array items) ∧ ∀ frame ∈ stack, frame.Distinct
  | .key entries stack | .colon entries _ stack | .afterEntry entries stack =>
      Json.Distinct (.object entries) ∧ ∀ frame ∈ stack, frame.Distinct

def Progress.Distinct : Progress → Prop
  | .reading state => state.Distinct
  | .done value => value.Distinct

/-! ## One token -/

theorem deliver_distinct {value : Json} (hvalue : value.Distinct) {stack : List Frame}
    (hstack : ∀ frame ∈ stack, frame.Distinct) : (deliver value stack).Distinct := by
  cases stack with
  | nil => exact hvalue
  | cons frame stack =>
      obtain ⟨hframe, houter⟩ := List.forall_mem_cons.1 hstack
      cases frame with
      | array items => exact ⟨Distinct.cons hframe hvalue, houter⟩
      | object entries key => exact ⟨Distinct.set hframe key hvalue, houter⟩

theorem scalar?_distinct {mode : Mode} {token : Token} {value : Json}
    (h : mode.scalar? token = some value) : value.Distinct := by
  cases token with
  | null => cases h; exact .null
  | bool b => cases h; exact .bool b
  | number literal =>
      cases mode with
      | strict =>
          obtain ⟨number, -, rfl⟩ := Option.map_eq_some_iff.1 h
          exact .number number
      | lenient => cases h; exact .null
  | string pieces =>
      obtain ⟨content, -, rfl⟩ := Option.map_eq_some_iff.1 h
      exact .string content
  | _ => cases h

theorem startValue_distinct {mode : Mode} {stack : List Frame} {token : Token} {next : Progress}
    (hstack : ∀ frame ∈ stack, frame.Distinct) (h : startValue mode stack token = some next) :
    next.Distinct := by
  unfold startValue at h
  split at h
  · split at h
    · cases h; exact hstack
    · cases h
  · split at h
    · cases h; exact hstack
    · cases h
  · obtain ⟨value, hvalue, rfl⟩ := Option.map_eq_some_iff.1 h
    exact deliver_distinct (scalar?_distinct hvalue) hstack

/-- What does not end an array starts its first item. -/
theorem step_firstItem (mode : Mode) (stack : List Frame) {token : Token}
    (h : token ≠ .closeBracket) :
    step mode (.firstItem stack) token = startValue mode (.array [] :: stack) token := by
  rw [step]
  exact h

/-- **One token** keeps the keys of every open container distinct. -/
theorem step_distinct {mode : Mode} {state : State} {token : Token} {next : Progress}
    (hstate : state.Distinct) (h : step mode state token = some next) : next.Distinct := by
  cases state with
  | value stack => exact startValue_distinct hstate h
  | firstItem stack =>
      by_cases htoken : token = .closeBracket
      · subst htoken
        cases h
        exact deliver_distinct distinct_array_nil hstate
      · have hfirst : (Frame.array []).Distinct := distinct_array_nil
        rw [step_firstItem mode stack htoken] at h
        exact startValue_distinct (List.forall_mem_cons.2 ⟨hfirst, hstate⟩) h
  | afterItem items stack =>
      obtain ⟨hitems, hstack⟩ := hstate
      cases token with
      | comma => cases h; exact List.forall_mem_cons.2 ⟨hitems, hstack⟩
      | closeBracket => cases h; exact deliver_distinct hitems.reverse hstack
      | _ => cases h
  | firstKey stack =>
      cases token with
      | string pieces =>
          obtain ⟨key, -, rfl⟩ := Option.map_eq_some_iff.1 h
          exact ⟨distinct_object_nil, hstate⟩
      | closeBrace => cases h; exact deliver_distinct distinct_object_nil hstate
      | _ => cases h
  | key entries stack =>
      cases token with
      | string pieces =>
          obtain ⟨key, -, rfl⟩ := Option.map_eq_some_iff.1 h
          exact hstate
      | _ => cases h
  | colon entries key stack =>
      cases token with
      | colon => cases h; exact List.forall_mem_cons.2 hstate
      | _ => cases h
  | afterEntry entries stack =>
      obtain ⟨hentries, hstack⟩ := hstate
      cases token with
      | comma => cases h; exact ⟨hentries, hstack⟩
      | closeBrace => cases h; exact deliver_distinct hentries hstack
      | _ => cases h

/-! ## A run -/

theorem readFrom_distinct {mode : Mode} {state : State} {ts rest : List Token} {value : Json}
    (hstate : state.Distinct) (h : readFrom mode state ts = some (value, rest)) :
    value.Distinct := by
  induction ts generalizing state with
  | nil => cases h
  | cons token tail ih =>
      unfold readFrom at h
      split at h
      · cases h
      · next _ hstep =>
          cases h
          exact step_distinct hstate hstep
      · next next hstep => exact ih (step_distinct hstate hstep) h

/-- **What the reader builds**: no key stands twice in a value at the start of some tokens. -/
theorem read?_distinct {ts rest : List Token} {value : Json} (h : read? ts = some (value, rest)) :
    value.Distinct := by
  have hstart : (State.value []).Distinct := List.forall_mem_nil _
  exact readFrom_distinct hstart h

theorem ofText?_distinct {text : String} {value : Json} (h : ofText? text = some value) :
    value.Distinct := by
  unfold ofText? at h
  split at h
  · next hread =>
      cases h
      exact read?_distinct hread
  · cases h

end Json

end ScopedCss
