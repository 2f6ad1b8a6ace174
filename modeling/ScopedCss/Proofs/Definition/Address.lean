import Mathlib.Data.List.Lex
import ScopedCss.Definition.Basic

/-! # Addresses of nested definitions

A definition that is nested in another is reached by turns, each to one of the definitions directly
below the queries of one kind. The turns are its address, and `Definition.at?` follows an address.

Addresses have an order of their own, `Address.Before`: outer definitions come before those nested
in them, media before supports, and the definitions of one kind in their order. An address leads
through a path of conditions, and if no query stands twice the path tells the address
(`Definition.address_eq`).
-/

set_option autoImplicit false

namespace ScopedCss

/-! ## Definitions below definitions -/

/-- The definitions directly below the queries of one kind. -/
def Definition.children (definition : Definition) : ConditionKind → List (String × Definition)
  | .media => definition.media
  | .supports => definition.supports

theorem Definition.sizeOf_lt_of_mem_children {definition : Definition} {kind : ConditionKind}
    {entry : String × Definition} (h : entry ∈ definition.children kind) :
    sizeOf entry.2 < sizeOf definition := by
  have hentry : sizeOf entry = 1 + sizeOf entry.1 + sizeOf entry.2 := by cases entry; rfl
  have hlt := List.sizeOf_lt_of_mem h
  obtain ⟨level, media, supports⟩ := definition
  cases kind <;> simp only [children, Definition.mk.sizeOf_spec] at hlt ⊢ <;> omega

/-- What holds of a definition as soon as it holds of all definitions directly below it, holds of
every definition. -/
theorem Definition.induction {motive : Definition → Prop}
    (step : ∀ definition : Definition,
      (∀ kind, ∀ entry ∈ definition.children kind, motive entry.2) → motive definition)
    (definition : Definition) : motive definition :=
  step definition fun _ entry hentry =>
    have _hlt := Definition.sizeOf_lt_of_mem_children hentry
    Definition.induction step entry.2
termination_by sizeOf definition

/-! ## Addresses -/

/-- A turn from a definition to one directly below it, by the number of its query among those of
its kind. -/
structure Turn where
  kind : ConditionKind
  position : Nat
  deriving DecidableEq, Repr

/-- The turns that lead to a nested definition, the outermost first. -/
abbrev Address := List Turn

/-- The definition at an address, with the conditions that it stands under. -/
def Definition.at? (definition : Definition) : Address → Option (List Condition × Definition)
  | [] => some ([], definition)
  | turn :: rest =>
      (definition.children turn.kind)[turn.position]?.bind fun entry =>
        (entry.2.at? rest).map fun found => (⟨turn.kind, entry.1⟩ :: found.1, found.2)

/-- Media queries come before supports queries, and those of one kind in their order. -/
inductive Turn.Before : Turn → Turn → Prop
  | kind (i j : Nat) : Before ⟨.media, i⟩ ⟨.supports, j⟩
  | position (kind : ConditionKind) {i j : Nat} (h : i < j) : Before ⟨kind, i⟩ ⟨kind, j⟩

/-- One address comes before another if it is a proper beginning of it, or if it takes the earlier
turn where they part. -/
def Address.Before : Address → Address → Prop := List.Lex Turn.Before

/-! ## The order of addresses -/

theorem Turn.Before.irrefl (turn : Turn) : ¬ turn.Before turn := by
  intro h
  cases h with
  | position _ hlt => exact Nat.lt_irrefl _ hlt

theorem Turn.Before.asymm {turn other : Turn} (h : turn.Before other) : ¬ other.Before turn := by
  intro hother
  cases h with
  | kind i j => cases hother
  | position kind hlt =>
      cases hother with
      | position _ hgt => exact Nat.lt_asymm hlt hgt

namespace Address

theorem Before.asymm {address other : Address} (h : address.Before other) :
    ¬ other.Before address := by
  intro hother
  induction h with
  | nil => cases hother
  | rel hturn =>
      cases hother with
      | rel hback => exact hturn.asymm hback
      | cons _ => exact Turn.Before.irrefl _ hturn
  | cons _ ih =>
      cases hother with
      | rel hback => exact Turn.Before.irrefl _ hback
      | cons hrest => exact ih hrest

theorem Before.ne {address other : Address} (h : address.Before other) : address ≠ other := by
  rintro rfl
  exact h.asymm h

/-- The beginnings of an address come before it. -/
theorem before_of_prefix {address other : Address} (h : address <+: other)
    (hne : address ≠ other) : address.Before other := by
  obtain ⟨rest, rfl⟩ := h
  have hrest : rest ≠ [] := by
    rintro rfl
    exact hne (List.append_nil address).symm
  obtain ⟨turn, rest, rfl⟩ := List.exists_cons_of_ne_nil hrest
  induction address with
  | nil => exact List.Lex.nil
  | cons first address ih => exact List.Lex.cons (ih (by simp))

end Address

/-! ## Following an address -/

namespace Definition

theorem at?_cons_eq_some_iff {definition inner : Definition} {turn : Turn} {rest : Address}
    {path : List Condition} :
    definition.at? (turn :: rest) = some (path, inner) ↔
      ∃ query child tail, (definition.children turn.kind)[turn.position]? = some (query, child) ∧
        child.at? rest = some (tail, inner) ∧ path = ⟨turn.kind, query⟩ :: tail := by
  rw [at?, Option.bind_eq_some_iff]
  constructor
  · rintro ⟨⟨query, child⟩, hchild, hfound⟩
    obtain ⟨⟨tail, _⟩, hrest, hpair⟩ := Option.map_eq_some_iff.1 hfound
    obtain ⟨rfl, rfl⟩ := Prod.mk.inj hpair
    exact ⟨query, child, tail, hchild, hrest, rfl⟩
  · rintro ⟨query, child, tail, hchild, hrest, rfl⟩
    exact ⟨(query, child), hchild, by rw [hrest]; rfl⟩

/-- A turn leads through one condition. -/
theorem length_of_at? {definition inner : Definition} {address : Address} {path : List Condition}
    (h : definition.at? address = some (path, inner)) : path.length = address.length := by
  induction address generalizing definition path with
  | nil =>
      obtain ⟨rfl, -⟩ := Prod.mk.inj (Option.some.inj h)
      rfl
  | cons turn rest ih =>
      obtain ⟨query, child, tail, -, hrest, rfl⟩ := at?_cons_eq_some_iff.1 h
      rw [List.length_cons, List.length_cons, ih hrest]

/-- The beginnings of an address lead through the beginnings of its path. -/
theorem at?_take {definition inner : Definition} {address : Address} {path : List Condition}
    (h : definition.at? address = some (path, inner)) (n : Nat) :
    ∃ outer, definition.at? (address.take n) = some (path.take n, outer) := by
  induction address generalizing definition path n with
  | nil =>
      obtain ⟨rfl, -⟩ := Prod.mk.inj (Option.some.inj h)
      exact ⟨definition, by rw [List.take_nil, List.take_nil]; rfl⟩
  | cons turn rest ih =>
      obtain ⟨query, child, tail, hchild, hrest, rfl⟩ := at?_cons_eq_some_iff.1 h
      cases n with
      | zero => exact ⟨definition, rfl⟩
      | succ n =>
          obtain ⟨outer, houter⟩ := ih hrest n
          exact ⟨outer, at?_cons_eq_some_iff.2 ⟨query, child, _, hchild, houter, rfl⟩⟩

end Definition

/-! ## Paths that tell the address -/

/-- No key stands twice in the maps of a block. -/
structure Block.Distinct (block : Block) : Prop where
  custom : Entries.Distinct block.custom
  properties : Entries.Distinct block.properties

/-- No key stands twice in the maps of a level and of its blocks. -/
structure Level.Distinct (level : Level) : Prop where
  base : level.base.Distinct
  pseudos : Entries.Distinct level.pseudos
  selectors : Entries.Distinct level.selectors
  pseudo_blocks : ∀ entry ∈ level.pseudos, entry.2.Distinct
  selector_blocks : ∀ entry ∈ level.selectors, entry.2.Distinct

/-- No key stands twice in any map of a definition, at any depth. -/
inductive Definition.Distinct : Definition → Prop
  | mk {definition : Definition} (level : definition.level.Distinct)
      (queries : ∀ kind, Entries.Distinct (definition.children kind))
      (children : ∀ kind, ∀ entry ∈ definition.children kind, Distinct entry.2) :
      Distinct definition

namespace Definition

/-- A query that does not stand twice tells the turn to its definition. -/
theorem position_eq {entries : List (String × Definition)} (hdistinct : Entries.Distinct entries)
    {i j : Nat} {query : String} {child other : Definition}
    (hi : entries[i]? = some (query, child)) (hj : entries[j]? = some (query, other)) : i = j := by
  have hquery : ∀ {k : Nat} {found : Definition}, entries[k]? = some (query, found) →
      (Entries.keys entries)[k]? = some query := by
    intro k found hk
    rw [Entries.keys, List.getElem?_map, hk]
    rfl
  have hlt : i < (Entries.keys entries).length :=
    (List.getElem?_eq_some_iff.1 (hquery hi)).1
  exact (List.getElem?_inj hlt hdistinct).1 ((hquery hi).trans (hquery hj).symm)

/-- If no query stands twice, a path leads to one definition only. -/
theorem address_eq {definition inner other : Definition} (hdistinct : definition.Distinct)
    {a b : Address} {path : List Condition} (ha : definition.at? a = some (path, inner))
    (hb : definition.at? b = some (path, other)) : a = b := by
  induction a generalizing definition b path with
  | nil =>
      have hlength := (length_of_at? hb).symm.trans (length_of_at? ha)
      exact (List.length_eq_zero_iff.1 hlength).symm
  | cons turn rest ih =>
      obtain ⟨query, child, tail, hchild, hrest, rfl⟩ := at?_cons_eq_some_iff.1 ha
      cases b with
      | nil => exact absurd (length_of_at? hb) (by simp)
      | cons turn' rest' =>
          obtain ⟨query', child', tail', hchild', hrest', hpath⟩ := at?_cons_eq_some_iff.1 hb
          obtain ⟨hcondition, rfl⟩ := List.cons.inj hpath
          obtain ⟨hkind, rfl⟩ := Condition.mk.inj hcondition
          obtain ⟨kind, position⟩ := turn
          obtain ⟨kind', position'⟩ := turn'
          obtain rfl : kind = kind' := hkind
          obtain ⟨-, hqueries, hchildren⟩ := hdistinct
          obtain rfl := position_eq (hqueries kind) hchild hchild'
          obtain rfl : child = child' :=
            (Prod.mk.inj (Option.some.inj (hchild.symm.trans hchild'))).2
          have hmem := List.mem_of_getElem? hchild
          rw [ih (hchildren kind _ hmem) hrest hrest']

/-- If no key stands twice in a definition, none does in a definition nested in it. -/
theorem Distinct.of_at? {definition inner : Definition} (hdistinct : definition.Distinct)
    {address : Address} {path : List Condition}
    (h : definition.at? address = some (path, inner)) : inner.Distinct := by
  induction address generalizing definition path with
  | nil =>
      obtain ⟨-, rfl⟩ := Prod.mk.inj (Option.some.inj h)
      exact hdistinct
  | cons turn rest ih =>
      obtain ⟨query, child, tail, hchild, hrest, -⟩ := at?_cons_eq_some_iff.1 h
      obtain ⟨-, -, hchildren⟩ := hdistinct
      exact ih (hchildren turn.kind _ (List.mem_of_getElem? hchild)) hrest

end Definition

end ScopedCss
