import Mathlib.Data.List.Forall2
import ScopedCss.Proofs.Definition.Address

/-! # The levels of a definition in preorder

The levels of a definition are what stands at its addresses, taken in their order: the addresses at
which there is a definition can be listed in order (`Definition.mem_addresses`,
`Definition.pairwise_addresses`), and the levels go with them one by one
(`Definition.forall₂_levels`). The paths of the levels follow from that: no two levels have the same
path if no query stands twice (`Definition.nodup_paths`), and the paths on the way to a level are
those of earlier ones (`Definition.exists_outer_level`).
-/

set_option autoImplicit false

namespace ScopedCss

/-! ## Lists that go together entry by entry -/

section

variable {α β : Type} {R : α → β → Prop} {as : List α} {bs : List β}

theorem exists_mem_of_forall₂ (h : List.Forall₂ R as bs) {a : α} (ha : a ∈ as) :
    ∃ b ∈ bs, R a b := by
  obtain ⟨i, hi, rfl⟩ := List.mem_iff_getElem.1 ha
  have hi' : i < bs.length := h.length_eq ▸ hi
  exact ⟨bs[i], List.getElem_mem hi', h.get hi hi'⟩

theorem exists_split_of_forall₂ {b : β} {before after : List β}
    (h : List.Forall₂ R as (before ++ b :: after)) :
    ∃ first a last, as = first ++ a :: last ∧ List.Forall₂ R first before ∧ R a b ∧
      List.Forall₂ R last after := by
  have hfirst := List.forall₂_take_append as before (b :: after) h
  have hrest := List.forall₂_drop_append as before (b :: after) h
  obtain ⟨a, last, hab, hlast, hdrop⟩ := List.forall₂_cons_right_iff.1 hrest
  exact ⟨_, a, last, by rw [← hdrop, List.take_append_drop], hfirst, hab, hlast⟩

/-- An order of the one list is one of the other, if related entries keep it. -/
theorem pairwise_of_forall₂ {S : α → α → Prop} {T : β → β → Prop} (h : List.Forall₂ R as bs)
    (hS : as.Pairwise S) (hT : ∀ a a' b b', R a b → R a' b' → S a a' → T b b') :
    bs.Pairwise T := by
  rw [List.pairwise_iff_getElem] at hS ⊢
  intro i j hi hj hlt
  have hlength := h.length_eq
  exact hT _ _ _ _ (h.get (by omega) hi) (h.get (by omega) hj) (hS i j (by omega) (by omega) hlt)

end

/-! ## Listing the addresses -/

mutual

/-- The addresses of a definition and of all definitions nested in it, in order. -/
def Definition.addresses : Definition → List Address
  | ⟨_, media, supports⟩ =>
      [] :: (addressesUnder .media 0 media ++ addressesUnder .supports 0 supports)

/-- The addresses below the queries of one kind, of which the first has a given position. -/
def addressesUnder (kind : ConditionKind) : Nat → List (String × Definition) → List Address
  | _, [] => []
  | position, (_, definition) :: rest =>
      definition.addresses.map (⟨kind, position⟩ :: ·) ++ addressesUnder kind (position + 1) rest

end

theorem Definition.addresses_eq (definition : Definition) :
    definition.addresses =
      [] :: (addressesUnder .media 0 (definition.children .media)
        ++ addressesUnder .supports 0 (definition.children .supports)) := by
  cases definition
  rfl

theorem Definition.levels_eq (definition : Definition) :
    definition.levels =
      ([], definition.level) :: (nestedUnder .media (definition.children .media)
        ++ nestedUnder .supports (definition.children .supports)) := by
  cases definition
  rfl

theorem addressesUnder_cons (kind : ConditionKind) (position : Nat) (entry : String × Definition)
    (rest : List (String × Definition)) :
    addressesUnder kind position (entry :: rest) =
      entry.2.addresses.map (⟨kind, position⟩ :: ·) ++ addressesUnder kind (position + 1) rest :=
  rfl

theorem nestedUnder_cons (kind : ConditionKind) (entry : String × Definition)
    (rest : List (String × Definition)) :
    nestedUnder kind (entry :: rest) =
      entry.2.levels.map (Level.under ⟨kind, entry.1⟩) ++ nestedUnder kind rest := rfl

/-- The addresses below the queries of a kind take their first turn there. -/
theorem exists_of_mem_addressesUnder {kind : ConditionKind}
    {definitions : List (String × Definition)} {position : Nat} {address : Address}
    (h : address ∈ addressesUnder kind position definitions) :
    ∃ i rest, position ≤ i ∧ address = ⟨kind, i⟩ :: rest := by
  induction definitions generalizing position with
  | nil => exact absurd h List.not_mem_nil
  | cons entry definitions ih =>
      rw [addressesUnder_cons, List.mem_append, List.mem_map] at h
      rcases h with ⟨rest, -, rfl⟩ | hlater
      · exact ⟨position, rest, Nat.le_refl _, rfl⟩
      · obtain ⟨i, rest, hle, rfl⟩ := ih hlater
        exact ⟨i, rest, by omega, rfl⟩

theorem pairwise_addressesUnder (kind : ConditionKind) {definitions : List (String × Definition)}
    (h : ∀ entry ∈ definitions, entry.2.addresses.Pairwise Address.Before) (position : Nat) :
    (addressesUnder kind position definitions).Pairwise Address.Before := by
  induction definitions generalizing position with
  | nil => exact List.Pairwise.nil
  | cons entry definitions ih =>
      rw [addressesUnder_cons, List.pairwise_append]
      refine ⟨?_, ih (fun e he => h e (List.mem_cons_of_mem _ he)) _, ?_⟩
      · have hfirst := h entry List.mem_cons_self
        exact hfirst.map _ fun _ _ => List.Lex.cons
      · intro address haddress other hother
        obtain ⟨rest, -, rfl⟩ := List.mem_map.1 haddress
        obtain ⟨i, later, hle, rfl⟩ := exists_of_mem_addressesUnder hother
        exact List.Lex.rel (.position kind (by omega))

namespace Definition

/-- The addresses are listed in their order, and hence each of them once. -/
theorem pairwise_addresses (definition : Definition) :
    definition.addresses.Pairwise Address.Before := by
  induction definition using Definition.induction with
  | step definition ih =>
      rw [addresses_eq, List.pairwise_cons, List.pairwise_append]
      refine ⟨?_, pairwise_addressesUnder .media (ih .media) 0,
        pairwise_addressesUnder .supports (ih .supports) 0, ?_⟩
      · intro address haddress
        rcases List.mem_append.1 haddress with hmem | hmem <;>
          obtain ⟨i, rest, -, rfl⟩ := exists_of_mem_addressesUnder hmem <;> exact List.Lex.nil
      · intro address haddress other hother
        obtain ⟨i, rest, -, rfl⟩ := exists_of_mem_addressesUnder haddress
        obtain ⟨j, later, -, rfl⟩ := exists_of_mem_addressesUnder hother
        exact List.Lex.rel (.kind i j)

/-! ## Levels at addresses -/

/-- A level stands at an address, under the conditions that the address leads through. -/
def LevelAt (definition : Definition) (address : Address) (entry : List Condition × Level) : Prop :=
  ∃ inner, definition.at? address = some (entry.1, inner) ∧ inner.level = entry.2

theorem LevelAt.cons {definition child : Definition} {kind : ConditionKind} {position : Nat}
    {query : String} (hchild : (definition.children kind)[position]? = some (query, child))
    {rest : Address} {entry : List Condition × Level} (h : child.LevelAt rest entry) :
    definition.LevelAt (⟨kind, position⟩ :: rest) (Level.under ⟨kind, query⟩ entry) := by
  obtain ⟨inner, hinner, hlevel⟩ := h
  exact ⟨inner, at?_cons_eq_some_iff.2 ⟨query, child, entry.1, hchild, hinner, rfl⟩, hlevel⟩

/-- One level stands at an address. -/
theorem LevelAt.eq {definition inner : Definition} {address : Address} {path : List Condition}
    {entry : List Condition × Level} (h : definition.LevelAt address entry)
    (hinner : definition.at? address = some (path, inner)) : entry = (path, inner.level) := by
  obtain ⟨found, hfound, hlevel⟩ := h
  rw [hinner] at hfound
  obtain ⟨rfl, rfl⟩ := Prod.mk.inj (Option.some.inj hfound)
  rw [hlevel]

/-- The levels below the last queries of a kind stand at the addresses below these queries. -/
theorem forall₂_nestedUnder {definition : Definition} {kind : ConditionKind}
    (first : List (String × Definition)) {last : List (String × Definition)}
    (hchildren : definition.children kind = first ++ last)
    (h : ∀ entry ∈ last, List.Forall₂ entry.2.LevelAt entry.2.addresses entry.2.levels) :
    List.Forall₂ definition.LevelAt (addressesUnder kind first.length last)
      (nestedUnder kind last) := by
  induction last generalizing first with
  | nil => exact List.Forall₂.nil
  | cons entry last ih =>
      rw [addressesUnder_cons, nestedUnder_cons]
      refine List.rel_append ?_ ?_
      · have hchild : (definition.children kind)[first.length]? = some (entry.1, entry.2) := by
          rw [hchildren, List.getElem?_append_right (Nat.le_refl _), Nat.sub_self]
          rfl
        rw [List.forall₂_map_left_iff, List.forall₂_map_right_iff]
        exact (h entry List.mem_cons_self).imp fun _ _ hlevel => hlevel.cons hchild
      · have hnext : definition.children kind = (first ++ [entry]) ++ last := by
          rw [hchildren, List.append_assoc]
          rfl
        have hlast := ih (first ++ [entry]) hnext fun e he => h e (List.mem_cons_of_mem _ he)
        rwa [List.length_append, List.length_singleton] at hlast

/-- The levels of a definition stand at its addresses in order. -/
theorem forall₂_levels (definition : Definition) :
    List.Forall₂ definition.LevelAt definition.addresses definition.levels := by
  induction definition using Definition.induction with
  | step definition ih =>
      rw [addresses_eq, levels_eq]
      refine .cons ⟨definition, rfl, rfl⟩ (List.rel_append ?_ ?_)
      · exact forall₂_nestedUnder [] rfl (ih .media)
      · exact forall₂_nestedUnder [] rfl (ih .supports)

theorem mem_addressesUnder (kind : ConditionKind) {definitions : List (String × Definition)}
    {i : Nat} {query : String} {child : Definition} (hchild : definitions[i]? = some (query, child))
    {rest : Address} (h : rest ∈ child.addresses) (position : Nat) :
    ⟨kind, position + i⟩ :: rest ∈ addressesUnder kind position definitions := by
  induction definitions generalizing i position with
  | nil => exact absurd hchild (by simp)
  | cons entry definitions ih =>
      rw [addressesUnder_cons, List.mem_append, List.mem_map]
      cases i with
      | zero =>
          obtain rfl : entry = (query, child) := Option.some.inj hchild
          exact Or.inl ⟨rest, h, rfl⟩
      | succ i =>
          have hlater : definitions[i]? = some (query, child) := hchild
          have hmem := ih hlater (position + 1)
          rw [Nat.add_right_comm, Nat.add_assoc] at hmem
          exact Or.inr hmem

theorem mem_addresses_of_at? {definition inner : Definition} {address : Address}
    {path : List Condition} (h : definition.at? address = some (path, inner)) :
    address ∈ definition.addresses := by
  induction address generalizing definition path with
  | nil =>
      rw [addresses_eq]
      exact List.mem_cons_self
  | cons turn rest ih =>
      obtain ⟨query, child, tail, hchild, hrest, -⟩ := at?_cons_eq_some_iff.1 h
      have hmem := mem_addressesUnder turn.kind hchild (ih hrest) 0
      rw [Nat.zero_add] at hmem
      rw [addresses_eq, List.mem_cons, List.mem_append]
      obtain ⟨_ | _, position⟩ := turn
      · exact Or.inr (Or.inl hmem)
      · exact Or.inr (Or.inr hmem)

/-- The addresses listed are those at which there is a definition. -/
theorem mem_addresses {definition : Definition} {address : Address} :
    address ∈ definition.addresses ↔ (definition.at? address).isSome := by
  constructor
  · intro h
    obtain ⟨entry, -, inner, hinner, -⟩ := exists_mem_of_forall₂ definition.forall₂_levels h
    rw [hinner]
    rfl
  · intro h
    obtain ⟨⟨path, inner⟩, hfound⟩ := Option.isSome_iff_exists.1 h
    exact mem_addresses_of_at? hfound

/-- The addresses listed before an address are those that come before it. -/
theorem mem_first_iff {definition : Definition} {first last : List Address} {address : Address}
    (h : definition.addresses = first ++ address :: last) {earlier : Address} :
    earlier ∈ first ↔ earlier.Before address ∧ (definition.at? earlier).isSome := by
  have hsorted := definition.pairwise_addresses
  rw [← mem_addresses, h, List.mem_append, List.mem_cons]
  rw [h, List.pairwise_append, List.pairwise_cons] at hsorted
  obtain ⟨-, ⟨hlast, -⟩, hfirst⟩ := hsorted
  constructor
  · intro hmem
    exact ⟨hfirst earlier hmem address List.mem_cons_self, Or.inl hmem⟩
  · rintro ⟨hbefore, hmem | rfl | hmem⟩
    · exact hmem
    · exact absurd rfl hbefore.ne
    · exact absurd (hlast earlier hmem) hbefore.asymm

/-- The level of what is at an address is listed with its path. -/
theorem mem_levels_of_at? {definition inner : Definition} {address : Address}
    {path : List Condition} (h : definition.at? address = some (path, inner)) :
    (path, inner.level) ∈ definition.levels := by
  obtain ⟨entry, hentry, hat⟩ :=
    exists_mem_of_forall₂ definition.forall₂_levels (mem_addresses_of_at? h)
  rw [← hat.eq h]
  exact hentry

/-- A property of all levels is one of what is at all addresses. -/
theorem forall_levels_iff {definition : Definition} {p : Level → Prop} :
    (∀ entry ∈ definition.levels, p entry.2) ↔
      ∀ address path inner, definition.at? address = some (path, inner) → p inner.level := by
  constructor
  · intro h address path inner hinner
    exact h _ (mem_levels_of_at? hinner)
  · intro h entry hentry
    obtain ⟨address, -, inner, hinner, hlevel⟩ :=
      exists_mem_of_forall₂ definition.forall₂_levels.flip hentry
    exact hlevel ▸ h address entry.1 inner hinner

/-- The first level with a property is what is at the first address with it. -/
theorem exists_first_level_iff {definition : Definition} {p q : Level → Prop} :
    (∃ before entry after, definition.levels = before ++ entry :: after ∧
        (∀ passed ∈ before, p passed.2) ∧ q entry.2) ↔
      ∃ address path inner, definition.at? address = some (path, inner) ∧
        (∀ earlier, Address.Before earlier address →
          ∀ path outer, definition.at? earlier = some (path, outer) → p outer.level) ∧
        q inner.level := by
  have hlevels := definition.forall₂_levels
  constructor
  · rintro ⟨before, entry, after, hsplit, hpassed, hentry⟩
    rw [hsplit] at hlevels
    obtain ⟨first, address, last, haddresses, hfirst, ⟨inner, hinner, hlevel⟩, -⟩ :=
      exists_split_of_forall₂ hlevels
    refine ⟨address, entry.1, inner, hinner, fun earlier hbefore path outer houter => ?_,
      hlevel ▸ hentry⟩
    have hmem := (mem_first_iff haddresses).2 ⟨hbefore, by rw [houter]; rfl⟩
    obtain ⟨passed, hmem, hat⟩ := exists_mem_of_forall₂ hfirst hmem
    obtain rfl := hat.eq houter
    exact hpassed _ hmem
  · rintro ⟨address, path, inner, hinner, hpassed, hq⟩
    obtain ⟨first, last, haddresses⟩ := List.append_of_mem (mem_addresses_of_at? hinner)
    have hflipped := hlevels.flip
    rw [haddresses] at hflipped
    obtain ⟨before, entry, after, hsplit, hbefore, hat, -⟩ := exists_split_of_forall₂ hflipped
    obtain rfl := LevelAt.eq hat hinner
    refine ⟨before, _, after, hsplit, fun passed hmem => ?_, hq⟩
    obtain ⟨earlier, hearlier, outer, houter, hpass⟩ := exists_mem_of_forall₂ hbefore hmem
    exact hpass ▸ hpassed earlier ((mem_first_iff haddresses).1 hearlier).1 passed.1 outer houter

/-! ## Levels below conditions -/

/-- The addresses of the definitions that are nested in a definition. -/
theorem mem_tail_addresses {definition : Definition} {address : Address} :
    address ∈ definition.addresses.tail ↔
      address ≠ [] ∧ (definition.at? address).isSome := by
  have hsorted := definition.pairwise_addresses
  rw [← mem_addresses, addresses_eq, List.tail_cons, List.mem_cons]
  rw [addresses_eq, List.pairwise_cons] at hsorted
  constructor
  · intro h
    exact ⟨(hsorted.1 _ h).ne.symm, Or.inr h⟩
  · rintro ⟨hne, h⟩
    exact h.resolve_left hne

theorem forall₂_nested (definition : Definition) :
    List.Forall₂ definition.LevelAt definition.addresses.tail definition.nested := by
  have hlevels := definition.forall₂_levels
  rw [addresses_eq] at hlevels ⊢
  exact (List.forall₂_cons.1 hlevels).2

theorem nested_path_ne_nil (definition : Definition) :
    ∀ entry ∈ definition.nested, entry.1 ≠ [] := by
  intro entry hentry
  obtain ⟨address, haddress, inner, hinner, -⟩ :=
    exists_mem_of_forall₂ definition.forall₂_nested.flip hentry
  have hlength := length_of_at? hinner
  intro hnil
  rw [hnil] at hlength
  exact (mem_tail_addresses.1 haddress).1 (List.length_eq_zero_iff.1 hlength.symm)

/-! ## Paths of levels -/

/-- Two levels never have the same path if no query stands twice. -/
theorem nodup_paths {definition : Definition} (hdistinct : definition.Distinct) :
    (definition.levels.map Prod.fst).Nodup := by
  rw [List.Nodup, List.pairwise_map]
  refine pairwise_of_forall₂ definition.forall₂_levels definition.pairwise_addresses ?_
  rintro a a' entry entry' ⟨inner, hinner, -⟩ ⟨inner', hinner', -⟩ hbefore hpath
  rw [← hpath] at hinner'
  exact hbefore.ne (address_eq hdistinct hinner hinner')

/-- The paths on the way to a level are those of earlier levels. -/
theorem exists_outer_level {definition : Definition} {before after : List (List Condition × Level)}
    {entry : List Condition × Level} (h : definition.levels = before ++ entry :: after)
    {path : List Condition} (hbeginning : path <+: entry.1) (hne : path ≠ entry.1) :
    ∃ outer ∈ before, outer.1 = path := by
  have hlevels := definition.forall₂_levels
  rw [h] at hlevels
  obtain ⟨earlier, address, later, haddresses, hearlier, ⟨inner, hinner, -⟩, -⟩ :=
    exists_split_of_forall₂ hlevels
  -- the address of the path is a beginning of that of the level
  obtain ⟨outer, houter⟩ := at?_take hinner path.length
  rw [← List.prefix_iff_eq_take.1 hbeginning] at houter
  have hbefore : Address.Before (address.take path.length) address := by
    refine Address.before_of_prefix (List.take_prefix _ _) fun heq => hne ?_
    rw [heq, hinner] at houter
    exact (Prod.mk.inj (Option.some.inj houter)).1.symm
  have hmem := (mem_first_iff haddresses).2 ⟨hbefore, by rw [houter]; rfl⟩
  obtain ⟨found, hfound, hat⟩ := exists_mem_of_forall₂ hearlier hmem
  exact ⟨found, hfound, congrArg Prod.fst (hat.eq houter)⟩

end Definition

end ScopedCss
