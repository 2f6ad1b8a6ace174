import Mathlib.Data.List.Infix
import ScopedCss.Condition

/-! # What one registration changes

A registration walks down the keys of its path and creates the nodes that are missing. Here its
effect is read off the forest it leaves, place by place:

* `find?_register`: the nodes on the path are extended by the rest of the path, every other place
  holds what it held.
* `rulesAt_register`, `below_register`, `keys_register`: the rules come to one node, and below each
  place at most one key is new, at the end.
* `WellKeyed.register`: keys stay distinct, and each node keeps the condition of its key.

What is seen at the places is all there is to a well-keyed forest (`WellKeyed.ext`).
-/

set_option autoImplicit false

namespace ScopedCss.Condition

namespace Forest

/-! ## Siblings -/

theorem at?_cons (first key : Condition) (node : Node) (rest : Forest) :
    at? ((first, node) :: rest) key = if key = first then some node else at? rest key := by
  rw [at?, List.lookup_cons]
  by_cases h : key = first
  · simp [h]
  · simp [beq_false_of_ne h, h, at?]

theorem at?_eq_none_iff {forest : Forest} {key : Condition} :
    forest.at? key = none ↔ key ∉ forest.keys := by
  induction forest with
  | nil => simp [at?, keys]
  | cons entry rest ih =>
      obtain ⟨first, node⟩ := entry
      rw [at?_cons]
      by_cases h : key = first
      · simp [h, keys]
      · rw [if_neg h, ih]
        simp [keys, h]

theorem at?_modify (key other : Condition) (change : Node → Node) (forest : Forest) :
    (forest.modify key change).at? other =
      if other = key then some (change ((forest.at? key).getD (Node.new key)))
      else forest.at? other := by
  induction forest with
  | nil => rw [modify, at?_cons]; rfl
  | cons entry rest ih =>
      obtain ⟨first, node⟩ := entry
      by_cases hfirst : first = key
      · subst hfirst
        simp only [modify, if_true, at?_cons]
        by_cases hother : other = first
        · simp [hother]
        · simp [hother]
      · -- the change is made further down, so the first sibling is found as before
        have hkey : key ≠ first := fun h => hfirst h.symm
        simp only [modify, if_neg hfirst, at?_cons, if_neg hkey]
        rw [ih]
        by_cases hother : other = first
        · subst hother; simp [hfirst]
        · simp [hother]

/-- A change keeps the order of the siblings; a new one comes last. -/
theorem keys_modify (key : Condition) (change : Node → Node) (forest : Forest) :
    (forest.modify key change).keys =
      if key ∈ forest.keys then forest.keys else forest.keys ++ [key] := by
  induction forest with
  | nil => simp [modify, keys]
  | cons entry rest ih =>
      obtain ⟨first, node⟩ := entry
      by_cases hfirst : first = key
      · simp [modify, hfirst, keys]
      · have hkey : key ≠ first := fun h => hfirst h.symm
        have hcons : (modify key change ((first, node) :: rest)).keys
            = first :: (Forest.modify key change rest).keys := by
          simp [modify, hfirst, keys]
        rw [hcons, ih]
        by_cases hmem : key ∈ rest.map Prod.fst
        · simp [keys, hmem]
        · simp [keys, hmem, hkey]

end Forest

/-! ## A node on the path -/

namespace Node

@[simp] theorem extend_condition (path : List Condition) (rules : List Rule) (node : Node) :
    (node.extend path rules).condition = node.condition := by
  cases path <;> rfl

theorem extend_rules (path : List Condition) (rules : List Rule) (node : Node) :
    (node.extend path rules).rules = node.rules ++ if path = [] then rules else [] := by
  cases path <;> simp [extend]

theorem extend_children (path : List Condition) (rules : List Rule) (node : Node) :
    (node.extend path rules).children = Forest.register node.children path rules := by
  cases path <;> rfl

end Node

namespace Forest

/-! ## Places

A place is a path, seen from the forest: a node is at it or not. `rulesAt` and `below` give what
is at a place also where there is no node. -/

/-- The rules at a place. -/
def rulesAt (forest : Forest) (place : List Condition) : List Rule :=
  ((forest.find? place).map Node.rules).getD []

/-- The siblings directly below a place. -/
def below (forest : Forest) : List Condition → Forest
  | [] => forest
  | key :: place => ((forest.find? (key :: place)).map Node.children).getD []

@[simp] theorem below_nil (forest : Forest) : forest.below [] = forest := rfl

theorem below_of_find? {forest : Forest} {place : List Condition} {node : Node}
    (h : forest.find? place = some node) : forest.below place = node.children := by
  cases place with
  | nil => simp [find?] at h
  | cons key place => simp [below, h]

theorem below_of_find?_eq_none {forest : Forest} {place : List Condition} (hplace : place ≠ [])
    (h : forest.find? place = none) : forest.below place = [] := by
  cases place with
  | nil => exact absurd rfl hplace
  | cons key place => simp [below, h]

@[simp] theorem find?_nil (place : List Condition) : find? [] place = none := by
  cases place <;> rfl

theorem find?_singleton (forest : Forest) (key : Condition) :
    forest.find? [key] = forest.at? key := by
  show (forest.at? key).bind (Node.follow? []) = forest.at? key
  cases forest.at? key <;> rfl

/-- Below the first key of a place the search goes on among the children of its node. -/
theorem find?_cons_cons (forest : Forest) (first key : Condition) (place : List Condition) :
    forest.find? (first :: key :: place) =
      find? ((forest.at? first).getD (Node.new first)).children (key :: place) := by
  show (forest.at? first).bind (Node.follow? (key :: place)) = _
  cases forest.at? first with
  | none => exact (find?_nil _).symm
  | some node => rfl

theorem find?_of_not_mem_keys {forest : Forest} {key : Condition} (h : key ∉ forest.keys)
    (place : List Condition) : forest.find? (key :: place) = none := by
  rw [find?, at?_eq_none_iff.2 h]
  rfl

section

variable (key : Condition) (node : Node) (rest : Forest)

/-- Below the first key the places are those of the children of its node. -/
theorem below_cons_self (place : List Condition) :
    below ((key, node) :: rest) (key :: place) = below node.children place := by
  cases place with
  | nil => simp [below, find?_singleton, at?_cons]
  | cons second place => simp [below, find?_cons_cons, at?_cons]

theorem rulesAt_singleton_self : rulesAt ((key, node) :: rest) [key] = node.rules := by
  simp [rulesAt, find?_singleton, at?_cons]

theorem rulesAt_cons_self (second : Condition) (place : List Condition) :
    rulesAt ((key, node) :: rest) (key :: second :: place) =
      rulesAt node.children (second :: place) := by
  simp [rulesAt, find?_cons_cons, at?_cons]

end

section

variable {key : Condition} (node : Node) {rest : Forest}

/-- A place below another key is a place of the other siblings. -/
theorem find?_cons_of_ne {first : Condition} (h : first ≠ key) (place : List Condition) :
    find? ((key, node) :: rest) (first :: place) = find? rest (first :: place) := by
  rw [find?, find?, at?_cons, if_neg h]

/-- Among the other siblings there is nothing below the first key, if keys are distinct. -/
theorem below_rest (fresh : key ∉ keys rest) (first : Condition) (place : List Condition) :
    below rest (first :: place) =
      if first = key then [] else below ((key, node) :: rest) (first :: place) := by
  by_cases h : first = key
  · rw [if_pos h, h, below, find?_of_not_mem_keys fresh]
    rfl
  · rw [if_neg h, below, below, find?_cons_of_ne node h]

theorem rulesAt_rest (fresh : key ∉ keys rest) (first : Condition) (place : List Condition) :
    rulesAt rest (first :: place) =
      if first = key then [] else rulesAt ((key, node) :: rest) (first :: place) := by
  by_cases h : first = key
  · rw [if_pos h, h, rulesAt, find?_of_not_mem_keys fresh]
    rfl
  · rw [if_neg h, rulesAt, rulesAt, find?_cons_of_ne node h]

end

/-- **One registration, place by place.** A place on the path holds its node, new if it was
missing, extended by the rest of the path; all other places are left alone. -/
theorem find?_register (forest : Forest) (path : List Condition) (rules : List Rule)
    (place : List Condition) (hplace : place ≠ []) :
    (forest.register path rules).find? place =
      if place <+: path then
        some (((forest.find? place).getD (Node.new (place.getLast hplace))).extend
          (path.drop place.length) rules)
      else forest.find? place := by
  induction place generalizing forest path with
  | nil => exact absurd rfl hplace
  | cons key place ih =>
      cases path with
      | nil => simp [register]
      | cons first path =>
          show ((forest.modify first (Node.extend path rules)).at? key).bind
            (Node.follow? place) = _
          rw [at?_modify]
          by_cases hkey : key = first
          · subst hkey
            rw [if_pos rfl, Option.bind_some]
            cases place with
            | nil => simp [find?_singleton, Node.follow?]
            | cons second place =>
                -- the walk is one step down, in the children of the node under `key`
                show find? (Node.extend path rules _).children (second :: place) = _
                rw [Node.extend_children, ih _ path (List.cons_ne_nil _ _),
                  ← find?_cons_cons forest key second place]
                simp only [List.cons_prefix_cons, true_and, List.length_cons, List.drop_succ_cons,
                  List.getLast_cons (List.cons_ne_nil second place)]
          · have hnot : ¬ (key :: place) <+: (first :: path) := by
              simp [List.cons_prefix_cons, hkey]
            rw [if_neg hkey, if_neg hnot]
            rfl

/-- The rules of a registration come to the node at its path, after those already there. -/
theorem rulesAt_register (forest : Forest) (path : List Condition) (rules : List Rule)
    (place : List Condition) (hplace : place ≠ []) :
    (forest.register path rules).rulesAt place =
      forest.rulesAt place ++ if path = place then rules else [] := by
  unfold rulesAt
  rw [find?_register forest path rules place hplace]
  by_cases hthrough : place <+: path
  · rw [if_pos hthrough]
    -- only the node at the end of the path is given rules
    have hend : path.drop place.length = [] ↔ path = place := by
      obtain ⟨rest, rfl⟩ := hthrough
      simp
    simp only [Option.map_some, Option.getD_some, Node.extend_rules, hend]
    cases forest.find? place <;> rfl
  · have hne : path ≠ place := fun h => hthrough (h ▸ List.prefix_refl _)
    simp [hthrough, hne]

/-- Below a place on its path a registration goes on with the rest of the path. -/
theorem below_register (forest : Forest) (path : List Condition) (rules : List Rule)
    (place : List Condition) :
    (forest.register path rules).below place =
      if place <+: path then (forest.below place).register (path.drop place.length) rules
      else forest.below place := by
  cases place with
  | nil => simp
  | cons key place =>
      simp only [below]
      rw [find?_register forest path rules (key :: place) (List.cons_ne_nil _ _)]
      by_cases hthrough : (key :: place) <+: path
      · rw [if_pos hthrough, if_pos hthrough]
        simp only [Option.map_some, Option.getD_some, Node.extend_children]
        cases forest.find? (key :: place) <;> rfl
      · rw [if_neg hthrough, if_neg hthrough]

theorem keys_register (forest : Forest) (path : List Condition) (rules : List Rule) :
    (forest.register path rules).keys =
      forest.keys ++ (path.head?.toList.filter fun key => key ∉ forest.keys) := by
  cases path with
  | nil => simp [register]
  | cons key path =>
      show (forest.modify key (Node.extend path rules)).keys = _
      rw [keys_modify]
      by_cases h : key ∈ forest.keys <;> simp [h]

end Forest

/-! ## Well-keyed forests -/

/-- At every depth the keys of siblings are distinct and each node has the condition of its
key. -/
inductive Forest.WellKeyed : Forest → Prop where
  | nil : WellKeyed []
  | cons {key : Condition} {node : Node} {rest : Forest} (condition : node.condition = key)
      (fresh : key ∉ Forest.keys rest) (children : WellKeyed node.children)
      (siblings : WellKeyed rest) : WellKeyed ((key, node) :: rest)

namespace Forest.WellKeyed

/-- A change that keeps the condition of a node and the order below it keeps the whole order. -/
theorem modify {forest : Forest} (h : forest.WellKeyed) (key : Condition) (change : Node → Node)
    (hcondition : ∀ node, (change node).condition = node.condition)
    (hchildren : ∀ node : Node, WellKeyed node.children → WellKeyed (change node).children) :
    (forest.modify key change).WellKeyed := by
  induction h with
  | nil =>
      refine .cons (hcondition _) ?_ (hchildren _ .nil) .nil
      simp [keys]
  | @cons first node rest condition fresh children siblings _ ih =>
      by_cases hfirst : first = key
      · rw [Forest.modify, if_pos hfirst]
        exact .cons ((hcondition node).trans condition) fresh (hchildren node children) siblings
      · rw [Forest.modify, if_neg hfirst]
        refine .cons condition ?_ children ih
        rw [keys_modify]
        by_cases hmem : key ∈ rest.keys
        · rwa [if_pos hmem]
        · -- a new key comes last, and it is not the first one
          rw [if_neg hmem, List.mem_append, List.mem_singleton]
          rintro (h | h)
          · exact fresh h
          · exact hfirst h

theorem register {forest : Forest} (h : forest.WellKeyed) (path : List Condition)
    (rules : List Rule) : (forest.register path rules).WellKeyed := by
  induction path generalizing forest with
  | nil => exact h
  | cons key path ih =>
      refine h.modify key (Node.extend path rules) (Node.extend_condition path rules) ?_
      intro node hnode
      rw [Node.extend_children]
      exact ih hnode

theorem of_at? {forest : Forest} (h : forest.WellKeyed) {key : Condition} {node : Node}
    (hat : forest.at? key = some node) : node.condition = key ∧ WellKeyed node.children := by
  induction h with
  | nil => simp [at?] at hat
  | cons condition _ children _ _ ih =>
      rw [at?_cons] at hat
      split at hat
      case isTrue hkey =>
        obtain rfl := Option.some.inj hat
        exact ⟨condition.trans hkey.symm, children⟩
      case isFalse => exact ih hat

/-- A node that is found has the last key of its place as its condition, and stands over a
well-keyed forest. -/
theorem of_find? {forest : Forest} (h : forest.WellKeyed) {place : List Condition} {node : Node}
    (hfind : forest.find? place = some node) :
    place.getLast? = some node.condition ∧ WellKeyed node.children := by
  induction place generalizing forest with
  | nil => simp [find?] at hfind
  | cons key place ih =>
      cases hat : forest.at? key with
      | none => simp [find?, hat] at hfind
      | some above =>
          obtain ⟨hcondition, hchildren⟩ := h.of_at? hat
          cases place with
          | nil =>
              have hnode : above = node := by simpa [find?, hat, Node.follow?] using hfind
              subst hnode
              exact ⟨by simp [hcondition], hchildren⟩
          | cons second place =>
              rw [find?_cons_cons, hat] at hfind
              obtain ⟨hlast, hbelow⟩ := ih hchildren hfind
              exact ⟨by rw [List.getLast?_cons_cons, hlast], hbelow⟩

/-- **A well-keyed forest is determined by its places**: by the order of the siblings below each,
and by the rules at each. -/
theorem ext {forest other : Forest} (h : forest.WellKeyed) (hother : other.WellKeyed)
    (hkeys : ∀ place, (forest.below place).keys = (other.below place).keys)
    (hrules : ∀ place, forest.rulesAt place = other.rulesAt place) : forest = other := by
  induction h generalizing other with
  | nil => exact (List.map_eq_nil_iff.1 (hkeys []).symm).symm
  | @cons key node rest condition fresh _ _ ihchildren ihrest =>
      cases hother with
      | nil => exact absurd (hkeys []) (List.cons_ne_nil _ _)
      | @cons key' node' rest' condition' fresh' children' siblings' =>
          obtain ⟨hkey, hrest⟩ : key = key' ∧ keys rest = keys rest' := List.cons.inj (hkeys [])
          subst hkey
          -- the first nodes agree in all their fields, the children by the places below the key
          have hnode : node = node' := by
            have hchildren : node.children = node'.children := by
              apply ihchildren children'
              · intro place
                have hplace := hkeys (key :: place)
                rwa [below_cons_self, below_cons_self] at hplace
              · intro place
                cases place with
                | nil => rfl
                | cons second place =>
                    have hplace := hrules (key :: second :: place)
                    rwa [rulesAt_cons_self, rulesAt_cons_self] at hplace
            have hown := hrules [key]
            rw [rulesAt_singleton_self, rulesAt_singleton_self] at hown
            obtain ⟨_, _, _⟩ := node
            obtain ⟨_, _, _⟩ := node'
            rw [Node.mk.injEq]
            exact ⟨condition.trans condition'.symm, hown, hchildren⟩
          -- the key is fresh in both, so the other siblings show what the whole forests show
          have hsiblings : rest = rest' := by
            apply ihrest siblings'
            · intro place
              cases place with
              | nil => exact hrest
              | cons first place =>
                  rw [below_rest node fresh, below_rest node' fresh']
                  by_cases hfirst : first = key
                  · rw [if_pos hfirst, if_pos hfirst]
                  · rw [if_neg hfirst, if_neg hfirst]
                    exact hkeys (first :: place)
            · intro place
              cases place with
              | nil => rfl
              | cons first place =>
                  rw [rulesAt_rest node fresh, rulesAt_rest node' fresh']
                  by_cases hfirst : first = key
                  · rw [if_pos hfirst, if_pos hfirst]
                  · rw [if_neg hfirst, if_neg hfirst]
                    exact hrules (first :: place)
          rw [hnode, hsiblings]

end Forest.WellKeyed

end ScopedCss.Condition
