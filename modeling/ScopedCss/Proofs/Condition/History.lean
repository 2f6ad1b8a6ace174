import Mathlib.Data.Finset.Card
import Mathlib.Data.List.Infix
import ScopedCss.Proofs.Condition.Register

/-! # A forest records its history

A forest is made by registrations only, so everything in it can be read off their list. `History`
is that list, with views of it that do not go through any forest: the rules registered at a path
(`History.rulesAt`), the conditions that paths go through directly below a place
(`History.nextConditions`), and all the places reached (`History.places`).

`Forest.Records` says that a forest shows exactly these views. One registration keeps it
(`Forest.Records.register`), so it holds of every forest (`records_registerAll`);
`registerAll_describes` adds the number of nodes.
-/

set_option autoImplicit false

namespace ScopedCss.Condition

/-- Registrations in the order in which they were made. -/
abbrev History := List (List Condition × List Rule)

namespace History

/-- The rules that were registered at exactly this path, in order. -/
def rulesAt (history : History) (path : List Condition) : List Rule :=
  (history.filter fun entry => entry.1 = path).flatMap Prod.snd

/-- The condition that a path goes through directly below a place. -/
def nextAfter? (place path : List Condition) : Option Condition :=
  if place <+: path then path[place.length]? else none

/-- The conditions directly below a place, in the order in which a path first went through
them. -/
def nextConditions (history : History) (place : List Condition) : List Condition :=
  (history.filterMap fun entry => nextAfter? place entry.1).eraseDups

/-- A registration went to a place or through it. -/
def Reaches (history : History) (place : List Condition) : Prop :=
  ∃ entry ∈ history, place <+: entry.1

/-- The places that the registrations went to or through. -/
def places (history : History) : Finset (List Condition) :=
  (history.flatMap fun entry => entry.1.inits).toFinset.erase []

theorem mem_places {history : History} {place : List Condition} :
    place ∈ history.places ↔ place ≠ [] ∧ history.Reaches place := by
  simp [places, Reaches, List.mem_inits]

/-! ## One more registration -/

section

variable (history : History) (path : List Condition) (rules : List Rule) (place : List Condition)

theorem rulesAt_concat :
    rulesAt (history ++ [(path, rules)]) place =
      history.rulesAt place ++ if path = place then rules else [] := by
  unfold rulesAt
  rw [List.filter_append, List.flatMap_append]
  by_cases h : path = place <;> simp [h]

theorem reaches_concat :
    Reaches (history ++ [(path, rules)]) place ↔ history.Reaches place ∨ place <+: path := by
  simp [Reaches, or_and_right, exists_or]

theorem eraseDups_concat {α : Type} [DecidableEq α] (as : List α) (a : α) :
    (as ++ [a]).eraseDups = as.eraseDups ++ if a ∈ as then [] else [a] := by
  rw [List.eraseDups_append]
  by_cases h : a ∈ as <;> simp [List.removeAll, h, List.eraseDups_cons]

theorem nextConditions_concat :
    nextConditions (history ++ [(path, rules)]) place =
      history.nextConditions place ++
        (nextAfter? place path).toList.filter fun key => key ∉ history.nextConditions place := by
  unfold nextConditions
  rw [List.filterMap_append]
  cases h : nextAfter? place path with
  | none => simp [h]
  | some key =>
      have hlast : [(path, rules)].filterMap (fun entry => nextAfter? place entry.1) = [key] := by
        simp [h]
      rw [hlast, eraseDups_concat]
      by_cases hmem : key ∈ history.filterMap fun entry => nextAfter? place entry.1
      · simp [hmem, List.mem_eraseDups]
      · simp [hmem, List.mem_eraseDups]

end

end History

/-! ## The invariant -/

/-- The forest shows what its history says, at every place. -/
structure Forest.Records (forest : Forest) (history : History) : Prop where
  /-- There is a node exactly at the places that were reached. -/
  isSome_find? : ∀ place, (forest.find? place).isSome ↔ place ≠ [] ∧ history.Reaches place
  /-- A node has the rules that were registered at its path. -/
  rulesAt_eq : ∀ place, place ≠ [] → forest.rulesAt place = history.rulesAt place
  /-- Siblings stand in the order in which they were first needed. -/
  keys_below : ∀ place, (forest.below place).keys = history.nextConditions place
  /-- Keys are distinct, and each node has the condition of its key. -/
  wellKeyed : forest.WellKeyed

namespace Forest

theorem records_nil : Records [] [] where
  isSome_find? := by intro place; simp [History.Reaches]
  rulesAt_eq := by intro place _; simp [rulesAt, History.rulesAt]
  keys_below := by
    intro place
    cases place <;> simp [below, keys, History.nextConditions]
  wellKeyed := .nil

/-- **A registration is recorded**: a forest that shows a history shows it with one more
registration after that registration. -/
theorem Records.register {forest : Forest} {history : History} (h : forest.Records history)
    (path : List Condition) (rules : List Rule) :
    (forest.register path rules).Records (history ++ [(path, rules)]) where
  isSome_find? := by
    intro place
    rw [History.reaches_concat]
    by_cases hplace : place = []
    · subst hplace
      simp [find?]
    · rw [find?_register forest path rules place hplace]
      by_cases hthrough : place <+: path
      · simp [hthrough, hplace]
      · rw [if_neg hthrough, h.isSome_find? place]
        simp [hthrough]
  rulesAt_eq := by
    intro place hplace
    rw [rulesAt_register forest path rules place hplace, h.rulesAt_eq place hplace,
      History.rulesAt_concat]
  keys_below := by
    intro place
    rw [below_register, History.nextConditions_concat, ← h.keys_below place]
    unfold History.nextAfter?
    by_cases hthrough : place <+: path
    · -- at most the condition that the path goes through next is new
      rw [if_pos hthrough, if_pos hthrough, keys_register, List.head?_drop]
    · simp [hthrough]
  wellKeyed := h.wellKeyed.register path rules

theorem Records.registerAll {forest : Forest} {history : History} (h : forest.Records history)
    (entries : History) : (forest.registerAll entries).Records (history ++ entries) := by
  induction entries generalizing forest history with
  | nil => rw [List.append_nil]; exact h
  | cons entry entries ih =>
      -- the invariant is that of the history so far, extended by the first entry
      have hstep := ih (h.register entry.1 entry.2)
      rw [List.append_assoc] at hstep
      exact hstep

/-- Every forest records the registrations that made it. -/
theorem records_registerAll (history : History) : (registerAll [] history).Records history :=
  records_nil.registerAll history

/-! ## The number of nodes -/

end Forest

mutual

/-- The paths of the nodes of a tree, from its root on. -/
def Node.paths : Node → List (List Condition)
  | ⟨_, _, children⟩ => [] :: Forest.paths children

def Forest.paths : List (Condition × Node) → List (List Condition)
  | [] => []
  | (key, node) :: rest => node.paths.map (key :: ·) ++ Forest.paths rest

end

namespace Forest

theorem paths_cons (key : Condition) (node : Node) (rest : Forest) :
    paths ((key, node) :: rest) =
      [key] :: (paths node.children).map (key :: ·) ++ paths rest := by
  cases node
  simp [paths, Node.paths]

theorem size_cons (key : Condition) (node : Node) (rest : Forest) :
    size ((key, node) :: rest) = 1 + size node.children + size rest := by
  cases node
  rfl

theorem WellKeyed.length_paths {forest : Forest} (h : forest.WellKeyed) :
    (paths forest).length = size forest := by
  induction h with
  | nil => rfl
  | cons _ _ _ _ ihchildren ihrest =>
      rw [paths_cons, size_cons, ← ihchildren, ← ihrest]
      simp only [List.cons_append, List.length_cons, List.length_append, List.length_map]
      omega

/-- The listed paths are the places at which a node is found. -/
theorem WellKeyed.mem_paths {forest : Forest} (h : forest.WellKeyed) (place : List Condition) :
    place ∈ paths forest ↔ (forest.find? place).isSome := by
  induction h generalizing place with
  | nil => simp [paths]
  | @cons key node rest _ fresh _ _ ihchildren ihrest =>
      rw [paths_cons]
      cases place with
      | nil => simp [find?, ihrest]
      | cons first place =>
          by_cases hfirst : first = key
          · subst hfirst
            -- the key is fresh, so nothing of the other siblings has a path through it
            have hrest : first :: place ∉ paths rest := by
              rw [ihrest, find?_of_not_mem_keys fresh]
              simp
            cases place with
            | nil => simp [find?_singleton, at?_cons]
            | cons second place =>
                simp [hrest, find?_cons_cons, at?_cons, ihchildren]
          · have hkey : key ≠ first := fun h => hfirst h.symm
            rw [find?_cons_of_ne node hfirst, ← ihrest]
            simp [hfirst, hkey]

theorem WellKeyed.nodup_paths {forest : Forest} (h : forest.WellKeyed) : (paths forest).Nodup := by
  induction h with
  | nil => exact List.nodup_nil
  | @cons key node rest _ fresh children siblings ihchildren ihrest =>
      have hnil : [] ∉ paths node.children := by
        rw [children.mem_paths]
        simp [find?]
      have hrest : ∀ place, key :: place ∉ paths rest := by
        intro place
        rw [siblings.mem_paths, find?_of_not_mem_keys fresh]
        simp
      have hchildren : ((paths node.children).map (key :: ·)).Nodup :=
        ihchildren.map fun _ _ h => (List.cons.inj h).2
      rw [paths_cons, List.cons_append, List.nodup_cons, List.nodup_append]
      -- the key itself, the paths below it and those of the other siblings do not meet
      refine ⟨?_, hchildren, ihrest, ?_⟩
      · simp [hnil, hrest]
      · rintro place hplace _ hother rfl
        obtain ⟨tail, -, rfl⟩ := List.mem_map.1 hplace
        exact hrest tail hother

theorem Records.size_eq {forest : Forest} {history : History} (h : forest.Records history) :
    size forest = history.places.card := by
  have hplaces : history.places = (paths forest).toFinset := by
    ext place
    rw [History.mem_places, List.mem_toFinset, h.wellKeyed.mem_paths, h.isSome_find?]
  rw [hplaces, List.toFinset_card_of_nodup h.wellKeyed.nodup_paths, h.wellKeyed.length_paths]

/-- **The forest after any history.** A node is found at a path exactly if the path is not empty
and a registered path goes to it or through it. It has the rules registered at its path, and below
it the conditions that registered paths went through next, each once and in the order of the first
time; so have the roots. At every depth keys are distinct and each node has the condition of its
key, and there are as many nodes as non-empty prefixes of registered paths. -/
theorem registerAll_describes (history : History) :
    (∀ place, ((registerAll [] history).find? place).isSome ↔
      place ≠ [] ∧ ∃ entry ∈ history, place <+: entry.1) ∧
    (∀ place node, (registerAll [] history).find? place = some node →
      node.rules = history.rulesAt place ∧
        Forest.keys node.children = history.nextConditions place) ∧
    (registerAll [] history).keys = history.nextConditions [] ∧
    (registerAll [] history).WellKeyed ∧
    size (registerAll [] history) = history.places.card := by
  have h := records_registerAll history
  refine ⟨h.isSome_find?, ?_, h.keys_below [], h.wellKeyed, h.size_eq⟩
  intro place node hfind
  have hplace : place ≠ [] := ((h.isSome_find? place).1 (by rw [hfind]; rfl)).1
  constructor
  · rw [← h.rulesAt_eq place hplace, rulesAt, hfind]
    rfl
  · rw [← h.keys_below place, below_of_find? hfind]

end Forest

end ScopedCss.Condition
