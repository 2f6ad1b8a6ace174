/-! # Entries in order

Keyed data whose order shows in the output: a list of keys with their values, in the order in which
the keys were first set. Setting a key again replaces its value and keeps its place.
-/

set_option autoImplicit false

namespace ScopedCss

/-- Values by key, in the order in which the keys were first set. -/
abbrev Entries (α : Type) := List (String × α)

namespace Entries

variable {α : Type}

def keys (entries : Entries α) : List String := entries.map Prod.fst

def get? (entries : Entries α) (key : String) : Option α := entries.lookup key

/-- Sets a key: in its place if it is there, at the end if it is new. -/
def set : Entries α → String → α → Entries α
  | [], key, value => [(key, value)]
  | (first, old) :: rest, key, value =>
      if first = key then (first, value) :: rest else (first, old) :: set rest key value

/-- The entries that a series of settings leaves. -/
def ofSettings (settings : List (String × α)) : Entries α :=
  settings.foldl (fun entries setting => entries.set setting.1 setting.2) []

/-- No key stands twice. -/
def Distinct (entries : Entries α) : Prop := (keys entries).Nodup

/-! ## Setting a key -/

theorem mem_of_mem_set {entries : Entries α} {key : String} {value : α} {entry : String × α}
    (h : entry ∈ entries.set key value) : entry ∈ entries ∨ entry = (key, value) := by
  induction entries with
  | nil => exact Or.inr (List.mem_singleton.1 h)
  | cons first rest ih =>
      rw [set] at h
      split at h
      · next hkey =>
          rcases List.mem_cons.1 h with rfl | hrest
          · exact Or.inr (by rw [hkey])
          · exact Or.inl (List.mem_cons_of_mem _ hrest)
      · rcases List.mem_cons.1 h with rfl | hrest
        · exact Or.inl List.mem_cons_self
        · exact (ih hrest).imp_left (List.mem_cons_of_mem _)

/-- A key that is set again keeps its place. -/
theorem keys_set_of_mem {entries : Entries α} {key : String} (h : key ∈ keys entries) (value : α) :
    keys (entries.set key value) = keys entries := by
  induction entries with
  | nil => cases h
  | cons entry rest ih =>
      by_cases hfirst : entry.1 = key
      · rw [set, if_pos hfirst]
        rfl
      · have hrest : key ∈ keys rest :=
          (List.mem_cons.1 h).resolve_left fun heq => hfirst heq.symm
        rw [set, if_neg hfirst]
        exact congrArg (entry.1 :: ·) (ih hrest)

/-- A new key comes last. -/
theorem set_of_not_mem {entries : Entries α} {key : String} (h : key ∉ keys entries) (value : α) :
    entries.set key value = entries ++ [(key, value)] := by
  induction entries with
  | nil => rfl
  | cons entry rest ih =>
      have hfirst : entry.1 ≠ key := fun heq => h (heq ▸ List.mem_cons_self)
      have hrest : key ∉ keys rest := fun hmem => h (List.mem_cons_of_mem _ hmem)
      rw [set, if_neg hfirst, ih hrest, List.cons_append]

theorem distinct_append_iff {done entries : Entries α} :
    Distinct (done ++ entries) ↔
      Distinct done ∧ Distinct entries ∧ ∀ key ∈ keys done, key ∉ keys entries := by
  rw [Distinct, keys, List.map_append, List.nodup_append]
  refine and_congr_right fun _ => and_congr_right fun _ => ?_
  exact ⟨fun h key hdone hkey => h key hdone key hkey rfl,
    fun h key hdone other hother heq => h key hdone (heq ▸ hother)⟩

theorem Distinct.set {entries : Entries α} (h : Distinct entries) (key : String) (value : α) :
    Distinct (entries.set key value) := by
  by_cases hmem : key ∈ keys entries
  · rwa [Distinct, keys_set_of_mem hmem]
  · rw [set_of_not_mem hmem, distinct_append_iff]
    refine ⟨h, List.pairwise_singleton _ _, fun other hother hkey => ?_⟩
    rw [List.mem_singleton.1 hkey] at hother
    exact hmem hother

/-! ## Series of settings -/

theorem Distinct.foldl_set {entries : Entries α} (h : Distinct entries)
    (settings : List (String × α)) :
    Distinct (settings.foldl (fun entries setting => entries.set setting.1 setting.2) entries) := by
  induction settings generalizing entries with
  | nil => exact h
  | cons setting rest ih => exact ih (h.set setting.1 setting.2)

/-- New keys that differ are put at the end in their order. -/
theorem foldl_set_of_distinct {done entries : Entries α} (h : Distinct (done ++ entries)) :
    entries.foldl (fun entries setting => entries.set setting.1 setting.2) done =
      done ++ entries := by
  induction entries generalizing done with
  | nil => exact (List.append_nil done).symm
  | cons entry rest ih =>
      have hnew : entry.1 ∉ keys done := fun hmem =>
        (distinct_append_iff.1 h).2.2 _ hmem List.mem_cons_self
      rw [List.append_cons] at h ⊢
      rw [List.foldl_cons, set_of_not_mem hnew]
      exact ih h

/-- The entries that settings can leave are those without a key twice: set in order, such entries
leave themselves. -/
theorem ofSettings_eq_self_iff {entries : Entries α} :
    ofSettings entries = entries ↔ Distinct entries := by
  have hnil : Distinct ([] : Entries α) := List.nodup_nil
  constructor
  · intro h
    rw [← h]
    exact hnil.foldl_set entries
  · intro h
    exact foldl_set_of_distinct (List.nil_append entries ▸ h)

end Entries

end ScopedCss
