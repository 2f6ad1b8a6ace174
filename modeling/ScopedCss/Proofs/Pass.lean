import Mathlib.Data.List.Forall2

/-! # Passes that may reject

A check is a computation in `Except`, and a pass runs it on each entry of a list, in order, up to
the first that is rejected. This file says when a pass is accepted, what it then gives, and what it
is rejected for. At its end, checks and passes are compared two at a time: `Alike` ones are accepted
or rejected together.
-/

set_option autoImplicit false

namespace ScopedCss

variable {α β γ ε : Type}

/-! ## One check after another -/

theorem bind_eq_ok {x : Except ε α} {f : α → Except ε β} {b : β}
    (h : x >>= f = .ok b) : ∃ a, x = .ok a ∧ f a = .ok b := by
  cases x with
  | error e => exact absurd h (by simp [bind, Except.bind])
  | ok a => exact ⟨a, rfl, h⟩

theorem map_eq_ok {x : Except ε α} {f : α → β} {b : β} (h : f <$> x = .ok b) :
    ∃ a, x = .ok a ∧ b = f a := by
  cases x with
  | error e => exact absurd h (by simp [Functor.map, Except.map])
  | ok a => exact ⟨a, rfl, (Except.ok.inj h).symm⟩

theorem map_eq_ok_iff {x : Except ε α} {f : α → β} {b : β} :
    f <$> x = .ok b ↔ ∃ a, x = .ok a ∧ b = f a := by
  constructor
  · exact map_eq_ok
  · rintro ⟨a, rfl, rfl⟩
    rfl

/-- One check after another is accepted if the first one is and then the second. -/
theorem bind_isOk_iff {x : Except ε α} {f : α → Except ε β} :
    (∃ b, x >>= f = .ok b) ↔ ∃ a, x = .ok a ∧ ∃ b, f a = .ok b := by
  constructor
  · rintro ⟨b, h⟩
    obtain ⟨a, hx, hf⟩ := bind_eq_ok h
    exact ⟨a, hx, b, hf⟩
  · rintro ⟨a, rfl, b, hf⟩
    exact ⟨b, hf⟩

/-- Whether a check is accepted, and what it is rejected for, does not depend on what is made of its
result. -/
theorem map_isOk_iff {x : Except ε α} {f : α → β} :
    (∃ b, f <$> x = .ok b) ↔ ∃ a, x = .ok a := by
  cases x <;> simp [Functor.map, Except.map]

theorem bind_pure_isOk_iff {x : Except ε α} {f : α → β} :
    (∃ b, (do return f (← x)) = .ok b) ↔ ∃ a, x = .ok a := by
  rw [bind_pure_comp, map_isOk_iff]

theorem map_eq_error_iff {x : Except ε α} {f : α → β} {e : ε} :
    f <$> x = .error e ↔ x = .error e := by
  cases x <;> simp [Functor.map, Except.map]

theorem bind_pure_eq_error_iff {x : Except ε α} {f : α → β} {e : ε} :
    (do return f (← x)) = .error e ↔ x = .error e := by
  rw [bind_pure_comp, map_eq_error_iff]

/-- Two checks one after the other are accepted if both are. -/
theorem seq_isOk_iff {x : Except ε α} {y : Except ε β} {f : α → β → γ} :
    (∃ c, (do let a ← x; let b ← y; return f a b) = .ok c) ↔
      (∃ a, x = .ok a) ∧ ∃ b, y = .ok b := by
  rw [bind_isOk_iff]
  constructor
  · rintro ⟨a, hx, hy⟩
    exact ⟨⟨a, hx⟩, bind_pure_isOk_iff.1 hy⟩
  · rintro ⟨⟨a, hx⟩, hy⟩
    exact ⟨a, hx, bind_pure_isOk_iff.2 hy⟩

/-! ## Over a list -/

/-- A pass over a list is accepted exactly if it accepts each entry. -/
theorem mapM_eq_ok_iff (f : α → Except ε β) (xs : List α) (ys : List β) :
    xs.mapM f = .ok ys ↔ List.Forall₂ (fun x y => f x = .ok y) xs ys := by
  induction xs generalizing ys with
  | nil =>
      rw [List.mapM_nil, List.forall₂_nil_left_iff]
      show Except.ok [] = Except.ok ys ↔ ys = []
      rw [Except.ok.injEq, eq_comm]
  | cons x xs ih =>
      rw [List.mapM_cons, List.forall₂_cons_left_iff]
      cases hx : f x with
      | error e => simp [bind, Except.bind]
      | ok y =>
          cases hxs : xs.mapM f with
          | error e =>
              -- no list goes with the rest, hence none with the whole
              have hnone : ∀ zs, ¬ List.Forall₂ (fun x y => f x = .ok y) xs zs := by
                intro zs h
                rw [← ih, hxs] at h
                exact absurd h (by simp)
              simp [bind, Except.bind, hnone]
          | ok zs =>
              have hzs : ∀ us, List.Forall₂ (fun x y => f x = .ok y) xs us ↔ zs = us := by
                intro us
                rw [← ih, hxs, Except.ok.injEq]
              simp [bind, Except.bind, pure, Except.pure, hzs, eq_comm]

/-- A pass only depends on what it makes of the entries. -/
theorem mapM_congr {f g : α → Except ε β} {xs : List α} (h : ∀ x ∈ xs, f x = g x) :
    xs.mapM f = xs.mapM g := by
  induction xs with
  | nil => rfl
  | cons x xs ih =>
      obtain ⟨hx, hxs⟩ := List.forall_mem_cons.1 h
      rw [List.mapM_cons, List.mapM_cons, hx, ih hxs]

/-- What each entry is known to give is known of everything that an accepted pass gives. -/
theorem forall_of_mapM_eq_ok {f : α → Except ε β} {xs : List α} {ys : List β}
    (h : xs.mapM f = .ok ys) {P : β → Prop} (hP : ∀ x ∈ xs, ∀ y, f x = .ok y → P y) :
    ∀ y ∈ ys, P y := by
  rw [mapM_eq_ok_iff] at h
  induction h with
  | nil => intro y hy; exact absurd hy List.not_mem_nil
  | cons hx _ ih =>
      rw [List.forall_mem_cons] at hP
      exact List.forall_mem_cons.2 ⟨hP.1 _ hx, ih hP.2⟩

/-- A pass is accepted if each entry is. -/
theorem mapM_isOk_iff (f : α → Except ε β) (xs : List α) :
    (∃ ys, xs.mapM f = .ok ys) ↔ ∀ x ∈ xs, ∃ y, f x = .ok y := by
  simp only [mapM_eq_ok_iff]
  induction xs with
  | nil => simp
  | cons x xs ih =>
      rw [List.forall_mem_cons, ← ih]
      constructor
      · rintro ⟨_, hys⟩
        obtain ⟨y, ys, hy, hys, -⟩ := List.forall₂_cons_left_iff.1 hys
        exact ⟨⟨y, hy⟩, ys, hys⟩
      · rintro ⟨⟨y, hy⟩, ys, hys⟩
        exact ⟨y :: ys, .cons hy hys⟩

/-- A pass is rejected for its first entry that is not accepted. -/
theorem mapM_eq_error_iff (f : α → Except ε β) (xs : List α) (e : ε) :
    xs.mapM f = .error e ↔
      ∃ before x after, xs = before ++ x :: after ∧ (∀ passed ∈ before, ∃ y, f passed = .ok y) ∧
        f x = .error e := by
  induction xs with
  | nil => simp [pure, Except.pure]
  | cons x xs ih =>
      rw [List.mapM_cons]
      constructor
      · intro h
        cases hx : f x with
        | error found =>
            rw [hx] at h
            obtain rfl : found = e := Except.error.inj h
            exact ⟨[], x, xs, rfl, by simp, hx⟩
        | ok y =>
            cases hxs : xs.mapM f with
            | ok ys =>
                rw [hx, hxs] at h
                exact absurd h (by simp [bind, Except.bind, pure, Except.pure])
            | error found =>
                rw [hx, hxs] at h
                obtain rfl : found = e := Except.error.inj h
                obtain ⟨before, x', after, rfl, hbefore, hx'⟩ := ih.1 hxs
                exact ⟨x :: before, x', after, rfl,
                  List.forall_mem_cons.2 ⟨⟨y, hx⟩, hbefore⟩, hx'⟩
      · rintro ⟨before, x', after, hsplit, hbefore, hx'⟩
        cases before with
        | nil =>
            obtain ⟨rfl, rfl⟩ := List.cons.inj hsplit
            rw [hx']
            rfl
        | cons first before =>
            obtain ⟨rfl, hxs⟩ := List.cons.inj hsplit
            obtain ⟨⟨y, hx⟩, hbefore⟩ := List.forall_mem_cons.1 hbefore
            rw [hx, ih.2 ⟨before, x', after, hxs, hbefore, hx'⟩]
            rfl

/-- What an accepted pass gives, if it is known for each entry what accepting it gives. -/
theorem eq_of_mapM_eq_ok {f : α → Except ε β} {xs : List α} {ys zs : List β}
    (h : xs.mapM f = .ok ys) (hzs : List.Forall₂ (fun x z => ∀ y, f x = .ok y → y = z) xs zs) :
    ys = zs := by
  rw [mapM_eq_ok_iff] at h
  induction h generalizing zs with
  | nil => exact (List.forall₂_nil_left_iff.1 hzs).symm
  | cons hx _ ih =>
      obtain ⟨z, rest, hz, hrest, rfl⟩ := List.forall₂_cons_left_iff.1 hzs
      rw [hz _ hx, ih hrest]

/-! ## Errors put in other words -/

section

variable {ε' : Type} (g : ε → ε')

theorem mapError_eq_ok_iff {x : Except ε α} {a : α} : x.mapError g = .ok a ↔ x = .ok a := by
  cases x <;> simp [Except.mapError]

theorem mapError_bind (x : Except ε α) (f : α → Except ε β) :
    (x >>= f).mapError g = x.mapError g >>= fun a => (f a).mapError g := by
  cases x <;> rfl

theorem mapError_map (x : Except ε α) (f : α → β) :
    (f <$> x).mapError g = f <$> x.mapError g := by
  cases x <;> rfl

theorem mapError_bind_pure (x : Except ε α) (f : α → β) :
    (do return f (← x) : Except ε β).mapError g = do return f (← x.mapError g) := by
  cases x <;> rfl

theorem mapError_seq (x : Except ε α) (y : Except ε β) (f : α → β → γ) :
    (do let a ← x; let b ← y; return f a b : Except ε γ).mapError g = do
      let a ← x.mapError g
      let b ← y.mapError g
      return f a b := by
  cases x with
  | error e => rfl
  | ok a => cases y <;> rfl

theorem mapError_mapM (f : α → Except ε β) (xs : List α) :
    (xs.mapM f).mapError g = xs.mapM fun x => (f x).mapError g := by
  induction xs with
  | nil => rfl
  | cons x xs ih => rw [List.mapM_cons, List.mapM_cons, mapError_seq, ih]

end

/-! ## Two passes side by side -/

section

variable {α' β' ε' : Type}

/-- Two checks are both accepted, with results that go together by `R`, or both rejected, for errors
that go together by `S`. -/
inductive Alike (R : β → β' → Prop) (S : ε → ε' → Prop) : Except ε β → Except ε' β' → Prop
  | ok {b : β} {b' : β'} (h : R b b') : Alike R S (.ok b) (.ok b')
  | error {e : ε} {e' : ε'} (h : S e e') : Alike R S (.error e) (.error e')

variable {R : β → β' → Prop} {S : ε → ε' → Prop} {x : Except ε β} {x' : Except ε' β'}

theorem Alike.isOk_iff (h : Alike R S x x') : (∃ b, x = .ok b) ↔ ∃ b', x' = .ok b' := by
  cases h <;> simp

theorem Alike.bind {γ' : Type} {T : γ → γ' → Prop} {f : β → Except ε γ} {f' : β' → Except ε' γ'}
    (h : Alike R S x x') (hf : ∀ b b', R b b' → Alike T S (f b) (f' b')) :
    Alike T S (x >>= f) (x' >>= f') := by
  cases h with
  | ok h => exact hf _ _ h
  | error h => exact .error h

/-- Passes over lists are alike if they are entry by entry. -/
theorem alike_mapM {f : α → Except ε β} {f' : α' → Except ε' β'} {xs : List α} {xs' : List α'}
    (h : List.Forall₂ (fun x x' => Alike R S (f x) (f' x')) xs xs') :
    Alike (List.Forall₂ R) S (xs.mapM f) (xs'.mapM f') := by
  induction h with
  | nil => exact .ok .nil
  | cons hx _ ih =>
      rw [List.mapM_cons, List.mapM_cons]
      refine hx.bind fun b b' hb => ih.bind fun bs bs' hbs => ?_
      exact .ok (.cons hb hbs)

variable {R : α → α' → Prop} {T : β → β' → Prop} {xs : List α} {xs' : List α'}

/-- Searches in lists that go together find entries that do. -/
theorem rel_find? {p : α → Bool} {p' : α' → Bool} (hp : ∀ x x', R x x' → p x = p' x')
    (h : List.Forall₂ R xs xs') : Option.Rel R (xs.find? p) (xs'.find? p') := by
  induction h with
  | nil => exact .none
  | @cons x x' _ _ hx _ ih =>
      rw [List.find?_cons, List.find?_cons, hp x x' hx]
      cases p' x' with
      | true => exact .some hx
      | false => exact ih

theorem rel_findSome? {f : α → Option β} {f' : α' → Option β'}
    (hf : ∀ x x', R x x' → Option.Rel T (f x) (f' x')) (h : List.Forall₂ R xs xs') :
    Option.Rel T (xs.findSome? f) (xs'.findSome? f') := by
  induction h with
  | nil => exact .none
  | @cons x x' _ _ hx _ ih =>
      rw [List.findSome?_cons, List.findSome?_cons]
      have hfound := hf x x' hx
      generalize f x = found at hfound ⊢
      generalize f' x' = found' at hfound ⊢
      cases hfound with
      | some h => exact .some h
      | none => exact ih

end

end ScopedCss
