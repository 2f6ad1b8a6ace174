import ScopedCss.Proofs.Flatten.Conflict
import ScopedCss.Proofs.Flatten.Levels
import ScopedCss.Proofs.Selector.Template

/-! # Renaming the scope

A definition is flattened for one scope as for another: the two runs go alike step by step, and what
they give differs only in the class that fills the templates of the selectors.
`Definition.flatten_renamed` says this for scopes whose classes do not occur in the keys of the
definition.

`Selector.Renamed` is the relation between the texts of the two runs; it is lifted to settings,
rules, errors and results. Only the search for conflicts compares selectors with each other. That it
finds the same in both runs is because selectors are equal in one exactly if they are in the other
(`Selector.Renamed.eq_iff`).
-/

set_option autoImplicit false

namespace ScopedCss

/-! ## What two runs have in common -/

/-- The two texts are one template, filled for the scope `a` and for the scope `b`. -/
def Selector.Renamed (a b : Scope) (s s' : String) : Prop :=
  ∃ t : Selector.Template, a.Avoids t ∧ b.Avoids t ∧ s = a.fill t ∧ s' = b.fill t

structure Setting.Renamed (a b : Scope) (x x' : Setting) : Prop where
  selector : Selector.Renamed a b x.selector x'.selector
  name : x.name = x'.name
  value : x.value = x'.value

/-- Rules with the same declarations for a renamed selector. -/
structure Rule.Renamed (a b : Scope) (rule rule' : Rule) : Prop where
  selector : Selector.Renamed a b rule.selector rule'.selector
  declarations : rule.declarations = rule'.declarations

/-- Errors of one kind for the same fault. Of a selector that does not target the element they tell
the key, which no scope has changed; the others tell a selector as it has been resolved. -/
inductive StyleError.Renamed (a b : Scope) : StyleError → StyleError → Prop
  | selectorTarget (key : String) (fault : Selector.TargetFault) :
      Renamed a b (.selectorTarget key fault) (.selectorTarget key fault)
  | notFinite {s s' : String} (h : Selector.Renamed a b s s') (property : String)
      (number : Number) : Renamed a b (.notFinite s property number) (.notFinite s' property number)
  | duplicateVariable (name : String) {s s' : String} (h : Selector.Renamed a b s s')
      (first second : String) :
      Renamed a b (.duplicateVariable name s first second)
        (.duplicateVariable name s' first second)

/-- The same places in the same order, with renamed rules at each. -/
structure Flattened.Renamed (a b : Scope) (made made' : Flattened) : Prop where
  rules : List.Forall₂ (Rule.Renamed a b) made.rules made'.rules
  conditional : List.Forall₂
    (fun entry entry' => entry.1 = entry'.1 ∧ List.Forall₂ (Rule.Renamed a b) entry.2 entry'.2)
    made.conditional made'.conditional

/-- The class of the scope does not occur in a key of the level. -/
def Scope.FreshAt (scope : Scope) (level : Level) : Prop :=
  ∀ key ∈ level.scopedKeys, ¬ scope.OccursIn key

instance (scope : Scope) (level : Level) : Decidable (scope.FreshAt level) :=
  List.decidableBAll _ level.scopedKeys

/-- The class of the scope does not occur in a key of the definition, at any depth. -/
def Scope.FreshFor (scope : Scope) (definition : Definition) : Prop :=
  ∀ entry ∈ definition.levels, scope.FreshAt entry.2

instance (scope : Scope) (definition : Definition) : Decidable (scope.FreshFor definition) :=
  List.decidableBAll _ definition.levels

/-! ## Selectors -/

namespace Scope

variable {scope : Scope}

/-- The class is not put together from a placeholder and the text after it. -/
theorem avoids_hole {token : String} (h : ¬ scope.OccursIn token) :
    scope.Avoids (.hole :: token.toList.map .char) := by
  refine Selector.Template.avoids_of_source ?_
  have hsource : Selector.Template.source (.hole :: token.toList.map .char) =
      '&' :: token.toList := by
    show '&' :: Selector.Template.source (token.toList.map .char) = _
    rw [Selector.Template.source_map_char]
  rw [hsource, List.infix_cons_iff]
  rintro (hfirst | hlater)
  · rw [toList_selector, List.cons_prefix_cons] at hfirst
    exact absurd hfirst.1 (by decide)
  · exact h hlater

theorem fill_hole (scope : Scope) (token : String) :
    scope.fill (.hole :: token.toList.map .char) = scope.selector ++ token := by
  unfold fill
  rw [Selector.Template.fill_hole, Selector.Template.fill_map_char, String.ofList_append,
    String.ofList_toList, String.ofList_toList]

theorem avoids_template {key : String} (h : ¬ scope.OccursIn key) :
    scope.Avoids (Selector.template {} key.toList) := by
  refine Selector.Template.avoids_of_source ?_
  rw [Selector.source_template]
  exact h

theorem fill_template (scope : Scope) (key : String) :
    scope.fill (Selector.template {} key.toList) = Selector.resolve scope key := by
  rw [fill, Selector.fill_template, Selector.resolve]

theorem not_occursIn_empty (scope : Scope) : ¬ scope.OccursIn "" := by
  unfold OccursIn
  rw [toList_selector, String.toList_empty, List.infix_nil]
  exact List.cons_ne_nil _ _

end Scope

namespace Selector

variable {a b : Scope}

theorem renamed_append {token : String} (ha : ¬ a.OccursIn token) (hb : ¬ b.OccursIn token) :
    Renamed a b (a.selector ++ token) (b.selector ++ token) :=
  ⟨_, Scope.avoids_hole ha, Scope.avoids_hole hb, (a.fill_hole token).symm,
    (b.fill_hole token).symm⟩

theorem renamed_selector (a b : Scope) : Renamed a b a.selector b.selector := by
  have happend := renamed_append a.not_occursIn_empty b.not_occursIn_empty
  rwa [String.append_empty, String.append_empty] at happend

theorem renamed_resolve {key : String} (ha : ¬ a.OccursIn key) (hb : ¬ b.OccursIn key) :
    Renamed a b (resolve a key) (resolve b key) :=
  ⟨_, Scope.avoids_template ha, Scope.avoids_template hb, (a.fill_template key).symm,
    (b.fill_template key).symm⟩

/-- **Two selectors are equal for one scope if they are for the other.** -/
theorem Renamed.eq_iff (ha : '.' ∉ a.ident.toList) (hb : '.' ∉ b.ident.toList)
    {s s' u u' : String} (hs : Renamed a b s s') (hu : Renamed a b u u') : s = u ↔ s' = u' := by
  obtain ⟨t, hta, htb, rfl, rfl⟩ := hs
  obtain ⟨v, hva, hvb, rfl, rfl⟩ := hu
  constructor
  · intro heq
    rw [Scope.fill_injective ha hta hva heq]
  · intro heq
    rw [Scope.fill_injective hb htb hvb heq]

end Selector

/-! ## Conflicts -/

section

variable {a b : Scope}

theorem Rule.Renamed.settings {rule rule' : Rule} (h : rule.Renamed a b rule') :
    List.Forall₂ (Setting.Renamed a b) rule.settings rule'.settings := by
  unfold Rule.settings
  rw [← h.declarations]
  refine List.rel_filterMap (R := Eq) ?_ (List.forall₂_same.2 fun _ _ => rfl)
  rintro d _ rfl
  show Option.Rel _ (d.customName?.map _) (d.customName?.map _)
  cases d.customName? with
  | none => exact .none
  | some name => exact .some ⟨h.selector, rfl, rfl⟩

variable (ha : '.' ∉ a.ident.toList) (hb : '.' ∉ b.ident.toList)

include ha hb

theorem Setting.Renamed.sameVariable_eq {x x' y y' : Setting} (hx : x.Renamed a b x')
    (hy : y.Renamed a b y') : x.sameVariable y = x'.sameVariable y' := by
  rw [Bool.eq_iff_iff, Setting.sameVariable_iff, Setting.sameVariable_iff,
    hx.selector.eq_iff ha hb hy.selector, hx.name, hy.name]

/-- Both searches find a conflict between settings at the same places, or none. -/
theorem rel_conflict? {xs xs' : List Setting} (h : List.Forall₂ (Setting.Renamed a b) xs xs') :
    Option.Rel (fun found found' => found.1.Renamed a b found'.1 ∧ found.2.Renamed a b found'.2)
      (conflict? xs) (conflict? xs') := by
  refine rel_findSome? (fun x x' hx => ?_) h
  have hfirst := rel_find? (fun y y' hy => hx.sameVariable_eq ha hb hy) h
  generalize xs.find? x.sameVariable = first at hfirst ⊢
  generalize xs'.find? x'.sameVariable = first' at hfirst ⊢
  cases hfirst with
  | none => exact .none
  | @some first first' hfirst =>
      rw [Option.bind_some, Option.bind_some, ← hfirst.value, ← hx.value]
      by_cases hvalue : first.value = x.value
      · rw [if_pos hvalue, if_pos hvalue]
        exact .none
      · rw [if_neg hvalue, if_neg hvalue]
        exact .some ⟨hfirst, hx⟩

end

/-! ## The two runs -/

section

variable {a b : Scope}

theorem Block.alike_rule (block : Block) {s s' : String} (h : Selector.Renamed a b s s') :
    Alike (Rule.Renamed a b) (StyleError.Renamed a b) (block.rule s) (block.rule s') := by
  have hfault : ∀ d d' : Declaration, d = d' →
      Option.Rel (StyleError.Renamed a b) (d.fault? s) (d'.fault? s') := by
    rintro ⟨kind, name, value⟩ _ rfl
    cases value with
    | text _ => exact .none
    | number number =>
        have hnumber : ∀ selector, Declaration.fault? selector ⟨kind, name, .number number⟩ =
            if number.isFinite then none else some (.notFinite selector name number) := fun _ => rfl
        rw [hnumber, hnumber]
        by_cases hfinite : number.isFinite
        · rw [if_pos hfinite, if_pos hfinite]
          exact .none
        · rw [if_neg hfinite, if_neg hfinite]
          exact .some (.notFinite h name number)
  have hfirst := rel_findSome? hfault (List.forall₂_same.2 fun d (_ : d ∈ block.declarations) => rfl)
  unfold Block.rule
  generalize block.declarations.findSome? (Declaration.fault? s) = first at hfirst ⊢
  generalize block.declarations.findSome? (Declaration.fault? s') = first' at hfirst ⊢
  cases hfirst with
  | none => exact .ok ⟨h, rfl⟩
  | some herror => exact .error herror

theorem Target.alike_resolve {key : String} (ha : ¬ a.OccursIn key) (hb : ¬ b.OccursIn key) :
    Alike (Selector.Renamed a b) (StyleError.Renamed a b) ((Target.scoped a).resolve key)
      ((Target.scoped b).resolve key) := by
  -- the verdict is the same, and only an accepted key is resolved
  rw [Target.resolve_scoped, Target.resolve_scoped, Scope.check_eq_check ha hb]
  unfold Scope.check
  cases Selector.targetFault? b key with
  | none => exact .ok (Selector.renamed_resolve ha hb)
  | some fault => exact .error (.selectorTarget key fault)

namespace Level

variable {level : Level} (ha : a.FreshAt level) (hb : b.FreshAt level)

include ha hb

theorem renamed_blocks :
    List.Forall₂
      (fun entry entry' =>
        Alike (Selector.Renamed a b) (StyleError.Renamed a b) entry.1 entry'.1 ∧
          entry.2 = entry'.2)
      (level.blocks (.scoped a)) (level.blocks (.scoped b)) := by
  have hkeys : ∀ key ∈ level.scopedKeys, ¬ a.OccursIn key ∧ ¬ b.OccursIn key :=
    fun key hkey => ⟨ha key hkey, hb key hkey⟩
  unfold scopedKeys at hkeys
  obtain ⟨hpseudos, hselectors⟩ := List.forall_mem_append.1 hkeys
  unfold blocks
  refine List.rel_append (.cons ⟨.ok (Selector.renamed_selector a b), rfl⟩ ?_) ?_
  · rw [List.forall₂_map_left_iff, List.forall₂_map_right_iff]
    refine List.forall₂_same.2 fun entry hentry => ⟨.ok ?_, rfl⟩
    obtain ⟨htokenA, htokenB⟩ := hpseudos _ (List.mem_map_of_mem hentry)
    exact Selector.renamed_append htokenA htokenB
  · rw [List.forall₂_map_left_iff, List.forall₂_map_right_iff]
    refine List.forall₂_same.2 fun entry hentry => ⟨?_, rfl⟩
    obtain ⟨hkeyA, hkeyB⟩ := hselectors _ (List.mem_map_of_mem hentry)
    exact Target.alike_resolve hkeyA hkeyB

theorem alike_rules :
    Alike (List.Forall₂ (Rule.Renamed a b)) (StyleError.Renamed a b) (level.rules (.scoped a))
      (level.rules (.scoped b)) := by
  have hall : Alike (List.Forall₂ (Rule.Renamed a b)) (StyleError.Renamed a b)
      ((level.blocks (.scoped a)).mapM fun entry => do entry.2.rule (← entry.1))
      ((level.blocks (.scoped b)).mapM fun entry => do entry.2.rule (← entry.1)) := by
    refine alike_mapM ((renamed_blocks ha hb).imp ?_)
    rintro ⟨selector, block⟩ ⟨selector', _⟩ ⟨hselector, rfl⟩
    exact hselector.bind fun s s' hs => block.alike_rule hs
  unfold rules
  refine hall.bind fun all all' h => .ok (List.rel_filter (fun rule rule' hrule => ?_) h)
  have hempty : rule.isEmpty = rule'.isEmpty := by
    rw [Rule.isEmpty, Rule.isEmpty, hrule.declarations]
  show (!rule.isEmpty) = true ↔ (!rule'.isEmpty) = true
  rw [hempty]

theorem alike_flatten (hdotA : '.' ∉ a.ident.toList) (hdotB : '.' ∉ b.ident.toList)
    (reject : Bool) :
    Alike (List.Forall₂ (Rule.Renamed a b)) (StyleError.Renamed a b)
      (level.flatten (.scoped a) reject) (level.flatten (.scoped b) reject) := by
  unfold flatten
  refine (alike_rules ha hb).bind fun rules rules' hrules => ?_
  cases reject with
  | false => exact .ok hrules
  | true =>
      -- the only place where the selectors of a run are compared with each other
      have hsettings : List.Forall₂ (Setting.Renamed a b) (rules.flatMap Rule.settings)
          (rules'.flatMap Rule.settings) :=
        List.rel_flatMap hrules fun _ _ hrule => hrule.settings
      have hconflict := rel_conflict? hdotA hdotB hsettings
      rw [if_pos rfl, if_pos rfl]
      generalize conflict? (rules.flatMap Rule.settings) = found at hconflict ⊢
      generalize conflict? (rules'.flatMap Rule.settings) = found' at hconflict ⊢
      cases hconflict with
      | none => exact .ok hrules
      | @some found found' hfound =>
          obtain ⟨hfirst, hsecond⟩ := hfound
          refine .error ?_
          rw [hfirst.value, hsecond.value, hsecond.name]
          exact .duplicateVariable _ hsecond.selector _ _

end Level

/-- The two runs on a definition go alike. -/
theorem Definition.alike_flatten {definition : Definition} (hdotA : '.' ∉ a.ident.toList)
    (hdotB : '.' ∉ b.ident.toList) (ha : a.FreshFor definition) (hb : b.FreshFor definition)
    (reject : Bool) :
    Alike (Flattened.Renamed a b) (StyleError.Renamed a b)
      (definition.flatten (.scoped a) reject) (definition.flatten (.scoped b) reject) := by
  obtain ⟨hlevelA, hnestedA⟩ := List.forall_mem_cons.1 ha
  obtain ⟨hlevelB, hnestedB⟩ := List.forall_mem_cons.1 hb
  unfold flatten
  refine (Level.alike_flatten hlevelA hlevelB hdotA hdotB reject).bind fun rules rules' hrules => ?_
  refine (alike_mapM (List.forall₂_same.2 fun entry hentry => ?_)).bind
    fun conditional conditional' hconditional => .ok ⟨hrules, hconditional⟩
  exact (Level.alike_flatten (hnestedA entry hentry) (hnestedB entry hentry) hdotA hdotB reject).bind
    fun rules rules' hrules => .ok ⟨rfl, hrules⟩

/-- **Renaming the scope only renames the selectors.** A definition is accepted for both scopes or
for neither. What is made of it is the same but for the class that fills the templates of the
selectors, and so is the error for which it is rejected.

A class name of letters, digits, hyphens and underscores has no dot in it; nothing more is needed of
the two. -/
theorem Definition.flatten_renamed {definition : Definition} (hdotA : '.' ∉ a.ident.toList)
    (hdotB : '.' ∉ b.ident.toList) (ha : a.FreshFor definition) (hb : b.FreshFor definition)
    (reject : Bool) :
    ((∃ made, definition.flatten (.scoped a) reject = .ok made) ↔
      ∃ made, definition.flatten (.scoped b) reject = .ok made) ∧
    (∀ made made', definition.flatten (.scoped a) reject = .ok made →
      definition.flatten (.scoped b) reject = .ok made' → made.Renamed a b made') ∧
    ∀ error error', definition.flatten (.scoped a) reject = .error error →
      definition.flatten (.scoped b) reject = .error error' → error.Renamed a b error' := by
  have halike := alike_flatten hdotA hdotB ha hb reject
  refine ⟨halike.isOk_iff, ?_, ?_⟩
  · intro made made' hmade hmade'
    rw [hmade, hmade'] at halike
    cases halike with
    | ok h => exact h
  · intro error error' herror herror'
    rw [herror, herror'] at halike
    cases halike with
    | error h => exact h

/-- One of the keys holds a class with whose name that of a scope begins. -/
theorem Definition.flatten_renamed_of_focus :
    ∃ (definition : Definition) (made made' : Flattened),
      Scope.FreshFor ⟨"a"⟩ definition ∧ Scope.FreshFor ⟨"b-1"⟩ definition ∧
      definition.flatten (.scoped ⟨"a"⟩) true = .ok made ∧
      definition.flatten (.scoped ⟨"b-1"⟩) true = .ok made' ∧
      made.rules.map Rule.selector = [".a", ".a:hover", ".b:focus .a"] ∧
      made'.rules.map Rule.selector = [".b-1", ".b-1:hover", ".b:focus .b-1"] ∧
      made.Renamed ⟨"a"⟩ ⟨"b-1"⟩ made' := by
  let gap : Block := { custom := [("--gap", "0")] }
  let definition : Definition :=
    { level := { base := gap, pseudos := [(":hover", gap)], selectors := [(".b:focus &", gap)] }
      media := [("print", { level := { pseudos := [(":active", gap)] } })] }
  let made (own : String) : Flattened :=
    ⟨[⟨own, gap.declarations⟩, ⟨own ++ ":hover", gap.declarations⟩,
        ⟨".b:focus " ++ own, gap.declarations⟩],
      [([⟨.media, "print"⟩], [⟨own ++ ":active", gap.declarations⟩])]⟩
  have hfreshA : Scope.FreshFor ⟨"a"⟩ definition := by decide +kernel
  have hfreshB : Scope.FreshFor ⟨"b-1"⟩ definition := by decide +kernel
  have hmadeA : definition.flatten (.scoped ⟨"a"⟩) true = .ok (made ".a") := by decide +kernel
  have hmadeB : definition.flatten (.scoped ⟨"b-1"⟩) true = .ok (made ".b-1") := by decide +kernel
  obtain ⟨-, hrenamed, -⟩ := Definition.flatten_renamed (a := ⟨"a"⟩) (b := ⟨"b-1"⟩) (by decide)
    (by decide) hfreshA hfreshB true
  exact ⟨definition, made ".a", made ".b-1", hfreshA, hfreshB, hmadeA, hmadeB, by decide, by decide,
    hrenamed _ _ hmadeA hmadeB⟩

end

end ScopedCss
