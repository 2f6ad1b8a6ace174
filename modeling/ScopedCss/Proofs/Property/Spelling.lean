import Mathlib
import ScopedCss.Proofs.Property.CamelCase

/-! # The two spellings of a name

`cssName` leads from camel case to the spelling of CSS, and `authoredName` leads back. Each undoes
the other on the names that are spelled in its own way. A name is given back by `authoredName` after
`cssName` exactly if it is in camel case (`authoredName_cssName_eq_iff`). A name made of parts with
hyphens between them is given back by `cssName` after `authoredName` exactly if it is canonical
(`KebabName.cssName_authoredName_eq_iff`).

All exceptions come from the vendor `ms`, which is the one that starts with a small letter in camel
case: `Ms` is not a vendor there, and `ms` without its hyphen is none in CSS.
-/

set_option autoImplicit false

namespace ScopedCss.Property

/-! ## Names in the spelling of CSS -/

theorem not_isUpper_of_mem_hyphenate {c d : Char} (h : d ∈ hyphenate c) : ¬ d.isUpper := by
  rw [hyphenate] at h
  by_cases hupper : c.isUpper
  · rw [if_pos hupper] at h
    rcases List.mem_pair.1 h with rfl | rfl
    · decide
    · simp only [Char.isUpper_toLower_eq_false, Bool.false_eq_true, not_false_eq_true]
  · rw [if_neg hupper, List.mem_singleton] at h
    rwa [h]

theorem flatMap_hyphenate_eq_self {cs : List Char} (h : ∀ c ∈ cs, ¬ c.isUpper) :
    cs.flatMap hyphenate = cs := by
  calc cs.flatMap hyphenate
      = cs.flatMap fun c => [c] := List.flatMap_congr fun c hc => if_neg (h c hc)
    _ = cs := List.flatMap_singleton' cs

theorem withVendorHyphen_eq_self_iff {cs : List Char} :
    withVendorHyphen cs = cs ↔ ¬ "ms-".toList.isPrefixOf cs := by
  rw [withVendorHyphen]
  by_cases h : "ms-".toList.isPrefixOf cs
  · rw [if_pos h]
    exact iff_of_false (List.cons_ne_self _ _) (not_not.2 h)
  · rw [if_neg h]
    exact iff_of_true rfl h

theorem withVendorHyphen_eq_cons_iff {cs : List Char} :
    withVendorHyphen cs = '-' :: cs ↔ "ms-".toList.isPrefixOf cs := by
  rw [withVendorHyphen]
  by_cases h : "ms-".toList.isPrefixOf cs
  · rw [if_pos h]
    exact iff_of_true rfl h
  · rw [if_neg h]
    exact iff_of_false (List.cons_ne_self _ _).symm h

/-- A second hyphen is not put before the vendor. -/
theorem withVendorHyphen_idem (cs : List Char) :
    withVendorHyphen (withVendorHyphen cs) = withVendorHyphen cs := by
  by_cases h : "ms-".toList.isPrefixOf cs
  · rw [withVendorHyphen_eq_cons_iff.2 h, withVendorHyphen_cons_hyphen]
  · rw [withVendorHyphen_eq_self_iff.2 h, withVendorHyphen_eq_self_iff.2 h]

/-- CSS names have no capitals, but for those of custom properties. -/
theorem not_isUpper_of_mem_cssName {name : String} (h : ¬ isCustom name) {c : Char}
    (hc : c ∈ (cssName name).toList) : ¬ c.isUpper := by
  have hmem : c = '-' ∨ c ∈ name.toList.flatMap hyphenate := by
    rw [toList_cssName h, withVendorHyphen] at hc
    split at hc
    · exact List.mem_cons.1 hc
    · exact Or.inr hc
  rcases hmem with rfl | hmem
  · decide
  · obtain ⟨d, -, hd⟩ := List.mem_flatMap.1 hmem
    exact not_isUpper_of_mem_hyphenate hd

theorem cssName_cssName (name : String) : cssName (cssName name) = cssName name := by
  by_cases hcss : isCustom (cssName name)
  · exact cssName_of_isCustom hcss
  · have hcustom : ¬ isCustom name := fun h => hcss (by rwa [cssName_of_isCustom h])
    apply String.toList_injective
    rw [toList_cssName hcss,
      flatMap_hyphenate_eq_self fun c => not_isUpper_of_mem_cssName hcustom, toList_cssName hcustom,
      withVendorHyphen_idem]

/-! ## Names in camel case -/

theorem toUpper_ne_hyphen {c : Char} (h : c ≠ '-') : c.toUpper ≠ '-' := by
  by_cases hlower : c.isLower
  · have hupper : c.toUpper.isUpper := by
      rw [Char.isUpper_toUpper_eq_isAlpha, Char.isAlpha, hlower, Bool.or_true]
    exact ne_hyphen_of_isUpper hupper
  · rwa [Char.toUpper_eq_of_not_isLower hlower]

theorem hyphen_notMem_joinHumps (raised : Bool) (cs : List Char) :
    '-' ∉ joinHumps raised cs := by
  induction cs generalizing raised with
  | nil => exact List.not_mem_nil
  | cons c cs ih =>
      by_cases hc : c = '-'
      · rw [hc]
        exact ih true
      · rw [joinHumps_of_ne_hyphen hc, List.mem_cons, not_or]
        refine ⟨Ne.symm ?_, ih false⟩
        cases raised with
        | false => exact hc
        | true => exact toUpper_ne_hyphen hc

/-- In camel case there are no hyphens. -/
theorem hyphen_notMem_authoredName (name : String) : '-' ∉ (authoredName name).toList := by
  rw [toList_authoredName]
  unfold humps
  split
  · exact hyphen_notMem_joinHumps _ _
  · exact hyphen_notMem_joinHumps _ _

theorem joinHumps_append {cs : List Char} (h : '-' ∉ cs) (rest : List Char) :
    joinHumps false (cs ++ rest) = cs ++ joinHumps false rest := by
  induction cs with
  | nil => rfl
  | cons c cs ih =>
      rw [List.mem_cons, not_or] at h
      rw [List.cons_append, joinHumps_of_ne_hyphen (Ne.symm h.1), ih h.2]
      rfl

theorem authoredName_eq_self {name : String} (h : '-' ∉ name.toList) :
    authoredName name = name := by
  apply String.toList_injective
  rw [toList_authoredName]
  cases hname : name.toList with
  | nil => rfl
  | cons c cs =>
      rw [hname] at h
      have hc : c ≠ '-' := fun heq => h (heq ▸ List.mem_cons_self)
      have hjoin := joinHumps_append h []
      rw [List.append_nil, joinHumps, List.append_nil] at hjoin
      rw [humps_of_ne_hyphen hc, hjoin]

theorem not_isCustom_of_hyphen_notMem {name : String} (h : '-' ∉ name.toList) :
    ¬ isCustom name := by
  rw [isCustom_iff]
  rintro ⟨cs, hcs⟩
  exact h (by simp [hcs])

/-- A name in camel case has no hyphens, and it is neither `Ms` nor `Ms` before a capital: these CSS
spells with the vendor `ms`, which is authored with a small letter. -/
structure IsCamelCase (name : String) : Prop where
  hyphen_notMem : '-' ∉ name.toList
  ne_ms : name ≠ "Ms"
  not_isUpper : ∀ c rest, name.toList = 'M' :: 's' :: c :: rest → ¬ c.isUpper

theorem isCamelCase_iff {name : String} :
    IsCamelCase name ↔ '-' ∉ name.toList ∧ ¬ MistakesVendor name := by
  have hms : "Ms".toList = ['M', 's'] := by decide
  constructor
  · rintro ⟨hhyphen, hne, hupper⟩
    refine ⟨hhyphen, fun hvendor => ?_⟩
    cases hvendor with
    | @capital rest hname hrest =>
        cases rest with
        | nil => exact hne (String.toList_injective (hname.trans hms.symm))
        | cons c rest =>
            rcases hrest c rfl with rfl | hc
            · exact hhyphen (by simp [hname])
            · exact hupper c rest hname hc
    | hyphen hname _ => exact hhyphen (by simp [hname])
  · rintro ⟨hhyphen, hvendor⟩
    refine ⟨hhyphen, ?_, fun c rest hname hc => ?_⟩
    · rintro rfl
      exact hvendor (.capital hms fun c hc => absurd hc (Option.some_ne_none c).symm)
    · refine hvendor (.capital hname fun d hd => ?_)
      obtain rfl := Option.some.inj hd
      exact Or.inr hc

/-- The names in camel case, and no others, are given back from their spelling in CSS. -/
theorem authoredName_cssName_eq_iff {name : String} :
    authoredName (cssName name) = name ↔ IsCamelCase name := by
  rw [isCamelCase_iff]
  constructor
  · intro h
    have hhyphen : '-' ∉ name.toList := by
      rw [← h]
      exact hyphen_notMem_authoredName _
    refine ⟨hhyphen, fun hvendor => hvendor.authoredName_cssName_ne ?_⟩
    rw [h, authoredName_eq_self hhyphen]
  · rintro ⟨hhyphen, hvendor⟩
    have hcustom : ¬ isCustom (cssName name) := by
      rw [isCustom_cssName_iff]
      rintro (hcustom | ⟨c, rest, hname, -⟩)
      · exact not_isCustom_of_hyphen_notMem hhyphen hcustom
      · exact hhyphen (by simp [hname])
    rw [authoredName_cssName hcustom hvendor, authoredName_eq_self hhyphen]

/-! ## Names in kebab case -/

/-- A part of a name in kebab case starts with a small letter and has no hyphens and no
capitals. -/
def IsPart : List Char → Prop
  | [] => False
  | c :: cs => c.isLower ∧ ∀ d ∈ cs, d ≠ '-' ∧ ¬ d.isUpper

instance : DecidablePred IsPart
  | [] => isFalse id
  | _ :: cs => @instDecidableAnd _ _ _ (List.decidableBAll _ cs)

/-- A name in kebab case, by its parts. -/
structure KebabName where
  /-- A hyphen stands before the first part. -/
  vendor : Bool
  first : List Char
  more : List (List Char)
  isPart : ∀ part ∈ first :: more, IsPart part

namespace IsPart

variable {part : List Char} (h : IsPart part)

include h

theorem hyphen_notMem : '-' ∉ part := by
  cases part with
  | nil => exact List.not_mem_nil
  | cons c cs =>
      rw [List.mem_cons, not_or]
      refine ⟨?_, fun hmem => (h.2 _ hmem).1 rfl⟩
      rintro rfl
      exact absurd h.1 (by decide)

theorem not_isUpper {c : Char} (hc : c ∈ part) : ¬ c.isUpper := by
  cases part with
  | nil => exact absurd hc List.not_mem_nil
  | cons d cs =>
      rcases List.mem_cons.1 hc with rfl | hmem
      · exact Char.not_isUpper_of_isLower h.1
      · exact (h.2 c hmem).2

/-- A part is hyphenated as it was, with a hyphen before it if it was raised. -/
theorem flatMap_hyphenate_joinHumps (raised : Bool) (rest : List Char) :
    (joinHumps raised (part ++ rest)).flatMap hyphenate =
      (if raised then ['-'] else []) ++ part ++ (joinHumps false rest).flatMap hyphenate := by
  have hhyphen := h.hyphen_notMem
  have hself : part.flatMap hyphenate = part :=
    flatMap_hyphenate_eq_self fun c => h.not_isUpper
  cases raised with
  | false =>
      rw [joinHumps_append hhyphen, List.flatMap_append, hself]
      rfl
  | true =>
      cases part with
      | nil => exact h.elim
      | cons c cs =>
          have hupper : c.toUpper.isUpper := by
            rw [Char.isUpper_toUpper_eq_isAlpha, Char.isAlpha, h.1, Bool.or_true]
          have hlower : c.toUpper.toLower = c := by
            rw [Char.toLower_toUpper_eq_toLower,
              Char.toLower_eq_of_not_isUpper (Char.not_isUpper_of_isLower h.1)]
          rw [List.mem_cons, not_or] at hhyphen
          rw [flatMap_hyphenate_of_not_isUpper (h.not_isUpper List.mem_cons_self)] at hself
          rw [List.cons_append, joinHumps_of_ne_hyphen (Ne.symm hhyphen.1),
            joinHumps_append hhyphen.2, if_pos rfl, flatMap_hyphenate_of_isUpper hupper, hlower,
            List.flatMap_append, (List.cons.inj hself).2]
          rfl

end IsPart

theorem flatMap_hyphenate_joinHumps_intercalate {first : List Char} {more : List (List Char)}
    (h : ∀ part ∈ first :: more, IsPart part) (raised : Bool) :
    (joinHumps raised (['-'].intercalate (first :: more))).flatMap hyphenate =
      (if raised then ['-'] else []) ++ ['-'].intercalate (first :: more) := by
  induction more generalizing first raised with
  | nil =>
      have hfirst := (h first List.mem_cons_self).flatMap_hyphenate_joinHumps raised []
      rw [List.append_nil, joinHumps, List.flatMap_nil, List.append_nil] at hfirst
      rw [List.intercalate_singleton, hfirst]
  | cons second more ih =>
      -- the hyphen before the second part raises it, and is put before it again
      have hraise : joinHumps false (['-'] ++ ['-'].intercalate (second :: more)) =
          joinHumps true (['-'].intercalate (second :: more)) := rfl
      rw [List.intercalate_cons_cons, List.append_assoc,
        (h first List.mem_cons_self).flatMap_hyphenate_joinHumps, hraise,
        ih fun part hpart => h part (List.mem_cons_of_mem _ hpart), if_pos rfl, List.append_assoc]

theorem takeWhile_intercalate {first : List Char} (h : '-' ∉ first) (more : List (List Char)) :
    (['-'].intercalate (first :: more)).takeWhile (· != '-') = first := by
  have hall : ∀ c ∈ first, (c != '-') = true := fun c hc =>
    bne_iff_ne.2 fun heq => h (heq ▸ hc)
  cases more with
  | nil => rw [List.intercalate_singleton, List.takeWhile_eq_self_iff.2 hall]
  | cons second more =>
      rw [List.intercalate_cons_cons, List.append_assoc, List.takeWhile_append_of_pos hall]
      exact List.append_nil first

namespace KebabName

variable (kebab : KebabName)

/-- The parts with hyphens between them. -/
def joined : List Char := ['-'].intercalate (kebab.first :: kebab.more)

/-- The name as a text. -/
def text : String := String.ofList (if kebab.vendor then '-' :: kebab.joined else kebab.joined)

/-- If the first part is `ms`, it is the whole name or a vendor with further parts. -/
def IsCanonical : Prop :=
  kebab.first = "ms".toList →
    kebab.vendor = false ∧ kebab.more = [] ∨ kebab.vendor = true ∧ kebab.more ≠ []

theorem first_isPart : IsPart kebab.first := kebab.isPart _ List.mem_cons_self

theorem takeWhile_joined : kebab.joined.takeWhile (· != '-') = kebab.first :=
  takeWhile_intercalate kebab.first_isPart.hyphen_notMem _

theorem exists_joined_eq_cons : ∃ c cs, kebab.joined = c :: cs ∧ c ≠ '-' := by
  have hpart := kebab.first_isPart
  have hhyphen := hpart.hyphen_notMem
  rw [joined]
  cases hfirst : kebab.first with
  | nil =>
      rw [hfirst] at hpart
      exact hpart.elim
  | cons c cs =>
      rw [hfirst, List.mem_cons, not_or] at hhyphen
      exact ⟨c, _, List.intercalate_cons_cons_left, Ne.symm hhyphen.1⟩

theorem toList_text :
    kebab.text.toList = if kebab.vendor then '-' :: kebab.joined else kebab.joined :=
  String.toList_ofList

/-- Without a vendor, and under the vendor `ms`, the first part is not raised. -/
theorem toList_authoredName_text :
    (authoredName kebab.text).toList =
      joinHumps (kebab.vendor && kebab.first != "ms".toList) kebab.joined := by
  obtain ⟨c, cs, hjoined, hc⟩ := kebab.exists_joined_eq_cons
  have hfirst := kebab.takeWhile_joined
  rw [hjoined] at hfirst
  rw [toList_authoredName, toList_text]
  cases kebab.vendor with
  | false =>
      rw [if_neg Bool.false_ne_true, hjoined, humps_of_ne_hyphen hc]
      rfl
  | true =>
      rw [if_pos rfl, humps, hjoined, vendorHumps_of_ne_hyphen hc, hfirst]
      rfl

theorem isPrefixOf_joined_iff :
    "ms-".toList.isPrefixOf kebab.joined ↔ kebab.first = "ms".toList ∧ kebab.more ≠ [] := by
  have hfirst := kebab.takeWhile_joined
  rw [List.isPrefixOf_iff_prefix]
  constructor
  · rintro ⟨rest, hrest⟩
    rw [← hrest] at hfirst
    refine ⟨hfirst.symm, fun hmore => ?_⟩
    rw [joined, hmore, List.intercalate_singleton, ← hfirst] at hrest
    exact absurd (congrArg List.length hrest) (by simp)
  · rintro ⟨hms, hmore⟩
    obtain ⟨second, more, hmore⟩ := List.exists_cons_of_ne_nil hmore
    rw [joined, hms, hmore, List.intercalate_cons_cons]
    exact ⟨_, rfl⟩

/-- Back in the spelling of CSS a name has the hyphen of a raised part, and where it then starts with
`ms` and a hyphen also that of the vendor. -/
theorem toList_cssName_authoredName_text :
    (cssName (authoredName kebab.text)).toList =
      withVendorHyphen (if kebab.vendor && kebab.first != "ms".toList then '-' :: kebab.joined
        else kebab.joined) := by
  have hcustom : ¬ isCustom (authoredName kebab.text) :=
    not_isCustom_of_hyphen_notMem (hyphen_notMem_authoredName _)
  rw [toList_cssName hcustom, toList_authoredName_text, joined,
    flatMap_hyphenate_joinHumps_intercalate kebab.isPart]
  cases kebab.vendor && kebab.first != "ms".toList <;> rfl

/-- The canonical names in kebab case, and no others, are given back from camel case. -/
theorem cssName_authoredName_eq_iff :
    cssName (authoredName kebab.text) = kebab.text ↔ kebab.IsCanonical := by
  rw [← String.toList_inj, toList_cssName_authoredName_text, toList_text, IsCanonical]
  cases kebab.vendor with
  | false =>
      -- a first part `ms` is given the hyphen of a vendor if there are further parts
      rw [Bool.false_and, if_neg Bool.false_ne_true,
        withVendorHyphen_eq_self_iff, isPrefixOf_joined_iff]
      simp
  | true =>
      by_cases hms : kebab.first = "ms".toList
      · -- the vendor `ms` is not raised, and has its hyphen put back only before further parts
        rw [hms, bne_self_eq_false, Bool.and_false, if_neg Bool.false_ne_true, if_pos rfl,
          withVendorHyphen_eq_cons_iff, isPrefixOf_joined_iff]
        simp [hms]
      · rw [bne_iff_ne.2 hms, Bool.and_true, if_pos rfl, withVendorHyphen_cons_hyphen]
        exact iff_of_true rfl fun heq => absurd heq hms

end KebabName

/-- **The two spellings of a name.** A name that CSS spells stays as it is, and it has no capitals
unless it was authored as that of a custom property. From it the names in camel case, and no others,
are given back, so that no two of these name one property in CSS. And a name in kebab case is given
back from camel case exactly if it is canonical. -/
theorem spellings_inverse :
    (∀ name, cssName (cssName name) = cssName name ∧
      (isCustom name ∨ ∀ c ∈ (cssName name).toList, ¬ c.isUpper)) ∧
    (∀ name, authoredName (cssName name) = name ↔ IsCamelCase name) ∧
    {name | IsCamelCase name}.InjOn cssName ∧
    ∀ kebab : KebabName,
      cssName (authoredName kebab.text) = kebab.text ↔ kebab.IsCanonical := by
  have hleft : {name | IsCamelCase name}.LeftInvOn authoredName cssName := fun name hname =>
    authoredName_cssName_eq_iff.2 hname
  refine ⟨fun name => ⟨cssName_cssName name, ?_⟩, fun name => authoredName_cssName_eq_iff,
    hleft.injOn, KebabName.cssName_authoredName_eq_iff⟩
  by_cases hcustom : isCustom name
  · exact Or.inl hcustom
  · exact Or.inr fun c => not_isUpper_of_mem_cssName hcustom

/-- The vendor `ms` in both spellings, and a name that CSS spells with it too. -/
theorem spellings_inverse_of_ms :
    ∃ kebab : KebabName, kebab.text = "-ms-flex-align" ∧ kebab.IsCanonical ∧
      cssName (authoredName kebab.text) = kebab.text ∧ authoredName kebab.text = "msFlexAlign" ∧
      IsCamelCase "msFlexAlign" ∧ authoredName (cssName "msFlexAlign") = "msFlexAlign" ∧
      cssName "MsFlexAlign" = kebab.text ∧ ¬ IsCamelCase "MsFlexAlign" := by
  obtain ⟨-, hcamel, hinj, hkebab⟩ := spellings_inverse
  have hname : IsCamelCase "msFlexAlign" := by
    refine ⟨by decide, by decide, fun c rest hrest => ?_⟩
    have hlist : "msFlexAlign".toList = 'm' :: "sFlexAlign".toList := by decide
    exact absurd (List.cons.inj (hlist.symm.trans hrest)).1 (by decide)
  have hsame : cssName "MsFlexAlign" = cssName "msFlexAlign" := by decide +kernel
  refine ⟨⟨true, "ms".toList, ["flex".toList, "align".toList], by decide⟩, by decide +kernel, ?_,
    (hkebab _).2 ?_, by decide +kernel, hname, (hcamel _).2 hname, by decide +kernel, fun hms => ?_⟩
  · exact fun _ => Or.inr ⟨rfl, List.cons_ne_nil _ _⟩
  · exact fun _ => Or.inr ⟨rfl, List.cons_ne_nil _ _⟩
  · exact absurd (hinj hms hname hsame) (by decide)

end ScopedCss.Property
