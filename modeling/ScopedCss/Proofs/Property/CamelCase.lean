import Mathlib.Logic.Basic
import ScopedCss.Proofs.Property.Name

/-! # Camel case and hyphens

A name in the spelling of CSS is read back into camel case part by part: the hyphens go, and the
letters after them become capitals. `authoredName_cssName` says that a name and its CSS name agree in
camel case, unless CSS takes the name for that of a custom property or mistakes its vendor, as
`MistakesVendor` tells.
-/

set_option autoImplicit false

namespace ScopedCss.Property

/-! ## Capitals -/

theorem ne_hyphen_of_isUpper {c : Char} (h : c.isUpper) : c ≠ '-' :=
  forall_isUpper (P := fun c => c ≠ '-') (by decide) h

theorem toUpper_of_isUpper {c : Char} (h : c.isUpper) : c.toUpper = c :=
  forall_isUpper (P := fun c => c.toUpper = c) (by decide) h

theorem toUpper_toLower_of_isUpper {c : Char} (h : c.isUpper) : c.toLower.toUpper = c :=
  forall_isUpper (P := fun c => c.toLower.toUpper = c) (by decide) h

theorem toLower_eq_m_iff {c : Char} (h : c.isUpper) : c.toLower = 'm' ↔ c = 'M' :=
  forall_isUpper (P := fun c => c.toLower = 'm' ↔ c = 'M') (by decide) h

/-! ## Camel case of hyphenated names -/

/-- The camel case spelling, character by character. -/
def humps : List Char → List Char
  | '-' :: cs => vendorHumps cs
  | cs => joinHumps false cs

theorem humps_of_ne_hyphen {c : Char} (hc : c ≠ '-') (cs : List Char) :
    humps (c :: cs) = joinHumps false (c :: cs) := by
  unfold humps
  split
  · rename_i heq
    exact absurd (List.cons.inj heq).1 hc
  · rfl

theorem toList_authoredName (name : String) : (authoredName name).toList = humps name.toList := by
  unfold authoredName
  split
  · rename_i cs heq
    rw [heq, String.toList_ofList]
    rfl
  · rename_i hne
    rw [String.toList_ofList]
    cases hname : name.toList with
    | nil => rfl
    | cons c cs =>
        have hc : c ≠ '-' := by
          rintro rfl
          exact hne cs hname
        rw [humps_of_ne_hyphen hc]

theorem vendorHumps_of_ne_hyphen {c : Char} (hc : c ≠ '-') (cs : List Char) :
    vendorHumps (c :: cs) =
      joinHumps ((c :: cs).takeWhile (· != '-') != "ms".toList) (c :: cs) := by
  have hdrop : (c :: cs).dropWhile (· == '-') = c :: cs :=
    List.dropWhile_cons_of_neg (by simpa using hc)
  rw [vendorHumps, hdrop]

theorem joinHumps_of_ne_hyphen {c : Char} (hc : c ≠ '-') (raised : Bool) (cs : List Char) :
    joinHumps raised (c :: cs) = (if raised then c.toUpper else c) :: joinHumps false cs := by
  rw [joinHumps, if_neg hc]

/-- A capital stands in the camel case spelling as it is, and so does the small letter after a
hyphen that it is hyphenated to. -/
theorem joinHumps_hyphenate (raised : Bool) (cs : List Char) :
    joinHumps raised (cs.flatMap hyphenate) = joinHumps raised cs := by
  induction cs generalizing raised with
  | nil => rfl
  | cons c cs ih =>
      by_cases hupper : c.isUpper
      · have hraise : joinHumps raised ('-' :: c.toLower :: cs.flatMap hyphenate) =
            joinHumps true (c.toLower :: cs.flatMap hyphenate) := rfl
        rw [flatMap_hyphenate_of_isUpper hupper, hraise,
          joinHumps_of_ne_hyphen (toLower_ne_hyphen hupper), ih,
          joinHumps_of_ne_hyphen (ne_hyphen_of_isUpper hupper), if_pos rfl,
          toUpper_toLower_of_isUpper hupper, toUpper_of_isUpper hupper, ite_self]
      · rw [flatMap_hyphenate_of_not_isUpper hupper]
        by_cases hhyphen : c = '-'
        · rw [hhyphen]
          exact ih true
        · rw [joinHumps_of_ne_hyphen hhyphen, joinHumps_of_ne_hyphen hhyphen, ih]

/-- The first part of a hyphenated name ends before the first hyphen or capital. -/
theorem takeWhile_hyphenate (cs : List Char) :
    (cs.flatMap hyphenate).takeWhile (· != '-') =
      cs.takeWhile fun c => c != '-' && !c.isUpper := by
  induction cs with
  | nil => rfl
  | cons c cs ih =>
      by_cases hupper : c.isUpper
      · rw [flatMap_hyphenate_of_isUpper hupper, List.takeWhile_cons_of_neg (by simp),
          List.takeWhile_cons_of_neg (by simp [hupper])]
      · rw [flatMap_hyphenate_of_not_isUpper hupper]
        by_cases hhyphen : c = '-'
        · rw [List.takeWhile_cons_of_neg (by simp [hhyphen]),
            List.takeWhile_cons_of_neg (by simp [hhyphen])]
        · rw [List.takeWhile_cons_of_pos (by simp [hhyphen]),
            List.takeWhile_cons_of_pos (by simp [hhyphen, hupper]), ih]

/-! ## Spellings of the vendor `ms` -/

/-- A part of a name ends here: with the name, at a hyphen or before a capital. -/
def EndsPart (rest : List Char) : Prop := ∀ c, rest.head? = some c → c = '-' ∨ c.isUpper

/-- A name that CSS spells with the vendor `ms`, but that is not authored as the names of this
vendor are: with a capital, as `MsFlex` or `Ms-flex`, or with a hyphen before a camel case name, as
`-msFlex`. -/
inductive MistakesVendor (name : String) : Prop
  | capital {rest : List Char} (h : name.toList = 'M' :: 's' :: rest) (hrest : EndsPart rest)
  | hyphen {c : Char} {rest : List Char} (h : name.toList = '-' :: 'm' :: 's' :: c :: rest)
      (hc : c.isUpper)

/-- The first part of a text is `ms`, where parts go on with the characters of `p`. -/
theorem takeWhile_eq_ms_iff {p : Char → Bool} (hm : p 'm') (hs : p 's') {cs : List Char} :
    cs.takeWhile p = "ms".toList ↔
      ∃ rest, cs = 'm' :: 's' :: rest ∧ ∀ c, rest.head? = some c → p c = false := by
  constructor
  · intro h
    have hsplit : cs.takeWhile p ++ cs.dropWhile p = cs := List.takeWhile_append_dropWhile
    rw [h] at hsplit
    refine ⟨cs.dropWhile p, hsplit.symm, fun c hc => ?_⟩
    have hhead := List.head?_dropWhile_not p cs
    rw [hc] at hhead
    exact hhead
  · rintro ⟨rest, rfl, hrest⟩
    have hnil : rest.takeWhile p = [] := by
      cases rest with
      | nil => rfl
      | cons c rest => exact List.takeWhile_cons_of_neg (by simp [hrest c rfl])
    rw [List.takeWhile_cons_of_pos hm, List.takeWhile_cons_of_pos hs, hnil]
    rfl

theorem firstPart_eq_ms_iff {cs : List Char} :
    cs.takeWhile (· != '-') = "ms".toList ↔
      ∃ rest, cs = 'm' :: 's' :: rest ∧ ∀ c, rest.head? = some c → c = '-' := by
  rw [takeWhile_eq_ms_iff (by decide) (by decide)]
  simp

theorem firstPart_hyphenate_eq_ms_iff {cs : List Char} :
    (cs.flatMap hyphenate).takeWhile (· != '-') = "ms".toList ↔
      ∃ rest, cs = 'm' :: 's' :: rest ∧ EndsPart rest := by
  rw [takeWhile_hyphenate, takeWhile_eq_ms_iff (by decide) (by decide)]
  refine exists_congr fun rest => and_congr_right fun _ => forall₂_congr fun c _ => ?_
  by_cases hhyphen : c = '-' <;> simp [hhyphen]

/-! ## The camel case spelling of a CSS name -/

/-- A name that starts with a capital is spelled back, unless the capital starts `Ms`. -/
theorem humps_hyphenate_of_isUpper {c : Char} (hc : c.isUpper) {cs : List Char}
    (hms : ∀ rest, c :: cs = 'M' :: 's' :: rest → ¬ EndsPart rest) :
    humps ((c :: cs).flatMap hyphenate) = humps (c :: cs) := by
  have hsmall : ¬ c.toLower.isUpper :=
    forall_isUpper (P := fun c => ¬ c.toLower.isUpper) (by decide) hc
  have hlower := flatMap_hyphenate_of_not_isUpper hsmall cs
  have hpart : (((c.toLower :: cs).flatMap hyphenate).takeWhile (· != '-') != "ms".toList) =
      true := by
    rw [bne_iff_ne, Ne, firstPart_hyphenate_eq_ms_iff]
    rintro ⟨rest, hrest, hends⟩
    obtain ⟨hm, rfl⟩ := List.cons.inj hrest
    rw [(toLower_eq_m_iff hc).1 hm] at hms
    exact hms rest rfl hends
  calc humps ((c :: cs).flatMap hyphenate)
      = vendorHumps (c.toLower :: cs.flatMap hyphenate) := by
        rw [flatMap_hyphenate_of_isUpper hc]
        rfl
    _ = joinHumps true ((c.toLower :: cs).flatMap hyphenate) := by
        rw [vendorHumps_of_ne_hyphen (toLower_ne_hyphen hc), ← hlower, hpart]
    _ = c :: joinHumps false cs := by
        rw [joinHumps_hyphenate, joinHumps_of_ne_hyphen (toLower_ne_hyphen hc), if_pos rfl,
          toUpper_toLower_of_isUpper hc]
    _ = humps (c :: cs) := by
        rw [humps_of_ne_hyphen (ne_hyphen_of_isUpper hc),
          joinHumps_of_ne_hyphen (ne_hyphen_of_isUpper hc), if_neg Bool.false_ne_true]

/-- A name that starts with one hyphen is spelled back, unless it starts with `-ms` and a
capital. -/
theorem humps_hyphenate_of_hyphen {cs : List Char}
    (hcs : ∀ c, cs.head? = some c → c ≠ '-' ∧ ¬ c.isUpper)
    (hms : ∀ c rest, cs = 'm' :: 's' :: c :: rest → ¬ c.isUpper) :
    humps (('-' :: cs).flatMap hyphenate) = humps ('-' :: cs) := by
  cases cs with
  | nil => rfl
  | cons c cs =>
      obtain ⟨hc, hupper⟩ := hcs c rfl
      have hplain := flatMap_hyphenate_of_not_isUpper hupper cs
      have hpart : (((c :: cs).flatMap hyphenate).takeWhile (· != '-') != "ms".toList) =
          ((c :: cs).takeWhile (· != '-') != "ms".toList) := by
        rw [Bool.eq_iff_iff, bne_iff_ne, bne_iff_ne]
        refine not_congr ?_
        rw [firstPart_hyphenate_eq_ms_iff, firstPart_eq_ms_iff]
        refine exists_congr fun rest => and_congr_right fun hrest => ?_
        refine forall₂_congr fun d hd => or_iff_left ?_
        obtain ⟨rest, rfl⟩ := List.head?_eq_some_iff.1 hd
        exact hms d rest hrest
      have hhyphen : ('-' :: c :: cs).flatMap hyphenate = '-' :: (c :: cs).flatMap hyphenate := rfl
      calc humps (('-' :: c :: cs).flatMap hyphenate)
          = vendorHumps (c :: cs.flatMap hyphenate) := by
            rw [hhyphen, hplain]
            rfl
        _ = joinHumps ((c :: cs).takeWhile (· != '-') != "ms".toList)
              ((c :: cs).flatMap hyphenate) := by
            rw [vendorHumps_of_ne_hyphen hc, ← hplain, hpart]
        _ = vendorHumps (c :: cs) := by
            rw [joinHumps_hyphenate, vendorHumps_of_ne_hyphen hc]

/-- Any other name is spelled back. -/
theorem humps_withVendorHyphen {c : Char} (hc : c ≠ '-') (hupper : ¬ c.isUpper) (cs : List Char) :
    humps (withVendorHyphen ((c :: cs).flatMap hyphenate)) = humps (c :: cs) := by
  have hplain := flatMap_hyphenate_of_not_isUpper hupper cs
  have hjoin : joinHumps false ((c :: cs).flatMap hyphenate) = humps (c :: cs) := by
    rw [joinHumps_hyphenate, humps_of_ne_hyphen hc]
  rw [withVendorHyphen]
  by_cases hms : "ms-".toList.isPrefixOf ((c :: cs).flatMap hyphenate)
  · -- with its hyphen the vendor `ms` is read as one, and so not raised
    obtain ⟨rest, hrest⟩ := List.isPrefixOf_iff_prefix.1 hms
    rw [if_pos hms, ← hjoin, ← hrest]
    rfl
  · rw [if_neg hms, ← hjoin, hplain, humps_of_ne_hyphen hc]

/-- **The two spellings of a name agree in camel case**, if CSS does not take it for the name of a
custom property and does not mistake its vendor. -/
theorem authoredName_cssName {name : String} (hcustom : ¬ isCustom (cssName name))
    (hvendor : ¬ MistakesVendor name) : authoredName (cssName name) = authoredName name := by
  rw [isCustom_cssName_iff, not_or] at hcustom
  obtain ⟨hcustom, hdisguised⟩ := hcustom
  apply String.toList_injective
  rw [toList_authoredName, toList_authoredName, toList_cssName hcustom]
  match hname : name.toList with
  | [] => rfl
  | c :: cs =>
      by_cases hhyphen : c = '-'
      · subst hhyphen
        have hvendorless : withVendorHyphen (('-' :: cs).flatMap hyphenate) =
            ('-' :: cs).flatMap hyphenate := withVendorHyphen_cons_hyphen _
        rw [hvendorless]
        refine humps_hyphenate_of_hyphen (fun d hd => ?_) fun d rest hrest hupper => ?_
        · obtain ⟨rest, rfl⟩ := List.head?_eq_some_iff.1 hd
          refine ⟨?_, fun hupper => hdisguised ⟨d, rest, hname, hupper⟩⟩
          rintro rfl
          exact hcustom (isCustom_iff.2 ⟨rest, hname⟩)
        · subst hrest
          exact hvendor (.hyphen hname hupper)
      · by_cases hupper : c.isUpper
        · have hvendorless : withVendorHyphen ((c :: cs).flatMap hyphenate) =
              (c :: cs).flatMap hyphenate := by
            rw [flatMap_hyphenate_of_isUpper hupper, withVendorHyphen_cons_hyphen]
          rw [hvendorless]
          refine humps_hyphenate_of_isUpper hupper fun rest hrest hends => ?_
          exact hvendor (.capital (hname.trans hrest) hends)
        · exact humps_withVendorHyphen hhyphen hupper cs

/-- A name that mistakes the vendor starts with a capital `M` in camel case. -/
theorem MistakesVendor.head?_authoredName {name : String} (h : MistakesVendor name) :
    (authoredName name).toList.head? = some 'M' := by
  rw [toList_authoredName]
  cases h with
  | capital h hrest =>
      rw [h]
      rfl
  | @hyphen c rest h hc =>
      have hpart : (('m' :: 's' :: c :: rest).takeWhile (· != '-') != "ms".toList) = true := by
        rw [bne_iff_ne, Ne, firstPart_eq_ms_iff]
        rintro ⟨more, hmore, hends⟩
        obtain rfl := (List.cons.inj (List.cons.inj hmore).2).2
        exact ne_hyphen_of_isUpper hc (hends c rfl)
      have hvendor : humps ('-' :: 'm' :: 's' :: c :: rest) =
          vendorHumps ('m' :: 's' :: c :: rest) := rfl
      rw [h, hvendor, vendorHumps_of_ne_hyphen (by decide), hpart]
      rfl

theorem MistakesVendor.not_isCustom {name : String} (h : MistakesVendor name) :
    ¬ isCustom name := by
  rw [isCustom_iff]
  rintro ⟨cs, hcs⟩
  cases h with
  | capital h _ => exact absurd (List.cons.inj (h.symm.trans hcs)).1 (by decide)
  | hyphen h _ => exact absurd (List.cons.inj (List.cons.inj (h.symm.trans hcs)).2).1 (by decide)

/-- CSS spells it with the vendor `ms`. -/
theorem MistakesVendor.exists_toList_cssName {name : String} (h : MistakesVendor name) :
    ∃ rest, EndsPart rest ∧
      (cssName name).toList = '-' :: ('m' :: 's' :: rest).flatMap hyphenate := by
  rw [toList_cssName h.not_isCustom]
  cases h with
  | @capital rest h hrest =>
      refine ⟨rest, hrest, ?_⟩
      rw [h]
      rfl
  | @hyphen c rest h hc =>
      refine ⟨c :: rest, fun d hd => ?_, ?_⟩
      · obtain rfl := Option.some.inj hd
        exact Or.inr hc
      · rw [h]
        rfl

/-- So the two spellings of it do not agree in camel case: from CSS the vendor comes back with a
small letter. -/
theorem MistakesVendor.authoredName_cssName_ne {name : String} (h : MistakesVendor name) :
    authoredName (cssName name) ≠ authoredName name := by
  obtain ⟨rest, hrest, hcss⟩ := h.exists_toList_cssName
  have hpart : (('m' :: 's' :: rest).flatMap hyphenate).takeWhile (· != '-') = "ms".toList :=
    firstPart_hyphenate_eq_ms_iff.2 ⟨rest, rfl, hrest⟩
  have hsmall : ('m' :: 's' :: rest).flatMap hyphenate =
      'm' :: ('s' :: rest).flatMap hyphenate := flatMap_hyphenate_of_not_isUpper (by decide) _
  have hhead : (authoredName (cssName name)).toList.head? = some 'm' := by
    calc (authoredName (cssName name)).toList.head?
        = (vendorHumps (('m' :: 's' :: rest).flatMap hyphenate)).head? := by
          rw [toList_authoredName, hcss]
          rfl
      _ = (joinHumps false (('m' :: 's' :: rest).flatMap hyphenate)).head? := by
          rw [hsmall, vendorHumps_of_ne_hyphen (by decide), ← hsmall, hpart]
          rfl
      _ = some 'm' := by
          rw [joinHumps_hyphenate]
          rfl
  intro heq
  rw [heq, h.head?_authoredName] at hhead
  exact absurd hhead (by decide)

end ScopedCss.Property
