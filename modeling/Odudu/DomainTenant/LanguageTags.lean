import Odudu.Texts.Ascii

/-!
# Language tags

`isValidLocale` and `canonicalLocale` of `profile-claims.ts`: a language, a script and a region,
the last two optional.  A tag and its canonical spelling differ in the case of letters only, and
the canonical spelling is its own (`canonicalLocale_spec`).
-/

set_option autoImplicit false

namespace Odudu.DomainTenant

open Texts

def DASH : UInt16 := 0x2D

def isLanguage (subtag : Utf16) : Bool :=
  (subtag.length == 2 || subtag.length == 3) && subtag.all isLetterUnit

def isScript (subtag : Utf16) : Bool := subtag.length == 4 && subtag.all isLetterUnit

def isRegion (subtag : Utf16) : Bool :=
  subtag.length == 2 && subtag.all isLetterUnit || subtag.length == 3 && subtag.all isDigitUnit

/-- What `LOCALE` takes between dashes. -/
def validSubtags : List Utf16 → Bool
  | [language] => isLanguage language
  | [language, subtag] => isLanguage language && (isScript subtag || isRegion subtag)
  | [language, script, region] => isLanguage language && isScript script && isRegion region
  | _ => false

def isValidLocale (value : Utf16) : Bool := validSubtags (value.splitOn DASH)

def canonicalSubtag (subtag : Utf16) : Utf16 :=
  if subtag.length = 4 then (subtag.take 1).map upperUnit ++ (subtag.drop 1).map lowerUnit
  else subtag.map upperUnit

def canonicalSubtags : List Utf16 → List Utf16
  | [] => []
  | language :: rest => language.map lowerUnit :: rest.map canonicalSubtag

def canonicalLocale (value : Utf16) : Option Utf16 :=
  if isValidLocale value then
    some ([DASH].intercalate (canonicalSubtags (value.splitOn DASH)))
  else none

/-! ### Subtags -/

theorem map_lower_upper (text : Utf16) :
    (text.map upperUnit).map lowerUnit = text.map lowerUnit := by
  rw [List.map_map]
  exact List.map_congr_left fun u _ ↦ lowerUnit_upperUnit u

theorem map_lower_lower (text : Utf16) :
    (text.map lowerUnit).map lowerUnit = text.map lowerUnit := by
  rw [List.map_map]
  exact List.map_congr_left fun u _ ↦ lowerUnit_lowerUnit u

theorem map_upper_upper (text : Utf16) :
    (text.map upperUnit).map upperUnit = text.map upperUnit := by
  rw [List.map_map]
  exact List.map_congr_left fun u _ ↦ upperUnit_upperUnit u

theorem length_canonicalSubtag (subtag : Utf16) :
    (canonicalSubtag subtag).length = subtag.length := by
  unfold canonicalSubtag
  split
  · rw [List.length_append, List.length_map, List.length_map, ← List.length_append,
      List.take_append_drop]
  · exact List.length_map _

/-- Only the case of a subtag changes. -/
theorem lower_canonicalSubtag (subtag : Utf16) :
    (canonicalSubtag subtag).map lowerUnit = subtag.map lowerUnit := by
  unfold canonicalSubtag
  split
  · rw [List.map_append, map_lower_upper, map_lower_lower, ← List.map_append,
      List.take_append_drop]
  · exact map_lower_upper subtag

theorem canonicalSubtag_canonicalSubtag (subtag : Utf16) :
    canonicalSubtag (canonicalSubtag subtag) = canonicalSubtag subtag := by
  by_cases hlength : subtag.length = 4
  · have hfirst : ((subtag.take 1).map upperUnit).length = 1 := by
      rw [List.length_map, List.length_take]
      omega
    have hspelled : canonicalSubtag subtag =
        (subtag.take 1).map upperUnit ++ (subtag.drop 1).map lowerUnit := if_pos hlength
    have hagain : canonicalSubtag (canonicalSubtag subtag) =
        ((canonicalSubtag subtag).take 1).map upperUnit ++
          ((canonicalSubtag subtag).drop 1).map lowerUnit :=
      if_pos ((length_canonicalSubtag subtag).trans hlength)
    rw [hagain, hspelled, List.take_left' hfirst, List.drop_left' hfirst, map_upper_upper,
      map_lower_lower]
  · have hspelled : canonicalSubtag subtag = subtag.map upperUnit := if_neg hlength
    have hagain : canonicalSubtag (canonicalSubtag subtag) =
        (canonicalSubtag subtag).map upperUnit :=
      if_neg (by rwa [length_canonicalSubtag])
    rw [hagain, hspelled, map_upper_upper]

variable {subtag : Utf16}

theorem all_letter_lower (h : subtag.all isLetterUnit = true) :
    (subtag.map lowerUnit).all isLetterUnit = true := by
  rw [List.all_eq_true] at h
  rw [List.all_map, List.all_eq_true]
  intro u hu
  rw [Function.comp_apply, isLetterUnit, isLowerUnit_lowerUnit (h u hu), Bool.or_true]

theorem all_letter_upper (h : subtag.all isLetterUnit = true) :
    (subtag.map upperUnit).all isLetterUnit = true := by
  rw [List.all_eq_true] at h
  rw [List.all_map, List.all_eq_true]
  intro u hu
  rw [Function.comp_apply, isLetterUnit, isUpperUnit_upperUnit (h u hu), Bool.true_or]

theorem all_digit_upper (h : subtag.all isDigitUnit = true) :
    (subtag.map upperUnit).all isDigitUnit = true := by
  rw [List.all_eq_true] at h
  rw [List.all_map, List.all_eq_true]
  intro u hu
  rw [Function.comp_apply, upperUnit_of_digit (h u hu)]
  exact h u hu

theorem isLanguage_lower (h : isLanguage subtag = true) :
    isLanguage (subtag.map lowerUnit) = true := by
  rw [isLanguage, Bool.and_eq_true] at *
  rw [List.length_map]
  exact ⟨h.1, all_letter_lower h.2⟩

theorem isScript_canonicalSubtag (h : isScript subtag = true) :
    isScript (canonicalSubtag subtag) = true := by
  rw [isScript, Bool.and_eq_true] at *
  rw [length_canonicalSubtag]
  refine ⟨h.1, ?_⟩
  rw [← List.take_append_drop 1 subtag, List.all_append, Bool.and_eq_true] at h
  unfold canonicalSubtag
  split
  · rw [List.all_append, all_letter_upper h.2.1, all_letter_lower h.2.2, Bool.and_self]
  · have hall := h.2
    rw [← Bool.and_eq_true, ← List.all_append, List.take_append_drop] at hall
    exact all_letter_upper hall

theorem isRegion_canonicalSubtag (h : isRegion subtag = true) :
    isRegion (canonicalSubtag subtag) = true := by
  rw [isRegion, Bool.or_eq_true, Bool.and_eq_true, Bool.and_eq_true, beq_iff_eq, beq_iff_eq] at *
  rw [length_canonicalSubtag]
  have hshort : subtag.length ≠ 4 := by omega
  have hspelled : canonicalSubtag subtag = subtag.map upperUnit := if_neg hshort
  rw [hspelled]
  rcases h with ⟨hlength, hletters⟩ | ⟨hlength, hdigits⟩
  · exact Or.inl ⟨hlength, all_letter_upper hletters⟩
  · exact Or.inr ⟨hlength, all_digit_upper hdigits⟩

variable {u : UInt16}

theorem plain_of_letter (h : isLetterUnit u = true) :
    u ≠ DASH ∧ isWhiteUnit u = false := by
  rw [isLetterUnit_iff] at h
  refine ⟨fun hdash ↦ ?_, isWhiteUnit_of_small (by omega) (by omega)⟩
  have hcode : u.toNat = 0x2D := congrArg UInt16.toNat hdash
  omega

theorem plain_of_digit (h : isDigitUnit u = true) :
    u ≠ DASH ∧ isWhiteUnit u = false := by
  rw [isDigitUnit_iff] at h
  refine ⟨fun hdash ↦ ?_, isWhiteUnit_of_small (by omega) (by omega)⟩
  have hcode : u.toNat = 0x2D := congrArg UInt16.toNat hdash
  omega

/-- The units of a subtag. -/
def Plain (subtag : Utf16) : Prop := ∀ u ∈ subtag, u ≠ DASH ∧ isWhiteUnit u = false

theorem plain_of_isLanguage (h : isLanguage subtag = true) : Plain subtag := by
  rw [isLanguage, Bool.and_eq_true, List.all_eq_true] at h
  exact fun u hu ↦ plain_of_letter (h.2 u hu)

theorem plain_of_isScript (h : isScript subtag = true) : Plain subtag := by
  rw [isScript, Bool.and_eq_true, List.all_eq_true] at h
  exact fun u hu ↦ plain_of_letter (h.2 u hu)

theorem plain_of_isRegion (h : isRegion subtag = true) : Plain subtag := by
  rw [isRegion, Bool.or_eq_true, Bool.and_eq_true, Bool.and_eq_true, List.all_eq_true,
    List.all_eq_true] at h
  rcases h with ⟨-, hletters⟩ | ⟨-, hdigits⟩
  · exact fun u hu ↦ plain_of_letter (hletters u hu)
  · exact fun u hu ↦ plain_of_digit (hdigits u hu)

variable {subtags : List Utf16}

theorem plain_of_validSubtags (h : validSubtags subtags = true) :
    subtags ≠ [] ∧ ∀ subtag ∈ subtags, Plain subtag := by
  unfold validSubtags at h
  split at h
  · simp only [List.forall_mem_singleton, ne_eq, List.cons_ne_nil, not_false_eq_true, true_and]
    exact plain_of_isLanguage h
  · rw [Bool.and_eq_true, Bool.or_eq_true] at h
    refine ⟨List.cons_ne_nil _ _, List.forall_mem_cons.mpr ⟨plain_of_isLanguage h.1, ?_⟩⟩
    exact List.forall_mem_singleton.mpr (h.2.elim plain_of_isScript plain_of_isRegion)
  · rw [Bool.and_eq_true, Bool.and_eq_true] at h
    refine ⟨List.cons_ne_nil _ _, List.forall_mem_cons.mpr ⟨plain_of_isLanguage h.1.1, ?_⟩⟩
    refine List.forall_mem_cons.mpr ⟨plain_of_isScript h.1.2, ?_⟩
    exact List.forall_mem_singleton.mpr (plain_of_isRegion h.2)
  · exact absurd h Bool.false_ne_true

theorem validSubtags_canonicalSubtags (h : validSubtags subtags = true) :
    validSubtags (canonicalSubtags subtags) = true := by
  unfold validSubtags at h
  split at h
  · exact isLanguage_lower h
  · rw [Bool.and_eq_true, Bool.or_eq_true] at h
    change (isLanguage _ && (isScript _ || isRegion _)) = true
    rw [Bool.and_eq_true, Bool.or_eq_true]
    exact ⟨isLanguage_lower h.1, h.2.imp isScript_canonicalSubtag isRegion_canonicalSubtag⟩
  · rw [Bool.and_eq_true, Bool.and_eq_true] at h
    change (isLanguage _ && isScript _ && isRegion _) = true
    rw [Bool.and_eq_true, Bool.and_eq_true]
    exact ⟨⟨isLanguage_lower h.1.1, isScript_canonicalSubtag h.1.2⟩,
      isRegion_canonicalSubtag h.2⟩
  · exact absurd h Bool.false_ne_true

theorem canonicalSubtags_canonicalSubtags (subtags : List Utf16) :
    canonicalSubtags (canonicalSubtags subtags) = canonicalSubtags subtags := by
  cases subtags with
  | nil => rfl
  | cons =>
    rw [canonicalSubtags, canonicalSubtags, map_lower_lower, List.map_map]
    congr 1
    exact List.map_congr_left fun subtag _ ↦ canonicalSubtag_canonicalSubtag subtag

theorem lower_canonicalSubtags (subtags : List Utf16) :
    (canonicalSubtags subtags).map (List.map lowerUnit) = subtags.map (List.map lowerUnit) := by
  cases subtags with
  | nil => rfl
  | cons =>
    rw [canonicalSubtags, List.map_cons, List.map_cons, map_lower_lower, List.map_map]
    congr 1
    exact List.map_congr_left fun subtag _ ↦ lower_canonicalSubtag subtag

/-! ### Tags -/

theorem lower_intercalate (subtags : List Utf16) :
    ([DASH].intercalate subtags).map lowerUnit =
      [DASH].intercalate (subtags.map (List.map lowerUnit)) := by
  induction subtags with
  | nil => rfl
  | cons _ rest ih =>
    cases rest with
    | nil => simp
    | cons =>
      rw [List.intercalate_cons_cons, List.map_append, List.map_append, ih]
      simp only [List.map_cons, List.intercalate_cons_cons]
      rfl

variable {value : Utf16}

theorem splitOn_canonical (h : isValidLocale value = true) :
    ([DASH].intercalate (canonicalSubtags (value.splitOn DASH))).splitOn DASH =
      canonicalSubtags (value.splitOn DASH) := by
  obtain ⟨hne, hplain⟩ := plain_of_validSubtags (validSubtags_canonicalSubtags h)
  exact List.splitOn_intercalate DASH
    (fun subtag hsubtag hdash ↦ (hplain subtag hsubtag DASH hdash).1 rfl) hne

/-- The canonical spelling of a tag is a tag, its own canonical spelling, and the same but for the
case of its letters. -/
theorem canonicalLocale_spec {value spelled : Utf16} (h : canonicalLocale value = some spelled) :
    isValidLocale spelled = true ∧ canonicalLocale spelled = some spelled ∧
      spelled.map lowerUnit = value.map lowerUnit := by
  unfold canonicalLocale at h
  split at h
  · rename_i hvalid
    obtain rfl := Option.some.inj h
    have hsplit := splitOn_canonical hvalid
    have hvalid' : isValidLocale ([DASH].intercalate (canonicalSubtags (value.splitOn DASH))) =
        true := by
      rw [isValidLocale, hsplit]
      exact validSubtags_canonicalSubtags hvalid
    refine ⟨hvalid', ?_, ?_⟩
    · rw [canonicalLocale, if_pos hvalid', hsplit, canonicalSubtags_canonicalSubtags]
    · rw [lower_intercalate, lower_canonicalSubtags, ← lower_intercalate,
        List.intercalate_splitOn]
  · exact absurd h.symm (Option.some_ne_none spelled)

theorem mem_intercalate
    (h : u ∈ [DASH].intercalate subtags) : u = DASH ∨ ∃ subtag ∈ subtags, u ∈ subtag := by
  induction subtags with
  | nil => exact absurd h List.not_mem_nil
  | cons first rest ih =>
    cases rest with
    | nil => exact Or.inr ⟨first, List.mem_cons_self, by simpa using h⟩
    | cons =>
      rw [List.intercalate_cons_cons, List.mem_append, List.mem_append] at h
      rcases h with (hfirst | hdash) | hrest
      · exact Or.inr ⟨first, List.mem_cons_self, hfirst⟩
      · exact Or.inl (List.mem_singleton.mp hdash)
      · refine (ih hrest).imp_right ?_
        rintro ⟨subtag, hsubtag, hu⟩
        exact ⟨subtag, List.mem_cons_of_mem _ hsubtag, hu⟩

theorem white_of_isValidLocale (h : isValidLocale value = true) :
    ∀ u ∈ value, isWhiteUnit u = false := by
  intro u hu
  rw [← @List.intercalate_splitOn _ value _ _ DASH] at hu
  rcases mem_intercalate hu with rfl | ⟨subtag, hsubtag, hmem⟩
  · exact isWhiteUnit_of_small (by decide) (by decide)
  · exact ((plain_of_validSubtags h).2 subtag hsubtag u hmem).2

theorem trim_of_isValidLocale (h : isValidLocale value = true) :
    trimBy isWhiteUnit value = value := by
  have hwhite := white_of_isValidLocale h
  have htrimmed := @trimBy_padded _ isWhiteUnit [] value [] (fun _ hu ↦ absurd hu List.not_mem_nil)
    (fun _ hu ↦ absurd hu List.not_mem_nil) ?_ ?_
  · rwa [List.nil_append, List.append_nil] at htrimmed
  · rw [Option.any_eq_false]
    exact fun u hu ↦ by rw [hwhite u (List.mem_of_mem_head? hu)]
  · rw [Option.any_eq_false]
    exact fun u hu ↦ by rw [hwhite u (List.mem_of_getLast? hu)]

theorem ne_nil_of_isValidLocale (h : isValidLocale value = true) :
    value ≠ [] := by
  rintro rfl
  exact absurd h Bool.false_ne_true

theorem canonicalLocale_of_valid (h : isValidLocale value = true) :
    ∃ spelled, canonicalLocale value = some spelled := by
  rw [canonicalLocale, if_pos h]
  exact ⟨_, rfl⟩

theorem isValidLocale_of_canonical {value spelled : Utf16}
    (h : canonicalLocale value = some spelled) : isValidLocale value = true := by
  unfold canonicalLocale at h
  split at h
  · assumption
  · exact absurd h.symm (Option.some_ne_none spelled)

end Odudu.DomainTenant
