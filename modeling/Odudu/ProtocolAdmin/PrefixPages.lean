import Odudu.ProtocolAdmin.PrefixSearch

/-!
# The pages of a search

The bound that is computed over code points is the end of the range of the characters of the
folded text (`prefixUpperBound_unitsOf`), so the range holds a name just when the folded name
starts with the folded text (`prefixRangeConditions_iff`): whether that text is empty, ends in
the last character, stands next to the surrogates, or is of characters of two units.

A searched listing goes by (folded name, id), and each page resumes from the key of the last
row before it, so it is a listing by key (`Lister`) and lists every row of the range once
(`prefix_search_exact`), whatever names fold to the same text.
-/

set_option autoImplicit false

namespace Odudu.ProtocolAdmin.PrefixSearch

open Listings Texts
open RecentPage (Uuid)

/-! ### The next character -/

/-- The character after one, where there is one. -/
def nextChar (c : Char) : Option Char :=
  if c.toNat = MAX_CODE_POINT then none else some (Char.ofNat (nextPoint c.toNat))

theorem lt_iff_toNat_lt {a b : Char} : a < b ↔ a.toNat < b.toNat := Iff.rfl

theorem nextPoint_isValidChar {c : Char} (h : c.toNat ≠ MAX_CODE_POINT) :
    (nextPoint c.toNat).isValidChar := by
  have hbounds := toNat_bounds c
  unfold MAX_CODE_POINT at h
  unfold nextPoint SURROGATE_FIRST SURROGATE_LAST Nat.isValidChar
  split <;> omega

/-- There is a next one just below the last, and no surrogate is it. -/
theorem nextChar_eq_some {c d : Char} (h : nextChar c = some d) :
    c.toNat ≠ MAX_CODE_POINT ∧ d.toNat = nextPoint c.toNat := by
  unfold nextChar at h
  split at h
  next => exact nomatch h
  next hlast =>
    obtain rfl := Option.some.inj h
    exact ⟨hlast, toNat_charOfNat (nextPoint_isValidChar hlast)⟩

theorem nextChar_eq_none {c : Char} (h : nextChar c = none) : c.toNat = MAX_CODE_POINT := by
  unfold nextChar at h
  split at h
  next hlast => exact hlast
  next => exact nomatch h

theorem nextChar_successor : Successor nextChar := by
  constructor
  · intro a b h
    obtain ⟨-, hb⟩ := nextChar_eq_some h
    unfold nextPoint SURROGATE_FIRST SURROGATE_LAST at hb
    constructor
    · rw [lt_iff_toNat_lt]
      split at hb <;> omega
    · intro c hac hcb
      have hbounds := toNat_bounds c
      rw [lt_iff_toNat_lt] at hac hcb
      split at hb <;> omega
  · intro a h b
    have hlast := nextChar_eq_none h
    have hbounds := toNat_bounds b
    unfold MAX_CODE_POINT at hlast
    rw [← not_lt, lt_iff_toNat_lt]
    omega

/-! ### The bound -/

theorem boundPoints_concat (points : List ℕ) (last : ℕ) :
    boundPoints (points ++ [last]) =
      if last = MAX_CODE_POINT then boundPoints points else some (points ++ [nextPoint last]) := by
  unfold boundPoints
  split
  next hlast => rw [List.rdropWhile_concat_pos _ _ _ (by simpa using hlast)]
  next hlast => simp [List.rdropWhile_concat_neg, hlast]

/-- The bound is computed character by character. -/
theorem boundPoints_toNat (chars : List Char) :
    boundPoints (chars.map Char.toNat) = (upperBound nextChar chars).map (List.map Char.toNat) := by
  induction chars using List.reverseRecOn with
  | nil => rfl
  | append_singleton _ c ih =>
    rw [List.map_append, List.map_singleton, boundPoints_concat, upperBound_concat]
    cases hnext : nextChar c with
    | none => rw [if_pos (nextChar_eq_none hnext), ih]
    | some =>
      obtain ⟨hlast, hd⟩ := nextChar_eq_some hnext
      rw [if_neg hlast, ← hd, Option.map_some, List.map_append, List.map_singleton]

/-- The bound of a string is the end of the range of its characters. -/
theorem prefixUpperBound_unitsOf (text : String) :
    prefixUpperBound (unitsOf text) =
      (upperBound nextChar text.toList).map fun bound ↦ unitsOf (String.ofList bound) := by
  have hvalues : (codePoints (unitsOf text)).map CodePoint.value = text.toList.map Char.toNat := by
    rw [codePoints_unitsOf, List.map_map]
    exact congrArg (text.toList.map ·) (funext value_pointOf)
  have hunits : ∀ bound : List Char,
      (bound.map Char.toNat).flatMap fromCodePoint = unitsOf (String.ofList bound) := by
    intro bound
    rw [unitsOf, String.toList_ofList, List.flatMap_map]
    rfl
  rw [prefixUpperBound, hvalues, boundPoints_toNat, Option.map_map]
  exact congrArg (Option.map · _) (funext hunits)

/-- The range of a text, with no position to resume from, is of the names that start with it. -/
theorem prefixRangeConditions_iff (lower : String → String) (asked : Utf16) (row : ScopeRow) :
    prefixRangeConditions lower asked none row = true ↔
      (lower (usvString asked)).toList <+: (row.nameSearch lower).toList := by
  rw [startsWith_iff nextChar_successor, prefixRangeConditions, foldedByDatabase,
    prefixUpperBound_unitsOf]
  cases upperBound nextChar (lower (usvString asked)).toList with
  | none => simp [String.le_iff_toList_le]
  | some bound =>
    have hbelow : row.nameSearch lower < usvString (unitsOf (String.ofList bound)) ↔
        (row.nameSearch lower).toList < bound := by
      rw [usvString_unitsOf, String.lt_iff_toList_lt, String.toList_ofList]
    rw [← String.le_iff_toList_le]
    simp only [Option.map_some, Option.all_some, Option.all_none, Bool.and_true,
      Bool.and_eq_true, decide_eq_true_eq, hbelow, Option.mem_some_iff, forall_eq']

/-! ### Keyed pages -/

section Keyed

variable {R K : Type} [DecidableEq K] {keyOf : R → K} {rows page : List R}

/-- A row that is among others is the one its key finds. -/
theorem find_of_mem (hrows : (rows.map keyOf).Nodup) {row : R} (h : row ∈ rows) :
    rows.find? (fun r ↦ keyOf r = keyOf row) = some row := by
  cases hfind : rows.find? fun r ↦ keyOf r = keyOf row with
  | none =>
    exact absurd (decide_eq_true rfl) (List.find?_eq_none.mp hfind row h)
  | some found =>
    have hkey : keyOf found = keyOf row := by simpa using List.find?_some hfind
    have hmem := List.mem_of_find?_eq_some hfind
    exact congrArg some (List.inj_on_of_nodup_map hrows hmem h hkey)

/-- The rows of a page, put back into the order of its keys, are the page. -/
theorem inOrderOf_map (hrows : (rows.map keyOf).Nodup) (hpage : ∀ row ∈ page, row ∈ rows) :
    inOrderOf (page.map keyOf) rows keyOf = page := by
  have hreverse : (rows.reverse.map keyOf).Nodup := by
    rw [List.map_reverse]
    exact List.nodup_reverse.mpr hrows
  have hfound : ∀ row ∈ page,
      rows.reverse.find? (fun r ↦ keyOf r = keyOf row) = some row := fun row hrow ↦
    find_of_mem hreverse (List.mem_reverse.mpr (hpage row hrow))
  rw [inOrderOf, List.filterMap_map]
  exact (List.filterMap_congr hfound).trans List.filterMap_some

/-- With no write between its statements a page is read at the first attempt. -/
theorem readKeyedPage_eq (hrows : (rows.map keyOf).Nodup) (hpage : ∀ row ∈ page, row ∈ rows)
    (left : ℕ) (before : List R) :
    readKeyedPage (fun _ ↦ page.map keyOf)
      (fun _ keys ↦ rows.filter fun row ↦ keyOf row ∈ keys) keyOf (left + 1) before = page := by
  have hkept : ∀ row ∈ page, row ∈ rows.filter fun row ↦ keyOf row ∈ page.map keyOf := by
    intro row hrow
    exact List.mem_filter.mpr
      ⟨hpage row hrow, decide_eq_true (List.mem_map_of_mem hrow)⟩
  have hnodup : ((rows.filter fun row ↦ keyOf row ∈ page.map keyOf).map keyOf).Nodup :=
    hrows.sublist (List.filter_sublist.map keyOf)
  simp only [readKeyedPage]
  rw [inOrderOf_map hnodup hkept, List.length_map, if_pos rfl]
  split
  next hnil => exact (List.map_eq_nil_iff.mp hnil).symm
  next => rfl

end Keyed

/-! ### The listing -/

variable {Key Tag : Type} [DecidableEq Tag] (lower : String → String) (sealing : Sealing Key Tag)

/-- The request of a search, for its first page or a later one. -/
def ListScopesInput.searching (input : ListScopesInput Key Tag) (asked : Utf16)
    (cursor : Option (Cursor Tag)) : ListScopesInput Key Tag :=
  { input with name := some asked, cursor }

/-- The key a searched listing goes down by. -/
abbrev searchKey (row : ScopeRow) : (String ×ₗ Uuid)ᵒᵈ := OrderDual.toDual (searchOrder lower row)

/-- The rows that are searched for. -/
def startingWith (asked : Utf16) (row : ScopeRow) : Bool :=
  (lower (usvString asked)).toList.isPrefixOf (row.nameSearch lower).toList

theorem prefixRangeConditions_eq (asked : Utf16) (after : Option SearchPosition) (row : ScopeRow) :
    prefixRangeConditions lower asked after row =
      (startingWith lower asked row && after.all fun after ↦
        decide (toLex (usvString after.sort, after.id) < searchOrder lower row)) := by
  have hrange : prefixRangeConditions lower asked none row = startingWith lower asked row := by
    rw [Bool.eq_iff_iff, prefixRangeConditions_iff, startingWith, List.isPrefixOf_iff_prefix]
  rw [← hrange]
  simp only [prefixRangeConditions, Option.all_none, Bool.and_true]
  rfl

/-- The cursor of a row, for the next page of a search. -/
def cursorAfter (input : ListScopesInput Key Tag) (asked : Utf16) (row : ScopeRow) : Cursor Tag :=
  encodeCursor sealing input.cursorKey
    { after := row.id
      sort := some (unitsOf (row.nameSearch lower))
      collection := COLLECTION
      tenantId := input.tenantId
      filters := sealing.filterDigest (some asked) }

theorem resumeAfter_cursorAfter (input : ListScopesInput Key Tag) (asked : Utf16) (row : ScopeRow) :
    resumeAfter sealing (input.searching asked (some (cursorAfter lower sealing input asked row))) =
      some (some ⟨row.id, some (unitsOf (row.nameSearch lower))⟩) := by
  simp [resumeAfter, ListScopesInput.searching, decodeCursor, cursorAfter, encodeCursor]

variable {lower}

theorem searchKeys_nodup (table : ScopesTable) (wanted : ScopeRow → Bool) :
    ((table.rows.filter wanted).map (searchKey lower)).Nodup := by
  refine List.Nodup.of_map (fun key ↦ (ofLex (OrderDual.ofDual key)).2) ?_
  rw [List.map_map]
  exact table.ids_nodup.sublist (List.filter_sublist.map ScopeRow.id)

omit [DecidableEq Tag] in
/-- What is fetched for a search is the first rows of its range past where it resumes. -/
theorem fetchScopes_eq (input : ListScopesInput Key Tag) (asked : Utf16)
    (cursor : Option (Cursor Tag)) (after : Option ListPosition) (table : ScopesTable) :
    fetchScopes lower (input.searching asked cursor) after table =
      (descending (searchKey lower) (table.rows.filter
        (scopeListConditions lower (some asked) after))).take (input.limit + 1) := by
  refine readKeyedPage_eq table.ids_nodup (fun row hrow ↦ ?_) 4 []
  have hwanted := (descending_perm _).mem_iff.mp (List.mem_of_mem_take hrow)
  exact List.mem_of_mem_filter hwanted

/-- A searched listing is one by key. -/
theorem lister_listScopes (input : ListScopesInput Key Tag) (asked : Utf16) (table : ScopesTable) :
    Lister (searchKey lower) input.limit id (cursorAfter lower sealing input asked)
      (table.rows.filter (startingWith lower asked))
      (fun cursor ↦ (listScopes lower sealing (input.searching asked cursor) table).page) where
  first := by
    have hwanted : scopeListConditions lower (some asked) none = startingWith lower asked := by
      funext row
      exact (prefixRangeConditions_eq lower asked none row).trans (Bool.and_true _)
    have hresume : resumeAfter sealing (input.searching asked none) = some none := rfl
    rw [← cut_take, ← hwanted]
    simp only [listScopes, hresume]
    rw [fetchScopes_eq]
    rfl
  resumed := by
    intro row
    have hwanted : scopeListConditions lower (some asked)
        (some ⟨row.id, some (unitsOf (row.nameSearch lower))⟩) =
          fun r ↦
            decide (searchKey lower r < searchKey lower row) && startingWith lower asked r := by
      funext r
      refine (prefixRangeConditions_eq lower asked _ r).trans ?_
      simp only [Option.bind_some, Option.map_some, Option.all_some, usvString_unitsOf]
      exact Bool.and_comm _ _
    simp only [listScopes, resumeAfter_cursorAfter]
    rw [fetchScopes_eq, hwanted]
    rw [← descending_filter (searchKeys_nodup table _), List.filter_filter, ← cut_take]
    rfl

/-- A search finds exactly the names that start with its text, once both are folded, and
following its pages lists each of them once. -/
theorem prefix_search_exact :
    (∀ (asked : Utf16) (row : ScopeRow), prefixRangeConditions lower asked none row = true ↔
      (lower (usvString asked)).toList <+: (lower row.name).toList) ∧
    ∀ (input : ListScopesInput Key Tag) (asked : Utf16) (table : ScopesTable),
      VisitsOnce (searchKey lower)
        (fun cursor ↦ (listScopes lower sealing (input.searching asked cursor) table).page)
        (table.rows.filter fun row ↦
          (lower (usvString asked)).toList.isPrefixOf (lower row.name).toList) := by
  constructor
  · exact prefixRangeConditions_iff lower
  · intro input asked table
    exact (lister_listScopes sealing input asked table).visitsOnce input.limit_pos
      (searchKeys_nodup table _)

/-- The folding of ASCII letters. -/
def lowerLetters (text : String) : String := String.ofList (text.toList.map Char.toLower)

def openSealing : Sealing Unit Unit := ⟨fun _ _ ↦ (), fun _ ↦ ""⟩

/-- Two names that are folded to one, and another. -/
def sameFolded : ScopesTable where
  rows := [⟨2, "mail"⟩, ⟨3, "phone"⟩, ⟨1, "Mail"⟩]
  ids_nodup := by decide

/-- A page of one row. -/
def onePage : ListScopesInput Unit Unit where
  limit := 1
  limit_pos := by decide
  cursor := none
  cursorKey := ()
  tenantId := "acme"
  name := none

/-- Following the pages lists both names, each once. -/
theorem prefix_search_exact_sameFolded :
    VisitsOnce (searchKey lowerLetters) (fun cursor ↦ (listScopes lowerLetters openSealing
      (onePage.searching (unitsOf "MA") cursor) sameFolded).page) [⟨2, "mail"⟩, ⟨1, "Mail"⟩] := by
  have hfound : (sameFolded.rows.filter fun row ↦
      (lowerLetters (usvString (unitsOf "MA"))).toList.isPrefixOf (lowerLetters row.name).toList) =
        [⟨2, "mail"⟩, ⟨1, "Mail"⟩] := by
    rw [usvString_unitsOf]
    rfl
  rw [← hfound]
  exact (prefix_search_exact openSealing).2 onePage (unitsOf "MA") sameFolded

end Odudu.ProtocolAdmin.PrefixSearch
