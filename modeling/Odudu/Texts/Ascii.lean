import Mathlib.Data.String.Basic
import Mathlib.Data.List.TakeWhile
import Odudu.Texts.Stringify
import Odudu.Texts.Unicode

/-!
# Words and letters

`words` are the parts of a text between its spaces, but for the empty ones.  Words that are
joined by a space are read again (`words_join`).

`String.splitOn` runs over positions; `splitOn_space` says what it gives in characters.

Then the classes of units that patterns name, and the case of the letters of ASCII among them.
-/

set_option autoImplicit false

namespace Odudu.Texts

/-! ### Parts -/

variable {α : Type}

theorem notMem_of_mem_splitOn [DecidableEq α] {sep : α} {text part : List α}
    (h : part ∈ text.splitOn sep) : sep ∉ part := by
  induction text generalizing part with
  | nil =>
    obtain rfl : part = [] := by simpa using h
    simp
  | cons c text ih =>
    rw [List.splitOn_cons_eq_if_modifyHead] at h
    by_cases hc : c = sep
    · rw [if_pos (by simpa using hc)] at h
      rcases List.mem_cons.mp h with rfl | hrest
      · simp
      · exact ih hrest
    · rw [if_neg (by simpa using hc)] at h
      cases hparts : text.splitOn sep with
      | nil => exact absurd hparts (List.splitOn_ne_nil sep text)
      | cons =>
        rw [hparts] at h ih
        rcases List.mem_cons.mp h with rfl | hrest
        · simpa [Ne.symm hc] using ih List.mem_cons_self
        · exact ih (List.mem_cons_of_mem _ hrest)

section Positions

open String

/-- The loop, at a character: `l` is done, `m` is read since the last space, `r` is to come. -/
private theorem splitOnAux_space (l m r : List Char) (acc : List String) :
    splitOnAux (ofList (l ++ m ++ r)) " " ⟨utf8Len l⟩ ⟨utf8Len l + utf8Len m⟩ 0 acc =
      acc.reverse ++ (List.splitOnPPrepend (· == ' ') r m.reverse).map ofList := by
  unfold splitOnAux
  simp only [List.append_assoc, atEnd_iff, rawEndPos_ofList, utf8Len_append, Pos.Raw.mk_le_mk,
    Nat.add_le_add_iff_left, (by omega : utf8Len m + utf8Len r ≤ utf8Len m ↔ utf8Len r = 0),
    utf8Len_eq_zero, List.reverse_cons]
  split
  case isTrue hend =>
    subst hend
    simpa using extract_of_valid l m []
  case isFalse hmore =>
    obtain ⟨c, r, rfl⟩ := r.exists_cons_of_ne_nil hmore
    have hget : Pos.Raw.get (ofList (l ++ (m ++ c :: r))) ⟨utf8Len l + utf8Len m⟩ = c := by
      simpa [-ofList_append] using get_of_valid (l ++ m) (c :: r)
    have hnext : Pos.Raw.next (ofList (l ++ (m ++ c :: r))) ⟨utf8Len l + utf8Len m⟩ =
        ⟨utf8Len l + utf8Len m + c.utf8Size⟩ := by
      simpa [-ofList_append] using next_of_valid (l ++ m) c r
    have hextract : Pos.Raw.extract (ofList (l ++ (m ++ c :: r))) ⟨utf8Len l⟩
        ⟨utf8Len l + utf8Len m⟩ = ofList m := by
      simpa [-ofList_append] using extract_of_valid l m (c :: r)
    have hspace : Pos.Raw.get " " 0 = ' ' := by decide
    have hafter : Pos.Raw.next " " 0 = ⟨1⟩ := by decide
    rw [hget, hspace]
    simp only [hnext, hafter]
    by_cases hc : c = ' '
    · subst hc
      have hsize : (' ' : Char).utf8Size = 1 := by decide
      have hback : (⟨utf8Len l + utf8Len m + 1⟩ : Pos.Raw).unoffsetBy ⟨1⟩ =
          ⟨utf8Len l + utf8Len m⟩ := by
        simp [Pos.Raw.unoffsetBy]
      have ih := splitOnAux_space (l ++ m ++ [' ']) [] r (ofList m :: acc)
      simp only [List.append_assoc, utf8Len_append, utf8Len_cons, utf8Len_nil, hsize,
        List.cons_append, List.nil_append, Nat.zero_add, Nat.add_zero, List.reverse_nil,
        List.reverse_cons, ← Nat.add_assoc] at ih
      have hone : " ".rawEndPos ≤ (⟨1⟩ : Pos.Raw) := by decide
      rw [if_pos (beq_self_eq_true ' '), if_pos hone, hsize, hback, hextract,
        List.splitOnPPrepend_cons_pos (by simp), List.map_cons, List.reverse_reverse]
      exact ih
    · have hback : (⟨utf8Len l + utf8Len m⟩ : Pos.Raw).unoffsetBy 0 = ⟨utf8Len l + utf8Len m⟩ := by
        simp [Pos.Raw.unoffsetBy]
      have ih := splitOnAux_space l (m ++ [c]) r acc
      simp only [List.append_assoc, utf8Len_append, utf8Len_cons, utf8Len_nil, List.cons_append,
        List.nil_append, Nat.zero_add, List.reverse_append, List.reverse_cons, List.reverse_nil,
        ← Nat.add_assoc] at ih
      rw [if_neg (by simpa using hc), hback, hnext,
        List.splitOnPPrepend_cons_neg (by simpa using hc)]
      exact ih

theorem splitOn_space (text : String) :
    text.splitOn " " = (text.toList.splitOn ' ').map ofList := by
  have h := splitOnAux_space [] [] text.toList []
  simpa [String.splitOn, List.splitOn_eq_splitOnP] using h

end Positions

/-! ### Words -/

/-- The parts of a text between its spaces, but for the empty ones. -/
def words (text : String) : List String := (text.splitOn " ").filter fun token ↦ token != ""

/-- A text that is one word. -/
def IsWord (word : String) : Prop := word ≠ "" ∧ ' ' ∉ word.toList

theorem isWord_of_mem {text word : String} (h : word ∈ words text) : IsWord word := by
  obtain ⟨hmem, hne⟩ := List.mem_filter.mp h
  rw [splitOn_space] at hmem
  obtain ⟨part, hpart, rfl⟩ := List.mem_map.mp hmem
  refine ⟨by simpa using hne, ?_⟩
  rw [String.toList_ofList]
  exact notMem_of_mem_splitOn hpart

/-- Words that are joined are read again. -/
theorem words_join {list : List String} (h : ∀ word ∈ list, IsWord word) :
    words (" ".intercalate list) = list := by
  cases hlist : list with
  | nil => rw [words, splitOn_space]; rfl
  | cons =>
    have hsplit : ([' '].intercalate (list.map String.toList)).splitOn ' ' =
        list.map String.toList := by
      refine List.splitOn_intercalate ' ' ?_ (by simp [hlist])
      intro part hpart
      obtain ⟨word, hword, rfl⟩ := List.mem_map.mp hpart
      exact (h word hword).2
    have hfilter : list.filter (fun token ↦ token != "") = list :=
      List.filter_eq_self.mpr fun word hword ↦ by simpa using (h word hword).1
    have hback : (list.map String.toList).map String.ofList = list := by
      rw [List.map_map]
      exact List.map_id'' (fun word ↦ String.ofList_toList) list
    have hspace : " ".toList = [' '] := rfl
    rw [← hlist, words, splitOn_space, String.toList_intercalate, hspace, hsplit, hback, hfilter]

/-! ### White space -/

/-- White space, to a regular expression and to `trim`. -/
def isSpace (c : Char) : Bool :=
  c.toNat ∈ [0x09, 0x0a, 0x0b, 0x0c, 0x0d, 0x20, 0xa0, 0x1680, 0x2028, 0x2029, 0x202f, 0x205f,
    0x3000, 0xfeff] || (decide (0x2000 ≤ c.toNat) && decide (c.toNat ≤ 0x200a))

/-- A text without what `p` holds of at its ends. -/
def trimBy {α : Type} (p : α → Bool) (text : List α) : List α :=
  ((text.dropWhile p).reverse.dropWhile p).reverse

theorem dropWhile_padding {p : α → Bool} {padding text : List α}
    (hpadding : ∀ c ∈ padding, p c = true) (hfirst : text.head?.any p = false) :
    (padding ++ text).dropWhile p = text := by
  have hnone : text.dropWhile p = text := by
    cases text with
    | nil => rfl
    | cons => exact List.dropWhile_cons_of_neg (by simpa using hfirst)
  rw [List.dropWhile_append_of_pos hpadding, hnone]

/-- Padding is taken off a text that neither begins nor ends in it. -/
theorem trimBy_padded {p : α → Bool} {before text after : List α}
    (hbefore : ∀ c ∈ before, p c = true) (hafter : ∀ c ∈ after, p c = true)
    (hfirst : text.head?.any p = false) (hlast : text.getLast?.any p = false) :
    trimBy p (before ++ (text ++ after)) = text := by
  have hreverse : (text ++ after).reverse = after.reverse ++ text.reverse := List.reverse_append
  by_cases htext : text = []
  · subst htext
    have hall : ∀ c ∈ before ++ after, p c = true := by
      intro c hc
      rcases List.mem_append.mp hc with hc | hc
      · exact hbefore c hc
      · exact hafter c hc
    have hnone := @dropWhile_padding α p (before ++ after) [] hall rfl
    rw [List.append_nil] at hnone
    rw [List.nil_append, trimBy, hnone]
    rfl
  · have hhead : (text ++ after).head?.any p = false := by
      rw [List.head?_append_of_ne_nil _ htext]
      exact hfirst
    rw [trimBy, dropWhile_padding hbefore hhead, hreverse,
      dropWhile_padding (fun c hc ↦ hafter c (List.mem_reverse.mp hc)) (by
        rw [List.head?_reverse]
        exact hlast), List.reverse_reverse]

/-- What was taken off is padding. -/
theorem exists_padding (p : α → Bool) (text : List α) :
    ∃ before after, (∀ c ∈ before, p c = true) ∧ (∀ c ∈ after, p c = true) ∧
      text = before ++ (trimBy p text ++ after) := by
  refine ⟨text.takeWhile p, ((text.dropWhile p).reverse.takeWhile p).reverse,
    fun c hc ↦ List.mem_takeWhile_imp hc,
    fun c hc ↦ List.mem_takeWhile_imp (List.mem_reverse.mp hc), ?_⟩
  rw [trimBy, ← List.reverse_append, List.takeWhile_append_dropWhile, List.reverse_reverse,
    List.takeWhile_append_dropWhile]

/-! ### Letters -/

def isUpperUnit (u : UInt16) : Bool := decide (0x41 ≤ u.toNat) && decide (u.toNat ≤ 0x5A)

def isLowerUnit (u : UInt16) : Bool := decide (0x61 ≤ u.toNat) && decide (u.toNat ≤ 0x7A)

def isLetterUnit (u : UInt16) : Bool := isUpperUnit u || isLowerUnit u

/-- `\s`, of one unit. -/
def isWhiteUnit (u : UInt16) : Bool := isSpace (Char.ofNat u.toNat)

def lowerUnit (u : UInt16) : UInt16 := if isUpperUnit u then u + 0x20 else u

def upperUnit (u : UInt16) : UInt16 := if isLowerUnit u then u - 0x20 else u

variable {u : UInt16}

theorem isUpperUnit_iff : isUpperUnit u = true ↔ 0x41 ≤ u.toNat ∧ u.toNat ≤ 0x5A := by
  simp [isUpperUnit]

theorem isLowerUnit_iff : isLowerUnit u = true ↔ 0x61 ≤ u.toNat ∧ u.toNat ≤ 0x7A := by
  simp [isLowerUnit]

theorem isLetterUnit_iff : isLetterUnit u = true ↔
    0x41 ≤ u.toNat ∧ u.toNat ≤ 0x5A ∨ 0x61 ≤ u.toNat ∧ u.toNat ≤ 0x7A := by
  rw [isLetterUnit, Bool.or_eq_true, isUpperUnit_iff, isLowerUnit_iff]

theorem isDigitUnit_iff : isDigitUnit u = true ↔ 0x30 ≤ u.toNat ∧ u.toNat ≤ 0x39 := by
  simp [isDigitUnit]

theorem toNat_lowerUnit (u : UInt16) :
    (lowerUnit u).toNat = if isUpperUnit u then u.toNat + 0x20 else u.toNat := by
  unfold lowerUnit
  split
  · rename_i hupper
    have hbounds := isUpperUnit_iff.mp hupper
    rw [UInt16.toNat_add]
    exact Nat.mod_eq_of_lt (by change u.toNat + 32 < 65536; omega)
  · rfl

theorem toNat_upperUnit (u : UInt16) :
    (upperUnit u).toNat = if isLowerUnit u then u.toNat - 0x20 else u.toNat := by
  unfold upperUnit
  split
  · rename_i hlower
    have hbounds := isLowerUnit_iff.mp hlower
    exact UInt16.toNat_sub_of_le _ _ (UInt16.le_iff_toNat_le.mpr (by change 32 ≤ u.toNat; omega))
  · rfl

theorem isLowerUnit_lowerUnit (h : isLetterUnit u = true) :
    isLowerUnit (lowerUnit u) = true := by
  rw [isLowerUnit_iff, toNat_lowerUnit]
  rw [isLetterUnit_iff] at h
  split
  · rename_i hupper
    have hbounds := isUpperUnit_iff.mp hupper
    omega
  · rename_i hupper
    rw [isUpperUnit_iff] at hupper
    omega

theorem isUpperUnit_upperUnit (h : isLetterUnit u = true) :
    isUpperUnit (upperUnit u) = true := by
  rw [isUpperUnit_iff, toNat_upperUnit]
  rw [isLetterUnit_iff] at h
  split
  · rename_i hlower
    have hbounds := isLowerUnit_iff.mp hlower
    omega
  · rename_i hlower
    rw [isLowerUnit_iff] at hlower
    omega

theorem lowerUnit_of_lower (h : isLowerUnit u = true) : lowerUnit u = u := by
  refine if_neg fun hupper ↦ ?_
  rw [isUpperUnit_iff] at hupper
  rw [isLowerUnit_iff] at h
  omega

theorem upperUnit_of_upper (h : isUpperUnit u = true) : upperUnit u = u := by
  refine if_neg fun hlower ↦ ?_
  rw [isLowerUnit_iff] at hlower
  rw [isUpperUnit_iff] at h
  omega

theorem upperUnit_of_digit (h : isDigitUnit u = true) : upperUnit u = u := by
  refine if_neg fun hlower ↦ ?_
  rw [isLowerUnit_iff] at hlower
  rw [isDigitUnit_iff] at h
  omega

/-- The case of a letter is all that `upperUnit` changes. -/
theorem lowerUnit_upperUnit (u : UInt16) : lowerUnit (upperUnit u) = lowerUnit u := by
  apply UInt16.toNat.inj
  rw [toNat_lowerUnit, toNat_lowerUnit]
  by_cases hlower : isLowerUnit u = true
  · have hbounds := isLowerUnit_iff.mp hlower
    have hup := toNat_upperUnit u
    rw [if_pos hlower] at hup
    rw [if_pos (isUpperUnit_iff.mpr (by omega)), if_neg (by rw [isUpperUnit_iff]; omega)]
    omega
  · rw [upperUnit, if_neg hlower]

theorem lowerUnit_lowerUnit (u : UInt16) : lowerUnit (lowerUnit u) = lowerUnit u := by
  by_cases hupper : isUpperUnit u = true
  · exact lowerUnit_of_lower (isLowerUnit_lowerUnit (by rw [isLetterUnit, hupper, Bool.true_or]))
  · have hsame : lowerUnit u = u := if_neg hupper
    rw [hsame, hsame]

theorem upperUnit_upperUnit (u : UInt16) : upperUnit (upperUnit u) = upperUnit u := by
  by_cases hlower : isLowerUnit u = true
  · exact upperUnit_of_upper (isUpperUnit_upperUnit (by rw [isLetterUnit, hlower, Bool.or_true]))
  · have hsame : upperUnit u = u := if_neg hlower
    rw [hsame, hsame]

theorem isWhiteUnit_of_small (h : 0x20 < u.toNat) (h' : u.toNat < 0x80) :
    isWhiteUnit u = false := by
  have hvalid : u.toNat.isValidChar := Or.inl (by omega)
  unfold isWhiteUnit isSpace
  rw [toNat_charOfNat hvalid]
  simp only [List.mem_cons, List.not_mem_nil, or_false, Bool.or_eq_false_iff, decide_eq_false_iff_not,
    Bool.and_eq_false_imp, decide_eq_true_eq, not_or]
  omega

end Odudu.Texts
