import Odudu.Texts.Utf16
import Mathlib.Algebra.GroupWithZero.Nat

/-!
# Texts and their characters

A text that is read from bytes is of characters, and no surrogate in it stands alone.
`unitsOf` gives its units and `usvString` reads units as characters, with a replacement for a
surrogate that stands alone.  A text in which none does is got back
(`unitsOf_usvString`), and so is a string from its units (`usvString_unitsOf`).
-/

set_option autoImplicit false

namespace Odudu.Texts

/-! ### Well-formed texts -/

/-- No surrogate stands alone here. -/
def CodePoint.Scalar : CodePoint → Prop
  | .unit u => ¬isHigh u ∧ ¬isLow u
  | .pair high low => isHigh high ∧ isLow low

/-- The text is of such code points. -/
def WellFormed (text : Utf16) : Prop :=
  ∃ points : List CodePoint, (∀ point ∈ points, point.Scalar) ∧ ofCodePoints points = text

theorem WellFormed.nil : WellFormed [] := ⟨[], nofun, rfl⟩

theorem WellFormed.append {x y : Utf16} (hx : WellFormed x) (hy : WellFormed y) :
    WellFormed (x ++ y) := by
  obtain ⟨points, hpoints, rfl⟩ := hx
  obtain ⟨points', hpoints', rfl⟩ := hy
  refine ⟨points ++ points', fun point hpoint ↦ ?_, ofCodePoints_append points points'⟩
  exact (List.mem_append.mp hpoint).elim (hpoints point) (hpoints' point)

theorem WellFormed.unit {u : UInt16} (hhigh : ¬isHigh u) (hlow : ¬isLow u) : WellFormed [u] := by
  refine ⟨[.unit u], fun point hpoint ↦ ?_, rfl⟩
  obtain rfl := List.mem_singleton.mp hpoint
  exact ⟨hhigh, hlow⟩

theorem WellFormed.pair {high low : UInt16} (hhigh : isHigh high) (hlow : isLow low) :
    WellFormed [high, low] := by
  refine ⟨[.pair high low], fun point hpoint ↦ ?_, rfl⟩
  obtain rfl := List.mem_singleton.mp hpoint
  exact ⟨hhigh, hlow⟩

variable {text : Utf16}

theorem WellFormed.cons {u : UInt16} (hhigh : ¬isHigh u) (hlow : ¬isLow u)
    (h : WellFormed text) : WellFormed (u :: text) := (WellFormed.unit hhigh hlow).append h

theorem WellFormed.of_small (h : ∀ u ∈ text, u.toNat < 0xD800) :
    WellFormed text := by
  induction text with
  | nil => exact .nil
  | cons u _ ih =>
    have hu := h u List.mem_cons_self
    refine .cons ?_ ?_ (ih fun v hv ↦ h v (List.mem_cons_of_mem _ hv))
    · unfold isHigh
      omega
    · unfold isLow
      omega

theorem WellFormed.of_all (h : text.all (fun u ↦ decide (u.toNat < 0xD800)) = true) :
    WellFormed text :=
  .of_small fun u hu ↦ of_decide_eq_true (List.all_eq_true.mp h u hu)

/-- The code points of such a text are read back. -/
theorem codePoints_ofCodePoints {points : List CodePoint} (h : ∀ point ∈ points, point.Scalar) :
    codePoints (ofCodePoints points) = points := by
  induction points with
  | nil => rfl
  | cons point points ih =>
    have hrest := ih fun other hother ↦ h other (List.mem_cons_of_mem _ hother)
    have hpoint := h point List.mem_cons_self
    rw [ofCodePoints_cons]
    cases point with
    | unit u =>
      have hhigh : ¬isHigh u := hpoint.1
      rw [CodePoint.units_unit, List.singleton_append]
      cases htext : ofCodePoints points with
      | nil =>
        rw [htext, codePoints] at hrest
        rw [codePoints, ← hrest]
      | cons =>
        rw [htext] at hrest
        rw [codePoints, if_neg fun hpair ↦ hhigh hpair.1, hrest]
    | pair =>
      obtain ⟨hhigh, hlow⟩ := hpoint
      rw [CodePoint.units_pair, List.cons_append, List.singleton_append, codePoints,
        if_pos ⟨hhigh, hlow⟩, hrest]

/-! ### Characters -/

/-- The units of a character. -/
def charUnits (c : Char) : Utf16 :=
  if c.toNat < 0x10000 then [UInt16.ofNat c.toNat]
  else [UInt16.ofNat (0xD800 + (c.toNat - 0x10000) / 0x400),
    UInt16.ofNat (0xDC00 + (c.toNat - 0x10000) % 0x400)]

/-- The units of a string. -/
def unitsOf (text : String) : Utf16 := text.toList.flatMap charUnits

/-- The character of a code point, or its replacement. -/
def CodePoint.char : CodePoint → Char
  | .unit u => if isHigh u ∨ isLow u then '\uFFFD' else Char.ofNat u.toNat
  | .pair high low => Char.ofNat (CodePoint.pair high low).value

/-- What a text is converted to where only characters may stand. -/
def usvString (text : Utf16) : String := String.ofList ((codePoints text).map CodePoint.char)

theorem toNat_charOfNat {n : ℕ} (h : n.isValidChar) : (Char.ofNat n).toNat = n := by
  unfold Char.ofNat
  rw [dif_pos h]
  rfl

theorem charUnits_char {point : CodePoint} (h : point.Scalar) :
    charUnits point.char = point.units := by
  cases point with
  | unit u =>
    have hu := u.toNat_lt
    have hvalid : u.toNat.isValidChar := by
      obtain ⟨hhigh, hlow⟩ := h
      unfold isHigh at hhigh
      unfold isLow at hlow
      unfold Nat.isValidChar
      omega
    rw [CodePoint.char, if_neg (not_or.mpr h), charUnits, toNat_charOfNat hvalid, if_pos hu,
      UInt16.ofNat_toNat, CodePoint.units_unit]
  | pair high low =>
    obtain ⟨hhigh, hlow⟩ := h
    have hvalue : (CodePoint.pair high low).value =
        0x10000 + (high.toNat - 0xD800) * 0x400 + (low.toNat - 0xDC00) := rfl
    unfold isHigh at hhigh
    unfold isLow at hlow
    have hvalid : (CodePoint.pair high low).value.isValidChar := by
      rw [hvalue]
      unfold Nat.isValidChar
      omega
    have hfirst : 0xD800 + ((CodePoint.pair high low).value - 0x10000) / 0x400 = high.toNat := by
      rw [hvalue]
      omega
    have hsecond : 0xDC00 + ((CodePoint.pair high low).value - 0x10000) % 0x400 = low.toNat := by
      rw [hvalue]
      omega
    rw [CodePoint.char, charUnits, toNat_charOfNat hvalid, if_neg (by rw [hvalue]; omega), hfirst,
      hsecond, UInt16.ofNat_toNat, UInt16.ofNat_toNat, CodePoint.units_pair]

/-- A text in which no surrogate stands alone is its characters. -/
theorem unitsOf_usvString (h : WellFormed text) :
    unitsOf (usvString text) = text := by
  obtain ⟨points, hpoints, rfl⟩ := h
  rw [unitsOf, usvString, String.toList_ofList, codePoints_ofCodePoints hpoints, List.flatMap_map]
  have hunits : ∀ point ∈ points, charUnits point.char = point.units :=
    fun point hpoint ↦ charUnits_char (hpoints point hpoint)
  rw [ofCodePoints, List.flatMap_def, List.flatMap_def, List.map_congr_left hunits]

/-- The code point of a character. -/
def pointOf (c : Char) : CodePoint :=
  if c.toNat < 0x10000 then .unit (UInt16.ofNat c.toNat)
  else .pair (UInt16.ofNat (0xD800 + (c.toNat - 0x10000) / 0x400))
    (UInt16.ofNat (0xDC00 + (c.toNat - 0x10000) % 0x400))

theorem units_pointOf (c : Char) : (pointOf c).units = charUnits c := by
  unfold pointOf charUnits
  split <;> rfl

theorem toNat_bounds (c : Char) : c.toNat < 0xD800 ∨ 0xDFFF < c.toNat ∧ c.toNat < 0x110000 :=
  c.valid

/-- What the code point of a character is. -/
theorem pointOf_cases (c : Char) :
    (∃ u, pointOf c = .unit u ∧ u.toNat = c.toNat) ∨
      ∃ high low, pointOf c = .pair high low ∧ 0x10000 ≤ c.toNat ∧
        high.toNat = 0xD800 + (c.toNat - 0x10000) / 0x400 ∧
        low.toNat = 0xDC00 + (c.toNat - 0x10000) % 0x400 := by
  have hbounds := toNat_bounds c
  unfold pointOf
  split
  next hsmall => exact .inl ⟨_, rfl, UInt16.toNat_ofNat_of_lt' hsmall⟩
  next hlarge =>
    refine .inr ⟨_, _, rfl, Nat.le_of_not_lt hlarge, ?_, ?_⟩
    · exact UInt16.toNat_ofNat_of_lt' (show _ < 2 ^ 16 by omega)
    · exact UInt16.toNat_ofNat_of_lt' (show _ < 2 ^ 16 by omega)

theorem pointOf_scalar (c : Char) : (pointOf c).Scalar := by
  have hbounds := toNat_bounds c
  rcases pointOf_cases c with ⟨u, hpoint, hu⟩ | ⟨high, low, hpoint, hlarge, hhigh, hlow⟩
  · rw [hpoint]
    constructor
    · unfold isHigh
      omega
    · unfold isLow
      omega
  · rw [hpoint]
    constructor
    · unfold isHigh
      omega
    · unfold isLow
      omega

theorem value_pointOf (c : Char) : (pointOf c).value = c.toNat := by
  rcases pointOf_cases c with ⟨u, hpoint, hu⟩ | ⟨high, low, hpoint, hlarge, hhigh, hlow⟩
  · rw [hpoint, CodePoint.value_unit, hu]
  · have hvalue : (pointOf c).value =
        0x10000 + (high.toNat - 0xD800) * 0x400 + (low.toNat - 0xDC00) := by rw [hpoint]; rfl
    omega

theorem char_pointOf (c : Char) : (pointOf c).char = c := by
  have hscalar := pointOf_scalar c
  have hvalue := value_pointOf c
  cases hpoint : pointOf c with
  | unit =>
    rw [hpoint] at hscalar hvalue
    rw [CodePoint.char, if_neg (not_or.mpr hscalar), ← CodePoint.value_unit, hvalue,
      Char.ofNat_toNat]
  | pair =>
    rw [hpoint] at hvalue
    rw [CodePoint.char, hvalue, Char.ofNat_toNat]

theorem codePoints_unitsOf (text : String) :
    codePoints (unitsOf text) = text.toList.map pointOf := by
  have hunits : unitsOf text = ofCodePoints (text.toList.map pointOf) := by
    rw [unitsOf, ofCodePoints, List.flatMap_map]
    exact congrArg (text.toList.flatMap ·) (funext fun c ↦ (units_pointOf c).symm)
  rw [hunits]
  refine codePoints_ofCodePoints fun point hpoint ↦ ?_
  obtain ⟨c, -, rfl⟩ := List.mem_map.mp hpoint
  exact pointOf_scalar c

theorem usvString_unitsOf (text : String) : usvString (unitsOf text) = text := by
  have hchars : CodePoint.char ∘ pointOf = id := funext char_pointOf
  rw [usvString, codePoints_unitsOf, List.map_map, hchars, List.map_id, String.ofList_toList]

/-! ### Bytes -/

/-- How many bytes a code point takes in UTF-8. -/
def CodePoint.byteLength : CodePoint → ℕ
  | .unit u => if u.toNat < 0x80 then 1 else if u.toNat < 0x800 then 2 else 3
  | .pair _ _ => 4

/-- `Buffer.byteLength(text, 'utf8')` -/
def byteLength (text : Utf16) : ℕ := ((codePoints text).map CodePoint.byteLength).sum

end Odudu.Texts
