import Odudu.Texts.ParseJson

/-!
# Values written after their lengths

Values that are written one after another, each after its length, are got back
(`flatMap_prefixed_injective`).

What is hashed of a text is its characters, with a replacement for a surrogate that stands alone
(`toWellFormed`).  The replacement keeps the length of a text, so values are still written after
their lengths once it is made (`toWellFormed_prefixed`).
-/

set_option autoImplicit false

namespace Odudu.Texts

section Prefixed

variable {α : Type} {mark : α} {count : ℕ → List α}

variable (mark count) in
/-- A value after a mark, its length and another mark. -/
def prefixed (value : List α) : List α := mark :: (count value.length ++ mark :: value)

/-- Lists that are cut at their first marks. -/
theorem cut_at_mark {x y rest rest' : List α} (hx : mark ∉ x) (hy : mark ∉ y)
    (h : x ++ mark :: rest = y ++ mark :: rest') : x = y ∧ rest = rest' := by
  induction x generalizing y with
  | nil =>
    cases y with
    | nil => exact ⟨rfl, (List.cons.inj h).2⟩
    | cons b =>
      have hmark : mark = b := (List.cons.inj h).1
      exact absurd (hmark ▸ List.mem_cons_self) hy
  | cons a x ih =>
    cases y with
    | nil =>
      have hmark : a = mark := (List.cons.inj h).1
      exact absurd (hmark ▸ List.mem_cons_self) hx
    | cons =>
      obtain ⟨rfl, htail⟩ := List.cons.inj h
      obtain ⟨rfl, hrest⟩ := ih (fun hmem ↦ hx (List.mem_cons_of_mem _ hmem))
        (fun hmem ↦ hy (List.mem_cons_of_mem _ hmem)) htail
      exact ⟨rfl, hrest⟩

theorem prefixed_append_inj (hcount : Function.Injective count) (hmark : ∀ n, mark ∉ count n)
    {value value' rest rest' : List α}
    (h : prefixed mark count value ++ rest = prefixed mark count value' ++ rest') :
    value = value' ∧ rest = rest' := by
  rw [prefixed, prefixed, List.cons_append, List.cons_append, List.append_assoc,
    List.append_assoc, List.cons_append, List.cons_append] at h
  have htail := (List.cons.inj h).2
  obtain ⟨hlength, hvalues⟩ := cut_at_mark (hmark _) (hmark _) htail
  exact List.append_inj hvalues (hcount hlength)

variable {values values' : List (List α)}

/-- Values written one after another are got back. -/
theorem flatMap_prefixed_injective (hcount : Function.Injective count)
    (hmark : ∀ n, mark ∉ count n)
    (h : values.flatMap (prefixed mark count) = values'.flatMap (prefixed mark count)) :
    values = values' := by
  induction values generalizing values' with
  | nil =>
    cases values' with
    | nil => rfl
    | cons => cases h
  | cons _ _ ih =>
    cases values' with
    | nil => cases h
    | cons =>
      obtain ⟨rfl, hrest⟩ := prefixed_append_inj hcount hmark h
      rw [ih hrest]

/-- Values after a text without marks. -/
theorem append_flatMap_prefixed_inj (hcount : Function.Injective count)
    (hmark : ∀ n, mark ∉ count n) {x y : List α} (hx : mark ∉ x) (hy : mark ∉ y)
    (h : x ++ values.flatMap (prefixed mark count) = y ++ values'.flatMap (prefixed mark count)) :
    x = y ∧ values = values' := by
  have hstart : ∀ value (values : List (List α)),
      (value :: values).flatMap (prefixed mark count) =
        mark :: ((count value.length ++ mark :: value) ++ values.flatMap (prefixed mark count)) :=
    fun value values ↦ List.flatMap_cons
  have hmem : ∀ (x : List α) value (values : List (List α)),
      mark ∈ x ++ (value :: values).flatMap (prefixed mark count) := by
    intro x value values
    rw [hstart]
    exact List.mem_append_right _ List.mem_cons_self
  cases values with
  | nil =>
    rw [List.flatMap_nil, List.append_nil] at h
    cases values' with
    | nil => exact ⟨h.trans (List.append_nil y), rfl⟩
    | cons value' values' => exact absurd (h ▸ hmem y value' values') hx
  | cons value values =>
    cases values' with
    | nil =>
      rw [List.flatMap_nil, List.append_nil] at h
      exact absurd (h ▸ hmem x value values) hy
    | cons =>
      have hcut := h
      rw [hstart, hstart] at hcut
      obtain ⟨rfl, -⟩ := cut_at_mark hx hy hcut
      exact ⟨rfl, flatMap_prefixed_injective hcount hmark (List.append_cancel_left h)⟩

end Prefixed

/-! ### What is hashed of a text -/

/-- The text with U+FFFD for each surrogate that stands alone. -/
def toWellFormed (text : Utf16) : Utf16 := unitsOf (usvString text)

theorem toWellFormed_of_wellFormed {text : Utf16} (h : WellFormed text) :
    toWellFormed text = text := unitsOf_usvString h

theorem usvString_eq_iff {text text' : Utf16} :
    usvString text = usvString text' ↔ toWellFormed text = toWellFormed text' := by
  refine ⟨fun h ↦ congrArg unitsOf h, fun h ↦ ?_⟩
  rw [← usvString_unitsOf (usvString text), ← usvString_unitsOf (usvString text')]
  exact congrArg usvString h

theorem toWellFormed_eq (text : Utf16) :
    toWellFormed text = (codePoints text).flatMap fun point ↦ charUnits point.char := by
  rw [toWellFormed, unitsOf, usvString, String.toList_ofList, List.flatMap_map]

theorem length_charUnits {point : CodePoint}
    (h : ∀ high low, point = .pair high low → isHigh high ∧ isLow low) :
    (charUnits point.char).length = point.units.length := by
  cases point with
  | pair high low => rw [charUnits_char (show CodePoint.Scalar (.pair high low) from h _ _ rfl)]
  | unit u =>
    by_cases hsurrogate : isHigh u ∨ isLow u
    · rw [CodePoint.char, if_pos hsurrogate]
      rfl
    · rw [charUnits_char (show CodePoint.Scalar (.unit u) from not_or.mp hsurrogate)]

theorem length_toWellFormed (text : Utf16) : (toWellFormed text).length = text.length := by
  have hpaired := paired_codePoints text
  have hlengths : ∀ points : List CodePoint, Paired points →
      (points.flatMap fun point ↦ charUnits point.char).length = (ofCodePoints points).length := by
    intro points hpoints
    induction points with
    | nil => rfl
    | cons point _ ih =>
      have hpoint : ∀ high low, point = .pair high low → isHigh high ∧ isLow low :=
        fun high low heq ↦ hpoints high low (heq ▸ List.mem_cons_self)
      rw [List.flatMap_cons, ofCodePoints_cons, List.length_append, List.length_append,
        ih hpoints.tail, length_charUnits hpoint]
  rw [toWellFormed_eq, hlengths _ hpaired, ofCodePoints_codePoints]

/-- A unit that is no surrogate parts the code points before it from those after it. -/
theorem codePoints_append_unit {u : UInt16} (hhigh : ¬isHigh u) (hlow : ¬isLow u) (x y : Utf16) :
    codePoints (x ++ u :: y) = codePoints x ++ .unit u :: codePoints y := by
  have hhead : codePoints (u :: y) = .unit u :: codePoints y := by
    cases y with
    | nil => rfl
    | cons => rw [codePoints, if_neg fun hpair ↦ hhigh hpair.1]
  fun_induction codePoints x with
  | case1 => exact hhead
  | case2 v =>
    rw [List.singleton_append, codePoints, if_neg fun hpair ↦ hlow hpair.2, hhead]
    rfl
  | case3 v w rest hpair ih =>
    rw [List.cons_append, List.cons_append, codePoints, if_pos hpair, ih, List.cons_append]
  | case4 v w rest hpair ih =>
    rw [List.cons_append, List.cons_append, codePoints, if_neg hpair, ← List.cons_append, ih,
      List.cons_append]

theorem toWellFormed_append_unit {u : UInt16} (hhigh : ¬isHigh u) (hlow : ¬isLow u)
    (x y : Utf16) : toWellFormed (x ++ u :: y) = toWellFormed x ++ u :: toWellFormed y := by
  have hscalar : CodePoint.Scalar (.unit u) := ⟨hhigh, hlow⟩
  rw [toWellFormed_eq, codePoints_append_unit hhigh hlow, List.flatMap_append, List.flatMap_cons,
    charUnits_char hscalar, ← toWellFormed_eq, ← toWellFormed_eq, CodePoint.units_unit,
    List.singleton_append]

/-! ### Texts of values -/

/-- `:` -/
def COLON : UInt16 := 0x3A

theorem colon_not_surrogate : ¬isHigh COLON ∧ ¬isLow COLON := by decide

theorem colon_notMem_decimal (n : ℕ) : COLON ∉ decimal n := by
  intro hmem
  exact absurd (decimal_digits n _ hmem) (by decide)

/-- A text, and values after it. -/
def bound (text : Utf16) (values : List Utf16) : Utf16 :=
  text ++ values.flatMap (prefixed COLON decimal)

theorem bound_cons (text value : Utf16) (values : List Utf16) :
    bound text (value :: values) = bound (text ++ prefixed COLON decimal value) values := by
  rw [bound, bound, List.flatMap_cons, List.append_assoc]

theorem toWellFormed_prefixed (text value : Utf16) :
    toWellFormed (text ++ prefixed COLON decimal value) =
      toWellFormed text ++ prefixed COLON decimal (toWellFormed value) := by
  obtain ⟨hhigh, hlow⟩ := colon_not_surrogate
  rw [prefixed, toWellFormed_append_unit hhigh hlow, toWellFormed_append_unit hhigh hlow,
    toWellFormed_of_wellFormed (wellFormed_decimal _), prefixed, length_toWellFormed]

theorem toWellFormed_bound (text : Utf16) (values : List Utf16) :
    toWellFormed (bound text values) = bound (toWellFormed text) (values.map toWellFormed) := by
  induction values generalizing text with
  | nil => rw [bound, List.flatMap_nil, List.append_nil, List.map_nil, bound, List.flatMap_nil,
      List.append_nil]
  | cons _ _ ih =>
    rw [bound_cons, ih, toWellFormed_prefixed, List.map_cons, bound_cons]

end Odudu.Texts
