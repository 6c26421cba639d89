import Mathlib.Data.List.Basic

/-!
# Texts of sixteen-bit units

A text is the list of its code units, which need not be well formed: a surrogate may stand
alone.  `codePoints` reads one as a pattern with the `u` flag does, a high surrogate and the low
one after it being one code point.  `remove` takes out every code point of a class.  What is
left is of the text's own units, but two surrogates that were apart may meet there: a code
point of two units is left exactly when its halves are neighbours (`pair_mem_codePoints`).
-/

set_option autoImplicit false

namespace Odudu.Texts

/-- A text as its code units. -/
abbrev Utf16 : Type := List UInt16

instance : LawfulBEq Utf16 := inferInstance

def isHigh (u : UInt16) : Prop := 0xD800 ≤ u.toNat ∧ u.toNat ≤ 0xDBFF

def isLow (u : UInt16) : Prop := 0xDC00 ≤ u.toNat ∧ u.toNat ≤ 0xDFFF

instance (u : UInt16) : Decidable (isHigh u) := inferInstanceAs (Decidable (_ ∧ _))

instance (u : UInt16) : Decidable (isLow u) := inferInstanceAs (Decidable (_ ∧ _))

variable {u : UInt16}

theorem not_isLow_of_isHigh (h : isHigh u) : ¬isLow u := by
  unfold isHigh at h
  unfold isLow
  omega

inductive CodePoint where
  | unit (u : UInt16)
  | pair (high low : UInt16)

namespace CodePoint

def value : CodePoint → ℕ
  | unit u => u.toNat
  | pair high low => 0x10000 + (high.toNat - 0xD800) * 0x400 + (low.toNat - 0xDC00)

def units : CodePoint → Utf16
  | unit u => [u]
  | pair high low => [high, low]

@[simp] theorem value_unit (u : UInt16) : (unit u).value = u.toNat := rfl

@[simp] theorem units_unit (u : UInt16) : (unit u).units = [u] := rfl

@[simp] theorem units_pair (high low : UInt16) : (pair high low).units = [high, low] := rfl

end CodePoint

/-- The code points of a text, a surrogate that stands alone being one. -/
def codePoints : Utf16 → List CodePoint
  | [] => []
  | [u] => [.unit u]
  | u :: v :: rest =>
    if isHigh u ∧ isLow v then .pair u v :: codePoints rest
    else .unit u :: codePoints (v :: rest)

def ofCodePoints (points : List CodePoint) : Utf16 := points.flatMap CodePoint.units

@[simp] theorem ofCodePoints_nil : ofCodePoints [] = [] := rfl

@[simp] theorem ofCodePoints_cons (point : CodePoint) (points : List CodePoint) :
    ofCodePoints (point :: points) = point.units ++ ofCodePoints points := rfl

@[simp] theorem ofCodePoints_append (points points' : List CodePoint) :
    ofCodePoints (points ++ points') = ofCodePoints points ++ ofCodePoints points' :=
  List.flatMap_append

theorem ofCodePoints_codePoints (text : Utf16) : ofCodePoints (codePoints text) = text := by
  fun_induction codePoints text with
  | case1 | case2 => rfl
  | case3 _ _ _ _ ih | case4 _ _ _ _ ih => rw [ofCodePoints_cons, ih]; rfl

/-- Every pair is of a high surrogate and a low one. -/
def Paired (points : List CodePoint) : Prop :=
  ∀ high low, .pair high low ∈ points → isHigh high ∧ isLow low

theorem Paired.tail {point : CodePoint} {points : List CodePoint} (h : Paired (point :: points)) :
    Paired points :=
  fun high low hmem ↦ h high low (List.mem_cons_of_mem _ hmem)

theorem Paired.filter {points : List CodePoint} (h : Paired points) (p : CodePoint → Bool) :
    Paired (points.filter p) :=
  fun high low hmem ↦ h high low (List.mem_of_mem_filter hmem)

theorem paired_codePoints (text : Utf16) : Paired (codePoints text) := by
  intro high low hmem
  fun_induction codePoints text with
  | case1 | case2 => simp at hmem
  | case3 u v rest hpair ih =>
    rcases List.mem_cons.mp hmem with heq | hrest
    · obtain ⟨rfl, rfl⟩ := CodePoint.pair.inj heq
      exact hpair
    · exact ih hrest
  | case4 u v rest hpair ih =>
    rcases List.mem_cons.mp hmem with heq | hrest
    · cases heq
    · exact ih hrest

/-! ### Neighbours -/

/-- The units are neighbours in the text, so many units before them. -/
def Neighbours (high low : UInt16) (before : ℕ) (text : Utf16) : Prop :=
  text[before]? = some high ∧ text[before + 1]? = some low

section Neighbours

variable {high low : UInt16} {before : ℕ} {text : Utf16} {points : List CodePoint}

theorem neighbours_append (x y : Utf16) :
    Neighbours high low x.length (x ++ high :: low :: y) := by
  simp [Neighbours]

theorem Neighbours.split (h : Neighbours high low before text) :
    ∃ x y, text = x ++ high :: low :: y ∧ x.length = before := by
  obtain ⟨hhigh, hlow⟩ := h
  obtain ⟨hlt, hget⟩ := List.getElem?_eq_some_iff.mp hhigh
  obtain ⟨hlt', hget'⟩ := List.getElem?_eq_some_iff.mp hlow
  refine ⟨text.take before, text.drop (before + 2), ?_, ?_⟩
  · have hdrop := List.drop_eq_getElem_cons hlt
    have hdrop' := List.drop_eq_getElem_cons hlt'
    rw [hget] at hdrop
    rw [hget'] at hdrop'
    rw [← hdrop', ← hdrop, List.take_append_drop]
  · rw [List.length_take]
    omega

theorem Neighbours.cons (u : UInt16) :
    Neighbours high low (before + 1) (u :: text) ↔ Neighbours high low before text := by
  simp [Neighbours]

theorem neighbours_take {n : ℕ} :
    Neighbours high low before (text.take n) ↔
      Neighbours high low before text ∧ before + 2 ≤ n := by
  simp only [Neighbours, List.getElem?_take]
  by_cases hbefore : before + 1 < n
  · have hlt : before < n := by omega
    simp [hbefore, hlt]
    omega
  · simp only [hbefore, if_false]
    constructor
    · rintro ⟨-, ⟨⟩⟩
    · omega

/-- A unit put at the end that is not the second makes no neighbours. -/
theorem neighbours_concat {u : UInt16} (hu : low ≠ u) :
    Neighbours high low before (text ++ [u]) ↔ Neighbours high low before text := by
  simp only [Neighbours, List.getElem?_append]
  by_cases hbefore : before + 1 < text.length
  · have hlt : before < text.length := by omega
    simp [hbefore, hlt]
  · have hnone : text[before + 1]? = none := List.getElem?_eq_none (by omega)
    simp only [hbefore, if_false, hnone]
    constructor
    · rintro ⟨-, hlow⟩
      have hmem := List.mem_of_getElem? hlow
      exact absurd (List.mem_singleton.mp hmem) hu
    · rintro ⟨-, ⟨⟩⟩

/-- Two surrogates that are neighbours are a pair. -/
theorem Neighbours.pair_mem (h : Neighbours high low before text) (hhigh : isHigh high)
    (hlow : isLow low) : CodePoint.pair high low ∈ codePoints text := by
  obtain ⟨x, y, rfl, -⟩ := h.split
  clear h
  fun_induction codePoints x generalizing y with
  | case1 => simp [codePoints, hhigh, hlow]
  | case2 u =>
    have hsplit : ¬(isHigh u ∧ isLow high) := fun hu ↦ not_isLow_of_isHigh hhigh hu.2
    simp [codePoints, hhigh, hlow, hsplit]
  | case3 u v rest hpair ih =>
    have hrest := ih y
    simp [codePoints, hpair, hrest]
  | case4 u v rest hpair ih =>
    have hrest := ih y
    simp only [List.cons_append] at hrest ⊢
    rw [codePoints, if_neg hpair]
    exact List.mem_cons_of_mem _ hrest

/-- The halves of a pair are neighbours. -/
theorem neighbours_of_mem (h : CodePoint.pair high low ∈ points) :
    ∃ before, Neighbours high low before (ofCodePoints points) := by
  obtain ⟨points₁, points₂, rfl⟩ := List.append_of_mem h
  rw [ofCodePoints_append, ofCodePoints_cons, CodePoint.units_pair]
  exact ⟨_, neighbours_append _ _⟩

/-- A code point of two units is in a text when its halves are neighbours there. -/
theorem pair_mem_codePoints (hhigh : isHigh high) (hlow : isLow low) :
    CodePoint.pair high low ∈ codePoints text ↔ ∃ before, Neighbours high low before text := by
  constructor
  · intro h
    have hneighbours := neighbours_of_mem h
    rwa [ofCodePoints_codePoints] at hneighbours
  · rintro ⟨before, h⟩
    exact h.pair_mem hhigh hlow

/-- Two surrogates that are neighbours, and no pair, are code points on their own. -/
theorem Neighbours.apart (h : Neighbours high low before (ofCodePoints points))
    (hpoints : Paired points) (hhigh : isHigh high) (hlow : isLow low)
    (hpair : CodePoint.pair high low ∉ points) :
    ∃ points₁ points₂, points = points₁ ++ .unit high :: .unit low :: points₂ ∧
      (ofCodePoints points₁).length = before := by
  induction points generalizing before with
  | nil => simp [Neighbours] at h
  | cons point points ih =>
    have htail : ∀ before', Neighbours high low before' (ofCodePoints points) →
        ∃ points₁ points₂, points = points₁ ++ .unit high :: .unit low :: points₂ ∧
          (ofCodePoints points₁).length = before' :=
      fun before' h' ↦ ih h' hpoints.tail fun hmem ↦ hpair (List.mem_cons_of_mem _ hmem)
    cases point with
    | unit u =>
      rw [ofCodePoints_cons, CodePoint.units_unit, List.singleton_append] at h
      cases before with
      | zero =>
        obtain ⟨hu, hlow'⟩ := h
        obtain rfl : u = high := by simpa using hu
        cases points with
        | nil => simp at hlow'
        | cons next rest =>
          cases next with
          | unit v =>
            obtain rfl : v = low := by simpa using hlow'
            exact ⟨[], rest, rfl, rfl⟩
          | pair v v' =>
            obtain rfl : v = low := by simpa using hlow'
            have hv := (hpoints v v' (by simp)).1
            exact absurd hlow (not_isLow_of_isHigh hv)
      | succ before =>
        obtain ⟨points₁, points₂, rfl, hlength⟩ := htail before ((Neighbours.cons u).mp h)
        exact ⟨.unit u :: points₁, points₂, rfl, by simp [hlength]⟩
    | pair u v =>
      obtain ⟨hu, hv⟩ := hpoints u v (List.mem_cons_self ..)
      rw [ofCodePoints_cons, CodePoint.units_pair] at h
      cases before with
      | zero =>
        obtain ⟨hu', hv'⟩ := h
        obtain rfl : u = high := by simpa using hu'
        obtain rfl : v = low := by simpa using hv'
        exact absurd (List.mem_cons_self ..) hpair
      | succ before =>
        have h' := (Neighbours.cons u).mp h
        cases before with
        | zero =>
          obtain rfl : v = high := by simpa using h'.1
          exact absurd hv (not_isLow_of_isHigh hhigh)
        | succ before =>
          obtain ⟨points₁, points₂, rfl, hlength⟩ := htail before ((Neighbours.cons v).mp h')
          exact ⟨.pair u v :: points₁, points₂, rfl, by simp [hlength]⟩

end Neighbours

theorem unit_mem_of_mem {text : Utf16} (h : CodePoint.unit u ∈ codePoints text) :
    u ∈ text := by
  rw [← ofCodePoints_codePoints text]
  exact List.mem_flatMap.mpr ⟨_, h, List.mem_singleton.mpr rfl⟩

/-- The code point that a unit belongs to: itself, or a pair of which it is a half. -/
theorem point_of_mem {text : Utf16} (h : u ∈ text) :
    CodePoint.unit u ∈ codePoints text ∨ isHigh u ∨ isLow u := by
  rw [← ofCodePoints_codePoints text] at h
  obtain ⟨point, hpoint, hu⟩ := List.mem_flatMap.mp h
  cases point with
  | unit =>
    obtain rfl := List.mem_singleton.mp hu
    exact Or.inl hpoint
  | pair high low =>
    obtain ⟨hhigh, hlow⟩ := paired_codePoints text high low hpoint
    simp only [CodePoint.units, List.mem_cons, List.not_mem_nil, or_false] at hu
    rcases hu with rfl | rfl
    · exact Or.inr (Or.inl hhigh)
    · exact Or.inr (Or.inr hlow)

/-! ### Classes -/

/-- No code point of the text is of the class. -/
def Free (removed : ℕ → Bool) (text : Utf16) : Prop :=
  ∀ point ∈ codePoints text, removed point.value = false

/-- The text without the code points of the class. -/
def remove (removed : ℕ → Bool) (text : Utf16) : Utf16 :=
  ofCodePoints ((codePoints text).filter fun point ↦ !removed point.value)

variable {removed : ℕ → Bool} {text : Utf16}

theorem remove_of_free (h : Free removed text) : remove removed text = text := by
  have hall : (codePoints text).filter (fun point ↦ !removed point.value) = codePoints text :=
    List.filter_eq_self.mpr fun point hpoint ↦ by simp [h point hpoint]
  rw [remove, hall, ofCodePoints_codePoints]

/-- A class of code points of one unit, none a surrogate. -/
def Basic (removed : ℕ → Bool) : Prop :=
  ∀ n, removed n = true → n < 0xD800 ∨ 0xE000 ≤ n ∧ n < 0x10000

theorem Basic.not_surrogate (h : Basic removed) (hu : isHigh u ∨ isLow u) :
    removed u.toNat = false := by
  by_contra htrue
  have hrange := h _ (by simpa using htrue)
  unfold isHigh isLow at hu
  omega

theorem CodePoint.le_value_pair (high low : UInt16) : 0x10000 ≤ (pair high low).value := by
  show 0x10000 ≤ 0x10000 + (high.toNat - 0xD800) * 0x400 + (low.toNat - 0xDC00)
  omega

theorem Basic.not_pair (h : Basic removed) (high low : UInt16) :
    removed (CodePoint.pair high low).value = false := by
  have hvalue := CodePoint.le_value_pair high low
  generalize (CodePoint.pair high low).value = n at hvalue ⊢
  by_contra htrue
  have hrange := h n (by simpa using htrue)
  omega

/-- Of such a class a text is free when its units are. -/
theorem Basic.free_iff (h : Basic removed) :
    Free removed text ↔ ∀ u ∈ text, removed u.toNat = false := by
  constructor
  · intro hfree u hu
    rcases point_of_mem hu with hpoint | hsurrogate
    · exact hfree _ hpoint
    · exact h.not_surrogate hsurrogate
  · intro hunits point hpoint
    cases point with
    | unit u => exact hunits u (unit_mem_of_mem hpoint)
    | pair high low => exact h.not_pair high low

/-- Such a class is taken out unit by unit. -/
theorem Basic.filter_units (h : Basic removed) {points : List CodePoint} (hpoints : Paired points) :
    (ofCodePoints points).filter (fun u ↦ !removed u.toNat) =
      ofCodePoints (points.filter fun point ↦ !removed point.value) := by
  induction points with
  | nil => rfl
  | cons point _ ih =>
    have hrest := ih hpoints.tail
    cases point with
    | unit u => cases hu : removed u.toNat <;> simp [hu, hrest]
    | pair high low =>
      obtain ⟨hhigh, hlow⟩ := hpoints high low (List.mem_cons_self ..)
      have hhigh' := h.not_surrogate (Or.inl hhigh)
      have hlow' := h.not_surrogate (Or.inr hlow)
      have hpair := h.not_pair high low
      simp [hhigh', hlow', hpair, hrest]

theorem Basic.remove_eq (h : Basic removed) (text : Utf16) :
    remove removed text = text.filter fun u ↦ !removed u.toNat := by
  rw [remove, ← h.filter_units (paired_codePoints text), ofCodePoints_codePoints]

end Odudu.Texts
