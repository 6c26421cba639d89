import Mathlib.Data.Rat.Floor

/-!
# Numbers in binary64

The arithmetic of a number format whose operations round their exact result.  A
`Rounding` says of the rounding what the standard says: it keeps the order, leaves a number
of the format as it is, and the whole numbers up to `2 ^ 53` are of the format.  Nothing is
said of how close it comes.  `truncate` drops the fraction of a number, toward zero.

Of a decimal number without a fraction: what it is read as, and the text that such a number is
printed as, of the decimal numbers that are read back as it one with the fewest digits before the
zeros, and an exponent from `10 ^ 21` on.  A number that is printed without an exponent is read
back as itself (`nearest_shortest`).
-/

set_option autoImplicit false

namespace Odudu.Numbers

/-- How a number format rounds. -/
structure Rounding where
  round : ℚ → ℚ
  mono : Monotone round
  idem : ∀ x, round (round x) = round x
  whole : ∀ n : ℤ, |n| ≤ 2 ^ 53 → round n = n

namespace Rounding

variable (R : Rounding)

def add (x y : ℚ) : ℚ := R.round (x + y)

def sub (x y : ℚ) : ℚ := R.round (x - y)

def mul (x y : ℚ) : ℚ := R.round (x * y)

def div (x y : ℚ) : ℚ := R.round (x / y)

variable {R} {x y : ℚ}

theorem lt_of_round_lt (h : R.round x < R.round y) : x < y :=
  lt_of_not_ge fun hle ↦ absurd (R.mono hle) (not_le.mpr h)

/-- A number of the format above a rounded number is above the exact one. -/
theorem lt_of_round_lt_of_round_eq (hy : R.round y = y) (h : R.round x < y) : x < y :=
  lt_of_round_lt (hy.symm ▸ h)

/-- A whole number below an exact number is below the rounded one. -/
theorem le_round {n : ℤ} (hn : |n| ≤ 2 ^ 53) (h : (n : ℚ) ≤ x) : (n : ℚ) ≤ R.round x := by
  rw [← R.whole n hn]
  exact R.mono h

end Rounding

/-- The arithmetic that rounds nothing. -/
def exactly : Rounding where
  round := id
  mono := monotone_id
  idem := fun _ ↦ rfl
  whole := fun _ _ ↦ rfl

/-- A number without its fraction. -/
def truncate (x : ℚ) : ℤ := if 0 ≤ x then ⌊x⌋ else ⌈x⌉

theorem le_truncate {n : ℤ} {x : ℚ} (h : (n : ℚ) ≤ x) : n ≤ truncate x := by
  unfold truncate
  split
  · exact Int.le_floor.mpr h
  · exact Int.cast_le.mp (h.trans (Int.le_ceil x))

/-! ### The nearest number of the format -/

/-- The nearest multiple of `d`, the even one where two are as near. -/
def nearestMultiple (d n : ℕ) : ℕ :=
  if 2 * (n % d) < d ∨ 2 * (n % d) = d ∧ n / d % 2 = 0 then n / d * d else (n / d + 1) * d

/-- How far the numbers of the format are apart where `n` is: they have 53 bits. -/
def spacing (n : ℕ) : ℕ := 2 ^ (n.log2 - 52)

/-- The number of the format that is nearest, with no bound on the exponent. -/
def nearest (n : ℕ) : ℕ := nearestMultiple (spacing n) n

theorem spacing_pos (n : ℕ) : 0 < spacing n := Nat.two_pow_pos _

section Multiples

variable {d n m : ℕ}

theorem nearestMultiple_of_dvd (hd : 0 < d) (h : d ∣ n) : nearestMultiple d n = n := by
  have hmod : n % d = 0 := Nat.mod_eq_zero_of_dvd h
  rw [nearestMultiple, if_pos (Or.inl (by omega)), Nat.div_mul_cancel h]

theorem dvd_nearestMultiple : d ∣ nearestMultiple d n := by
  unfold nearestMultiple
  split <;> exact Dvd.intro_left _ rfl

theorem nearestMultiple_mono (h : n ≤ m) : nearestMultiple d n ≤ nearestMultiple d m := by
  have hle : n / d ≤ m / d := Nat.div_le_div_right h
  unfold nearestMultiple
  rcases Nat.lt_or_eq_of_le hle with hlt | heq
  · -- The quotients are apart, and each is rounded up by one at most.
    have hbelow : (n / d + 1) * d ≤ m / d * d := Nat.mul_le_mul_right d hlt
    have hup : ∀ k : ℕ, k / d * d ≤ (k / d + 1) * d := fun k ↦
      Nat.mul_le_mul_right d (Nat.le_succ _)
    have hn := hup n
    have hm := hup m
    split <;> split <;> omega
  · have hrest : n % d ≤ m % d := by
      have hn := Nat.div_add_mod n d
      have hm := Nat.div_add_mod m d
      rw [heq] at hn
      omega
    rw [heq]
    have hup : m / d * d ≤ (m / d + 1) * d := Nat.mul_le_mul_right d (Nat.le_succ _)
    split <;> split <;> omega

end Multiples

variable {n m : ℕ}

theorem nearest_of_dvd (h : spacing n ∣ n) : nearest n = n :=
  nearestMultiple_of_dvd (spacing_pos n) h

theorem nearest_zero : nearest 0 = 0 := nearest_of_dvd (Nat.dvd_zero _)

theorem spacing_dvd_pow {k : ℕ} (h : n.log2 ≤ k) : spacing n ∣ 2 ^ k :=
  Nat.pow_dvd_pow 2 (by omega)

theorem pow_log2_le_nearest (h : n ≠ 0) : 2 ^ n.log2 ≤ nearest n := by
  have hmono := @nearestMultiple_mono (spacing n) _ _ (Nat.log2_self_le h)
  rwa [nearestMultiple_of_dvd (spacing_pos n) (spacing_dvd_pow le_rfl)] at hmono

theorem nearest_le_pow (n : ℕ) : nearest n ≤ 2 ^ (n.log2 + 1) := by
  have hmono := @nearestMultiple_mono (spacing n) _ _ (Nat.le_of_lt (Nat.lt_log2_self (n := n)))
  rwa [nearestMultiple_of_dvd (spacing_pos n) (spacing_dvd_pow (Nat.le_succ _))] at hmono

theorem nearest_mono (h : n ≤ m) : nearest n ≤ nearest m := by
  rcases Nat.eq_zero_or_pos n with rfl | hpos
  · rw [nearest_zero]
    exact Nat.zero_le _
  have hm : m ≠ 0 := by omega
  have hlog : n.log2 ≤ m.log2 :=
    (Nat.le_log2 hm).mpr ((Nat.log2_self_le (by omega)).trans h)
  rcases Nat.lt_or_eq_of_le hlog with hlt | heq
  · calc nearest n ≤ 2 ^ (n.log2 + 1) := nearest_le_pow n
      _ ≤ 2 ^ m.log2 := Nat.pow_le_pow_right (by decide) hlt
      _ ≤ nearest m := pow_log2_le_nearest hm
  · have hspacing : spacing n = spacing m := by rw [spacing, spacing, heq]
    rw [nearest, nearest, hspacing]
    exact nearestMultiple_mono h

/-- The nearest number is of the format. -/
theorem nearest_nearest (n : ℕ) : nearest (nearest n) = nearest n := by
  rcases Nat.eq_zero_or_pos n with rfl | hpos
  · rw [nearest_zero, nearest_zero]
  have hlow := pow_log2_le_nearest (Nat.ne_of_gt hpos)
  rcases Nat.lt_or_eq_of_le (nearest_le_pow n) with hlt | heq
  · have hne : nearest n ≠ 0 := Nat.ne_of_gt (lt_of_lt_of_le (Nat.two_pow_pos _) hlow)
    have hlog : (nearest n).log2 = n.log2 := (Nat.log2_eq_iff hne).mpr ⟨hlow, hlt⟩
    refine nearest_of_dvd ?_
    have hspacing : spacing (nearest n) = spacing n := by rw [spacing, spacing, hlog]
    rw [hspacing]
    exact dvd_nearestMultiple
  · rw [heq]
    exact nearest_of_dvd (spacing_dvd_pow (Nat.le_of_eq Nat.log2_two_pow))

/-- A number of the format: a whole one, or the one above all. -/
inductive Double where
  | finite (n : ℕ)
  | infinity
  deriving DecidableEq

/-- What a whole number is read as. -/
def Double.ofNat (n : ℕ) : Double := if nearest n < 2 ^ 1024 then .finite (nearest n) else .infinity

theorem Double.nearest_of_ofNat {n x : ℕ} (h : Double.ofNat n = .finite x) : nearest x = x := by
  unfold Double.ofNat at h
  split at h
  · obtain rfl := Double.finite.inj h
    exact nearest_nearest n
  · cases h

/-! ### The text of a number -/

/-- The number with `k` digits before the zeros that is nearest, where one is read back. -/
def shortestWith (n k : ℕ) : Option ℕ :=
  let unit := 10 ^ ((Nat.toDigits 10 n).length - k)
  let low := n / unit * unit
  let high := low + unit
  let lowIsNearer := decide (n - low < high - n) || decide (n - low = high - n) && n / unit % 2 == 0
  if nearest low = n ∧ (nearest high ≠ n ∨ lowIsNearer = true) then some low
  else if nearest high = n then some high
  else none

/-- The number with the fewest digits before the zeros. -/
def shortest (n : ℕ) : ℕ :=
  ((List.range' 1 (Nat.toDigits 10 n).length).findSome? (shortestWith n)).getD n

def EXPONENT_FROM : ℕ := 10 ^ 21

/-- A text with an exponent, one digit before the point. -/
def exponential (n : ℕ) : String :=
  let digits := ((Nat.toDigits 10 n).reverse.dropWhile (· == '0')).reverse
  let fraction := if digits.length ≤ 1 then [] else '.' :: digits.tail
  String.ofList (digits.take 1 ++ fraction ++ 'e' :: '+' ::
    Nat.toDigits 10 ((Nat.toDigits 10 n).length - 1))

/-- `String(n)`, for a number of the format. -/
def numberText (n : ℕ) : String :=
  if shortest n < EXPONENT_FROM then (shortest n).repr else exponential (shortest n)

theorem nearest_shortestWith {n k v : ℕ} (h : shortestWith n k = some v) : nearest v = n := by
  unfold shortestWith at h
  simp only at h
  split at h
  case isTrue hlow => exact Option.some.inj h ▸ hlow.1
  case isFalse =>
    split at h
    case isTrue hhigh => exact Option.some.inj h ▸ hhigh
    case isFalse => cases h

/-- The number that is printed is read back. -/
theorem nearest_shortest (h : nearest n = n) : nearest (shortest n) = n := by
  unfold shortest
  cases hfound : (List.range' 1 (Nat.toDigits 10 n).length).findSome? (shortestWith n) with
  | none => exact h
  | some =>
    obtain ⟨k, -, hk⟩ := List.exists_of_findSome?_eq_some hfound
    exact nearest_shortestWith hk

theorem nearest_exponentFrom : nearest EXPONENT_FROM = EXPONENT_FROM := by decide

theorem shortest_exponentFrom : shortest EXPONENT_FROM = EXPONENT_FROM := by decide

/-- An exponent is printed from `10 ^ 21` on, and of no number below. -/
theorem shortest_lt_iff (h : nearest n = n) : shortest n < EXPONENT_FROM ↔ n < EXPONENT_FROM := by
  have hread := nearest_shortest h
  constructor
  · intro hshort
    by_contra hge
    have hle := nearest_mono (Nat.le_of_lt hshort)
    rw [hread, nearest_exponentFrom] at hle
    obtain rfl : n = EXPONENT_FROM := by omega
    rw [shortest_exponentFrom] at hshort
    exact absurd hshort (lt_irrefl _)
  · intro hlt
    by_contra hge
    have hle := nearest_mono (Nat.le_of_not_lt hge)
    rw [hread, nearest_exponentFrom] at hle
    omega

theorem numberText_of_lt (h : nearest n = n) (hlt : n < EXPONENT_FROM) :
    numberText n = (shortest n).repr := if_pos ((shortest_lt_iff h).mpr hlt)

theorem exponent_mem_numberText (h : nearest n = n) (hge : EXPONENT_FROM ≤ n) :
    'e' ∈ (numberText n).toList := by
  rw [numberText, if_neg (by rw [shortest_lt_iff h]; omega), exponential, String.toList_ofList]
  simp

/-- Numbers below `2 ^ 53` are printed as they are; above, zeros stand for what is not told
apart. -/
example : numberText 86400 = "86400" ∧ numberText (2 ^ 64) = "18446744073709552000" ∧
    numberText (10 ^ 21) = "1e+21" := by decide

end Odudu.Numbers
