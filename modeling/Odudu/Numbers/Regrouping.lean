import Mathlib.Data.Nat.Digits.Lemmas

/-!
# Digits of one width regrouped into another

Digits of `w` bits are shifted one by one into a register, and digits of `v` bits are taken out of
it, the most significant first, for as long as it holds `v` bits that were not taken.  What was
taken is the number that was read without the bits that are left (`numberOf_regroup`).

Where `v` is no wider than `w`, the digits that were taken, with what is left filled up with
zeros, are regrouped into the digits that were read (`regroup_padded`).
-/

set_option autoImplicit false

namespace Odudu.Numbers

/-- The number that digits of `w` bits are, the most significant first. -/
def numberOf (w : ℕ) (digits : List ℕ) : ℕ := Nat.ofDigits (2 ^ w) digits.reverse

/-- The digits of `v` bits that lie in the lowest bits of a number, of which there are so many,
until fewer than `v` of them are left. -/
def taken (v number : ℕ) : ℕ → List ℕ
  | bits =>
    if 0 < v ∧ v ≤ bits then number / 2 ^ (bits - v) % 2 ^ v :: taken v number (bits - v) else []
termination_by bits => bits

/-- What was shifted in, how many bits of it were not taken, and the digits that were. -/
structure Register where
  number : ℕ
  bits : ℕ
  digits : List ℕ

namespace Register

def empty : Register := ⟨0, 0, []⟩

def shift (w v : ℕ) (r : Register) (digit : ℕ) : Register :=
  ⟨r.number * 2 ^ w + digit, (r.bits + w) % v,
    r.digits ++ taken v (r.number * 2 ^ w + digit) (r.bits + w)⟩

/-- What is left is filled up with zeros. -/
def padded (v : ℕ) (r : Register) : List ℕ :=
  if 0 < r.bits then r.digits ++ [r.number * 2 ^ (v - r.bits) % 2 ^ v] else r.digits

end Register

def regroup (w v : ℕ) (digits : List ℕ) : Register := digits.foldl (Register.shift w v) .empty

variable {w v : ℕ}

/-! ### Numbers -/

@[simp]
theorem numberOf_nil : numberOf w [] = 0 := rfl

theorem numberOf_append (digits later : List ℕ) :
    numberOf w (digits ++ later) =
      numberOf w digits * 2 ^ (w * later.length) + numberOf w later := by
  rw [numberOf, List.reverse_append, Nat.ofDigits_append, List.length_reverse, ← pow_mul,
    Nat.add_comm, Nat.mul_comm]
  rfl

theorem numberOf_singleton (digit : ℕ) : numberOf w [digit] = digit := Nat.ofDigits_singleton

theorem numberOf_concat (digits : List ℕ) (digit : ℕ) :
    numberOf w (digits ++ [digit]) = numberOf w digits * 2 ^ w + digit := by
  rw [numberOf_append, numberOf_singleton, List.length_singleton, Nat.mul_one]

/-- As many digits that are the same number are the same digits. -/
theorem eq_of_numberOf_eq {digits digits' : List ℕ} (hw : 0 < w)
    (hlength : digits.length = digits'.length) (hdigits : ∀ d ∈ digits, d < 2 ^ w)
    (hdigits' : ∀ d ∈ digits', d < 2 ^ w) (h : numberOf w digits = numberOf w digits') :
    digits = digits' := by
  have hbase : 1 < 2 ^ w := Nat.one_lt_two_pow hw.ne'
  have hreverse : digits.reverse = digits'.reverse := by
    apply Nat.ofDigits_inj_of_len_eq hbase
    · rw [List.length_reverse, List.length_reverse, hlength]
    · intro d hd
      exact hdigits d (List.mem_reverse.mp hd)
    · intro d hd
      exact hdigits' d (List.mem_reverse.mp hd)
    · exact h
  exact List.reverse_injective hreverse

/-! ### What is taken -/

theorem taken_of_le {bits : ℕ} (number : ℕ) (hv : 0 < v) (h : v ≤ bits) :
    taken v number bits = number / 2 ^ (bits - v) % 2 ^ v :: taken v number (bits - v) := by
  rw [taken, if_pos ⟨hv, h⟩]

theorem taken_of_lt {bits : ℕ} (number : ℕ) (h : bits < v) : taken v number bits = [] := by
  rw [taken, if_neg fun hle ↦ absurd hle.2 (Nat.not_le.mpr h)]

theorem length_taken (hv : 0 < v) (number bits : ℕ) :
    (taken v number bits).length = bits / v := by
  induction bits using Nat.strong_induction_on with
  | _ bits ih =>
    rcases Nat.lt_or_ge bits v with hlt | hle
    · rw [taken_of_lt number hlt, Nat.div_eq_of_lt hlt, List.length_nil]
    · rw [taken_of_le number hv hle, List.length_cons, ih _ (Nat.sub_lt_of_pos_le hv hle),
        Nat.div_eq_sub_div hv hle]

theorem taken_lt (number bits : ℕ) : ∀ d ∈ taken v number bits, d < 2 ^ v := by
  induction bits using Nat.strong_induction_on with
  | _ _ ih =>
    intro d hd
    rw [taken] at hd
    split at hd
    next h =>
      rcases List.mem_cons.mp hd with rfl | hmem
      · exact Nat.mod_lt _ (Nat.two_pow_pos v)
      · exact ih _ (Nat.sub_lt_of_pos_le h.1 h.2) d hmem
    next => exact absurd hd List.not_mem_nil

theorem mod_div_eq (number : ℕ) {bits left : ℕ} (h : left ≤ bits) :
    number % 2 ^ bits / 2 ^ left = number / 2 ^ left % 2 ^ (bits - left) := by
  have hpow : 2 ^ bits = 2 ^ left * 2 ^ (bits - left) := by
    rw [← pow_add, Nat.add_sub_cancel' h]
  rw [hpow, Nat.mod_mul_right_div_self]

/-- The lowest bits of a number are some of them above those below. -/
theorem mod_two_pow_add (number above below : ℕ) :
    number % 2 ^ (below + above) =
      number / 2 ^ below % 2 ^ above * 2 ^ below + number % 2 ^ below := by
  rw [pow_add, Nat.mod_mul, Nat.add_comm, Nat.mul_comm]

theorem div_two_pow (number below above : ℕ) :
    number / 2 ^ (below + above) * 2 ^ above + number % 2 ^ (below + above) / 2 ^ below =
      number / 2 ^ below := by
  rw [mod_div_eq number (Nat.le_add_right below above), Nat.add_sub_cancel_left, pow_add,
    ← Nat.div_div_eq_div_mul, Nat.div_add_mod']

/-- What is taken is the lowest bits of the number without those that are left. -/
theorem numberOf_taken (hv : 0 < v) (number bits : ℕ) :
    numberOf v (taken v number bits) = number % 2 ^ bits / 2 ^ (bits % v) := by
  induction bits using Nat.strong_induction_on with
  | _ bits ih =>
    rcases Nat.lt_or_ge bits v with hlt | hle
    · rw [taken_of_lt number hlt, Nat.mod_eq_of_lt hlt, numberOf_nil,
        Nat.div_eq_of_lt (Nat.mod_lt _ (Nat.two_pow_pos bits))]
    · have hrest := ih _ (Nat.sub_lt_of_pos_le hv hle)
      have hmod : (bits - v) % v = bits % v := (Nat.mod_eq_sub_mod hle).symm
      have hleft : bits % v ≤ bits - v := hmod ▸ Nat.mod_le _ _
      -- What is taken after the first digit lies between the bits that are left and that digit.
      obtain ⟨below, hbelow⟩ := Nat.exists_eq_add_of_le hleft
      have hwidth : v * ((bits - v) / v) = below := by
        have hdiv := Nat.div_add_mod (bits - v) v
        omega
      have hall : bits - bits % v = below + v := by omega
      have hfirst : number / 2 ^ (bits - v) = number / 2 ^ (bits % v) / 2 ^ below := by
        rw [Nat.div_div_eq_div_mul, ← pow_add, ← hbelow]
      rw [taken_of_le number hv hle, ← List.singleton_append, numberOf_append, numberOf_singleton,
        hrest, hmod, length_taken hv, hwidth, mod_div_eq number hleft,
        mod_div_eq number (hleft.trans (Nat.sub_le _ _)), hall, mod_two_pow_add, hfirst]
      congr 3
      omega

/-! ### What is regrouped -/

theorem regroup_concat (digits : List ℕ) (digit : ℕ) :
    regroup w v (digits ++ [digit]) = (regroup w v digits).shift w v digit := by
  rw [regroup, List.foldl_append]
  rfl

@[simp]
theorem number_regroup (digits : List ℕ) : (regroup w v digits).number = numberOf w digits := by
  induction digits using List.reverseRecOn with
  | nil => rfl
  | append_singleton _ _ ih =>
    rw [regroup_concat, numberOf_concat, ← ih]
    rfl

@[simp]
theorem bits_regroup (digits : List ℕ) :
    (regroup w v digits).bits = w * digits.length % v := by
  induction digits using List.reverseRecOn with
  | nil => exact (Nat.zero_mod v).symm
  | append_singleton digits _ ih =>
    rw [regroup_concat]
    show ((regroup w v digits).bits + w) % v = _
    rw [ih, Nat.mod_add_mod, List.length_append, List.length_singleton, Nat.mul_succ]

theorem length_regroup (hv : 0 < v) (digits : List ℕ) :
    (regroup w v digits).digits.length = w * digits.length / v := by
  induction digits using List.reverseRecOn with
  | nil => exact (Nat.zero_div v).symm
  | append_singleton digits _ ih =>
    rw [regroup_concat]
    show ((regroup w v digits).digits ++ taken v _ ((regroup w v digits).bits + w)).length = _
    rw [List.length_append, ih, length_taken hv, bits_regroup, List.length_append,
      List.length_singleton, Nat.mul_succ]
    have hdiv := Nat.div_add_mod (w * digits.length) v
    rw [← Nat.mul_add_div hv, ← Nat.add_assoc, hdiv]

theorem regroup_lt (digits : List ℕ) : ∀ d ∈ (regroup w v digits).digits, d < 2 ^ v := by
  induction digits using List.reverseRecOn with
  | nil => exact nofun
  | append_singleton _ _ ih =>
    intro d hd
    rw [regroup_concat] at hd
    rcases List.mem_append.mp hd with hbefore | htaken
    · exact ih d hbefore
    · exact taken_lt _ _ d htaken

/-- What was taken is what was read without the bits that are left. -/
theorem numberOf_regroup (hv : 0 < v) {digits : List ℕ} (hdigits : ∀ d ∈ digits, d < 2 ^ w) :
    numberOf v (regroup w v digits).digits =
      numberOf w digits / 2 ^ (w * digits.length % v) := by
  induction digits using List.reverseRecOn with
  | nil => exact (Nat.zero_div _).symm
  | append_singleton digits digit ih =>
    have hbefore := ih fun d hd ↦ hdigits d (List.mem_append_left _ hd)
    have hdigit : digit < 2 ^ w := hdigits digit (List.mem_append_right _ List.mem_cons_self)
    rw [regroup_concat]
    show numberOf v ((regroup w v digits).digits ++ taken v
      ((regroup w v digits).number * 2 ^ w + digit) ((regroup w v digits).bits + w)) = _
    rw [numberOf_append, hbefore, numberOf_taken hv, length_taken hv, bits_regroup,
      number_regroup, ← numberOf_concat]
    set left := w * digits.length % v with hleft
    set number := numberOf w (digits ++ [digit]) with hnumber
    have hleft' : (left + w) % v = w * (digits ++ [digit]).length % v := by
      rw [hleft, Nat.mod_add_mod, List.length_append, List.length_singleton, Nat.mul_succ]
    have hread : numberOf w digits / 2 ^ left = number / 2 ^ (left + w) := by
      rw [hnumber, numberOf_concat, Nat.add_comm left w, pow_add, ← Nat.div_div_eq_div_mul,
        Nat.mul_comm, Nat.mul_add_div (Nat.two_pow_pos w), Nat.div_eq_of_lt hdigit, Nat.add_zero]
    have hwidth : left + w = (left + w) % v + v * ((left + w) / v) :=
      (Nat.mod_add_div _ _).symm
    have hcut := div_two_pow number ((left + w) % v) (v * ((left + w) / v))
    rw [← hwidth] at hcut
    rw [hread, hcut, hleft']

/-! ### There and back -/

section Padded

variable {digits : List ℕ}

/-- How many zeros the digits are filled up with. -/
def padding (w v : ℕ) (digits : List ℕ) : ℕ :=
  if 0 < w * digits.length % v then v - w * digits.length % v else 0

theorem padding_lt (hv : 0 < v) : padding w v digits < v := by
  unfold padding
  split
  next h => exact Nat.sub_lt hv h
  next => exact hv

theorem padded_lt (digits : List ℕ) : ∀ d ∈ (regroup w v digits).padded v, d < 2 ^ v := by
  intro d hd
  unfold Register.padded at hd
  split at hd
  · rcases List.mem_append.mp hd with htaken | hlast
    · exact regroup_lt digits d htaken
    · rw [List.mem_singleton.mp hlast]
      exact Nat.mod_lt _ (Nat.two_pow_pos v)
  · exact regroup_lt digits d hd

/-- The digits hold the bits that were read and the zeros. -/
theorem width_padded (hv : 0 < v) (digits : List ℕ) :
    v * ((regroup w v digits).padded v).length = w * digits.length + padding w v digits := by
  have hdiv := Nat.div_add_mod (w * digits.length) v
  have hlt := Nat.mod_lt (w * digits.length) hv
  unfold Register.padded padding
  rw [bits_regroup]
  split
  next =>
    rw [List.length_append, length_regroup hv, List.length_singleton, Nat.mul_succ]
    omega
  next =>
    rw [length_regroup hv]
    omega

theorem numberOf_padded (hv : 0 < v) (hdigits : ∀ d ∈ digits, d < 2 ^ w) :
    numberOf v ((regroup w v digits).padded v) =
      numberOf w digits * 2 ^ padding w v digits := by
  have hregroup := numberOf_regroup hv hdigits
  unfold Register.padded padding
  rw [bits_regroup]
  split
  next h =>
    set left := w * digits.length % v with hleft
    have hlt : left < v := Nat.mod_lt _ hv
    have hpow : 2 ^ v = 2 ^ left * 2 ^ (v - left) := by
      rw [← pow_add, Nat.add_sub_cancel' hlt.le]
    -- The bits that are left, above the zeros.
    have hlast : numberOf w digits * 2 ^ (v - left) % 2 ^ v =
        numberOf w digits % 2 ^ left * 2 ^ (v - left) := by
      rw [hpow, Nat.mul_mod_mul_right]
    rw [numberOf_concat, hregroup, number_regroup, hlast, hpow, ← Nat.mul_assoc, ← Nat.add_mul,
      Nat.div_add_mod']
  next h =>
    have hleft : w * digits.length % v = 0 := Nat.eq_zero_of_not_pos h
    rw [hregroup, hleft, pow_zero, Nat.div_one, Nat.mul_one]

/-- The digits that were read are got back from those they were regrouped into. -/
theorem regroup_padded (hv : 0 < v) (hle : v ≤ w) (hdigits : ∀ d ∈ digits, d < 2 ^ w) :
    (regroup v w ((regroup w v digits).padded v)).digits = digits := by
  have hw : 0 < w := hv.trans_le hle
  have hpadding : padding w v digits < w := (padding_lt hv).trans_le hle
  have hwidth := width_padded (w := w) hv digits
  refine eq_of_numberOf_eq hw ?_ (regroup_lt _) hdigits ?_
  · rw [length_regroup hw, hwidth, Nat.mul_add_div hw, Nat.div_eq_of_lt hpadding, Nat.add_zero]
  · rw [numberOf_regroup hw (padded_lt digits), hwidth, Nat.mul_add_mod,
      Nat.mod_eq_of_lt hpadding, numberOf_padded hv hdigits,
      Nat.mul_div_cancel _ (Nat.two_pow_pos _)]

end Padded

end Odudu.Numbers
