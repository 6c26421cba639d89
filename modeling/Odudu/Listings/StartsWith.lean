import Mathlib.Data.List.DropRight
import Mathlib.Data.List.Lex
import Mathlib.Order.Cover

/-!
# The lists that start with a list

In lexicographic order the lists that start with a given one are a range.  It begins at that
list, and ends before the list whose last letter that has a next one is moved on to it, the
letters after that left out (`upperBound`); where no letter has a next one it has no end.
-/

set_option autoImplicit false

namespace Odudu.Listings

variable {α : Type*} [LinearOrder α]

/-- The next letter, where there is one: no letter lies between, and a letter without a next one
is above all others. -/
structure Successor (next : α → Option α) : Prop where
  covers : ∀ {a b : α}, next a = some b → a ⋖ b
  last : ∀ {a : α}, next a = none → ∀ b, b ≤ a

/-- The end of the range of the lists that start with one. -/
def upperBound (next : α → Option α) : List α → Option (List α)
  | [] => none
  | a :: rest =>
    match upperBound next rest with
    | some bound => some (a :: bound)
    | none => (next a).map fun b ↦ [b]

variable {next : α → Option α} {p x : List α} {a b : α}

theorem cons_le_cons_iff' : a :: p ≤ b :: x ↔ a < b ∨ a = b ∧ p ≤ x := by
  rw [← not_lt, List.cons_lt_cons_iff, ← not_lt]
  rcases lt_trichotomy a b with hlt | rfl | hgt
  · simp [hlt, hlt.not_gt, hlt.ne']
  · simp
  · simp [hgt, hgt.not_gt, hgt.ne']

/-- A list starts with another just when it is in the range of that one. -/
theorem startsWith_iff (h : Successor next) (p x : List α) :
    p <+: x ↔ p ≤ x ∧ ∀ bound ∈ upperBound next p, x < bound := by
  induction p generalizing x with
  | nil => exact iff_of_true List.nil_prefix ⟨not_lt.mp (List.not_lt_nil x), nofun⟩
  | cons a p ih =>
    cases x with
    | nil =>
      refine iff_of_false (fun hstarts ↦ ?_) fun hrange ↦ ?_
      · exact absurd (List.prefix_nil.mp hstarts) (List.cons_ne_nil _ _)
      · exact absurd hrange.1 (not_le.mpr (List.nil_lt_cons a p))
    | cons c x =>
      rw [List.cons_prefix_cons, cons_le_cons_iff', upperBound]
      rcases lt_trichotomy c a with hlt | rfl | hgt
      · refine iff_of_false (fun hstarts ↦ hlt.ne hstarts.1.symm) fun hrange ↦ ?_
        rcases hrange.1 with hle | ⟨heq, -⟩
        · exact hle.asymm hlt
        · exact hlt.ne heq.symm
      · rw [eq_self_iff_true, true_and, ih]
        cases hbound : upperBound next p with
        | some => simp
        | none =>
          have hend : ∀ bound ∈ (next c).map fun b ↦ [b], c :: x < bound := by
            intro bound hmem
            obtain ⟨b, hb, rfl⟩ := Option.mem_map.mp hmem
            exact List.cons_lt_cons_iff.mpr (Or.inl (h.covers hb).lt)
          exact and_congr (by simp) (iff_of_true nofun hend)
      · refine iff_of_false (fun hstarts ↦ hgt.ne hstarts.1) fun hrange ↦ ?_
        cases hbound : upperBound next p with
        | some =>
          rw [hbound] at hrange
          rcases List.cons_lt_cons_iff.mp (hrange.2 _ rfl) with hlt | ⟨heq, -⟩
          · exact hlt.asymm hgt
          · exact hgt.ne heq.symm
        | none =>
          rw [hbound] at hrange
          cases hnext : next a with
          | none => exact absurd hgt (not_lt.mpr (h.last hnext c))
          | some b =>
            rw [hnext] at hrange
            rcases List.cons_lt_cons_iff.mp (hrange.2 [b] rfl) with hlt | ⟨-, hnil⟩
            · exact (h.covers hnext).2 hgt hlt
            · exact List.not_lt_nil _ hnil

omit [LinearOrder α] in
/-- The end of the range, by what the last letter is. -/
theorem upperBound_concat (p : List α) (a : α) :
    upperBound next (p ++ [a]) =
      match next a with
      | some b => some (p ++ [b])
      | none => upperBound next p := by
  induction p with
  | nil => cases hnext : next a <;> simp [upperBound, hnext]
  | cons c p ih =>
    rw [List.cons_append, upperBound, ih]
    cases next a <;> rfl

end Odudu.Listings
