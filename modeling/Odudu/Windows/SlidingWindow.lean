import Mathlib.Algebra.Order.Group.Defs
import Mathlib.Algebra.Order.Sub.Basic
import Mathlib.Data.List.Sort
import Mathlib.Tactic.Abel

/-!
# Sliding windows

A log of instants that each had room when it was added: fewer than `limit` of those before it
lay in the window that ends at it (`Admitted`).  No set of instants less than a window apart
holds more than `limit` of them (`Admitted.length_filter_le`), and what has room is decided by
the instants in the window alone.
-/

set_option autoImplicit false

namespace Odudu.Windows

variable {T : Type*} [AddCommGroup T] [LinearOrder T]

/-- The instants of a log that lie in the window that ends now. -/
def within (window now : T) (log : List T) : List T := log.filter fun t ↦ now - window < t

/-- Each instant is no earlier than those before it, and fewer than `limit` of these lie in the
window that ends at it. -/
inductive Admitted (limit : ℕ) (window : T) : List T → Prop where
  | nil : Admitted limit window []
  | concat {log : List T} {now : T} (h : Admitted limit window log) (hlate : ∀ t ∈ log, t ≤ now)
      (hroom : (within window now log).length < limit) : Admitted limit window (log ++ [now])

variable {limit : ℕ} {window now later t : T} {log log' : List T}

theorem mem_within : t ∈ within window now log ↔ t ∈ log ∧ now - window < t := by
  simp [within]

theorem within_sublist : (within window now log).Sublist log := List.filter_sublist

theorem within_append (log log' : List T) :
    within window now (log ++ log') = within window now log ++ within window now log' :=
  List.filter_append _ _

theorem within_eq_nil (h : ∀ t ∈ log, t ≤ now - window) : within window now log = [] := by
  refine List.filter_eq_nil_iff.mpr fun t ht ↦ ?_
  simpa using h t ht

/-- The instants of a log do not go back. -/
theorem Admitted.sorted (h : Admitted limit window log) : log.Pairwise (· ≤ ·) := by
  induction h with
  | nil => exact List.Pairwise.nil
  | concat _ hlate _ ih =>
    refine List.pairwise_append.mpr ⟨ih, List.pairwise_singleton _ _, fun t ht u hu ↦ ?_⟩
    rw [List.mem_singleton.mp hu]
    exact hlate t ht

/-- An instant taken out of a log makes room for the others. -/
theorem Admitted.sublist (h : Admitted limit window log) (hsub : log'.Sublist log) :
    Admitted limit window log' := by
  induction h generalizing log' with
  | nil =>
    rw [List.sublist_nil.mp hsub]
    exact .nil
  | @concat log now _ hlate hroom ih =>
    obtain ⟨front, last, rfl, hfront, hlast⟩ := List.sublist_append_iff.mp hsub
    rcases List.sublist_singleton.mp hlast with rfl | rfl
    · rw [List.append_nil]
      exact ih hfront
    · refine (ih hfront).concat (fun t ht ↦ hlate t (hfront.subset ht)) ?_
      exact ((hfront.filter _).length_le).trans_lt hroom

variable [IsOrderedAddMonoid T]

/-- What lies in a later window lies in the earlier one too. -/
theorem within_within (h : now ≤ later) :
    within window later (within window now log) = within window later log := by
  unfold within
  rw [List.filter_filter]
  refine List.filter_congr fun t _ ↦ ?_
  rw [← Bool.decide_and, decide_eq_decide]
  exact and_iff_left_of_imp fun hlater ↦ (sub_le_sub_right h window).trans_lt hlater

namespace Admitted

/-- Instants less than a window apart are no more than the limit. -/
theorem length_filter_le (h : Admitted limit window log) (p : T → Bool)
    (hp : ∀ s t, p s = true → p t = true → t < s + window) :
    (log.filter p).length ≤ limit := by
  induction h with
  | nil => exact Nat.zero_le _
  | @concat log now _ hlate hroom ih =>
    rw [List.filter_append, List.length_append]
    by_cases hnow : p now = true
    · have hsub : (log.filter p).length ≤ (within window now log).length := by
        refine (List.monotone_filter_right log fun t ht ↦ ?_).length_le
        exact decide_eq_true (sub_lt_iff_lt_add.mpr (hp t now ht hnow))
      rw [List.filter_cons_of_pos hnow, List.filter_nil, List.length_singleton]
      omega
    · rw [List.filter_cons_of_neg hnow, List.filter_nil, List.length_nil]
      exact ih

/-- The window that ends now holds no more than the limit. -/
theorem length_within_le (h : Admitted limit window log) (hlate : ∀ t ∈ log, t ≤ now) :
    (within window now log).length ≤ limit := by
  have hsub : (within window now log).Sublist log := within_sublist
  have hall : ((within window now log).filter fun t ↦ decide (now - window < t ∧ t ≤ now)).length ≤
      limit := by
    refine (h.sublist hsub).length_filter_le _ fun s t hs ht ↦ ?_
    simp only [decide_eq_true_eq] at hs ht
    exact ht.2.trans_lt (sub_lt_iff_lt_add.mp hs.1)
  rwa [List.filter_eq_self.mpr] at hall
  intro t ht
  obtain ⟨hmem, hlt⟩ := mem_within.mp ht
  exact decide_eq_true ⟨hlt, hlate t hmem⟩

/-- Once the oldest instant in the window has left it there is room. -/
theorem room_of_oldest (h : Admitted limit window log) (hlate : ∀ t ∈ log, t ≤ now)
    (hlimit : 0 < limit) (hlater : now ≤ later)
    (holdest : ∀ t, (within window now log).head? = some t → t ≤ later - window) :
    (within window later log).length < limit := by
  have hle := h.length_within_le hlate
  rw [← within_within hlater]
  cases hhits : within window now log with
  | nil => simpa [within] using hlimit
  | cons oldest rest =>
    rw [hhits] at hle holdest
    have hout : ¬ (later - window < oldest) := not_lt.mpr (holdest oldest rfl)
    have hdrop : within window later (oldest :: rest) = within window later rest := by
      unfold within
      rw [List.filter_cons_of_neg (by simpa using hout)]
    rw [hdrop]
    have hrest : (within window later rest).length ≤ rest.length := within_sublist.length_le
    rw [List.length_cons] at hle
    omega

end Admitted

end Odudu.Windows
