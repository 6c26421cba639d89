import Mathlib.Data.List.Dedup
import Mathlib.Data.List.Perm.Subperm

/-!
# Recursive queries

`WITH RECURSIVE ... UNION`: the rows of the first term are the first working table, and each
round replaces it by the rows its own rows lead to that no round has found before, until it is
empty.  Where the rows that may be found are finitely many the rounds come to an end
(`RecursiveQuery.Within.atFixpoint`), cycles or not, and what was found is what the first rows reach
(`RecursiveQuery.Within.mem_result_iff`), each row once.
-/

set_option autoImplicit false

namespace Odudu.Graphs

open Relation

variable {α : Type*} [DecidableEq α]

/-- A recursive query: its first rows, where a row leads in the recursive term, and the rows
that may be found. -/
structure RecursiveQuery (α : Type*) where
  rows : List α
  seed : List α
  step : α → List α

/-- The rows found so far, and the working table: those that the last round found. -/
structure Rounds (α : Type*) where
  found : List α
  working : List α

/-- One round of the recursive term. -/
def Rounds.next (step : α → List α) (rounds : Rounds α) : Rounds α :=
  let new := ((rounds.working.flatMap step).filter fun row ↦ decide (row ∉ rounds.found)).dedup
  { found := rounds.found ++ new, working := new }

namespace RecursiveQuery

/-- The rows after so many rounds. -/
def after (q : RecursiveQuery α) : ℕ → Rounds α
  | 0 => { found := q.seed.dedup, working := q.seed.dedup }
  | n + 1 => (q.after n).next q.step

/-- What a query gives: one round for each row that may be found. -/
def result (q : RecursiveQuery α) : List α := (q.after q.rows.length).found

/-- The rounds come to their end: the working table is empty, and nothing more is found. -/
def AtFixpoint (q : RecursiveQuery α) : Prop :=
  ∀ n, q.rows.length ≤ n → (q.after n).working = [] ∧ (q.after n).found = q.result

/-- Where a row leads. -/
def Leads (q : RecursiveQuery α) (a b : α) : Prop := b ∈ q.step a

/-- The query comes to its end, with the rows that its first rows reach. -/
structure Settles (q : RecursiveQuery α) : Prop where
  atFixpoint : q.AtFixpoint
  holds : ∀ b, b ∈ q.result ↔ ∃ a ∈ q.seed, ReflTransGen q.Leads a b

/-- The query stays within the rows that may be found. -/
structure Within (q : RecursiveQuery α) : Prop where
  seed : ∀ a ∈ q.seed, a ∈ q.rows
  step : ∀ a ∈ q.rows, ∀ b ∈ q.step a, b ∈ q.rows

end RecursiveQuery

variable {q : RecursiveQuery α} {step : α → List α} {n : ℕ} {a b : α} {rounds : Rounds α}

theorem mem_next_working :
    b ∈ (rounds.next step).working ↔ (∃ a ∈ rounds.working, b ∈ step a) ∧ b ∉ rounds.found := by
  simp [Rounds.next]

theorem mem_next_found :
    b ∈ (rounds.next step).found ↔ b ∈ rounds.found ∨ b ∈ (rounds.next step).working :=
  List.mem_append

theorem next_of_working_nil (h : rounds.working = []) :
    rounds.next step = rounds := by
  cases rounds with
  | mk _ working =>
    obtain rfl : working = [] := h
    simp [Rounds.next]

namespace RecursiveQuery

theorem after_of_working_nil (h : (q.after n).working = []) (m : ℕ) :
    q.after (n + m) = q.after n := by
  induction m with
  | zero => rfl
  | succ m ih =>
    rw [← Nat.add_assoc, RecursiveQuery.after, ih]
    exact next_of_working_nil h

theorem nodup_found (n : ℕ) : (q.after n).found.Nodup := by
  induction n with
  | zero => exact List.nodup_dedup q.seed
  | succ n ih =>
    refine List.nodup_append.mpr ⟨ih, List.nodup_dedup _, ?_⟩
    intro a ha b hb hab
    have hnew : b ∈ ((q.after n).next q.step).working := hb
    exact (mem_next_working.mp hnew).2 (hab ▸ ha)

/-- The working table was found, and every row out of it leads to rows that were found. -/
theorem closed_of_found (n : ℕ) :
    (∀ a ∈ (q.after n).working, a ∈ (q.after n).found) ∧
      ∀ a ∈ (q.after n).found, a ∉ (q.after n).working →
        ∀ b ∈ q.step a, b ∈ (q.after n).found := by
  induction n with
  | zero => exact ⟨fun _ ha ↦ ha, fun a ha hout ↦ absurd ha hout⟩
  | succ n ih =>
    refine ⟨fun a ha ↦ mem_next_found.mpr (Or.inr ha), fun a ha hout b hb ↦ ?_⟩
    have hold := (mem_next_found.mp ha).resolve_right hout
    by_cases hworking : a ∈ (q.after n).working
    · by_cases hfound : b ∈ (q.after n).found
      · exact mem_next_found.mpr (Or.inl hfound)
      · exact mem_next_found.mpr (Or.inr (mem_next_working.mpr ⟨⟨a, hworking, hb⟩, hfound⟩))
    · exact mem_next_found.mpr (Or.inl (ih.2 a hold hworking b hb))

theorem reached_of_found (n : ℕ) :
    ∀ b ∈ (q.after n).found, ∃ a ∈ q.seed, ReflTransGen q.Leads a b := by
  induction n with
  | zero => exact fun b hb ↦ ⟨b, List.mem_dedup.mp hb, .refl⟩
  | succ n ih =>
    intro b hb
    rcases mem_next_found.mp hb with hold | hnew
    · exact ih b hold
    · obtain ⟨⟨c, hc, hstep⟩, -⟩ := mem_next_working.mp hnew
      obtain ⟨a, ha, hpath⟩ := ih c ((closed_of_found n).1 c hc)
      exact ⟨a, ha, hpath.tail hstep⟩

theorem seed_subset_found (n : ℕ) : ∀ a ∈ q.seed, a ∈ (q.after n).found := by
  induction n with
  | zero => exact fun a ha ↦ List.mem_dedup.mpr ha
  | succ n ih => exact fun a ha ↦ mem_next_found.mpr (Or.inl (ih a ha))

/-- While rounds find something, more rows are found than there were rounds. -/
theorem lt_length_found (n : ℕ) (hworking : (q.after n).working ≠ []) :
    n < (q.after n).found.length := by
  induction n with
  | zero => exact List.length_pos_of_ne_nil hworking
  | succ n ih =>
    have hbefore : (q.after n).working ≠ [] := fun hnil ↦ by
      rw [RecursiveQuery.after, next_of_working_nil hnil] at hworking
      exact hworking hnil
    have hnew := List.length_pos_of_ne_nil hworking
    have hsplit : (q.after (n + 1)).found.length =
        (q.after n).found.length + (q.after (n + 1)).working.length :=
      List.length_append
    have hold := ih hbefore
    omega

section Within

variable (h : q.Within)

include h

theorem Within.found_subset (n : ℕ) : (q.after n).found ⊆ q.rows := by
  induction n with
  | zero => exact fun a ha ↦ h.seed a (List.mem_dedup.mp ha)
  | succ n ih =>
    intro b hb
    rcases mem_next_found.mp hb with hold | hnew
    · exact ih hold
    · obtain ⟨⟨a, ha, hstep⟩, -⟩ := mem_next_working.mp hnew
      exact h.step a (ih ((closed_of_found n).1 a ha)) b hstep

theorem Within.working_eq_nil : (q.after q.rows.length).working = [] := by
  by_contra hworking
  have hlt := lt_length_found q.rows.length hworking
  have hle := (List.subperm_of_subset (nodup_found q.rows.length)
    (h.found_subset q.rows.length)).length_le
  omega

theorem Within.atFixpoint : q.AtFixpoint := by
  intro n hle
  obtain ⟨m, rfl⟩ := Nat.exists_eq_add_of_le hle
  rw [after_of_working_nil h.working_eq_nil]
  exact ⟨h.working_eq_nil, rfl⟩

/-- A recursive query gives the rows that its first rows reach. -/
theorem Within.mem_result_iff :
    b ∈ q.result ↔ ∃ a ∈ q.seed, ReflTransGen q.Leads a b := by
  constructor
  · exact reached_of_found q.rows.length b
  · intro hreached
    obtain ⟨a, ha, hpath⟩ := hreached
    induction hpath with
    | refl => exact seed_subset_found q.rows.length a ha
    | tail _ hlast ih =>
      refine (closed_of_found q.rows.length).2 _ ih ?_ _ hlast
      rw [h.working_eq_nil]
      exact List.not_mem_nil

theorem Within.settles : q.Settles := ⟨h.atFixpoint, fun _ ↦ h.mem_result_iff⟩

end Within

theorem nodup_result : q.result.Nodup := nodup_found q.rows.length

end RecursiveQuery

end Odudu.Graphs
