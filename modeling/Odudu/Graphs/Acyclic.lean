import Mathlib.Logic.Relation
import Mathlib.Data.List.Nodup

/-!
# Topological lists

A topological list is built from its front: each element is new, and whatever it leads to
stands in the list already.  Nothing in one leads to itself (`Topological.not_transGen`).
-/

set_option autoImplicit false

namespace Odudu.Graphs

open Relation

variable {α : Type*} {r : α → α → Prop} {l : List α} {a b : α}

/-- Each element is there once, after whatever it leads to. -/
inductive Topological (r : α → α → Prop) : List α → Prop where
  | nil : Topological r []
  | concat {l : List α} {a : α} (hl : Topological r l) (hnew : a ∉ l) (ha : ∀ b, r a b → b ∈ l) :
      Topological r (l ++ [a])

namespace Topological

theorem nodup (h : Topological r l) : l.Nodup := by
  induction h with
  | nil => exact List.nodup_nil
  | concat _ hnew _ ih =>
    refine List.nodup_append.mpr ⟨ih, List.nodup_singleton _, fun x hx y hy ↦ ?_⟩
    rw [List.mem_singleton.mp hy]
    exact fun heq ↦ hnew (heq ▸ hx)

/-- What an element leads to stands before it, wherever the list is split. -/
theorem mem_before (h : Topological r l) :
    ∀ {before after : List α}, l = before ++ a :: after → r a b → b ∈ before := by
  induction h with
  | nil =>
    intro before after heq
    simp at heq
  | @concat l c _ _ hc ih =>
    intro before after heq hedge
    rcases List.eq_nil_or_concat after with rfl | ⟨front, last, rfl⟩
    · obtain ⟨rfl, hlast⟩ := List.append_inj' heq rfl
      rw [← (List.cons.inj hlast).1] at hedge
      exact hc b hedge
    · have hsplit : l ++ [c] = before ++ a :: front ++ [last] := by
        rw [heq, List.concat_eq_append, List.append_assoc, List.cons_append]
      exact ih (List.append_inj' hsplit rfl).1 hedge

theorem mem_of_transGen (h : Topological r l) (ha : a ∈ l) (hpath : TransGen r a b) : b ∈ l := by
  have hstep : ∀ {c d : α}, c ∈ l → r c d → d ∈ l := by
    intro c d hc hedge
    obtain ⟨before, after, rfl⟩ := List.append_of_mem hc
    exact List.mem_append_left _ (h.mem_before rfl hedge)
  induction hpath with
  | single hedge => exact hstep ha hedge
  | tail _ hedge ih => exact hstep ih hedge

theorem not_transGen (h : Topological r l) (ha : a ∈ l) : ¬TransGen r a a := by
  induction h with
  | nil => exact absurd ha List.not_mem_nil
  | @concat l c hl hnew hc ih =>
    rcases List.mem_append.mp ha with hold | hlast
    · exact ih hold
    · rw [List.mem_singleton.mp hlast]
      intro hcycle
      obtain ⟨b, hedge, hback⟩ := TransGen.head'_iff.mp hcycle
      rcases reflTransGen_iff_eq_or_transGen.mp hback with heq | hpath
      · exact hnew (heq ▸ hc b hedge)
      · exact hnew (hl.mem_of_transGen (hc b hedge) hpath)

end Topological

end Odudu.Graphs
