import Mathlib.Data.List.Basic

/-!
# Runs of allowed steps

The states that a system reaches by steps that are allowed, each of which may depend on the
state before it and the one after.  What one such step keeps is kept by all of them
(`Reached.invariant`), and a list of events that are followed one by one is a run
(`reached_foldl`).

A deterministic system takes calls and answers each.  Two states that a relation joins are
told apart by no sequence of calls when the relation unwinds: joined states give a call the
same answer and go to joined states (`Unwinds.answers_eq`).
-/

set_option autoImplicit false

namespace Odudu.Runs

variable {State Event : Type*} (step : State → Event → State)
  (allowed : State → Event → State → Prop)

/-- A state that allowed steps lead to. -/
inductive Reached (start : State) : State → Prop where
  | start : Reached start start
  | step {s : State} (hs : Reached start s) (e : Event) (he : allowed s e (step s e)) :
      Reached start (step s e)

/-- Each of the events is allowed in its turn. -/
def Follows : State → List Event → Prop
  | _, [] => True
  | s, e :: rest => allowed s e (step s e) ∧ Follows (step s e) rest

instance Follows.decidable [∀ s e t, Decidable (allowed s e t)] :
    ∀ (s : State) (events : List Event), Decidable (Follows step allowed s events)
  | _, [] => inferInstanceAs (Decidable True)
  | s, e :: rest =>
    haveI := Follows.decidable (step s e) rest
    inferInstanceAs (Decidable (_ ∧ _))

variable {step allowed} {start s : State}

/-- What holds at the start and is kept by an allowed step holds of what is reached. -/
theorem Reached.invariant {I : State → Prop} (h : Reached step allowed start s) (hstart : I start)
    (hstep : ∀ s e, I s → allowed s e (step s e) → I (step s e)) : I s := by
  induction h with
  | start => exact hstart
  | step _ e he ih => exact hstep _ e ih he

theorem Reached.foldl (h : Reached step allowed start s) (events : List Event)
    (hevents : Follows step allowed s events) :
    Reached step allowed start (events.foldl step s) := by
  induction events generalizing s with
  | nil => exact h
  | cons e _ ih => exact ih (.step h e hevents.1) hevents.2

/-- Events that are followed from the start are a run. -/
theorem reached_foldl (events : List Event) (hevents : Follows step allowed start events) :
    Reached step allowed start (events.foldl step start) :=
  Reached.foldl .start events hevents

/-! ### Unwinding -/

section Unwinding

variable {State Call Answer : Type*}

/-- The answers of a sequence of calls, in their order. -/
def answers (step : Call → State → Answer × State) : List Call → State → List Answer
  | [], _ => []
  | call :: rest, s => (step call s).1 :: answers step rest (step call s).2

/-- The state a sequence of calls leaves. -/
def after (step : Call → State → Answer × State) : List Call → State → State
  | [], s => s
  | call :: rest, s => after step rest (step call s).2

/-- The allowed calls answer joined states alike, and leave them joined. -/
structure Unwinds (step : Call → State → Answer × State) (allowed : Call → Prop)
    (joined : State → State → Prop) : Prop where
  answer : ∀ {call s t}, allowed call → joined s t → (step call s).1 = (step call t).1
  keeps : ∀ {call s t}, allowed call → joined s t → joined (step call s).2 (step call t).2

namespace Unwinds

variable {step : Call → State → Answer × State} {allowed : Call → Prop}
  {joined : State → State → Prop}

theorem answers_eq (h : Unwinds step allowed joined) {calls : List Call}
    (hallowed : ∀ call ∈ calls, allowed call) {s t : State} (hst : joined s t) :
    answers step calls s = answers step calls t := by
  induction calls generalizing s t with
  | nil => rfl
  | cons call rest ih =>
    have hcall : allowed call := hallowed call List.mem_cons_self
    have hrest : ∀ call ∈ rest, allowed call := fun other hother ↦
      hallowed other (List.mem_cons_of_mem call hother)
    simp only [answers]
    rw [h.answer hcall hst, ih hrest (h.keeps hcall hst)]

end Unwinds

end Unwinding

end Odudu.Runs
