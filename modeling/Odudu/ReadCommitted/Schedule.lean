import Odudu.ReadCommitted.Interleaving

/-!
# Schedules

A run given by what happens in it, computed.  An `Oracle` answers the statements whose
answers it can compute, and knows which only read.  `perform` takes one event, and refuses
one it cannot take or the discipline does not let happen; of the requests under way it lets
one write at a time, so no statement waits for a lock.  `Schedule.reaches` says that a
schedule performed is a run.

Schedules are for runs on given inputs: a theorem about every run is not proved with them.
-/

set_option autoImplicit false

namespace Odudu.ReadCommitted

/-- Right answers to statements. -/
structure Oracle (db : Database) where
  answer : (op : db.Op) → Store db → Option (db.Answer op)
  /-- The statement only reads. -/
  reads : db.Op → Bool
  right : ∀ op s a, answer op s = some a → db.Answers op s a
  effect_of_reads : ∀ op s, reads op = true → db.effect op s = Writes.nothing

/-- A discipline whose conditions can be computed. -/
class Discipline.Checked {sys : System} (d : Discipline sys) where
  mayRun : ∀ call op s, Decidable (d.mayRun call op s)
  mayCommit : ∀ call outcome s w, Decidable (d.mayCommit call outcome s w)

instance {sys : System} : Discipline.Checked (.free : Discipline sys) where
  mayRun := fun _ _ _ ↦ instDecidableTrue
  mayCommit := fun _ _ _ _ ↦ instDecidableTrue

instance {sys : System} {d : Discipline sys} [h : d.Checked] (call : sys.Call) (op : sys.db.Op)
    (s : Store sys.db) : Decidable (d.mayRun call op s) :=
  h.mayRun call op s

instance {sys : System} {d : Discipline sys} [h : d.Checked] (call : sys.Call)
    (outcome : Option sys.Outcome) (s : Store sys.db) (w : Writes sys.db) :
    Decidable (d.mayCommit call outcome s w) :=
  h.mayCommit call outcome s w

/-- What may happen in a schedule. -/
inductive Event (sys : System) where
  /-- A call begins. -/
  | begin (call : sys.Call)
  /-- A request runs its next statement. -/
  | run (t : ℕ)
  /-- A request commits, on the way or with its answer, or answers with what it throws. -/
  | finish (t : ℕ)

namespace Schedule

variable {sys : System} (d : Discipline sys) [d.Checked]

/-- A moment of a schedule: which request has written and not committed. -/
structure Moment (sys : System) where
  config : Config sys
  writing : Option ℕ

/-- Before any event. -/
def start (rows : Store sys.db) : Moment sys := ⟨Config.start rows, none⟩

/-- One statement of one request. -/
def runStatement (O : Oracle sys.db) (m : Moment sys) (t : ℕ) : Option (Moment sys) :=
  match m.config.running t with
  | some ⟨call, .stmt op next, w⟩ =>
    match O.answer op (w.laidOver m.config.rows) with
    | none => none
    | some a =>
      if (O.reads op || m.writing == none || m.writing == some t) &&
          decide (d.mayRun call op (w.laidOver m.config.rows)) then
        some {
          config := { m.config with
            running := Function.update m.config.running t
              (some ⟨call, next a, w.andThen (sys.db.effect op (w.laidOver m.config.rows))⟩) }
          writing := if O.reads op then m.writing else some t }
      else none
  | _ => none

/-- Who is writing once a request no longer is. -/
def Moment.released (m : Moment sys) (t : ℕ) : Option ℕ :=
  if m.writing = some t then none else m.writing

/-- The end of one transaction. -/
def finishTransaction (m : Moment sys) (t : ℕ) : Option (Moment sys) :=
  match m.config.running t with
  | some ⟨call, .commit next, w⟩ =>
    if d.mayCommit call none m.config.rows w then
      some {
        config := { m.config with
          rows := w.laidOver m.config.rows
          running := Function.update m.config.running t (some ⟨call, next, Writes.nothing⟩) }
        writing := m.released t }
    else none
  | some ⟨call, .done outcome, w⟩ =>
    if d.mayCommit call (some outcome) m.config.rows w then
      some {
        config := { m.config with
          rows := w.laidOver m.config.rows
          running := Function.update m.config.running t none
          history := ⟨t, call, .ok outcome⟩ :: m.config.history }
        writing := m.released t }
    else none
  | some ⟨call, .throw failure, _⟩ => some {
      config := { m.config with
        running := Function.update m.config.running t none
        history := ⟨t, call, .error failure⟩ :: m.config.history }
      writing := m.released t }
  | _ => none

/-- One event. -/
def perform (O : Oracle sys.db) (m : Moment sys) : Event sys → Option (Moment sys)
  | .begin call => some {
      config := { m.config with
        running := Function.update m.config.running m.config.begun
          (some ⟨call, sys.body call, Writes.nothing⟩)
        begun := m.config.begun + 1 }
      writing := m.writing }
  | .run t => runStatement d O m t
  | .finish t => finishTransaction d m t

/-- Events one after another. -/
def performAll (O : Oracle sys.db) (m : Moment sys) : List (Event sys) → Option (Moment sys)
  | [] => some m
  | event :: events =>
    match perform d O m event with
    | none => none
    | some m' => performAll O m' events

/-- A request and the number of its next statements. -/
def runs (sys : System) (t n : ℕ) : List (Event sys) := List.replicate n (.run t)

/-- Only the request that is writing has written. -/
def Sole (m : Moment sys) : Prop :=
  ∀ t r, m.config.running t = some r → m.writing ≠ some t → r.pending = Writes.nothing

variable {d} {O : Oracle sys.db} {m m' : Moment sys} {t : ℕ}

private theorem Sole.update (h : Sole m) {next : Option (Running sys)}
    {config : Config sys} {writing : Option ℕ}
    (hrunning : config.running = Function.update m.config.running t next)
    (hothers : ∀ t', t' ≠ t → writing ≠ some t' → m.writing ≠ some t')
    (hnext : ∀ r, next = some r → writing ≠ some t → r.pending = Writes.nothing) :
    Sole ⟨config, writing⟩ := by
  intro t' r hr hwriting
  rw [hrunning] at hr
  by_cases ht : t' = t
  · subst ht
    exact hnext r (by simpa using hr) hwriting
  · exact h t' r (by simpa [ht] using hr) (hothers t' ht hwriting)

/-- What is computed of a statement is a step. -/
private theorem step_of_runStatement (h : Sole m) (hrun : runStatement d O m t = some m') :
    Step d m.config m'.config ∧ Sole m' := by
  unfold runStatement at hrun
  split at hrun
  case h_2 => simp at hrun
  case h_1 call op next w hrunning =>
    split at hrun
    case h_1 => simp at hrun
    case h_2 a ha =>
      split at hrun
      case isFalse => simp at hrun
      case isTrue hmay =>
        obtain rfl := Option.some.inj hrun
        obtain ⟨hlocks, hallowed⟩ := Bool.and_eq_true_iff.mp hmay
        have hallowed := of_decide_eq_true hallowed
        have hanswer := O.right op _ a ha
        by_cases hreads : O.reads op = true
        · have heffect := O.effect_of_reads op (w.laidOver m.config.rows) hreads
          refine ⟨.run hrunning (fun t' r' _ _ ↦ heffect ▸ Writes.nothing_apart _) hallowed hanswer,
            h.update rfl (fun _ _ hne ↦ by simpa [hreads] using hne) ?_⟩
          rintro r ⟨rfl⟩ hne
          have hnothing : w = Writes.nothing := h t _ hrunning (by simpa [hreads] using hne)
          change w.andThen (sys.db.effect op (w.laidOver m.config.rows)) = _
          rw [heffect, Writes.andThen_nothing, hnothing]
        · have hwriting : m.writing = none ∨ m.writing = some t := by
            simpa [hreads] using hlocks
          refine ⟨.run hrunning (fun t' r' hne hrunning' ↦ ?_) hallowed hanswer,
            h.update rfl (fun t' hne _ hholds ↦ ?_) fun r _ hne ↦ by simp [hreads] at hne⟩
          · have hnothing : r'.pending = Writes.nothing := by
              refine h t' r' hrunning' fun hholds ↦ ?_
              rcases hwriting with hnone | hsome
              · simp [hnone] at hholds
              · exact hne (Option.some.inj (hholds.symm.trans hsome))
            rw [hnothing]
            exact Writes.apart_nothing _
          · rcases hwriting with hnone | hsome
            · simp [hnone] at hholds
            · exact hne (Option.some.inj (hholds.symm.trans hsome))

private theorem step_of_finishTransaction (h : Sole m)
    (hfinish : finishTransaction d m t = some m') :
    Step d m.config m'.config ∧ Sole m' := by
  have hothers : ∀ t', t' ≠ t → m.released t ≠ some t' → m.writing ≠ some t' := by
    intro t' hne hwriting hholds
    by_cases ht : m.writing = some t
    · exact hne (Option.some.inj (hholds.symm.trans ht))
    · rw [Moment.released, if_neg ht] at hwriting
      exact hwriting hholds
  unfold finishTransaction at hfinish
  split at hfinish
  case h_1 call next w hrunning =>
    split at hfinish
    case isFalse => simp at hfinish
    case isTrue hmay =>
      obtain rfl := Option.some.inj hfinish
      exact ⟨.part hrunning hmay, h.update rfl hothers (by rintro r ⟨rfl⟩ _; rfl)⟩
  case h_2 call outcome w hrunning =>
    split at hfinish
    case isFalse => simp at hfinish
    case isTrue hmay =>
      obtain rfl := Option.some.inj hfinish
      exact ⟨.commit hrunning hmay, h.update rfl hothers (by simp)⟩
  case h_3 call failure w hrunning =>
    obtain rfl := Option.some.inj hfinish
    exact ⟨.refuse hrunning, h.update rfl hothers (by simp)⟩
  case h_4 => simp at hfinish

/-- An event performed is a step. -/
theorem step_of_perform (h : Sole m) {event : Event sys}
    (hperform : perform d O m event = some m') : Step d m.config m'.config ∧ Sole m' := by
  cases event with
  | begin call =>
    obtain rfl := Option.some.inj hperform
    exact ⟨.begin call, h.update rfl (fun _ _ hne ↦ hne) (by rintro r ⟨rfl⟩ _; rfl)⟩
  | run => exact step_of_runStatement h hperform
  | finish => exact step_of_finishTransaction h hperform

variable {events : List (Event sys)}

private theorem reaches_of_performAll (h : Sole m)
    (hall : performAll d O m events = some m') : Reaches d m.config m'.config ∧ Sole m' := by
  induction events generalizing m with
  | nil =>
    obtain rfl := Option.some.inj hall
    exact ⟨.refl, h⟩
  | cons _ _ ih =>
    simp only [performAll] at hall
    split at hall
    case h_1 => simp at hall
    case h_2 m₁ hperform =>
      obtain ⟨hstep, hsole⟩ := step_of_perform h hperform
      obtain ⟨hreaches, hsole'⟩ := ih hsole hall
      exact ⟨.head hstep hreaches, hsole'⟩

private theorem sole_start (rows : Store sys.db) : Sole (start rows : Moment sys) :=
  fun t r hr ↦ by simp [start, Config.start] at hr

variable {rows : Store sys.db}

theorem reaches
    (hall : performAll d O (start rows) events = some m') :
    Reaches d (Config.start rows) m'.config :=
  (reaches_of_performAll (sole_start rows) hall).1

/-- A schedule performed after one is a run from where that ended. -/
theorem reaches_later {events later : List (Event sys)}
    (hall : performAll d O (start rows) events = some m)
    (hlater : performAll d O m later = some m') : Reaches d m.config m'.config :=
  (reaches_of_performAll (reaches_of_performAll (sole_start rows) hall).2 hlater).1

end Schedule

end Odudu.ReadCommitted
