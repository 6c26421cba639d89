import Odudu.ReadCommitted.Schedule

/-!
# Scenes

A run of requests that act one at a time, computed.  A request may be left where it has only
read, and go on later, over the rows that others have left; when it goes on to its end it
takes and uses its savepoints.  `Scene.reaches_of_playAll` says that a scene played is a run.

Scenes, like schedules, are for runs on given inputs.
-/

set_option autoImplicit false

namespace Odudu.ReadCommitted

/-- A moment at which every request under way has only read. -/
structure Scene (sys : System) where
  rows : Store sys.db
  waiting : ℕ → Option (sys.Call × Program sys.db sys.Failure sys.Outcome)
  begun : ℕ
  history : List (Answered sys)

/-- What happens next. -/
inductive Cue (sys : System) where
  /-- A call begins. -/
  | begins (call : sys.Call)
  /-- A request runs so many statements, which read. -/
  | reads (t n : ℕ)
  /-- A request goes on to its end. -/
  | ends (t : ℕ)

namespace Scene

variable {sys : System}

/-- Before any call. -/
def start (rows : Store sys.db) : Scene sys := ⟨rows, fun _ ↦ none, 0, []⟩

/-- The moment of a run. -/
def config (m : Scene sys) : Config sys where
  rows := m.rows
  running := fun t ↦ (m.waiting t).map fun r ↦ ⟨r.1, r.2, Writes.nothing⟩
  begun := m.begun
  history := m.history

variable (d : Discipline sys) [d.Checked] (O : Oracle sys.db)

/-- What is left of a program after so many statements that read. -/
def readOn (call : sys.Call) (s : Store sys.db) :
    ℕ → Program sys.db sys.Failure sys.Outcome → Option (Program sys.db sys.Failure sys.Outcome)
  | 0, p => some p
  | n + 1, .stmt op next =>
    if O.reads op && decide (d.mayRun call op s) then
      match O.answer op s with
      | none => none
      | some a => readOn call s n (next a)
    else none
  | _ + 1, _ => none

/-- A program run to its end. -/
def endOf (call : sys.Call) : Program sys.db sys.Failure sys.Outcome → Writes sys.db →
    Store sys.db → Option (Except sys.Failure sys.Outcome × Store sys.db)
  | .done outcome, w, s =>
    if d.mayCommit call (some outcome) s w then some (.ok outcome, w.laidOver s) else none
  | .throw failure, _, s => some (.error failure, s)
  | .stmt op next, w, s =>
    if d.mayRun call op (w.laidOver s) then
      match O.answer op (w.laidOver s) with
      | none => none
      | some a => endOf call (next a) (w.andThen (sys.db.effect op (w.laidOver s))) s
    else none
  | .commit next, w, s =>
    if d.mayCommit call none s w then endOf call next Writes.nothing (w.laidOver s) else none
  | .savepoint next, w, s => endOf call (next w) w s
  | .rollbackTo saved next, w, s => endOf call next (Writes.restore saved w) s

/-- One cue. -/
def play (m : Scene sys) : Cue sys → Option (Scene sys)
  | .begins call => some { m with
      waiting := Function.update m.waiting m.begun (some (call, sys.body call))
      begun := m.begun + 1 }
  | .reads t n =>
    match m.waiting t with
    | none => none
    | some (call, p) => (readOn d O call m.rows n p).map fun p' ↦
        { m with waiting := Function.update m.waiting t (some (call, p')) }
  | .ends t =>
    match m.waiting t with
    | none => none
    | some (call, p) => (endOf d O call p Writes.nothing m.rows).map fun ended ↦
        { m with
          rows := ended.2
          waiting := Function.update m.waiting t none
          history := ⟨t, call, ended.1⟩ :: m.history }

/-- Cues one after another. -/
def playAll (m : Scene sys) : List (Cue sys) → Option (Scene sys)
  | [] => some m
  | cue :: cues =>
    match play d O m cue with
    | none => none
    | some m' => playAll m' cues

variable {d O} {m m' : Scene sys}

/-- One request in the middle of its transaction, while the others have only read. -/
private def acting (m : Scene sys) (t : ℕ) (call : sys.Call)
    (p : Program sys.db sys.Failure sys.Outcome) (w : Writes sys.db) (s : Store sys.db) :
    Config sys where
  rows := s
  running := Function.update m.config.running t (some ⟨call, p, w⟩)
  begun := m.begun
  history := m.history

private theorem acting_running (t : ℕ) (call : sys.Call)
    (p : Program sys.db sys.Failure sys.Outcome) (w : Writes sys.db) (s : Store sys.db) :
    (m.acting t call p w s).running t = some ⟨call, p, w⟩ := by
  simp [acting]

variable {p : Program sys.db sys.Failure sys.Outcome} {call : sys.Call}

private theorem apart_of_acting {t t' : ℕ}
    {w later : Writes sys.db} {s : Store sys.db}
    {r : Running sys} (hne : t' ≠ t) (hr : (m.acting t call p w s).running t' = some r) :
    later.Apart r.pending := by
  change Function.update m.config.running t _ t' = some r at hr
  rw [Function.update_of_ne hne] at hr
  obtain ⟨-, -, rfl⟩ := Option.map_eq_some_iff.mp hr
  exact Writes.apart_nothing _

private theorem waiting_update (t : ℕ) (call : sys.Call)
    (p : Program sys.db sys.Failure sys.Outcome) (s : Store sys.db) :
    ({ m with rows := s, waiting := Function.update m.waiting t (some (call, p)) } : Scene sys).config =
      m.acting t call p Writes.nothing s := by
  refine congrArg (fun running ↦ Config.mk s running m.begun m.history) (funext fun t' ↦ ?_)
  by_cases ht : t' = t
  · subst ht
    simp
  · simp [Function.update_of_ne ht, config]

private theorem reaches_of_readOn {t n : ℕ}
    {p p' : Program sys.db sys.Failure sys.Outcome}
    (h : readOn d O call m.rows n p = some p') :
    Reaches d (m.acting t call p Writes.nothing m.rows)
      (m.acting t call p' Writes.nothing m.rows) := by
  induction n generalizing p with
  | zero =>
    obtain rfl := Option.some.inj h
    exact .refl
  | succ n ih =>
    cases p with
    | stmt op next =>
      rw [readOn] at h
      split at h
      case isFalse => cases h
      case isTrue hmay =>
        obtain ⟨hreads, hallowed⟩ := Bool.and_eq_true_iff.mp hmay
        split at h
        case h_1 => cases h
        case h_2 a ha =>
          have heffect := O.effect_of_reads op m.rows hreads
          have hstep := Step.run (acting_running (m := m) t call (.stmt op next) Writes.nothing m.rows)
            (fun _ _ ↦ apart_of_acting)
            (of_decide_eq_true hallowed) (O.right op _ a ha)
          change Step d _ { m.acting t call (.stmt op next) Writes.nothing m.rows with
            running := Function.update (Function.update _ _ _) t (some ⟨call, next a,
              Writes.nothing.andThen (sys.db.effect op m.rows)⟩) } at hstep
          rw [heffect, Writes.andThen_nothing, Function.update_idem] at hstep
          exact .head hstep (ih h)
    | _ => cases h

/-- What is computed to the end of a call is a run of it. -/
private theorem reaches_of_endOf {t : ℕ}
    {w : Writes sys.db} {s s' : Store sys.db}
    {result : Except sys.Failure sys.Outcome} (h : endOf d O call p w s = some (result, s')) :
    Reaches d (m.acting t call p w s)
      ({ m with
          rows := s'
          waiting := Function.update m.waiting t none
          history := ⟨t, call, result⟩ :: m.history } : Scene sys).config := by
  have hover : ∀ history s,
      (⟨s, Function.update m.config.running t none, m.begun, history⟩ : Config sys) =
        ({ m with
            rows := s
            waiting := Function.update m.waiting t none
            history := history } : Scene sys).config := by
    intro history s
    refine congrArg (fun running ↦ Config.mk s running m.begun history) (funext fun t' ↦ ?_)
    by_cases ht : t' = t
    · subst ht
      simp
    · simp [Function.update_of_ne ht, config]
  induction p generalizing w s with
  | done outcome =>
    rw [endOf] at h
    split at h
    case isFalse => cases h
    case isTrue hmay =>
      obtain ⟨rfl, rfl⟩ := Prod.mk.inj (Option.some.inj h)
      have hstep := Step.commit (acting_running (m := m) t call (.done outcome) w s) hmay
      rw [acting, Function.update_idem, hover] at hstep
      exact .single hstep
  | throw failure =>
    obtain ⟨rfl, rfl⟩ := Prod.mk.inj (Option.some.inj h)
    have hstep := Step.refuse (d := d) (acting_running (m := m) t call (.throw failure) w s)
    rw [acting, Function.update_idem, hover] at hstep
    exact .single hstep
  | stmt op next ih =>
    rw [endOf] at h
    split at h
    case isFalse => cases h
    case isTrue hmay =>
      split at h
      case h_1 => cases h
      case h_2 a ha =>
        have hstep := Step.run (acting_running (m := m) t call (.stmt op next) w s)
          (fun _ _ ↦ apart_of_acting) hmay
          (O.right op _ a ha)
        rw [acting, Function.update_idem] at hstep
        exact .head hstep (ih a h)
  | commit next ih =>
    rw [endOf] at h
    split at h
    case isFalse => cases h
    case isTrue hmay =>
      have hstep := Step.part (acting_running (m := m) t call (.commit next) w s) hmay
      rw [acting, Function.update_idem] at hstep
      exact .head hstep (ih h)
  | savepoint next ih =>
    have hstep := Step.savepoint (d := d) (acting_running (m := m) t call (.savepoint next) w s)
    rw [acting, Function.update_idem] at hstep
    exact .head hstep (ih _ h)
  | rollbackTo saved next ih =>
    have hstep := Step.rollbackTo (d := d) (acting_running (m := m) t call (.rollbackTo saved next) w s)
    rw [acting, Function.update_idem] at hstep
    exact .head hstep (ih h)

private theorem acting_of_waiting {t : ℕ}
    (h : m.waiting t = some (call, p)) :
    m.acting t call p Writes.nothing m.rows = m.config := by
  rw [← waiting_update, ← h, Function.update_eq_self]

/-- A cue played is a run. -/
theorem reaches_of_play {cue : Cue sys} (h : play d O m cue = some m') :
    Reaches d m.config m'.config := by
  cases cue with
  | begins call =>
    obtain rfl := Option.some.inj h
    have hstep := Step.begin (d := d) (c := m.config) call
    have hlater := waiting_update (m := { m with begun := m.begun + 1 }) m.begun call
      (sys.body call) m.rows
    exact .single (hlater ▸ hstep)
  | reads t =>
    rw [play] at h
    split at h
    case h_1 => cases h
    case h_2 call p hwaiting =>
      obtain ⟨p', hread, rfl⟩ := Option.map_eq_some_iff.mp h
      have hreaches := reaches_of_readOn (m := m) (t := t) hread
      rw [acting_of_waiting hwaiting, ← waiting_update] at hreaches
      exact hreaches
  | ends t =>
    rw [play] at h
    split at h
    case h_1 => cases h
    case h_2 call p hwaiting =>
      obtain ⟨⟨result, s'⟩, hend, rfl⟩ := Option.map_eq_some_iff.mp h
      have hreaches := reaches_of_endOf (m := m) (t := t) hend
      rw [acting_of_waiting hwaiting] at hreaches
      exact hreaches

variable {cues : List (Cue sys)}

/-- Cues played one after another are a run. -/
theorem reaches_of_playAll (h : playAll d O m cues = some m') :
    Reaches d m.config m'.config := by
  induction cues generalizing m with
  | nil =>
    obtain rfl := Option.some.inj h
    exact .refl
  | cons _ _ ih =>
    rw [playAll] at h
    split at h
    case h_1 => cases h
    case h_2 m₁ hplay => exact (reaches_of_play hplay).trans (ih h)

theorem reaches_of_start {rows : Store sys.db}
    (h : playAll d O (start rows) cues = some m') : Reaches d (.start rows) m'.config :=
  reaches_of_playAll h

end Scene

end Odudu.ReadCommitted
