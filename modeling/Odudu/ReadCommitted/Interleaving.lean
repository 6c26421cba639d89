import Odudu.ReadCommitted.Program
import Mathlib.Data.Nat.Notation
import Mathlib.Logic.Relation

/-!
# Interleaved requests

A system names the calls a client may make and what each does.  A configuration is the
committed rows, the requests under way, how many have begun, and the answers given so
far, latest first.  `Step` is one event of one request: it begins, runs one statement
(only when no other request has locked a row the statement writes), commits on the way,
takes or uses a savepoint, commits and answers, answers with what it threw, or is lost,
which may happen at any moment and gives no answer.  `Reaches` is any number of steps, so
every interleaving of any number of calls.

A `Discipline` restricts the runs a theorem is about to those in which each statement
and each commit meets a condition on the rows it finds; `Discipline.free` restricts
nothing.
-/

set_option autoImplicit false

namespace Odudu.ReadCommitted

/-- A database together with the calls made on it. -/
structure System where
  db : Database
  /-- A call with its inputs. -/
  Call : Type
  /-- What a call answers when its last transaction commits. -/
  Outcome : Type
  /-- What a call throws otherwise. -/
  Failure : Type
  /-- What each call does. -/
  body : Call → Program db Failure Outcome

/-- A request under way. -/
structure Running (sys : System) where
  call : sys.Call
  /-- What is left of it. -/
  program : Program sys.db sys.Failure sys.Outcome
  /-- The writes not committed, and so the locks held. -/
  pending : Writes sys.db

/-- The answer to a call: its outcome or what it threw. -/
structure Answered (sys : System) where
  /-- How many requests had begun before it. -/
  number : ℕ
  call : sys.Call
  result : Except sys.Failure sys.Outcome

/-- A moment of a run. -/
structure Config (sys : System) where
  rows : Store sys.db
  running : ℕ → Option (Running sys)
  /-- The number of requests begun so far, and the number of the next one. -/
  begun : ℕ
  /-- What has been answered, latest first. -/
  history : List (Answered sys)

/-- Before any call. -/
def Config.start {sys : System} (rows : Store sys.db) : Config sys where
  rows
  running := fun _ ↦ none
  begun := 0
  history := []

/-- A condition on the statements and the commits of a run. -/
structure Discipline (sys : System) where
  /-- The statement may run on the rows it sees. -/
  mayRun : sys.Call → sys.db.Op → Store sys.db → Prop
  /-- The request may commit its writes over the committed rows, with its outcome when
  the commit is its last. -/
  mayCommit : sys.Call → Option sys.Outcome → Store sys.db → Writes sys.db → Prop

/-- No condition. -/
def Discipline.free {sys : System} : Discipline sys where
  mayRun := fun _ _ _ ↦ True
  mayCommit := fun _ _ _ _ ↦ True

variable {sys : System}

/-- One event of one request. -/
inductive Step (d : Discipline sys) : Config sys → Config sys → Prop where
  | begin {c : Config sys} (call : sys.Call) :
      Step d c
        { c with
          running := Function.update c.running c.begun
            (some ⟨call, sys.body call, Writes.nothing⟩)
          begun := c.begun + 1 }
  | run {c : Config sys} {t : ℕ} {call : sys.Call} {op : sys.db.Op} {a : sys.db.Answer op}
      {next : sys.db.Answer op → Program sys.db sys.Failure sys.Outcome} {w : Writes sys.db}
      (hrunning : c.running t = some ⟨call, .stmt op next, w⟩)
      (hunlocked : ∀ t' r', t' ≠ t → c.running t' = some r' →
        Writes.Apart (sys.db.effect op (w.laidOver c.rows)) r'.pending)
      (hmay : d.mayRun call op (w.laidOver c.rows)) (ha : sys.db.Answers op (w.laidOver c.rows) a) :
      Step d c
        { c with
          running := Function.update c.running t
            (some ⟨call, next a, w.andThen (sys.db.effect op (w.laidOver c.rows))⟩) }
  | part {c : Config sys} {t : ℕ} {call : sys.Call}
      {next : Program sys.db sys.Failure sys.Outcome} {w : Writes sys.db}
      (hrunning : c.running t = some ⟨call, .commit next, w⟩)
      (hmay : d.mayCommit call none c.rows w) :
      Step d c
        { c with
          rows := w.laidOver c.rows
          running := Function.update c.running t (some ⟨call, next, Writes.nothing⟩) }
  | savepoint {c : Config sys} {t : ℕ} {call : sys.Call}
      {next : Writes sys.db → Program sys.db sys.Failure sys.Outcome} {w : Writes sys.db}
      (hrunning : c.running t = some ⟨call, .savepoint next, w⟩) :
      Step d c { c with running := Function.update c.running t (some ⟨call, next w, w⟩) }
  | rollbackTo {c : Config sys} {t : ℕ} {call : sys.Call} {saved : Writes sys.db}
      {next : Program sys.db sys.Failure sys.Outcome} {w : Writes sys.db}
      (hrunning : c.running t = some ⟨call, .rollbackTo saved next, w⟩) :
      Step d c
        { c with
          running := Function.update c.running t
            (some ⟨call, next, Writes.restore saved w⟩) }
  | commit {c : Config sys} {t : ℕ} {call : sys.Call} {outcome : sys.Outcome}
      {w : Writes sys.db} (hrunning : c.running t = some ⟨call, .done outcome, w⟩)
      (hmay : d.mayCommit call (some outcome) c.rows w) :
      Step d c
        { c with
          rows := w.laidOver c.rows
          running := Function.update c.running t none
          history := ⟨t, call, .ok outcome⟩ :: c.history }
  | refuse {c : Config sys} {t : ℕ} {call : sys.Call} {failure : sys.Failure}
      {w : Writes sys.db} (hrunning : c.running t = some ⟨call, .throw failure, w⟩) :
      Step d c
        { c with
          running := Function.update c.running t none
          history := ⟨t, call, .error failure⟩ :: c.history }
  | lose {c : Config sys} {t : ℕ} {r : Running sys} (hrunning : c.running t = some r) :
      Step d c { c with running := Function.update c.running t none }

/-- Any number of events. -/
abbrev Reaches (d : Discipline sys) : Config sys → Config sys → Prop :=
  Relation.ReflTransGen (Step d)

variable {next : Option (Running sys)} {t : ℕ}

/-- What is known of every request, once one is replaced by its next state or ends. -/
theorem running_update {Q : ℕ → Running sys → Prop} {running : ℕ → Option (Running sys)}
    (hnext : ∀ r, next = some r → Q t r)
    (hothers : ∀ t' r', t' ≠ t → running t' = some r' → Q t' r') :
    ∀ t' r', Function.update running t next t' = some r' → Q t' r' := by
  intro t' r' hrunning
  by_cases ht : t' = t
  · subst ht
    exact hnext r' (by simpa using hrunning)
  · exact hothers t' r' ht (by simpa [ht] using hrunning)

/-- No two requests hold a lock on one row. -/
def Config.Apart (c : Config sys) : Prop :=
  ∀ t t' r r', t ≠ t' → c.running t = some r → c.running t' = some r' → r.pending.Apart r'.pending

theorem Config.apart_start (rows : Store sys.db) : (Config.start rows : Config sys).Apart :=
  fun _ _ _ _ _ hrunning ↦ nomatch hrunning

private theorem Config.Apart.update {c : Config sys} (h : c.Apart)
    {rows : Store sys.db} {begun : ℕ} {history : List (Answered sys)}
    (hnext : ∀ r t' r', next = some r → t' ≠ t → c.running t' = some r' →
      r.pending.Apart r'.pending) :
    Config.Apart ⟨rows, Function.update c.running t next, begun, history⟩ := by
  intro t₁ t₂ r₁ r₂ hne hrunning₁ hrunning₂
  refine running_update (Q := fun t₁ r₁ ↦ t₁ ≠ t₂ → r₁.pending.Apart r₂.pending) ?_ ?_ t₁ r₁
    hrunning₁ hne
  · intro r hr hne
    exact hnext r t₂ r₂ hr hne.symm (by simpa [hne.symm] using hrunning₂)
  · intro t' r' ht' hrunning' hne
    refine running_update (Q := fun t₂ r₂ ↦ t' ≠ t₂ → r'.pending.Apart r₂.pending) ?_ ?_ t₂ r₂
      hrunning₂ hne
    · exact fun r hr _ ↦ (hnext r t' r' hr ht' hrunning').symm
    · exact fun t₂ r₂ _ hrunning₂ hne ↦ h t' t₂ r' r₂ hne hrunning' hrunning₂

variable {d : Discipline sys} {c c' : Config sys}

/-- A statement runs only where its rows are not locked. -/
theorem Config.Apart.step (h : c.Apart)
    (hstep : Step d c c') : c'.Apart := by
  cases hstep with
  | begin | part =>
    refine h.update ?_
    rintro _ t' r' ⟨rfl⟩ _ _
    exact Writes.nothing_apart _
  | run hrunning hunlocked =>
    refine h.update ?_
    rintro _ t' r' ⟨rfl⟩ hne hrunning'
    exact (h _ _ _ _ hne.symm hrunning hrunning').andThen (hunlocked t' r' hne hrunning')
  | savepoint hrunning =>
    refine h.update ?_
    rintro _ t' r' ⟨rfl⟩ hne hrunning'
    have hapart := h _ _ _ _ hne.symm hrunning hrunning'
    exact hapart
  | rollbackTo hrunning =>
    refine h.update ?_
    rintro _ t' r' ⟨rfl⟩ hne hrunning'
    have hapart := h _ _ _ _ hne.symm hrunning hrunning'
    exact hapart.restore
  | commit | refuse | lose => exact h.update (by simp)

/-- Requests are numbered as they begin, and answered with their number. -/
structure Config.Numbered (c : Config sys) : Prop where
  running : ∀ t r, c.running t = some r → t < c.begun
  history : ∀ a ∈ c.history, a.number < c.begun

theorem Config.numbered_start (rows : Store sys.db) : (Config.start rows : Config sys).Numbered where
  running := by
    intro t r hrunning
    simp [Config.start] at hrunning
  history := by
    intro a ha
    simp [Config.start] at ha

private theorem Config.Numbered.update {c : Config sys} (h : c.Numbered)
    {r : Running sys} (hrunning : c.running t = some r) (next : Option (Running sys)) :
    ∀ t' r', Function.update c.running t next t' = some r' → t' < c.begun :=
  running_update (fun _ _ ↦ h.running t r hrunning) fun t' r' _ ↦ h.running t' r'

/-- A request that begins has a number of its own. -/
theorem Config.Numbered.step (h : c.Numbered)
    (hstep : Step d c c') : c'.Numbered := by
  cases hstep with
  | begin =>
    exact ⟨running_update (fun _ _ ↦ Nat.lt_succ_self _) fun t' r' _ hrunning ↦
      Nat.lt_succ_of_lt (h.running t' r' hrunning), fun a ha ↦ Nat.lt_succ_of_lt (h.history a ha)⟩
  | run hrunning | part hrunning | savepoint hrunning | rollbackTo hrunning | lose hrunning =>
    exact ⟨h.update hrunning _, h.history⟩
  | commit hrunning | refuse hrunning =>
    refine ⟨h.update hrunning _, fun a ha ↦ ?_⟩
    rcases List.mem_cons.mp ha with rfl | hold
    · exact h.running _ _ hrunning
    · exact h.history a hold

theorem Config.Numbered.reaches (h : c.Numbered)
    (hreaches : Reaches d c c') : c'.Numbered := by
  induction hreaches with
  | refl => exact h
  | tail _ hlast ih => exact ih.step hlast

end Odudu.ReadCommitted
