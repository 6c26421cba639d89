import Odudu.ReadCommitted.Interleaving

/-!
# Chronicles and proof outlines

A `Chronicle` says of a request, at each point of its program, what it has written and what
holds there of the committed rows and of everything answered so far.  It is kept by the
request's own steps, and the end of one request leaves every other where the chronicle has
it, given that no two hold a lock on one row.  A run of any number of requests then stays
within it, and so does its invariant (`Chronicle.Told.reaches`).  A request may so remember what
had been answered when it looked.

An `Outline` is one that says nothing of the answers.  A run of any number of requests then stays
within the outline (`Outline.outlined_of_reaches`), and a fact about the committed rows and the
answers is kept when the commits and the refusals of requests within the outline keep it
(`Outline.invariant`).

`Contract` judges a program by what it owes at its end; an outline also knows a request
that never gets there.
-/

set_option autoImplicit false

namespace Odudu.ReadCommitted

/-- What holds at each point of every request's program, under a discipline. -/
structure Chronicle (sys : System) (d : Discipline sys) where
  /-- What holds of the committed rows and of what has been answered. -/
  Inv : Store sys.db → List (Answered sys) → Prop
  /-- What is left of a call, what it has written, the committed rows and the answers. -/
  Fits : sys.Call → Program sys.db sys.Failure sys.Outcome → Writes sys.db → Store sys.db →
    List (Answered sys) → Prop
  begins : ∀ call s history, Inv s history → Fits call (sys.body call) Writes.nothing s history
  runs : ∀ {call op next w s history a}, Inv s history → Fits call (.stmt op next) w s history →
    d.mayRun call op (w.laidOver s) → sys.db.Answers op (w.laidOver s) a →
    Fits call (next a) (w.andThen (sys.db.effect op (w.laidOver s))) s history
  parts : ∀ {call next w s history}, Inv s history → Fits call (.commit next) w s history →
    d.mayCommit call none s w →
    Inv (w.laidOver s) history ∧ Fits call next Writes.nothing (w.laidOver s) history
  saves : ∀ {call next w s history}, Fits call (.savepoint next) w s history →
    Fits call (next w) w s history
  restores : ∀ {call saved next w s history}, Fits call (.rollbackTo saved next) w s history →
    Fits call next (Writes.restore saved w) s history
  commits : ∀ {call outcome w s history} (t : ℕ), Inv s history →
    Fits call (.done outcome) w s history → d.mayCommit call (some outcome) s w →
    Inv (w.laidOver s) (⟨t, call, .ok outcome⟩ :: history)
  refuses : ∀ {call failure w s history} (t : ℕ), Inv s history →
    Fits call (.throw failure) w s history → Inv s (⟨t, call, .error failure⟩ :: history)
  /-- A commit on the way leaves the others where they were. -/
  partsApart : ∀ {call next w call' p w' s history}, Inv s history →
    Fits call (.commit next) w s history → d.mayCommit call none s w →
    Fits call' p w' s history → w.Apart w' → Fits call' p w' (w.laidOver s) history
  /-- A last commit leaves the others where they were. -/
  commitsApart : ∀ {call outcome w call' p w' s history} (t : ℕ), Inv s history →
    Fits call (.done outcome) w s history → d.mayCommit call (some outcome) s w →
    Fits call' p w' s history → w.Apart w' →
    Fits call' p w' (w.laidOver s) (⟨t, call, .ok outcome⟩ :: history)
  /-- A refusal leaves the others where they were. -/
  refusesApart : ∀ {call failure w call' p w' s history} (t : ℕ), Inv s history →
    Fits call (.throw failure) w s history → Fits call' p w' s history →
    Fits call' p w' s (⟨t, call, .error failure⟩ :: history)

namespace Chronicle

variable {sys : System} {d : Discipline sys} (C : Chronicle sys d)

/-- Every request under way is where the chronicle has it, and no two requests hold a lock
on one row. -/
structure Told (c : Config sys) : Prop where
  inv : C.Inv c.rows c.history
  fits : ∀ t r, c.running t = some r → C.Fits r.call r.program r.pending c.rows c.history
  locks : ∀ t t' r r', t ≠ t' → c.running t = some r → c.running t' = some r' →
    r.pending.Apart r'.pending

variable {C}

theorem told_start {rows : Store sys.db} (hrows : C.Inv rows []) : C.Told (Config.start rows) where
  inv := hrows
  fits := fun _ _ hrunning ↦ nomatch hrunning
  locks := Config.apart_start rows

namespace Told

variable {c c' : Config sys} (h : C.Told c)

include h

/-- A step stays within the chronicle. -/
theorem step (hstep : Step d c c') : C.Told c' := by
  have hlocks : c'.Apart := Config.Apart.step h.locks hstep
  have hothers : ∀ {t : ℕ} t' r', t' ≠ t → c.running t' = some r' →
      C.Fits r'.call r'.program r'.pending c.rows c.history := fun t' r' _ ↦ h.fits t' r'
  cases hstep with
  | begin call =>
    refine ⟨h.inv, running_update ?_ hothers, hlocks⟩
    rintro _ ⟨rfl⟩
    exact C.begins call c.rows c.history h.inv
  | run hrunning _ hmay ha =>
    refine ⟨h.inv, running_update ?_ hothers, hlocks⟩
    rintro _ ⟨rfl⟩
    exact C.runs h.inv (h.fits _ _ hrunning) hmay ha
  | @part t call next w hrunning hmay =>
    have hfits : C.Fits call (.commit next) w c.rows c.history := h.fits _ _ hrunning
    obtain ⟨hinv, hnext⟩ := C.parts h.inv hfits hmay
    refine ⟨hinv, running_update ?_ fun t' r' hne hrunning' ↦ ?_, hlocks⟩
    · rintro _ ⟨rfl⟩
      exact hnext
    · exact C.partsApart h.inv hfits hmay (h.fits _ _ hrunning')
        (h.locks _ _ _ _ hne.symm hrunning hrunning')
  | savepoint hrunning =>
    refine ⟨h.inv, running_update ?_ hothers, hlocks⟩
    rintro _ ⟨rfl⟩
    exact C.saves (h.fits _ _ hrunning)
  | rollbackTo hrunning =>
    refine ⟨h.inv, running_update ?_ hothers, hlocks⟩
    rintro _ ⟨rfl⟩
    exact C.restores (h.fits _ _ hrunning)
  | @commit t call outcome w hrunning hmay =>
    have hfits : C.Fits call (.done outcome) w c.rows c.history := h.fits _ _ hrunning
    refine ⟨C.commits t h.inv hfits hmay, running_update (by simp) fun t' r' hne hrunning' ↦ ?_,
      hlocks⟩
    exact C.commitsApart t h.inv hfits hmay (h.fits _ _ hrunning')
      (h.locks _ _ _ _ hne.symm hrunning hrunning')
  | @refuse t call failure w hrunning =>
    have hfits : C.Fits call (.throw failure) w c.rows c.history := h.fits _ _ hrunning
    exact ⟨C.refuses t h.inv hfits, running_update (by simp) fun t' r' _ hrunning' ↦
      C.refusesApart t h.inv hfits (h.fits t' r' hrunning'), hlocks⟩
  | lose => exact ⟨h.inv, running_update (by simp) hothers, hlocks⟩

theorem reaches (hreaches : Reaches d c c') : C.Told c' := by
  induction hreaches with
  | refl => exact h
  | tail _ hlast ih => exact ih.step hlast

end Told

end Chronicle

namespace Program

variable {db : Database} {ε α : Type}

/-- A program that reads and no more, until it is one of these or throws. -/
inductive ReadsUntil (R : Program db ε α → Prop) : Program db ε α → Prop where
  | here {p : Program db ε α} (h : R p) : ReadsUntil R p
  | throw (e : ε) : ReadsUntil R (.throw e)
  | read {op : db.Op} {next : db.Answer op → Program db ε α}
      (hop : ∀ s, db.effect op s = Writes.nothing) (hnext : ∀ a, ReadsUntil R (next a)) :
      ReadsUntil R (.stmt op next)

theorem readsUntil_ask {R : Program db ε α → Prop} {op : db.Op}
    {f : db.Answer op → Program db ε α} (hop : ∀ s, db.effect op s = Writes.nothing)
    (hf : ∀ a, ReadsUntil R (f a)) : ReadsUntil R (ask op >>= f) :=
  .read hop hf

end Program

/-- What holds at each point of every request's program, under a discipline. -/
structure Outline (sys : System) (d : Discipline sys) where
  /-- What holds of the committed rows. -/
  Inv : Store sys.db → Prop
  /-- What is left of a call, what it has written, and the committed rows. -/
  Fits : sys.Call → Program sys.db sys.Failure sys.Outcome → Writes sys.db → Store sys.db → Prop
  begins : ∀ call s, Inv s → Fits call (sys.body call) Writes.nothing s
  runs : ∀ {call op next w s a}, Inv s → Fits call (.stmt op next) w s →
    d.mayRun call op (w.laidOver s) → sys.db.Answers op (w.laidOver s) a →
    Fits call (next a) (w.andThen (sys.db.effect op (w.laidOver s))) s
  parts : ∀ {call next w s}, Inv s → Fits call (.commit next) w s → d.mayCommit call none s w →
    Inv (w.laidOver s) ∧ Fits call next Writes.nothing (w.laidOver s)
  saves : ∀ {call next w s}, Fits call (.savepoint next) w s → Fits call (next w) w s
  restores : ∀ {call saved next w s}, Fits call (.rollbackTo saved next) w s →
    Fits call next (Writes.restore saved w) s
  commits : ∀ {call outcome w s}, Inv s → Fits call (.done outcome) w s →
    d.mayCommit call (some outcome) s w → Inv (w.laidOver s)
  /-- A commit on the way leaves the others where they were. -/
  partsApart : ∀ {call next w call' p w' s}, Inv s → Fits call (.commit next) w s →
    d.mayCommit call none s w → Fits call' p w' s → w.Apart w' → Fits call' p w' (w.laidOver s)
  /-- A last commit leaves the others where they were. -/
  commitsApart : ∀ {call outcome w call' p w' s}, Inv s → Fits call (.done outcome) w s →
    d.mayCommit call (some outcome) s w → Fits call' p w' s → w.Apart w' →
    Fits call' p w' (w.laidOver s)

namespace Outline

variable {sys : System} {d : Discipline sys} (O : Outline sys d)

/-- Every request under way is where the outline has it, and no two requests hold a lock
on one row. -/
structure Outlined (c : Config sys) : Prop where
  inv : O.Inv c.rows
  fits : ∀ t r, c.running t = some r → O.Fits r.call r.program r.pending c.rows
  locks : ∀ t t' r r', t ≠ t' → c.running t = some r → c.running t' = some r' →
    r.pending.Apart r'.pending

/-- The chronicle that remembers nothing. -/
def chronicle : Chronicle sys d where
  Inv := fun s _ ↦ O.Inv s
  Fits := fun call p w s _ ↦ O.Fits call p w s
  begins := fun call s _ hinv ↦ O.begins call s hinv
  runs := O.runs
  parts := O.parts
  saves := O.saves
  restores := O.restores
  commits := fun _ ↦ O.commits
  refuses := fun _ hinv _ ↦ hinv
  partsApart := O.partsApart
  commitsApart := fun _ ↦ O.commitsApart
  refusesApart := fun _ _ _ hfits ↦ hfits

variable {O}

private theorem told_of_outlined {c : Config sys} (h : O.Outlined c) : O.chronicle.Told c :=
  ⟨h.inv, h.fits, h.locks⟩

private theorem outlined_of_told {c : Config sys} (h : O.chronicle.Told c) : O.Outlined c :=
  ⟨h.inv, h.fits, h.locks⟩

theorem outlined_start {rows : Store sys.db} (hrows : O.Inv rows) :
    O.Outlined (Config.start rows) :=
  outlined_of_told (Chronicle.told_start hrows)

namespace Outlined

variable {c c' : Config sys} (h : O.Outlined c)

include h

theorem step (hstep : Step d c c') : O.Outlined c' :=
  outlined_of_told ((told_of_outlined h).step hstep)

theorem reaches (hreaches : Reaches d c c') : O.Outlined c' :=
  outlined_of_told ((told_of_outlined h).reaches hreaches)

end Outlined

/-- What a step of a run within the outline makes of the committed rows and the answers. -/
inductive Event (O : Outline sys d) :
    Store sys.db × List (Answered sys) → Store sys.db × List (Answered sys) → Prop where
  | part {call : sys.Call} {next : Program sys.db sys.Failure sys.Outcome} {w : Writes sys.db}
      {s : Store sys.db} {history : List (Answered sys)} (hinv : O.Inv s)
      (hfits : O.Fits call (.commit next) w s) (hmay : d.mayCommit call none s w) :
      Event O (s, history) (w.laidOver s, history)
  | commit {t : ℕ} {call : sys.Call} {outcome : sys.Outcome} {w : Writes sys.db}
      {s : Store sys.db} {history : List (Answered sys)} (hinv : O.Inv s)
      (hfits : O.Fits call (.done outcome) w s) (hmay : d.mayCommit call (some outcome) s w) :
      Event O (s, history) (w.laidOver s, ⟨t, call, .ok outcome⟩ :: history)
  | refuse {t : ℕ} {call : sys.Call} {failure : sys.Failure} {w : Writes sys.db}
      {s : Store sys.db} {history : List (Answered sys)} (hinv : O.Inv s)
      (hfits : O.Fits call (.throw failure) w s) :
      Event O (s, history) (s, ⟨t, call, .error failure⟩ :: history)

/-- A step changes the committed rows and the answers by one event at most. -/
theorem Outlined.event {c c' : Config sys} (h : O.Outlined c) (hstep : Step d c c') :
    Relation.ReflGen (Event O) (c.rows, c.history) (c'.rows, c'.history) := by
  cases hstep with
  | begin | run | savepoint | rollbackTo | lose => exact .refl
  | part hrunning hmay => exact .single (.part h.inv (h.fits _ _ hrunning) hmay)
  | commit hrunning hmay => exact .single (.commit h.inv (h.fits _ _ hrunning) hmay)
  | refuse hrunning => exact .single (.refuse h.inv (h.fits _ _ hrunning))

/-- A fact about the committed rows and the answers that every event keeps holds at every
moment reached. -/
theorem invariant {P : Store sys.db → List (Answered sys) → Prop}
    (hevent : ∀ s history s' history', Event O (s, history) (s', history') →
      P s history → P s' history')
    {c c' : Config sys} (h : O.Outlined c) (hreaches : Reaches d c c')
    (hP : P c.rows c.history) : P c'.rows c'.history := by
  induction hreaches with
  | refl => exact hP
  | @tail c₁ c₂ hbefore hlast ih =>
    have hone := (h.reaches hbefore).event hlast
    generalize hx : (c₁.rows, c₁.history) = x at hone
    generalize hy : (c₂.rows, c₂.history) = y at hone
    obtain ⟨hrows, hhistory⟩ := Prod.mk.inj hy
    cases hone with
    | refl =>
      obtain ⟨hrows', hhistory'⟩ := Prod.mk.inj (hx.trans hy.symm)
      exact hrows' ▸ hhistory' ▸ ih
    | single hsingle =>
      rw [← hx, ← hy] at hsingle
      exact hevent _ _ _ _ hsingle ih

end Outline

end Odudu.ReadCommitted
