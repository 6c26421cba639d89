import Odudu.ReadCommitted.Interleaving

/-!
# Programs under watch

A `Watch` follows a program by the statements it has run and what they answered, and
`Program.watched` says of every path of the program in which state the watch finds it when
it finishes.  It is a fact about the program alone, as `Program.wp` is one about the rows it
runs on: it can tell what a transaction has yet to do from what it has done.

`Program.Passes` says that a statement is ahead on every path to certain outcomes.

The programs here are one transaction each.  What is known of the rows in each state of the
watch is carried from statement to statement, and through the commits of others, by
`Config.Watched.step`; the commits may be restricted by what is under way when they happen,
which a `Discipline` does not see.
-/

set_option autoImplicit false

namespace Odudu.ReadCommitted

/-- An observer of the statements of a program. -/
structure Watch (db : Database) where
  State : Type
  next : State → (op : db.Op) → db.Answer op → State

namespace Program

variable {db : Database} {ε α β : Type} {W : Watch db} {m : W.State}

/-- The program is one transaction, and finishes as `post` has it. -/
def watched (W : Watch db) : Program db ε α → W.State → (α → W.State → Prop) → Prop
  | done a, m, post => post a m
  | throw _, _, _ => True
  | stmt op next, m, post => ∀ a, (next a).watched W (W.next m op a) post
  | commit _, _, _ => False
  | savepoint _, _, _ => False
  | rollbackTo _ _, _, _ => False

variable {post : α → W.State → Prop}

theorem watched_ask_bind {op : db.Op} {f : db.Answer op → Program db ε α} :
    ((ask op : Program db ε _) >>= f).watched W m post ↔
      ∀ a, (f a).watched W (W.next m op a) post :=
  Iff.rfl

theorem watched_bind {p : Program db ε β} {f : β → Program db ε α} :
    (p >>= f).watched W m post ↔ p.watched W m fun b m' ↦ (f b).watched W m' post := by
  change (p.bind f).watched W m post ↔ _
  induction p generalizing m with
  | done | throw | commit | savepoint | rollbackTo => exact Iff.rfl
  | stmt _ _ ih => exact forall_congr' fun a ↦ ih a

theorem watched_mono {p : Program db ε α} {post post' : α → W.State → Prop}
    (hpost : ∀ a m, post a m → post' a m) (h : p.watched W m post) : p.watched W m post' := by
  induction p generalizing m with
  | done a => exact hpost a m h
  | throw => trivial
  | stmt _ _ ih => exact fun a ↦ ih a (h a)
  | commit | savepoint | rollbackTo => exact h

/-- On every path to an outcome in `ends` a marked statement is ahead. -/
def Passes (mark : db.Op → Prop) (ends : α → Prop) : Program db ε α → Prop
  | done a => ¬ ends a
  | throw _ => True
  | stmt op next => mark op ∨ ∀ a, (next a).Passes mark ends
  | commit next => next.Passes mark ends
  | savepoint next => ∀ w, (next w).Passes mark ends
  | rollbackTo _ next => next.Passes mark ends

end Program

variable {sys : System} {W : Watch sys.db}

/-- Every request under way is where the watch has it, the facts that go with that state
hold of what it has written and of the committed rows, and no two requests hold a lock on
one row. -/
structure Config.Watched (W : Watch sys.db) (post : sys.Call → sys.Outcome → W.State → Prop)
    (Facts : sys.Call → W.State → Writes sys.db → Store sys.db → Prop) (c : Config sys) : Prop where
  running : ∀ t r, c.running t = some r →
    ∃ m, r.program.watched W m (post r.call) ∧ Facts r.call m r.pending c.rows
  locks : ∀ t t' r r', t ≠ t' → c.running t = some r → c.running t' = some r' →
    r.pending.Apart r'.pending

namespace Config.Watched

variable {post : sys.Call → sys.Outcome → W.State → Prop}
  {Facts : sys.Call → W.State → Writes sys.db → Store sys.db → Prop}

theorem start (rows : Store sys.db) : (Config.start rows).Watched W post Facts where
  running := fun _ _ hrunning ↦ nomatch hrunning
  locks := Config.apart_start rows

variable {c c' : Config sys} (h : c.Watched W post Facts)

include h

variable {d : Discipline sys}

/-- The facts are carried by a request's own statements, and a commit leaves every other
request where some state of the watch has it. -/
theorem step {start : W.State}
    (hbody : ∀ call, (sys.body call).watched W start (post call))
    (hstart : ∀ call s, Facts call start Writes.nothing s)
    (hown : ∀ call m w s op a, Facts call m w s → sys.db.Answers op (w.laidOver s) a →
      Facts call (W.next m op a) (w.andThen (sys.db.effect op (w.laidOver s))) s)
    (hcommit : ∀ t call outcome w m, c.running t = some ⟨call, .done outcome, w⟩ →
      post call outcome m → Facts call m w c.rows → c'.rows = w.laidOver c.rows →
      c'.history = ⟨t, call, .ok outcome⟩ :: c.history →
      ∀ t' r' m', t' ≠ t → c.running t' = some r' → w.Apart r'.pending →
        r'.program.watched W m' (post r'.call) → Facts r'.call m' r'.pending c.rows →
        ∃ m'', r'.program.watched W m'' (post r'.call) ∧
          Facts r'.call m'' r'.pending (w.laidOver c.rows))
    (hstep : Step d c c') : c'.Watched W post Facts := by
  have hlocks : c'.Apart := Config.Apart.step h.locks hstep
  have hothers : ∀ {t : ℕ} t' r', t' ≠ t → c.running t' = some r' →
      ∃ m, r'.program.watched W m (post r'.call) ∧ Facts r'.call m r'.pending c.rows :=
    fun t' r' _ ↦ h.running t' r'
  cases hstep with
  | begin call =>
    refine ⟨running_update ?_ hothers, hlocks⟩
    rintro _ ⟨rfl⟩
    exact ⟨start, hbody call, hstart call c.rows⟩
  | @run t call op a next w hrunning hunlocked hmay ha =>
    refine ⟨running_update ?_ hothers, hlocks⟩
    rintro _ ⟨rfl⟩
    obtain ⟨m, hwatched, hfacts⟩ := h.running _ _ hrunning
    exact ⟨W.next m op a, hwatched a, hown call m w c.rows op a hfacts ha⟩
  | part hrunning _ | savepoint hrunning | rollbackTo hrunning =>
    obtain ⟨m, hwatched, -⟩ := h.running _ _ hrunning
    exact hwatched.elim
  | @commit t call outcome w hrunning hmay =>
    obtain ⟨m, hpost, hfacts⟩ := h.running _ _ hrunning
    refine ⟨running_update (by simp) fun t' r' hne hrunning' ↦ ?_, hlocks⟩
    obtain ⟨m', hwatched', hfacts'⟩ := h.running t' r' hrunning'
    exact hcommit t call outcome w m hrunning hpost hfacts rfl rfl t' r' m' hne hrunning'
      (h.locks _ _ _ _ hne.symm hrunning hrunning') hwatched' hfacts'
  | refuse _ | lose _ => exact ⟨running_update (by simp) hothers, hlocks⟩

/-- A step changes the committed rows and the history only where a request that was watched
to its end commits. -/
theorem committed (hstep : Step d c c') :
    (c'.rows = c.rows ∧ (c'.history = c.history ∨ ∃ t call failure,
        c'.history = ⟨t, call, .error failure⟩ :: c.history)) ∨
      ∃ t call outcome w m, c.running t = some ⟨call, .done outcome, w⟩ ∧ post call outcome m ∧
        Facts call m w c.rows ∧ c'.rows = w.laidOver c.rows ∧
        c'.history = ⟨t, call, .ok outcome⟩ :: c.history := by
  cases hstep with
  | begin | run | savepoint | rollbackTo | lose => exact Or.inl ⟨rfl, Or.inl rfl⟩
  | part hrunning =>
    obtain ⟨m, hwatched, -⟩ := h.running _ _ hrunning
    exact hwatched.elim
  | commit hrunning =>
    obtain ⟨m, hpost, hfacts⟩ := h.running _ _ hrunning
    exact Or.inr ⟨_, _, _, _, m, hrunning, hpost, hfacts, rfl, rfl⟩
  | refuse => exact Or.inl ⟨rfl, Or.inr ⟨_, _, _, rfl⟩⟩

end Config.Watched

end Odudu.ReadCommitted
