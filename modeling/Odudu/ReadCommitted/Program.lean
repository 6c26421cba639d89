import Odudu.ReadCommitted.Store

/-!
# Requests as programs over statements

What a request does to a database is a tree: it runs one statement and goes on with the
answer, commits the transaction it is in and goes on in the next, finishes with an
outcome (and a last commit), or throws, which rolls back the transaction it is in.  A
savepoint hands the program its own pending writes, and rolling back to it puts them
back.  The tree is a monad, so a use case is written in `do` notation with its statements
in the order the source runs them.

A transaction opened on a second connection by one that has written nothing is, to the
rows, the same as a transaction before it, and is written so.

`Program.wp` is the weakest precondition of a program that runs while others commit.
Its `Rules` say what may have become of the committed rows each time a statement runs,
given the rows this program has locked, and what the program owes when it commits on the
way and when it throws.  The rules `wp_bind`, `wp_mono` and `wp_join` are the ones the
proofs of this development use.
-/

set_option autoImplicit false

namespace Odudu.ReadCommitted

/-- What a request does, over a database. -/
inductive Program (db : Database) (ε α : Type) where
  /-- The request is over; what follows is the commit. -/
  | done (a : α)
  /-- An error that nothing catches: the transaction is rolled back. -/
  | throw (e : ε)
  /-- One statement, and the rest of the program on its answer. -/
  | stmt (op : db.Op) (next : db.Answer op → Program db ε α)
  /-- The end of a transaction that is not the last, and the transactions after it. -/
  | commit (next : Program db ε α)
  /-- A savepoint: the rest of the program may roll back to the writes it is given. -/
  | savepoint (next : Writes db → Program db ε α)
  /-- A rollback to a savepoint. -/
  | rollbackTo (saved : Writes db) (next : Program db ε α)

/-- What a proof about a program may rely on, and what it owes. -/
structure Rules (db : Database) (ε : Type) where
  /-- How the committed rows may have moved by the next statement, given the rows this
  program has locked. -/
  rely : Writes db → Store db → Store db → Prop
  /-- The statement may run on the rows it sees. -/
  mayRun : db.Op → Store db → Prop
  /-- The program may commit its writes on the way. -/
  mayCommit : Store db → Writes db → Prop
  /-- Owed where the program commits on the way. -/
  owesCommit : Store db → Writes db → Prop
  /-- Owed where the program throws. -/
  owesThrow : ε → Store db → Prop

namespace Program

variable {db : Database} {ε α β : Type}

/-- Sequencing: what follows takes the place of every `done`. -/
protected def bind : Program db ε α → (α → Program db ε β) → Program db ε β
  | done a, f => f a
  | throw e, _ => throw e
  | stmt op next, f => stmt op fun answer ↦ (next answer).bind f
  | commit next, f => commit (next.bind f)
  | savepoint next, f => savepoint fun saved ↦ (next saved).bind f
  | rollbackTo saved next, f => rollbackTo saved (next.bind f)

instance : Monad (Program db ε) where
  pure := done
  bind := Program.bind

/-- One statement, going on with what the database answers. -/
def ask (op : db.Op) : Program db ε (db.Answer op) := stmt op done

/-- The end of a transaction that is not the last. -/
def endTransaction : Program db ε Unit := commit (done ())

/-- A program whose error the caller is told of: the transaction it was in is rolled back,
and the caller goes on in another. -/
def attempt : Program db ε α → Program db ε (Except ε α)
  | done a => done (.ok a)
  | throw e => rollbackTo Writes.nothing (commit (done (.error e)))
  | stmt op next => stmt op fun answer ↦ (next answer).attempt
  | commit next => commit next.attempt
  | savepoint next => savepoint fun saved ↦ (next saved).attempt
  | rollbackTo saved next => rollbackTo saved next.attempt

/-- A transaction of its own, committed, or rolled back and the caller told. -/
def transaction (p : Program db ε α) : Program db ε (Except ε α) := do
  let result ← p.attempt
  match result with
  | .ok a => do
    endTransaction
    pure (.ok a)
  | .error e => pure (.error e)

/-- The weakest precondition of a program at given pending writes and committed rows:
whatever the others commit before each statement that may run, the program pays what it
owes and its outcome meets the postcondition. -/
def wp (R : Rules db ε) :
    Program db ε α → Writes db → Store db → (α → Writes db → Store db → Prop) → Prop
  | done a, w, s, post => post a w s
  | throw e, w, s, _ => ∀ s', R.rely w s s' → R.owesThrow e s'
  | stmt op next, w, s, post =>
      ∀ s' a, R.rely w s s' → R.mayRun op (w.laidOver s') → db.Answers op (w.laidOver s') a →
        (next a).wp R (w.andThen (db.effect op (w.laidOver s'))) s' post
  | commit next, w, s, post =>
      ∀ s', R.rely w s s' → R.mayCommit s' w →
        R.owesCommit s' w ∧ next.wp R Writes.nothing (w.laidOver s') post
  | savepoint next, w, s, post => (next w).wp R w s post
  | rollbackTo saved next, w, s, post => next.wp R (Writes.restore saved w) s post

variable {R : Rules db ε} {w : Writes db} {s : Store db}

@[simp] theorem wp_pure (a : α) (post : α → Writes db → Store db → Prop) :
    (pure a : Program db ε α).wp R w s post ↔ post a w s :=
  Iff.rfl

theorem wp_ask (op : db.Op) (post : db.Answer op → Writes db → Store db → Prop) :
    (ask op : Program db ε _).wp R w s post ↔
      ∀ s' a, R.rely w s s' → R.mayRun op (w.laidOver s') → db.Answers op (w.laidOver s') a →
        post a (w.andThen (db.effect op (w.laidOver s'))) s' :=
  Iff.rfl

/-- The rule of sequencing. -/
theorem wp_bind (p : Program db ε α) (f : α → Program db ε β)
    (post : β → Writes db → Store db → Prop) :
    (p >>= f).wp R w s post ↔ p.wp R w s fun a w' s' ↦ (f a).wp R w' s' post := by
  change (p.bind f).wp R w s post ↔ _
  induction p generalizing w s with
  | done | throw => exact Iff.rfl
  | stmt _ _ ih =>
    simp only [Program.bind, wp]
    exact forall_congr' fun s' ↦ forall_congr' fun a ↦ forall_congr' fun _ ↦
      forall_congr' fun _ ↦ forall_congr' fun _ ↦ ih a
  | commit _ ih =>
    simp only [Program.bind, wp]
    exact forall_congr' fun s' ↦ forall_congr' fun _ ↦ forall_congr' fun _ ↦
      and_congr_right fun _ ↦ ih
  | savepoint _ ih => exact ih _
  | rollbackTo _ _ ih => exact ih

variable {p : Program db ε α}

/-- The rule of consequence. -/
theorem wp_mono {post post' : α → Writes db → Store db → Prop}
    (hpost : ∀ a w s, post a w s → post' a w s) (h : p.wp R w s post) :
    p.wp R w s post' := by
  induction p generalizing w s with
  | done a => exact hpost a w s h
  | throw => exact h
  | stmt _ _ ih => exact fun s' a hrely hrun ha ↦ ih a (h s' a hrely hrun ha)
  | commit _ ih =>
    intro s' hrely hmay
    obtain ⟨howed, hnext⟩ := h s' hrely hmay
    exact ⟨howed, ih hnext⟩
  | savepoint _ ih => exact ih _ h
  | rollbackTo _ _ ih => exact ih h

/-- What a program pays under two sets of rules it pays together under rules that let
the others do no more. -/
theorem wp_join (R R₁ R₂ : Rules db ε)
    (hrely : ∀ w s s', R.rely w s s' → R₁.rely w s s' ∧ R₂.rely w s s')
    (hrun : ∀ op s, R.mayRun op s → R₁.mayRun op s ∧ R₂.mayRun op s)
    (hmay : ∀ s w, R.mayCommit s w → R₁.mayCommit s w ∧ R₂.mayCommit s w)
    (hcommit : ∀ s w, R₁.owesCommit s w → R₂.owesCommit s w → R.owesCommit s w)
    (hthrow : ∀ e s, R₁.owesThrow e s → R₂.owesThrow e s → R.owesThrow e s)
    {post₁ post₂ : α → Writes db → Store db → Prop}
    (h₁ : p.wp R₁ w s post₁) (h₂ : p.wp R₂ w s post₂) :
    p.wp R w s fun a w s ↦ post₁ a w s ∧ post₂ a w s := by
  induction p generalizing w s with
  | done => exact ⟨h₁, h₂⟩
  | throw e =>
    exact fun s' hs' ↦ hthrow e s' (h₁ s' (hrely w s s' hs').1) (h₂ s' (hrely w s s' hs').2)
  | stmt op _ ih =>
    intro s' a hs' hop ha
    exact ih a (h₁ s' a (hrely w s s' hs').1 (hrun op _ hop).1 ha)
      (h₂ s' a (hrely w s s' hs').2 (hrun op _ hop).2 ha)
  | commit _ ih =>
    intro s' hs' hw
    have hleft := h₁ s' (hrely w s s' hs').1 (hmay s' w hw).1
    have hright := h₂ s' (hrely w s s' hs').2 (hmay s' w hw).2
    exact ⟨hcommit s' w hleft.1 hright.1, ih hleft.2 hright.2⟩
  | savepoint _ ih => exact ih _ h₁ h₂
  | rollbackTo _ _ ih => exact ih h₁ h₂

/-- What holds before a statement holds still after others have committed, when the
rely is transitive, shrinks with the locks held, and keeps the postcondition. -/
theorem wp_of_rely {post : α → Writes db → Store db → Prop}
    (htrans : ∀ {w s s' s''}, R.rely w s s' → R.rely w s' s'' → R.rely w s s'')
    (hfewer : ∀ {saved w s s'}, R.rely w s s' → R.rely (Writes.restore saved w) s s')
    (hpost : ∀ {a w s s'}, R.rely w s s' → post a w s → post a w s')
    {s' : Store db} (hrely : R.rely w s s') (h : p.wp R w s post) : p.wp R w s' post := by
  induction p generalizing w with
  | done => exact hpost hrely h
  | throw => exact fun s'' hrely' ↦ h s'' (htrans hrely hrely')
  | stmt _ _ ih => exact fun s'' a hrely' hrun ha ↦ h s'' a (htrans hrely hrely') hrun ha
  | commit _ ih => exact fun s'' hrely' hmay ↦ h s'' (htrans hrely hrely') hmay
  | savepoint _ ih => exact ih _ hrely h
  | rollbackTo _ _ ih => exact ih (hfewer hrely) h

end Program

end Odudu.ReadCommitted
