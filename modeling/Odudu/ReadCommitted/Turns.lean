import Odudu.ReadCommitted.Schedule

/-!
# Requests one after another

`Program.Ends` runs a program by itself: nothing commits between its statements, so every
statement sees the committed rows it began with under its own writes.  `Turns` is any number of
requests made so, each over the rows the one before left.  Turns are interleavings
(`reaches_of_turns`), and a weakest precondition under rules that let nobody else commit
speaks of them (`ends_of_wp`), so one description of a program serves both.

`Program.Yields Q p` says that every outcome of `p` meets `Q`, whatever the statements answer.
-/

set_option autoImplicit false

namespace Odudu.ReadCommitted

/-- The rules of a program that runs by itself, over rows of which `P` holds. -/
def Rules.alone {db : Database} {ε : Type} (P : Store db → Prop)
    (owesThrow : ε → Store db → Prop) : Rules db ε where
  rely := fun _ s s' ↦ s' = s ∧ P s
  mayRun := fun _ _ ↦ True
  mayCommit := fun _ _ ↦ True
  owesCommit := fun s w ↦ P (w.laidOver s)
  owesThrow := owesThrow

namespace Program

variable {db : Database} {ε α : Type}

/-- A program run by itself, with its writes and over the rows given, ends so. -/
inductive Ends :
    Program db ε α → Writes db → Store db → Except ε α → Store db → Prop where
  | done {a : α} {w : Writes db} {s : Store db} : Ends (done a) w s (.ok a) (w.laidOver s)
  | throw {e : ε} {w : Writes db} {s : Store db} : Ends (throw e) w s (.error e) s
  | stmt {op : db.Op} {next : db.Answer op → Program db ε α} {w : Writes db} {s s' : Store db}
      {a : db.Answer op} {result : Except ε α} (ha : db.Answers op (w.laidOver s) a)
      (hnext : Ends (next a) (w.andThen (db.effect op (w.laidOver s))) s result s') :
      Ends (stmt op next) w s result s'
  | commit {next : Program db ε α} {w : Writes db} {s s' : Store db} {result : Except ε α}
      (hnext : Ends next Writes.nothing (w.laidOver s) result s') :
      Ends (commit next) w s result s'
  | savepoint {next : Writes db → Program db ε α} {w : Writes db} {s s' : Store db}
      {result : Except ε α} (hnext : Ends (next w) w s result s') :
      Ends (savepoint next) w s result s'
  | rollbackTo {saved : Writes db} {next : Program db ε α} {w : Writes db} {s s' : Store db}
      {result : Except ε α} (hnext : Ends next (Writes.restore saved w) s result s') :
      Ends (rollbackTo saved next) w s result s'

variable {result : Except ε α}

/-- A program that may end so after a statement's answer may end so from the statement. -/
theorem Ends.exists_stmt {op : db.Op} {next : db.Answer op → Program db ε α} {w : Writes db}
    {s : Store db} (a : db.Answer op) (ha : db.Answers op (w.laidOver s) a)
    (h : ∃ s', Ends (next a) (w.andThen (db.effect op (w.laidOver s))) s result s') :
    ∃ s', Ends (Program.stmt op next) w s result s' :=
  h.imp fun _ hnext ↦ .stmt ha hnext

/-- A program run by itself on given rows, computed. -/
def perform (O : Oracle db) :
    Program db ε α → Writes db → Store db → Option (Except ε α × Store db)
  | done a, w, s => some (.ok a, w.laidOver s)
  | throw e, _, s => some (.error e, s)
  | stmt op next, w, s =>
    match O.answer op (w.laidOver s) with
    | none => none
    | some a => (next a).perform O (w.andThen (db.effect op (w.laidOver s))) s
  | commit next, w, s => next.perform O Writes.nothing (w.laidOver s)
  | savepoint next, w, s => (next w).perform O w s
  | rollbackTo saved next, w, s => next.perform O (Writes.restore saved w) s

variable {p : Program db ε α}

/-- What is computed is an end. -/
theorem ends_of_perform {O : Oracle db} {w : Writes db} {s s' : Store db}
    (h : p.perform O w s = some (result, s')) : Ends p w s result s' := by
  induction p generalizing w s with
  | done =>
    obtain ⟨rfl, rfl⟩ := Prod.mk.inj (Option.some.inj h)
    exact .done
  | throw =>
    obtain ⟨rfl, rfl⟩ := Prod.mk.inj (Option.some.inj h)
    exact .throw
  | stmt op _ ih =>
    rw [perform] at h
    cases ha : O.answer op (w.laidOver s) with
    | none => simp [ha] at h
    | some a =>
      simp only [ha] at h
      exact .stmt (O.right op _ a ha) (ih a h)
  | commit _ ih => exact .commit (ih h)
  | savepoint _ ih => exact .savepoint (ih _ h)
  | rollbackTo _ _ ih => exact .rollbackTo (ih h)

/-- What is promised of an end: the postcondition of an outcome, or what is owed of a
throw. -/
def Promised (P : Store db → Prop) (owesThrow : ε → Store db → Prop)
    (post : α → Writes db → Store db → Prop) : Except ε α → Store db → Prop
  | .ok a, s' => ∃ w s, P s ∧ post a w s ∧ s' = w.laidOver s
  | .error e, s' => P s' ∧ owesThrow e s'

/-- A program that runs by itself keeps what its weakest precondition promises. -/
theorem ends_of_wp {P : Store db → Prop} {owesThrow : ε → Store db → Prop}
    {w : Writes db} {s s' : Store db}
    {post : α → Writes db → Store db → Prop} (hends : Ends p w s result s') (hs : P s)
    (h : p.wp (.alone P owesThrow) w s post) : Promised P owesThrow post result s' := by
  induction hends with
  | @done a w s => exact ⟨w, s, hs, h, rfl⟩
  | @throw e w s => exact ⟨hs, h s ⟨rfl, hs⟩⟩
  | stmt ha _ ih => exact ih hs (h _ _ ⟨rfl, hs⟩ trivial ha)
  | commit _ ih =>
    obtain ⟨howed, hnext⟩ := h _ ⟨rfl, hs⟩ trivial
    exact ih howed hnext
  | savepoint _ ih | rollbackTo _ ih => exact ih hs h

/-- Under rules that also let nobody commit, an outcome meets its postcondition. -/
theorem post_of_ends {R : Rules db ε} (hrely : ∀ w s, R.rely w s s) (hrun : ∀ op s, R.mayRun op s)
    (hcommit : ∀ s w, R.mayCommit s w) {a : α} {w : Writes db} {s s' : Store db}
    {post : α → Writes db → Store db → Prop} (hends : Ends p w s (.ok a) s')
    (h : p.wp R w s post) : ∃ w' s'', post a w' s'' ∧ s' = w'.laidOver s'' := by
  generalize hresult : (Except.ok a : Except ε α) = result at hends
  induction hends with
  | @done _ w s =>
    obtain rfl := Except.ok.inj hresult
    exact ⟨w, s, h, rfl⟩
  | throw => exact nomatch hresult
  | stmt ha _ ih => exact ih (h _ _ (hrely _ _) (hrun _ _) ha) hresult
  | commit _ ih => exact ih (h _ (hrely _ _) (hcommit _ _)).2 hresult
  | savepoint _ ih | rollbackTo _ ih => exact ih h hresult

section Alone

variable {P : Store db → Prop} {owesThrow : ε → Store db → Prop} {w : Writes db} {s : Store db}
  {post : α → Writes db → Store db → Prop}

theorem wp_ask_alone {op : db.Op} {f : db.Answer op → Program db ε α}
    (h : ∀ a w', db.Answers op (w.laidOver s) a →
      w'.laidOver s = Writes.laidOver (db.effect op (w.laidOver s)) (w.laidOver s) →
      (f a).wp (.alone P owesThrow) w' s post) :
    (ask op >>= f).wp (.alone P owesThrow) w s post := by
  rw [wp_bind]
  rintro s' a ⟨rfl, -⟩ - ha
  exact h a _ ha (Writes.andThen_laidOver _ _ _)

theorem wp_read_alone {op : db.Op} (hop : db.effect op (w.laidOver s) = Writes.nothing)
    {f : db.Answer op → Program db ε α}
    (h : ∀ a, db.Answers op (w.laidOver s) a → (f a).wp (.alone P owesThrow) w s post) :
    (ask op >>= f).wp (.alone P owesThrow) w s post := by
  rw [wp_bind]
  rintro s' a ⟨rfl, -⟩ - ha
  rw [hop, Writes.andThen_nothing]
  exact h a ha

theorem wp_endTransaction_alone (hP : P (w.laidOver s)) {f : Unit → Program db ε α}
    (h : (f ()).wp (.alone P owesThrow) Writes.nothing (w.laidOver s) post) :
    (endTransaction >>= f).wp (.alone P owesThrow) w s post := by
  rw [wp_bind]
  rintro s' ⟨rfl, -⟩ -
  exact ⟨hP, h⟩

theorem wp_throw_alone {e : ε} (h : owesThrow e s) :
    (Program.throw e : Program db ε α).wp (.alone P owesThrow) w s post := by
  rintro s' ⟨rfl, -⟩
  exact h

end Alone

/-- The rule of a program whose error the caller is told of. -/
theorem wp_attempt {P : Store db → Prop} {owesThrow : ε → Store db → Prop}
    {w : Writes db} {s : Store db}
    {post : Except ε α → Writes db → Store db → Prop}
    (h : p.wp (.alone P fun e s' ↦ post (.error e) Writes.nothing s') w s
      fun a w s ↦ post (.ok a) w s) :
    p.attempt.wp (.alone P owesThrow) w s post := by
  induction p generalizing w s with
  | done => exact h
  | throw =>
    rintro s' ⟨rfl, hs⟩ -
    change P _ ∧ _
    rw [Writes.restore_nothing_laidOver]
    exact ⟨hs, h s' ⟨rfl, hs⟩⟩
  | stmt _ _ ih => exact fun s' a hrely hrun ha ↦ ih a (h s' a hrely hrun ha)
  | commit _ ih =>
    intro s' hrely hmay
    obtain ⟨howed, hnext⟩ := h s' hrely hmay
    exact ⟨howed, ih hnext⟩
  | savepoint _ ih => exact ih _ h
  | rollbackTo _ _ ih => exact ih h

theorem wp_transaction {P : Store db → Prop} {owesThrow : ε → Store db → Prop}
    {s : Store db} {post : Except ε α → Writes db → Store db → Prop}
    (h : p.wp (.alone P fun e s' ↦ post (.error e) Writes.nothing s') Writes.nothing s
      fun a w s ↦ P (w.laidOver s) ∧ post (.ok a) Writes.nothing (w.laidOver s)) :
    p.transaction.wp (.alone P owesThrow) Writes.nothing s post := by
  rw [transaction, wp_bind]
  refine wp_attempt (wp_mono ?_ h)
  rintro a w s ⟨hP, hpost⟩ s' ⟨rfl, -⟩ -
  exact ⟨hP, hpost⟩

/-- A program that runs only these statements, and rolls back no less than whole
transactions. -/
def Only (Q : db.Op → Prop) : Program db ε α → Prop
  | done _ => True
  | throw _ => True
  | stmt op next => Q op ∧ ∀ a, (next a).Only Q
  | commit next => next.Only Q
  | savepoint _ => False
  | rollbackTo saved next => saved = Writes.nothing ∧ next.Only Q

section Only

variable {β : Type} {Q Q' : db.Op → Prop}

theorem only_ask {op : db.Op} (h : Q op) : (ask op : Program db ε _).Only Q :=
  ⟨h, fun _ ↦ trivial⟩

variable {p : Program db ε α}

theorem only_bind {f : α → Program db ε β} (hp : p.Only Q)
    (hf : ∀ a, (f a).Only Q) : (p >>= f).Only Q := by
  change (p.bind f).Only Q
  induction p with
  | done a => exact hf a
  | throw => trivial
  | stmt _ _ ih => exact ⟨hp.1, fun a ↦ ih a (hp.2 a)⟩
  | commit _ ih => exact ih hp
  | savepoint _ ih => exact hp.elim
  | rollbackTo _ _ ih => exact ⟨hp.1, ih hp.2⟩

theorem only_mono (h : ∀ op, Q op → Q' op) (hp : p.Only Q) : p.Only Q' := by
  induction p with
  | done | throw => trivial
  | stmt op _ ih => exact ⟨h op hp.1, fun a ↦ ih a (hp.2 a)⟩
  | commit _ ih => exact ih hp
  | savepoint _ ih => exact hp.elim
  | rollbackTo _ _ ih => exact ⟨hp.1, ih hp.2⟩

theorem only_transaction (hp : p.Only Q) : p.transaction.Only Q := by
  refine only_bind ?_ fun result ↦ by cases result <;> trivial
  induction p with
  | done => trivial
  | throw => exact ⟨rfl, trivial⟩
  | stmt _ _ ih => exact ⟨hp.1, fun a ↦ ih a (hp.2 a)⟩
  | commit _ ih => exact ih hp
  | savepoint _ ih => exact hp.elim
  | rollbackTo _ _ ih => exact ⟨hp.1, ih hp.2⟩

end Only

section Yields

variable {β : Type} {Q : α → Prop}

/-- Every outcome of the program meets `Q`. -/
def Yields (Q : α → Prop) : Program db ε α → Prop
  | done a => Q a
  | throw _ => True
  | stmt _ next => ∀ a, (next a).Yields Q
  | commit next => next.Yields Q
  | savepoint next => ∀ w, (next w).Yields Q
  | rollbackTo _ next => next.Yields Q

@[simp] theorem yields_pure (a : α) : (pure a : Program db ε α).Yields Q ↔ Q a := Iff.rfl

theorem yields_ask_bind {op : db.Op} {f : db.Answer op → Program db ε α} :
    ((ask op : Program db ε _) >>= f).Yields Q ↔ ∀ a, (f a).Yields Q :=
  Iff.rfl

variable {f : β → Program db ε α}

theorem yields_bind {p : Program db ε β} {P : β → Prop}
    (hp : p.Yields P) (hf : ∀ b, P b → (f b).Yields Q) : (p >>= f).Yields Q := by
  change (p.bind f).Yields Q
  induction p with
  | done b => exact hf b hp
  | throw => trivial
  | stmt _ _ ih => exact fun a ↦ ih a (hp a)
  | commit _ ih | rollbackTo _ _ ih => exact ih hp
  | savepoint _ ih => exact fun w ↦ ih w (hp w)

theorem yields_true (p : Program db ε α) : p.Yields fun _ ↦ True := by
  induction p with
  | done | throw => trivial
  | stmt _ _ ih | commit _ ih | savepoint _ ih | rollbackTo _ _ ih => exact ih

/-- A program of which nothing is said is followed by one of which it is. -/
theorem yields_of_next {p : Program db ε β}
    (hf : ∀ b, (f b).Yields Q) : (p >>= f).Yields Q :=
  yields_bind (yields_true p) fun b _ ↦ hf b

/-- What a program that runs by itself ends with. -/
theorem Ends.yields {p : Program db ε α} {w : Writes db} {s s' : Store db} {result : Except ε α}
    (h : Ends p w s result s') (hp : p.Yields Q) : ∀ a, result = .ok a → Q a := by
  induction h with
  | done =>
    rintro _ ⟨rfl⟩
    exact hp
  | throw => exact fun a ha ↦ nomatch ha
  | stmt _ _ ih | savepoint _ ih => exact ih (hp _)
  | commit _ ih | rollbackTo _ ih => exact ih hp

end Yields

end Program

variable {sys : System}

/-- Requests made one after another, each of which may be made on the rows and after the
answers it finds, and what they were answered, latest first. -/
inductive Turns (sys : System) (may : sys.Call → Store sys.db → List (Answered sys) → Prop)
    (rows : Store sys.db) :
    Store sys.db → List (Answered sys) → Prop where
  | start : Turns sys may rows rows []
  | turn {s s' : Store sys.db} {history : List (Answered sys)} {call : sys.Call}
      {result : Except sys.Failure sys.Outcome} (hbefore : Turns sys may rows s history)
      (hmay : may call s history) (hends : (sys.body call).Ends Writes.nothing s result s') :
      Turns sys may rows s' (⟨history.length, call, result⟩ :: history)

variable {may : sys.Call → Store sys.db → List (Answered sys) → Prop}

/-- A moment at which one request is under way. -/
private def soleRunning (rows : Store sys.db) (history : List (Answered sys)) (call : sys.Call)
    (p : Program sys.db sys.Failure sys.Outcome) (w : Writes sys.db) : Config sys where
  rows
  running := Function.update (fun _ ↦ none) history.length (some ⟨call, p, w⟩)
  begun := history.length + 1
  history

/-- A moment at which no request is under way. -/
private def quiet (rows : Store sys.db) (history : List (Answered sys)) : Config sys where
  rows
  running := fun _ ↦ none
  begun := history.length
  history

/-- The only request under way runs to its end. -/
private theorem reaches_of_ends {call : sys.Call} {p : Program sys.db sys.Failure sys.Outcome}
    {w : Writes sys.db} {s s' : Store sys.db} {result : Except sys.Failure sys.Outcome}
    (hends : p.Ends w s result s') (history : List (Answered sys)) :
    Reaches .free (soleRunning s history call p w)
      (quiet s' (⟨history.length, call, result⟩ :: history)) := by
  have hrunning : ∀ (s : Store sys.db) p w,
      (soleRunning s history call p w).running history.length = some ⟨call, p, w⟩ := by
    intro s p w
    simp [soleRunning]
  have hsole : ∀ (s : Store sys.db) p w t r, t ≠ history.length →
      (soleRunning s history call p w).running t ≠ some r := by
    intro s p w t r hne hr
    simp [soleRunning, Function.update_of_ne hne] at hr
  induction hends with
  | @done a w s =>
    refine .single ?_
    have hstep := Step.commit (d := .free) (hrunning s (.done a) w) trivial
    rw [soleRunning, Function.update_idem, Function.update_eq_self_iff.mpr rfl] at hstep
    exact hstep
  | @throw e w s =>
    refine .single ?_
    have hstep := Step.refuse (d := .free) (hrunning s (.throw e) w)
    rw [soleRunning, Function.update_idem, Function.update_eq_self_iff.mpr rfl] at hstep
    exact hstep
  | @stmt op next w s s' a result ha _ ih =>
    have hstep := Step.run (d := .free) (hrunning s (.stmt op next) w)
      (fun t r hne hr ↦ absurd hr (hsole _ _ _ _ _ hne)) trivial ha
    rw [soleRunning, Function.update_idem] at hstep
    exact .head hstep ih
  | @commit next w s s' result _ ih =>
    have hstep := Step.part (d := .free) (hrunning s (.commit next) w) trivial
    rw [soleRunning, Function.update_idem] at hstep
    exact .head hstep ih
  | @savepoint next w s s' result _ ih =>
    have hstep := Step.savepoint (d := .free) (hrunning s (.savepoint next) w)
    rw [soleRunning, Function.update_idem] at hstep
    exact .head hstep ih
  | @rollbackTo saved next w s s' result _ ih =>
    have hstep := Step.rollbackTo (d := .free) (hrunning s (.rollbackTo saved next) w)
    rw [soleRunning, Function.update_idem] at hstep
    exact .head hstep ih

variable {history : List (Answered sys)}

/-- Requests made one after another are an interleaving. -/
theorem reaches_of_turns {rows s : Store sys.db}
    (h : Turns sys may rows s history) :
    ∃ c : Config sys, Reaches .free (.start rows) c ∧ c.rows = s ∧ c.history = history := by
  suffices Reaches .free (.start rows) (quiet s history : Config sys) from
    ⟨_, this, rfl, rfl⟩
  induction h with
  | start => exact .refl
  | turn _ _ hends ih => exact ih.trans (.head (.begin _) (reaches_of_ends hends _))

/-- A fact about the rows and the answers that every turn keeps holds after any number of
them. -/
theorem Turns.invariant {rows s : Store sys.db}
    {P : Store sys.db → List (Answered sys) → Prop} (h : Turns sys may rows s history)
    (hstart : P rows [])
    (hturn : ∀ s s' history call result, may call s history → P s history →
      (sys.body call).Ends Writes.nothing s result s' →
      P s' (⟨history.length, call, result⟩ :: history)) :
    P s history := by
  induction h with
  | start => exact hstart
  | turn _ hmay hends ih => exact hturn _ _ _ _ _ hmay ih hends

/-- Requests made one after another on given rows, computed. -/
def Turns.perform (may : sys.Call → Store sys.db → List (Answered sys) → Prop)
    [∀ call s history, Decidable (may call s history)] (O : Oracle sys.db) :
    List sys.Call → Store sys.db → List (Answered sys) →
      Option (Store sys.db × List (Answered sys))
  | [], s, history => some (s, history)
  | call :: calls, s, history =>
    if may call s history then
      match (sys.body call).perform O Writes.nothing s with
      | none => none
      | some (result, s') =>
        Turns.perform may O calls s' (⟨history.length, call, result⟩ :: history)
    else none

/-- Requests computed one after another are turns. -/
theorem turns_of_perform [∀ call s history, Decidable (may call s history)] {O : Oracle sys.db}
    {calls : List sys.Call} {rows s s' : Store sys.db} {history history' : List (Answered sys)}
    (hbefore : Turns sys may rows s history)
    (h : Turns.perform may O calls s history = some (s', history')) :
    Turns sys may rows s' history' := by
  induction calls generalizing s history with
  | nil =>
    obtain ⟨rfl, rfl⟩ := Prod.mk.inj (Option.some.inj h)
    exact hbefore
  | cons call _ ih =>
    rw [Turns.perform] at h
    split at h
    case isTrue hmay =>
      cases hperform : (sys.body call).perform O Writes.nothing s with
      | none => simp [hperform] at h
      | some ended =>
        obtain ⟨result, s₁⟩ := ended
        simp only [hperform] at h
        exact ih (hbefore.turn hmay (Program.ends_of_perform hperform)) h
    case isFalse => simp at h

end Odudu.ReadCommitted
