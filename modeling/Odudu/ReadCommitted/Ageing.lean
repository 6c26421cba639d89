import Odudu.ReadCommitted.RelyGuarantee
import Odudu.ReadCommitted.Turns

/-!
# Rows that only age

In most tables a row never becomes an earlier version of itself: what is spent stays
spent, what is revoked stays revoked.  An `Ageing` is such an order on the cells of each
key, and the order on stores is its pointwise version.  When every commit ages the rows,
everything a transaction has seen can only have aged by its next statement
(`Ageing.Rely.seen`), and a row it has written is as it left it.

A program is described once, under any rules whose rely is an ageing one
(`Ageing.Governs`), and the description serves every system it is part of.
-/

set_option autoImplicit false

namespace Odudu.ReadCommitted

/-- How a cell may change from one committed state to a later one. -/
structure Ageing (db : Database) where
  older : (k : db.Key) → db.Cell k → db.Cell k → Prop
  refl : ∀ k v, older k v v
  trans : ∀ {k v v' v''}, older k v v' → older k v' v'' → older k v v''

namespace Ageing

variable {db : Database} {A : Ageing db} {w later : Writes db} {s s' s'' : Store db}

variable (A) in
/-- Every row has aged. -/
def Ages (s s' : Store db) : Prop := ∀ k, A.older k (s k) (s' k)

theorem Ages.refl (s : Store db) : A.Ages s s := fun k ↦ A.refl k (s k)

theorem Ages.trans (h : A.Ages s s') (h' : A.Ages s' s'') : A.Ages s s'' :=
  fun k ↦ A.trans (h k) (h' k)

theorem Ages.andThen (h : A.Ages s (w.laidOver s))
    (hlater : A.Ages (w.laidOver s) (later.laidOver (w.laidOver s))) :
    A.Ages s ((w.andThen later).laidOver s) := by
  rw [Writes.andThen_laidOver]
  exact h.trans hlater

variable (A) in
/-- What others may have done while the writes `w` are held: a locked row is as it was,
and every row has aged. -/
structure Rely (w : Writes db) (s s' : Store db) : Prop where
  locked : ∀ k v, w k = some v → s' k = s k
  ages : A.Ages s s'

theorem Rely.refl (w : Writes db) (s : Store db) : A.Rely w s s := ⟨fun _ _ _ ↦ rfl, .refl s⟩

theorem Rely.trans (h : A.Rely w s s') (h' : A.Rely w s' s'') : A.Rely w s s'' :=
  ⟨fun k v hk ↦ (h'.locked k v hk).trans (h.locked k v hk), h.ages.trans h'.ages⟩

/-- What a transaction sees has aged by its next statement. -/
theorem Rely.seen (h : A.Rely w s s') : A.Ages (w.laidOver s) (w.laidOver s') := by
  intro k
  cases hk : w k with
  | none =>
    rw [Writes.laidOver_of_none hk, Writes.laidOver_of_none hk]
    exact h.ages k
  | some v =>
    rw [Writes.laidOver_of_some hk, Writes.laidOver_of_some hk]
    exact A.refl k v

/-- Writes that age the rows still do when others have committed, as long as the rows
written are as they were. -/
theorem Ages.of_locked (hw : A.Ages s (w.laidOver s)) (hlocked : ∀ k v, w k = some v → s' k = s k) :
    A.Ages s' (w.laidOver s') := by
  intro k
  cases hk : w k with
  | none =>
    rw [Writes.laidOver_of_none hk]
    exact A.refl k _
  | some v =>
    have hold := hw k
    rw [Writes.laidOver_of_some hk] at hold ⊢
    rw [hlocked k v hk]
    exact hold

theorem Rely.laidOver (h : A.Rely w s s') (hw : A.Ages s (w.laidOver s)) :
    A.Ages s' (w.laidOver s') :=
  hw.of_locked h.locked

variable (A) in
/-- The rules let others only age the rows, and keep a fact about the committed rows. -/
def Governs {ε : Type} (P : Store db → Prop) (R : Rules db ε) : Prop :=
  ∀ w s s', R.rely w s s' → A.Rely w s s' ∧ P s'

theorem Governs.wp_ask {ε α : Type} {P : Store db → Prop} {R : Rules db ε} (hR : A.Governs P R)
    {op : db.Op} {f : db.Answer op → Program db ε α} {post : α → Writes db → Store db → Prop}
    (h : ∀ s' a, A.Rely w s s' → P s' → R.rely w s s' → R.mayRun op (w.laidOver s') →
      db.Answers op (w.laidOver s') a →
      (f a).wp R (w.andThen (db.effect op (w.laidOver s'))) s' post) :
    (Program.ask op >>= f).wp R w s post := by
  rw [Program.wp_bind]
  exact fun s' a hrely hrun ha ↦ h s' a (hR w s s' hrely).1 (hR w s s' hrely).2 hrely hrun ha

/-- A contract whose commits age the rows is a rely that only ages them. -/
theorem rely_of_contract {sys : System} {K : Contract sys} {A : Ageing sys.db}
    (hguar : ∀ t call s w outcome, K.Inv s → K.Guar t call s w outcome → A.Ages s (w.laidOver s))
    {w : Writes sys.db} {s s' : Store sys.db} (h : K.Rely w s s') : A.Rely w s s' := by
  refine ⟨fun k v hk ↦ h.1.locked hk, ?_⟩
  refine h.1.stable (P := A.Ages s) ?_ (Ages.refl s)
  exact fun t call s₁ w' outcome hinv hcommit _ hages ↦
    hages.trans (hguar t call s₁ w' outcome hinv hcommit)

/-- What is known while a transaction runs: the committed rows have aged since `s₀`, and
its writes age them. -/
structure Since (A : Ageing db) (s₀ : Store db) (w : Writes db) (s : Store db) : Prop where
  rows : A.Ages s₀ s
  writes : A.Ages s (w.laidOver s)

theorem Since.start (s : Store db) : A.Since s Writes.nothing s := ⟨.refl s, .refl s⟩

theorem Since.seen {s₀ : Store db} (h : A.Since s₀ w s) : A.Ages s₀ (w.laidOver s) :=
  h.rows.trans h.writes

theorem Since.of_rely {s₀ : Store db} (h : A.Since s₀ w s) (hrely : A.Rely w s s') :
    A.Since s₀ w s' :=
  ⟨h.rows.trans hrely.ages, hrely.laidOver h.writes⟩

theorem Since.andThen {s₀ : Store db} (h : A.Since s₀ w s)
    (hlater : A.Ages (w.laidOver s) (later.laidOver (w.laidOver s))) :
    A.Since s₀ (w.andThen later) s :=
  ⟨h.rows, h.writes.andThen hlater⟩

theorem Since.committed {s₀ : Store db} (h : A.Since s₀ w s) :
    A.Since s₀ Writes.nothing (w.laidOver s) :=
  ⟨h.seen, .refl _⟩

section Lenient

variable {ε α : Type} {P : Store db → Prop} {R : Rules db ε} {s₀ : Store db}

/-- The same rules, with nothing owed where the program throws. -/
def forgiving (R : Rules db ε) : Rules db ε := { R with owesThrow := fun _ _ ↦ True }

variable (A) in
/-- Rules by which others only age the rows, and a commit owes no more than to. -/
structure Lenient (P : Store db → Prop) (R : Rules db ε) : Prop where
  governs : A.Governs P R
  commits : ∀ s w, A.Ages s (w.laidOver s) → R.owesCommit s w

theorem Lenient.forgiving (hR : A.Lenient P R) : A.Lenient P (forgiving R) :=
  ⟨hR.governs, hR.commits⟩

theorem Lenient.wp_ask (hR : A.Lenient P R) (h₀ : A.Since s₀ w s) {op : db.Op}
    (hop : ∀ s, A.Ages s (Writes.laidOver (db.effect op s) s))
    {f : db.Answer op → Program db ε α} {post : α → Writes db → Store db → Prop}
    (h : ∀ s' a, A.Rely w s s' → P s' → R.mayRun op (w.laidOver s') →
      db.Answers op (w.laidOver s') a →
      A.Since s₀ (w.andThen (db.effect op (w.laidOver s'))) s' →
      (f a).wp R (w.andThen (db.effect op (w.laidOver s'))) s' post) :
    (Program.ask op >>= f).wp R w s post :=
  hR.governs.wp_ask fun s' a hrely hs' _ hrun ha ↦
    h s' a hrely hs' hrun ha ((h₀.of_rely hrely).andThen (hop _))

theorem Lenient.wp_endTransaction (hR : A.Lenient P R) (h₀ : A.Since s₀ w s)
    {f : Unit → Program db ε α} {post : α → Writes db → Store db → Prop}
    (h : ∀ s', A.Rely w s s' → P s' → A.Since s₀ Writes.nothing (w.laidOver s') →
      (f ()).wp R Writes.nothing (w.laidOver s') post) :
    (Program.endTransaction >>= f).wp R w s post := by
  rw [Program.wp_bind]
  intro s' hrely _
  obtain ⟨hage, hs'⟩ := hR.governs _ _ _ hrely
  have h₁ := h₀.of_rely hage
  exact ⟨hR.commits s' w h₁.writes, h s' hage hs' h₁.committed⟩

/-- A program whose statements age the rows they find ages the rows. -/
theorem Lenient.wp_only (hR : A.Lenient P R) (hthrow : ∀ e s, R.owesThrow e s)
    {p : Program db ε α}
    (hp : p.Only fun op ↦ ∀ s, A.Ages s (Writes.laidOver (db.effect op s) s))
    (h₀ : A.Since s₀ w s) : p.wp R w s fun _ w s ↦ A.Since s₀ w s := by
  induction p generalizing w s with
  | done => exact h₀
  | throw e => exact fun s' _ ↦ hthrow e s'
  | stmt _ _ ih =>
    intro s' a hrely _ _
    exact ih a (hp.2 a) ((h₀.of_rely (hR.governs _ _ _ hrely).1).andThen (hp.1 _))
  | commit _ ih =>
    intro s' hrely _
    have h₁ := h₀.of_rely (hR.governs _ _ _ hrely).1
    exact ⟨hR.commits s' w h₁.writes, ih hp h₁.committed⟩
  | savepoint _ ih => exact hp.elim
  | rollbackTo _ _ ih =>
    obtain ⟨rfl, hnext⟩ := hp
    refine ih hnext ⟨h₀.rows, ?_⟩
    rw [Writes.restore_nothing_laidOver]
    exact .refl s

/-- The rule of a program whose error the caller is told of. -/
theorem Lenient.wp_attempt (hR : A.Lenient P R) {p : Program db ε α}
    {post : Except ε α → Writes db → Store db → Prop}
    (herror : ∀ e s', post (.error e) Writes.nothing s')
    (h : p.wp (Ageing.forgiving R) w s fun a w s' ↦ post (.ok a) w s') :
    p.attempt.wp R w s post := by
  induction p generalizing w s with
  | done => exact h
  | throw e =>
    intro s' _ _
    change R.owesCommit s' _ ∧ post (.error e) Writes.nothing _
    refine ⟨hR.commits s' _ ?_, herror e _⟩
    rw [Writes.restore_nothing_laidOver]
    exact .refl s'
  | stmt _ _ ih => exact fun s' a hrely hrun ha ↦ ih a (h s' a hrely hrun ha)
  | commit _ ih =>
    intro s' hrely hmay
    obtain ⟨howed, hnext⟩ := h s' hrely hmay
    exact ⟨howed, ih hnext⟩
  | savepoint _ ih => exact ih _ h
  | rollbackTo _ _ ih => exact ih h

theorem Lenient.wp_transaction (hR : A.Lenient P R) {p : Program db ε α}
    {post : Except ε α → Writes db → Store db → Prop}
    (herror : ∀ e s', post (.error e) Writes.nothing s')
    (h : p.wp (Ageing.forgiving R) w s fun a w s' ↦ A.Since s₀ w s' ∧
      ∀ s'', A.Rely w s' s'' → A.Since s₀ w s'' →
        post (.ok a) Writes.nothing (w.laidOver s'')) :
    p.transaction.wp R w s post := by
  rw [Program.transaction, Program.wp_bind]
  refine hR.wp_attempt herror (Program.wp_mono ?_ h)
  rintro a w' s' ⟨h₀, hpost⟩ s'' hrely -
  have h₁ := h₀.of_rely (hR.governs _ _ _ hrely).1
  exact ⟨hR.commits s'' w' h₁.writes, hpost s'' (hR.governs _ _ _ hrely).1 h₁⟩

end Lenient

end Ageing

end Odudu.ReadCommitted
