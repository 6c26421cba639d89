import Odudu.ReadCommitted.Interleaving

/-!
# Contracts: what every commit guarantees

A `Contract` names an invariant of the committed rows, what each call guarantees of its
commits, and what holds when it throws.  A request is `Safe` when, with the others
committing only what the contract guarantees on rows it has not locked, it pays both.
The soundness theorem says that when every call is safe from the start, every
interleaving is a sequence of guaranteed effects (`Contract.effects_of_reaches`): proofs
about runs are then inductions over effects, `Contract.invariant`, in which no request is
half done.

`Contract.tighten` starts again from a moment of a run.  The requests under way keep the
contract they began with, and those that begin afterwards may be held to more, because
more is known of the rows from then on.

What is known at a point of a program, of its own writes and of the committed rows, is of use
at the next statement only if the others keep it (`Contract.Stable`).  `Contract.Stands` is the
triple of a program between what is known before it and after it, and its rules are those of a
sequential program, with the knowledge carried from one statement to the next made stable.
`Contract.Ends` is what is to be known at the end of a call that is one transaction; a call
that gets there is safe (`Contract.safe_of_stands`).
-/

set_option autoImplicit false

namespace Odudu.ReadCommitted

variable {sys : System}

/-- An invariant of the committed rows and a guarantee for everything a call does to
them. -/
structure Contract (sys : System) where
  /-- What holds of the committed rows. -/
  Inv : Store sys.db → Prop
  /-- What request `t` may commit over rows that meet the invariant, with its outcome when
  the commit is its last. -/
  Guar : ℕ → sys.Call → Store sys.db → Writes sys.db → Option sys.Outcome → Prop
  /-- What holds of the rows when request `t` answers with a failure. -/
  Thrown : ℕ → sys.Call → Store sys.db → sys.Failure → Prop
  /-- A guaranteed commit keeps the invariant. -/
  kept : ∀ {t call s w outcome}, Inv s → Guar t call s w outcome → Inv (w.laidOver s)

namespace Contract

variable (K : Contract sys) (d : Discipline sys)

/-- One commit of another request, while the writes `w` are held. -/
inductive Env (w : Writes sys.db) : Store sys.db → Store sys.db → Prop where
  | commit {t : ℕ} {call : sys.Call} {s : Store sys.db} {w' : Writes sys.db}
      {outcome : Option sys.Outcome} (hinv : K.Inv s) (hguar : K.Guar t call s w' outcome)
      (hapart : w'.Apart w) : Env w s (w'.laidOver s)

/-- Any number of commits of other requests, while the writes `w` are held. -/
abbrev Interferes (w : Writes sys.db) : Store sys.db → Store sys.db → Prop :=
  Relation.ReflTransGen (K.Env w)

/-- How the rows may have moved by a request's next statement. -/
def Rely (w : Writes sys.db) (s s' : Store sys.db) : Prop := K.Interferes w s s' ∧ K.Inv s'

/-- The rules of request `t` making a call. -/
def rules (t : ℕ) (call : sys.Call) : Rules sys.db sys.Failure where
  rely := K.Rely
  mayRun := d.mayRun call
  mayCommit := fun s w ↦ d.mayCommit call none s w
  owesCommit := fun s w ↦ K.Guar t call s w none
  owesThrow := fun e s ↦ K.Thrown t call s e

/-- A request that does only what the contract guarantees. -/
def Safe (t : ℕ) (call : sys.Call) (p : Program sys.db sys.Failure sys.Outcome)
    (w : Writes sys.db) (s : Store sys.db) : Prop :=
  p.wp (K.rules d t call) w s fun outcome w s ↦
    ∀ s', K.Rely w s s' → d.mayCommit call (some outcome) s' w →
      K.Guar t call s' w (some outcome)

variable {K d} {s s' : Store sys.db}

/-- With fewer rows locked, others may do no less. -/
theorem Interferes.restore {saved w : Writes sys.db}
    (h : K.Interferes w s s') : K.Interferes (Writes.restore saved w) s s' := by
  refine Relation.ReflTransGen.mono (fun a b hab ↦ ?_) _ _ h
  cases hab with
  | commit hinv hguar hapart => exact .commit hinv hguar hapart.symm.restore.symm

variable {w : Writes sys.db}

theorem Interferes.locked (h : K.Interferes w s s')
    {k : sys.db.Key} {v : sys.db.Cell k} (hlocked : w k = some v) : s' k = s k := by
  induction h with
  | refl => rfl
  | tail _ hlast ih =>
    cases hlast with
    | commit _ _ hapart => exact (hapart.laidOver_eq hlocked _).trans ih

/-- A fact that no guaranteed commit undoes, while the writes `w` are held, still holds
when the others have run. -/
theorem Interferes.stable {P : Store sys.db → Prop}
    (hcommit : ∀ t call s w' outcome, K.Inv s → K.Guar t call s w' outcome → w'.Apart w →
      P s → P (w'.laidOver s))
    (h : K.Interferes w s s') (hP : P s) : P s' := by
  induction h with
  | refl => exact hP
  | tail _ hlast ih =>
    cases hlast with
    | commit hinv hguar hapart => exact hcommit _ _ _ _ _ hinv hguar hapart ih

theorem rely_refl {s : Store sys.db} (hinv : K.Inv s) : K.Rely w s s :=
  ⟨.refl, hinv⟩

theorem Rely.trans {s s' s'' : Store sys.db} (h : K.Rely w s s')
    (h' : K.Rely w s' s'') : K.Rely w s s'' :=
  ⟨h.1.trans h'.1, h'.2⟩

theorem Safe.of_rely {t : ℕ} {call : sys.Call}
    {p : Program sys.db sys.Failure sys.Outcome}
    (h : K.Safe d t call p w s) (hrely : K.Rely w s s') : K.Safe d t call p w s' :=
  Program.wp_of_rely (R := K.rules d t call) Rely.trans (fun h ↦ ⟨h.1.restore, h.2⟩)
    (fun hrely hpost s'' hrely' hmay ↦ hpost s'' (Rely.trans hrely hrely') hmay) hrely h

variable (K d) in
/-- What holds of every moment of a run under the contract, from request `first` on. -/
structure Sound (first : ℕ) (c : Config sys) : Prop where
  /-- The committed rows meet the invariant. -/
  inv : K.Inv c.rows
  /-- Every request under way is safe. -/
  safe : ∀ t r, c.running t = some r → K.Safe d t r.call r.program r.pending c.rows
  /-- No two requests hold a lock on one row. -/
  locks : ∀ t t' r r', t ≠ t' → c.running t = some r → c.running t' = some r' →
    r.pending.Apart r'.pending
  /-- Requests are numbered as they begin. -/
  numbered : ∀ t r, c.running t = some r → t < c.begun
  begun : first ≤ c.begun

theorem sound_start {s : Store sys.db} (hinv : K.Inv s) : K.Sound d 0 (Config.start s) where
  inv := hinv
  safe := fun _ _ hrunning ↦ nomatch hrunning
  locks := Config.apart_start s
  numbered := fun _ _ hrunning ↦ nomatch hrunning
  begun := Nat.zero_le _

/-- One request is replaced by its next state, or ends, and the committed rows move
as the others rely on: the moment is still sound. -/
private theorem Sound.move {first : ℕ} {c : Config sys} (h : K.Sound d first c) {t : ℕ}
    {r : Running sys} {next : Option (Running sys)} {rows : Store sys.db}
    {history : List (Answered sys)} (hrunning : c.running t = some r) (hinv : K.Inv rows)
    (hrows : ∀ t' r', t' ≠ t → c.running t' = some r' → K.Rely r'.pending c.rows rows)
    (hsafe : ∀ r', next = some r' → K.Safe d t r'.call r'.program r'.pending rows)
    (hlocks : Config.Apart ⟨rows, Function.update c.running t next, c.begun, history⟩) :
    K.Sound d first
      { c with rows := rows, running := Function.update c.running t next,
               history := history } where
  inv := hinv
  safe := running_update hsafe fun t' r' ht hrunning' ↦
    (h.safe t' r' hrunning').of_rely (hrows t' r' ht hrunning')
  locks := hlocks
  numbered := running_update (fun _ _ ↦ h.numbered t r hrunning) fun t' r' _ ↦ h.numbered t' r'
  begun := h.begun

/-- What one step of a run makes of the committed rows and the history: a guaranteed
commit on the way, a guaranteed commit with its answer, or a failure answered. -/
inductive Effect (K : Contract sys) :
    Store sys.db × List (Answered sys) → Store sys.db × List (Answered sys) → Prop where
  | part {t : ℕ} {call : sys.Call} {s : Store sys.db} {w : Writes sys.db}
      {history : List (Answered sys)} (hinv : K.Inv s) (hguar : K.Guar t call s w none) :
      Effect K (s, history) (w.laidOver s, history)
  | commit {t : ℕ} {call : sys.Call} {s : Store sys.db} {w : Writes sys.db}
      {outcome : sys.Outcome} {history : List (Answered sys)} (hinv : K.Inv s)
      (hguar : K.Guar t call s w (some outcome)) :
      Effect K (s, history) (w.laidOver s, ⟨t, call, .ok outcome⟩ :: history)
  | refuse {t : ℕ} {call : sys.Call} {s : Store sys.db} {failure : sys.Failure}
      {history : List (Answered sys)} (hinv : K.Inv s) (hthrown : K.Thrown t call s failure) :
      Effect K (s, history) (s, ⟨t, call, .error failure⟩ :: history)

/-- An answer as the contract has it: its commit was guaranteed, or its failure was one
that may be thrown. -/
inductive Accounts (K : Contract sys) : Answered sys → Prop where
  | ok {t : ℕ} {call : sys.Call} {outcome : sys.Outcome} {s : Store sys.db} {w : Writes sys.db}
      (hinv : K.Inv s) (hguar : K.Guar t call s w (some outcome)) :
      Accounts K ⟨t, call, .ok outcome⟩
  | error {t : ℕ} {call : sys.Call} {failure : sys.Failure} {s : Store sys.db}
      (hinv : K.Inv s) (hthrown : K.Thrown t call s failure) :
      Accounts K ⟨t, call, .error failure⟩

section Soundness

variable {first : ℕ}
  (hbody : ∀ t call s, first ≤ t → K.Inv s → K.Safe d t call (sys.body call) Writes.nothing s)

include hbody

variable {c c' : Config sys}

/-- One step from a sound moment leads to a sound moment, by at most one guaranteed
effect. -/
theorem Sound.step (h : K.Sound d first c) (hstep : Step d c c') :
    K.Sound d first c' ∧
      Relation.ReflGen (Effect K) (c.rows, c.history) (c'.rows, c'.history) := by
  have hstill : ∀ {t : ℕ} t' r', t' ≠ t → c.running t' = some r' →
      K.Rely r'.pending c.rows c.rows := fun _ _ _ _ ↦ rely_refl h.inv
  have hlocks : c'.Apart := Config.Apart.step h.locks hstep
  cases hstep with
  | begin =>
    refine ⟨⟨h.inv, running_update ?_ fun t' r' _ ↦ h.safe t' r', hlocks, running_update ?_ ?_,
      Nat.le_succ_of_le h.begun⟩, .refl⟩
    · rintro _ ⟨rfl⟩
      exact hbody _ _ _ h.begun h.inv
    · exact fun _ _ ↦ Nat.lt_succ_self _
    · exact fun t' r' _ hrunning ↦ Nat.lt_succ_of_lt (h.numbered t' r' hrunning)
  | run hrunning _ hmay ha =>
    refine ⟨h.move hrunning h.inv hstill ?_ hlocks, .refl⟩
    rintro r' ⟨rfl⟩
    exact h.safe _ _ hrunning c.rows _ (rely_refl h.inv) hmay ha
  | @part t call next w hrunning hmay =>
    have hsafe := h.safe _ _ hrunning c.rows (rely_refl h.inv) hmay
    have hinv : K.Inv (w.laidOver c.rows) := K.kept h.inv hsafe.1
    refine ⟨h.move hrunning hinv ?_ ?_ hlocks, .single (.part h.inv hsafe.1)⟩
    · exact fun t' r' hne hrunning' ↦
        ⟨.single (.commit h.inv hsafe.1 (h.locks _ _ _ _ hne.symm hrunning hrunning')), hinv⟩
    · rintro r' ⟨rfl⟩
      exact hsafe.2
  | savepoint hrunning | rollbackTo hrunning =>
    have hsafe := h.safe _ _ hrunning
    refine ⟨h.move hrunning h.inv hstill ?_ hlocks, .refl⟩
    rintro r' ⟨rfl⟩
    exact hsafe
  | @commit t call outcome w hrunning hmay =>
    have hguar : K.Guar t call c.rows w (some outcome) :=
      h.safe _ _ hrunning c.rows (rely_refl h.inv) hmay
    have hinv : K.Inv (w.laidOver c.rows) := K.kept h.inv hguar
    refine ⟨h.move hrunning hinv ?_ (by simp) hlocks, .single (.commit h.inv hguar)⟩
    intro t' r' hne hrunning'
    exact ⟨.single (.commit h.inv hguar (h.locks _ _ _ _ hne.symm hrunning hrunning')), hinv⟩
  | refuse hrunning =>
    have hthrown := h.safe _ _ hrunning c.rows (rely_refl h.inv)
    exact ⟨h.move hrunning h.inv hstill (by simp) hlocks, .single (.refuse h.inv hthrown)⟩
  | lose hrunning => exact ⟨h.move hrunning h.inv hstill (by simp) hlocks, .refl⟩

/-- Safe bodies stay sound over every interleaving. -/
theorem Sound.reaches (h : K.Sound d first c) (hreaches : Reaches d c c') :
    K.Sound d first c' := by
  induction hreaches with
  | refl => exact h
  | tail _ hlast ih => exact (ih.step hbody hlast).1

/-- Every interleaving is a sequence of guaranteed effects. -/
theorem effects_of_reaches (h : K.Sound d first c)
    (hreaches : Reaches d c c') :
    Relation.ReflTransGen (Effect K) (c.rows, c.history) (c'.rows, c'.history) := by
  induction hreaches with
  | refl => exact .refl
  | tail hbefore hlast ih =>
    exact ih.trans ((h.reaches hbody hbefore).step hbody hlast).2.to_reflTransGen

/-- A fact about the committed rows and the history that every guaranteed effect keeps
holds at every moment reached. -/
theorem invariant {P : Store sys.db → List (Answered sys) → Prop}
    (hstep : ∀ s history s' history', Effect K (s, history) (s', history') →
      P s history → P s' history')
    (h : K.Sound d first c) (hreaches : Reaches d c c')
    (hP : P c.rows c.history) : P c'.rows c'.history := by
  have heffects := effects_of_reaches hbody h hreaches
  generalize hx : (c.rows, c.history) = x at heffects
  generalize hy : (c'.rows, c'.history) = y at heffects
  have hlifted : P y.1 y.2 := by
    clear hy
    induction heffects with
    | refl => exact hx ▸ hP
    | tail _ hlast ih => exact hstep _ _ _ _ hlast ih
  rw [← hy] at hlifted
  exact hlifted

/-- What is answered from a sound moment on is answered as the contract says. -/
theorem accounts_of_reaches (h : K.Sound d first c)
    (hreaches : Reaches d c c') : ∀ a ∈ c'.history, a ∈ c.history ∨ K.Accounts a := by
  refine invariant hbody (P := fun _ history ↦ ∀ a ∈ history, a ∈ c.history ∨ K.Accounts a)
    (fun s history s' history' heffect hold a ha ↦ ?_) h hreaches fun a ha ↦ Or.inl ha
  cases heffect with
  | part => exact hold a ha
  | commit hinv hguar =>
    rcases List.mem_cons.mp ha with rfl | hbefore
    · exact Or.inr (.ok hinv hguar)
    · exact hold a hbefore
  | refuse hinv hthrown =>
    rcases List.mem_cons.mp ha with rfl | hbefore
    · exact Or.inr (.error hinv hthrown)
    · exact hold a hbefore

end Soundness

/-- The same contract on rows known to satisfy more, with more asked of what the requests
numbered `first` and later commit and throw. -/
def tighten (K : Contract sys) (first : ℕ) (J : Store sys.db → Prop)
    (more : sys.Call → Store sys.db → Writes sys.db → Option sys.Outcome → Prop)
    (moreThrown : sys.Call → Store sys.db → sys.Failure → Prop)
    (hJ : ∀ t call s w outcome, K.Inv s → K.Guar t call s w outcome → J s → J (w.laidOver s)) :
    Contract sys where
  Inv := fun s ↦ K.Inv s ∧ J s
  Guar := fun t call s w outcome ↦
    K.Guar t call s w outcome ∧ (first ≤ t → more call s w outcome)
  Thrown := fun t call s failure ↦
    K.Thrown t call s failure ∧ (first ≤ t → moreThrown call s failure)
  kept := fun hinv hguar ↦ ⟨K.kept hinv.1 hguar.1, hJ _ _ _ _ _ hinv.1 hguar.1 hinv.2⟩

section Tighten

variable {first : ℕ} {J : Store sys.db → Prop}
  {more : sys.Call → Store sys.db → Writes sys.db → Option sys.Outcome → Prop}
  {moreThrown : sys.Call → Store sys.db → sys.Failure → Prop}
  {hJ : ∀ t call s w outcome, K.Inv s → K.Guar t call s w outcome → J s → J (w.laidOver s)}

theorem rely_of_tighten {w : Writes sys.db} {s s' : Store sys.db}
    (h : (K.tighten first J more moreThrown hJ).Rely w s s') : K.Rely w s s' := by
  refine ⟨Relation.ReflTransGen.mono (fun a b hab ↦ ?_) _ _ h.1, h.2.1⟩
  cases hab with
  | commit hinv hguar hapart => exact .commit hinv.1 hguar.1 hapart

/-- The rules of what is asked in addition. -/
def moreRules (K : Contract sys) (d : Discipline sys) (call : sys.Call)
    (more : sys.Call → Store sys.db → Writes sys.db → Option sys.Outcome → Prop)
    (moreThrown : sys.Call → Store sys.db → sys.Failure → Prop) :
    Rules sys.db sys.Failure where
  rely := K.Rely
  mayRun := d.mayRun call
  mayCommit := fun s w ↦ d.mayCommit call none s w
  owesCommit := fun s w ↦ more call s w none
  owesThrow := fun e s ↦ moreThrown call s e

/-- A request safe under the contract is safe under the tightened one, when what is
asked in addition is met. -/
theorem Safe.tighten {t : ℕ} {call : sys.Call}
    {p : Program sys.db sys.Failure sys.Outcome} {w : Writes sys.db} {s : Store sys.db}
    (h : K.Safe d t call p w s)
    (hmore : first ≤ t →
      p.wp (moreRules (K.tighten first J more moreThrown hJ) d call more moreThrown) w s
        fun outcome w s ↦ ∀ s', (K.tighten first J more moreThrown hJ).Rely w s s' →
          d.mayCommit call (some outcome) s' w → more call s' w (some outcome)) :
    (K.tighten first J more moreThrown hJ).Safe d t call p w s := by
  by_cases hfirst : first ≤ t
  · refine Program.wp_mono ?_ (Program.wp_join
      ((K.tighten first J more moreThrown hJ).rules d t call) (K.rules d t call)
      (moreRules (K.tighten first J more moreThrown hJ) d call more moreThrown)
      (fun _ _ _ hrely ↦ ⟨rely_of_tighten hrely, hrely⟩) (fun _ _ hrun ↦ ⟨hrun, hrun⟩)
      (fun _ _ hmay ↦ ⟨hmay, hmay⟩) (fun _ _ hguar hmore ↦ ⟨hguar, fun _ ↦ hmore⟩)
      (fun _ _ hthrown hmore ↦ ⟨hthrown, fun _ ↦ hmore⟩)
      h (hmore hfirst))
    intro outcome w s hboth s' hrely hmay
    exact ⟨hboth.1 s' (rely_of_tighten hrely) hmay, fun _ ↦ hboth.2 s' hrely hmay⟩
  · refine Program.wp_mono ?_ (Program.wp_join
      ((K.tighten first J more moreThrown hJ).rules d t call) (K.rules d t call)
      (K.rules d t call)
      (fun _ _ _ hrely ↦ ⟨rely_of_tighten hrely, rely_of_tighten hrely⟩)
      (fun _ _ hrun ↦ ⟨hrun, hrun⟩) (fun _ _ hmay ↦ ⟨hmay, hmay⟩)
      (fun _ _ hguar _ ↦ ⟨hguar, fun hle ↦ absurd hle hfirst⟩)
      (fun _ _ hthrown _ ↦ ⟨hthrown, fun hle ↦ absurd hle hfirst⟩) h h)
    intro outcome w s hboth s' hrely hmay
    exact ⟨hboth.1 s' (rely_of_tighten hrely) hmay, fun hle ↦ absurd hle hfirst⟩

/-- From a sound moment at which more is known of the rows, the tightened contract holds
of the requests that have not begun. -/
theorem Sound.tighten {c : Config sys} {n : ℕ} (h : K.Sound d n c) (hrows : J c.rows) :
    (K.tighten c.begun J more moreThrown hJ).Sound d c.begun c where
  inv := ⟨h.inv, hrows⟩
  safe := fun t r hrunning ↦ (h.safe t r hrunning).tighten fun hle ↦
    absurd (h.numbered t r hrunning) (Nat.not_lt.mpr hle)
  locks := h.locks
  numbered := h.numbered
  begun := Nat.le_refl _

end Tighten

end Contract

end Odudu.ReadCommitted

namespace Odudu.ReadCommitted.Contract

variable {sys : System} (K : Contract sys) (d : Discipline sys)

/-- What is known of a program's own writes and of the committed rows. -/
abbrev Known (sys : System) : Type := Writes sys.db → Store sys.db → Prop

/-- What the others keep. -/
def Stable (P : Known sys) : Prop :=
  ∀ {t : ℕ} {call : sys.Call} {s : Store sys.db} {w w' : Writes sys.db}
    {outcome : Option sys.Outcome}, K.Inv s → K.Guar t call s w' outcome → w'.Apart w → P w s →
      P w (w'.laidOver s)

/-- From what is known before a program to what is known after it. -/
def Stands (t : ℕ) (call : sys.Call) {α : Type} (P : Known sys) (p : Program sys.db sys.Failure α)
    (Q : α → Known sys) : Prop :=
  ∀ w s, K.Inv s → P w s → p.wp (K.rules d t call) w s fun a w s ↦ K.Inv s ∧ Q a w s

/-- The end of a call: whatever the others still do, its commit is as guaranteed. -/
def Ends (t : ℕ) (call : sys.Call) (outcome : sys.Outcome) : Known sys := fun w s ↦
  ∀ s', K.Rely w s s' → d.mayCommit call (some outcome) s' w → K.Guar t call s' w (some outcome)

variable {K d} {t : ℕ} {call : sys.Call} {α β : Type} {P P' : Known sys}

theorem Stable.and {P' : Known sys} (h : K.Stable P) (h' : K.Stable P') :
    K.Stable fun w s ↦ P w s ∧ P' w s :=
  fun hinv hguar hapart hP ↦ ⟨h hinv hguar hapart hP.1, h' hinv hguar hapart hP.2⟩

theorem stable_of_writes (P : Writes sys.db → Prop) : K.Stable fun w _ ↦ P w :=
  fun _ _ _ hP ↦ hP

/-- Rows that are only locked stay as they are. -/
theorem stable_locks : K.Stable fun w s ↦ w.laidOver s = s :=
  fun _ _ hapart hsame ↦ hapart.laidOver_same hsame

variable {w : Writes sys.db}

/-- What is stable is still known when others have run. -/
theorem Stable.of_rely (h : K.Stable P) {s s' : Store sys.db}
    (hrely : K.Rely w s s') (hP : P w s) : P w s' :=
  Interferes.stable (fun _ _ _ _ _ hinv hguar hapart hP ↦ h hinv hguar hapart hP) hrely.1 hP

variable {Q : α → Known sys}

theorem stands_pure {a : α} (h : ∀ w s, K.Inv s → P w s → Q a w s) :
    K.Stands d t call P (pure a) Q :=
  fun w s hinv hP ↦ ⟨hinv, h w s hinv hP⟩

variable {p : Program sys.db sys.Failure α}

theorem stands_bind {f : α → Program sys.db sys.Failure β}
    {M : α → Known sys} {Q : β → Known sys} (hp : K.Stands d t call P p M)
    (hf : ∀ a, K.Stands d t call (M a) (f a) Q) : K.Stands d t call P (p >>= f) Q := by
  intro w s hinv hP
  rw [Program.wp_bind]
  exact Program.wp_mono (fun a w s ⟨hinv, hM⟩ ↦ hf a w s hinv hM) (hp w s hinv hP)

theorem Stands.mono {Q Q' : α → Known sys}
    (h : K.Stands d t call P p Q) (hP : ∀ w s, K.Inv s → P' w s → P w s)
    (hQ : ∀ a w s, K.Inv s → Q a w s → Q' a w s) : K.Stands d t call P' p Q' :=
  fun w s hinv hP' ↦ Program.wp_mono (fun a w s ⟨hinv, hQ'⟩ ↦ ⟨hinv, hQ a w s hinv hQ'⟩)
    (h w s hinv (hP w s hinv hP'))

theorem stands_ask_may {op : sys.db.Op} {Q : sys.db.Answer op → Known sys} (hstable : K.Stable P)
    (h : ∀ w s a, K.Inv s → P w s → d.mayRun call op (w.laidOver s) →
      sys.db.Answers op (w.laidOver s) a →
        Q a (w.andThen (sys.db.effect op (w.laidOver s))) s) :
    K.Stands d t call P (Program.ask op) Q := by
  intro w s hinv hP s' a hrely hrun ha
  exact ⟨hrely.2, h w s' a hrely.2 (hstable.of_rely hrely hP) hrun ha⟩

theorem stands_ask {op : sys.db.Op} {Q : sys.db.Answer op → Known sys} (hstable : K.Stable P)
    (h : ∀ w s a, K.Inv s → P w s → sys.db.Answers op (w.laidOver s) a →
      Q a (w.andThen (sys.db.effect op (w.laidOver s))) s) :
    K.Stands d t call P (Program.ask op) Q :=
  stands_ask_may hstable fun w s a hinv hP _ ↦ h w s a hinv hP

theorem stands_throw {e : sys.Failure}
    (howed : ∀ s, K.Thrown t call s e) : K.Stands d t call P (.throw e) Q :=
  fun _ _ _ _ s' _ ↦ howed s'

variable {next : Writes sys.db → Program sys.db sys.Failure α}

theorem stands_savepoint
    (h : ∀ saved, K.Stands d t call (fun w s ↦ w = saved ∧ P w s) (next saved) Q) :
    K.Stands d t call P (.savepoint next) Q :=
  fun w s hinv hP ↦ h w w s hinv ⟨rfl, hP⟩

variable {saved : Writes sys.db}

theorem stands_rollbackTo {next : Program sys.db sys.Failure α}
    (h : K.Stands d t call (fun w _ ↦ ∀ k v, w k = some v → saved k = some v) next Q) :
    K.Stands d t call P (.rollbackTo saved next) Q := by
  intro w s hinv _
  refine h (Writes.restore saved w) s hinv fun k v hk ↦ ?_
  cases hw : w k with
  | none => simp [Writes.restore, hw] at hk
  | some => simpa [Writes.restore, hw] using hk

/-- What was known at a savepoint is known of the writes saved there, all of them locked. -/
def Back (P : Known sys) (saved : Writes sys.db) : Known sys := fun w s ↦
  saved.Within w ∧ P saved s

theorem Stable.back (h : K.Stable P) (saved : Writes sys.db) : K.Stable (Back P saved) :=
  fun hinv hguar hapart hback ↦ ⟨hback.1, h hinv hguar (hback.1.apart hapart) hback.2⟩

theorem stands_savepoint_back
    (h : ∀ saved, K.Stands d t call (fun w s ↦ P w s ∧ Back P saved w s) (next saved) Q) :
    K.Stands d t call P (.savepoint next) Q :=
  fun w s hinv hP ↦ h w w s hinv ⟨hP, .refl w, hP⟩

theorem stands_rollbackTo_back {next : Program sys.db sys.Failure α}
    (h : K.Stands d t call P next Q) :
    K.Stands d t call (Back P saved) (.rollbackTo saved next) Q := by
  intro w s hinv hback
  have hnext := h saved s hinv hback.2
  rw [← hback.1.restore_eq] at hnext
  exact hnext

theorem stands_ite {c : Prop} [Decidable c] {p p' : Program sys.db sys.Failure α}
    (h : c → K.Stands d t call P p Q) (h' : ¬c → K.Stands d t call P p' Q) :
    K.Stands d t call P (if c then p else p') Q := by
  split
  · exact h ‹c›
  · exact h' ‹¬c›

/-- The rule of the end: what is known and stable gives the guarantee. -/
theorem ends_of_stable {outcome : sys.Outcome} (hstable : K.Stable P)
    (h : ∀ w s, K.Inv s → P w s → d.mayCommit call (some outcome) s w →
      K.Guar t call s w (some outcome)) {s : Store sys.db} (hP : P w s) :
    K.Ends d t call outcome w s :=
  fun s' hrely hmay ↦ h w s' hrely.2 (hstable.of_rely hrely hP) hmay

theorem safe_of_stands {p : Program sys.db sys.Failure sys.Outcome}
    {s : Store sys.db} (h : K.Stands d t call P p (K.Ends d t call)) (hinv : K.Inv s)
    (hP : P w s) : K.Safe d t call p w s :=
  Program.wp_mono (fun _ _ _ ⟨_, hends⟩ s' hrely hmay ↦ hends s' hrely hmay) (h w s hinv hP)

end Odudu.ReadCommitted.Contract
