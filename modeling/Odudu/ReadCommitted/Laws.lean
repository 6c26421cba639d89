import Odudu.ReadCommitted.Ageing

/-!
# Rows under a law

A `Law` says of each cell what it may hold among the rows around it, and goes on holding as
the rows age.  A foreign key is one, and so is a bound that a row takes from another.  When
every statement keeps to the law in what it writes, every commit leaves lawful rows
(`Law.lawful_laidOver`), and what a call promises of its outcome holds of the rows from then
on (`Law.promises_of_reaches`).

A program is described once, under any rules that abide by the law, as `Ageing.Lenient` has it
for ageing alone.
-/

set_option autoImplicit false

namespace Odudu.ReadCommitted

/-- What each cell may hold, judged by the rows around it. -/
structure Law {db : Database} (A : Ageing db) where
  holds : (k : db.Key) → db.Cell k → Store db → Prop
  ages : ∀ {k v s s'}, holds k v s → A.Ages s s' → holds k v s'

namespace Law

variable {db : Database} {A : Ageing db} (Q : Law A) {w later : Writes db} {s₀ s s' : Store db}

/-- Every cell holds what it may. -/
def Lawful (s : Store db) : Prop := ∀ k, Q.holds k (s k) s

/-- Every cell written holds what it may. -/
def Wrote (w : Writes db) (s : Store db) : Prop := ∀ k v, w k = some v → Q.holds k v (w.laidOver s)

/-- A statement that, on the rows it sees, ages them and writes what it may. -/
structure Keeps (op : db.Op) (s : Store db) : Prop where
  ages : A.Ages s (Writes.laidOver (db.effect op s) s)
  wrote : Q.Wrote (db.effect op s) s

variable (A) in
/-- A fact about the rows that goes on holding as they age. -/
def Kept (F : Store db → Prop) : Prop := ∀ s s', A.Ages s s' → F s → F s'

/-- What is known while a transaction runs: the rows are lawful, its writes are too and age
them, and a fact holds of what it sees. -/
structure Carries (F : Store db → Prop) (w : Writes db) (s : Store db) : Prop where
  ages : A.Ages s (w.laidOver s)
  lawful : Q.Lawful s
  wrote : Q.Wrote w s
  fact : F (w.laidOver s)

variable {Q}

/-- Lawful writes that age lawful rows leave lawful rows. -/
theorem lawful_laidOver (hs : Q.Lawful s) (hages : A.Ages s (w.laidOver s)) (hw : Q.Wrote w s) :
    Q.Lawful (w.laidOver s) := by
  intro k
  cases hk : w k with
  | none =>
    rw [Writes.laidOver_of_none hk]
    exact Q.ages (hs k) hages
  | some v =>
    rw [Writes.laidOver_of_some hk]
    exact hw k v hk

variable {F G : Store db → Prop}

theorem kept_true : Kept A fun _ ↦ True := fun _ _ _ _ ↦ trivial

theorem Kept.and (hF : Kept A F) (hG : Kept A G) : Kept A fun s ↦ F s ∧ G s :=
  fun s s' hages h ↦ ⟨hF s s' hages h.1, hG s s' hages h.2⟩

theorem Carries.start (hs : Q.Lawful s) (hF : F s) : Q.Carries F Writes.nothing s :=
  ⟨.refl s, hs, fun _ _ hk ↦ (nomatch hk), hF⟩

theorem Carries.seen (h : Q.Carries F w s) : Q.Lawful (w.laidOver s) :=
  lawful_laidOver h.lawful h.ages h.wrote

theorem Carries.imp (h : Q.Carries F w s) (hG : F (w.laidOver s) → G (w.laidOver s)) :
    Q.Carries G w s :=
  ⟨h.ages, h.lawful, h.wrote, hG h.fact⟩

theorem Carries.of_rely (h : Q.Carries F w s) (hF : Kept A F) (hrely : A.Rely w s s')
    (hs' : Q.Lawful s') : Q.Carries F w s' :=
  ⟨hrely.laidOver h.ages, hs', fun k v hk ↦ Q.ages (h.wrote k v hk) hrely.seen,
    hF _ _ hrely.seen h.fact⟩

theorem Carries.andThen (h : Q.Carries F w s) (hF : Kept A F)
    (hages : A.Ages (w.laidOver s) (later.laidOver (w.laidOver s)))
    (hlater : Q.Wrote later (w.laidOver s)) : Q.Carries F (w.andThen later) s where
  ages := h.ages.andThen hages
  lawful := h.lawful
  wrote := by
    intro k v hk
    rw [Writes.andThen_laidOver]
    cases hk' : later k with
    | none =>
      rw [Writes.andThen_of_none hk'] at hk
      exact Q.ages (h.wrote k v hk) hages
    | some v' =>
      rw [Writes.andThen_of_some hk'] at hk
      obtain rfl := Option.some.inj hk
      exact hlater k v' hk'
  fact := by
    rw [Writes.andThen_laidOver]
    exact hF _ _ hages h.fact

theorem Carries.committed (h : Q.Carries F w s) : Q.Carries F Writes.nothing (w.laidOver s) :=
  .start h.seen h.fact

section Rules

variable {ε α : Type} {R : Rules db ε}

variable (Q) in
/-- Rules by which others only age the rows and keep the law, and no more is owed. -/
structure Abides (R : Rules db ε) : Prop where
  governs : A.Governs Q.Lawful R
  commits : ∀ s w, A.Ages s (w.laidOver s) → Q.Wrote w s → R.owesCommit s w
  throws : ∀ e s, R.owesThrow e s

variable {post : α → Writes db → Store db → Prop}

theorem Abides.wp_ask (hR : Q.Abides R) (hF : Kept A F) (h₀ : Q.Carries F w s) {op : db.Op}
    (hop : ∀ s', Q.Carries F w s' → Q.Keeps op (w.laidOver s'))
    {f : db.Answer op → Program db ε α}
    (h : ∀ s' a w', db.Answers op (w.laidOver s') a →
      w'.laidOver s' = Writes.laidOver (db.effect op (w.laidOver s')) (w.laidOver s') →
      Q.Carries F w s' → Q.Carries F w' s' → (f a).wp R w' s' post) :
    (Program.ask op >>= f).wp R w s post := by
  refine hR.governs.wp_ask fun s' a hrely hs' _ _ ha ↦ ?_
  have h₁ := h₀.of_rely hF hrely hs'
  have hkeeps := hop s' h₁
  exact h s' a _ ha (Writes.andThen_laidOver _ _ _) h₁ (h₁.andThen hF hkeeps.ages hkeeps.wrote)

theorem Abides.wp_read (hR : Q.Abides R) (hF : Kept A F) (h₀ : Q.Carries F w s) {op : db.Op}
    (hop : ∀ s, db.effect op s = Writes.nothing)
    {f : db.Answer op → Program db ε α}
    (h : ∀ s' a, db.Answers op (w.laidOver s') a → Q.Carries F w s' → (f a).wp R w s' post) :
    (Program.ask op >>= f).wp R w s post := by
  refine hR.governs.wp_ask fun s' a hrely hs' _ _ ha ↦ ?_
  rw [hop, Writes.andThen_nothing]
  exact h s' a ha (h₀.of_rely hF hrely hs')

theorem Abides.wp_throw (hR : Q.Abides R) {e : ε} :
    (Program.throw e : Program db ε α).wp R w s post :=
  fun s' _ ↦ hR.throws e s'

theorem Abides.wp_endTransaction (hR : Q.Abides R) (hF : Kept A F) (h₀ : Q.Carries F w s)
    {f : Unit → Program db ε α}
    (h : ∀ s', Q.Carries F Writes.nothing s' → (f ()).wp R Writes.nothing s' post) :
    (Program.endTransaction >>= f).wp R w s post := by
  rw [Program.wp_bind]
  intro s' hrely _
  obtain ⟨hage, hs'⟩ := hR.governs _ _ _ hrely
  have h₁ := h₀.of_rely hF hage hs'
  exact ⟨hR.commits s' w h₁.ages h₁.wrote, h _ h₁.committed⟩

/-- A program of statements that keep the law on lawful rows keeps it. -/
theorem Abides.wp_only (hR : Q.Abides R) {p : Program db ε α}
    (hp : p.Only fun op ↦ ∀ s, Q.Lawful s → Q.Keeps op s)
    (h₀ : Q.Carries (fun _ ↦ True) w s) :
    p.wp R w s fun _ w s ↦ Q.Carries (fun _ ↦ True) w s := by
  induction p generalizing w s with
  | done => exact h₀
  | throw => exact hR.wp_throw
  | stmt _ _ ih =>
    intro s' a hrely _ _
    have h₁ := h₀.of_rely kept_true (hR.governs _ _ _ hrely).1 (hR.governs _ _ _ hrely).2
    have hkeeps := hp.1 _ h₁.seen
    exact ih a (hp.2 a) (h₁.andThen kept_true hkeeps.ages hkeeps.wrote)
  | commit _ ih =>
    intro s' hrely _
    have h₁ := h₀.of_rely kept_true (hR.governs _ _ _ hrely).1 (hR.governs _ _ _ hrely).2
    exact ⟨hR.commits s' w h₁.ages h₁.wrote, ih hp h₁.committed⟩
  | savepoint _ ih => exact hp.elim
  | rollbackTo _ _ ih =>
    obtain ⟨rfl, hnext⟩ := hp
    have hnothing : (Writes.restore Writes.nothing w).laidOver s = s :=
      Writes.restore_nothing_laidOver w s
    refine ih hnext ⟨?_, h₀.lawful, fun k v hk ↦ ?_, trivial⟩
    · rw [hnothing]
      exact .refl s
    · rw [Writes.restore] at hk
      cases hw : w k <;> simp [hw] at hk

end Rules

section Runs

variable {sys : System} {A : Ageing sys.db} (Q : Law A)
  (Promise : sys.Call → sys.Outcome → Store sys.db → Prop)

/-- Commits that age the rows, keep the law, and are answered as is promised. -/
def contract : Contract sys where
  Inv := Q.Lawful
  Guar := fun _ call s w outcome ↦ A.Ages s (w.laidOver s) ∧ Q.Wrote w s ∧
    ∀ o, outcome = some o → Promise call o (w.laidOver s)
  Thrown := fun _ _ _ _ ↦ True
  kept := fun hinv hguar ↦ lawful_laidOver hinv hguar.1 hguar.2.1

variable {Q Promise} {d : Discipline sys}

theorem contract_rely {w : Writes sys.db} {s s' : Store sys.db}
    (h : (Q.contract Promise).Rely w s s') : A.Rely w s s' :=
  Ageing.rely_of_contract (K := Q.contract Promise) (fun _ _ _ _ _ _ hguar ↦ hguar.1) h

theorem abides_contract (t : ℕ) (call : sys.Call) :
    Q.Abides ((Q.contract Promise).rules d t call) where
  governs := fun _ _ _ hrely ↦ ⟨contract_rely hrely, hrely.2⟩
  commits := fun _ _ hages hwrote ↦ ⟨hages, hwrote, fun _ h ↦ nomatch h⟩
  throws := fun _ _ ↦ trivial

/-- In every interleaving of calls that keep the law, the rows are lawful, and what the answers
were promised to say of the rows they say. -/
theorem promises_of_reaches
    (hkept : ∀ call outcome, Kept A (Promise call outcome))
    (hbody : ∀ (R : Rules sys.db sys.Failure) call s, Q.Abides R → Q.Lawful s →
      (sys.body call).wp R Writes.nothing s fun outcome w s' ↦
        Q.Carries (Promise call outcome) w s')
    {rows : Store sys.db} (hrows : Q.Lawful rows) {c : Config sys}
    (hc : Reaches d (.start rows) c) :
    Q.Lawful c.rows ∧ ∀ a ∈ c.history, ∀ outcome, a.result = .ok outcome →
      Promise a.call outcome c.rows := by
  have hsafe : ∀ t call s, 0 ≤ t → Q.Lawful s →
      (Q.contract Promise).Safe d t call (sys.body call) Writes.nothing s := by
    intro t call s _ hs
    refine Program.wp_mono ?_ (hbody _ call s (abides_contract t call) hs)
    intro outcome w s₁ h₁ s' hrely _
    have h₂ := h₁.of_rely (hkept call outcome) (contract_rely hrely) hrely.2
    refine ⟨h₂.ages, h₂.wrote, ?_⟩
    rintro _ ⟨rfl⟩
    exact h₂.fact
  have hstart := Contract.sound_start (d := d) (K := Q.contract Promise) hrows
  refine ⟨(hstart.reaches hsafe hc).inv, ?_⟩
  refine Contract.invariant (P := fun s history ↦ ∀ a ∈ history, ∀ outcome,
    a.result = .ok outcome → Promise a.call outcome s) hsafe ?_ hstart hc ?_
  · intro s history s' history' heffect h a ha outcome hresult
    cases heffect with
    | part _ hguar => exact hkept _ _ _ _ hguar.1 (h a ha outcome hresult)
    | refuse =>
      rcases List.mem_cons.mp ha with rfl | hold
      · exact nomatch hresult
      · exact h a hold outcome hresult
    | commit _ hguar =>
      rcases List.mem_cons.mp ha with rfl | hold
      · exact hguar.2.2 outcome (congrArg some (Except.ok.inj hresult))
      · exact hkept _ _ _ _ hguar.1 (h a hold outcome hresult)
  · exact fun a ha ↦ nomatch ha

end Runs

end Law

end Odudu.ReadCommitted
