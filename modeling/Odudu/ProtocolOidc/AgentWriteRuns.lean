import Odudu.ProtocolOidc.AgentWriteBudget
import Odudu.ReadCommitted.RelyGuarantee
import Odudu.ReadCommitted.Scenes
import Mathlib.Algebra.Order.BigOperators.Group.List
import Mathlib.Algebra.Ring.Int.Defs

/-!
# Runs on the write budget

Any number of sign-ins, exchanges, revocations, reservations and givings back beside one
another.  An exchanged grant names the top of its chain, the counters of a root stay between
none and the limit, and the reservations outstanding are counted there
(`outstanding_le_of_reaches`).

A revocation of an exchanged grant is not seen by a reservation, which asks the root alone:
`agent_writes_exact` is about the runs in which no such reservation is answered while the
root is live.
-/

set_option autoImplicit false

namespace Odudu.ProtocolOidc.AgentWriteBudget

open ReadCommitted Program

/-! ### Chains of exchanges -/

/-- The top of a chain of exchanges. -/
inductive Top (rows : Grants) : GrantId → GrantId → Prop where
  | own {id : GrantId} {grant : Grant} (hrow : rows id = some grant)
      (hown : grant.exchangedFromGrantId = none) : Top rows id id
  | exchanged {id parent root : GrantId} {grant : Grant} (hrow : rows id = some grant)
      (hfrom : grant.exchangedFromGrantId = some parent) (htop : Top rows parent root) :
      Top rows id root

/-- The grant that a grant charges, on given rows. -/
def chargedTo (rows : Grants) (id : GrantId) : Option GrantId :=
  (rows id).bind fun grant ↦
    grant.budgetGrantId.or (if grant.exchangedFromGrantId.isNone then some id else none)

/-- A row names the root it charges, and has counted no more than the limits. -/
structure RowFits (limits : BudgetLimits) (rows : Grants) (grant : Grant) : Prop where
  own : grant.exchangedFromGrantId = none → grant.budgetGrantId = none
  exchanged : ∀ parent, grant.exchangedFromGrantId = some parent →
    ∃ root, grant.budgetGrantId = some root ∧ Top rows parent root
  writes : 0 ≤ grant.agentWrites ∧ grant.agentWrites ≤ limits.mutating
  creates : 0 ≤ grant.agentCreates ∧ grant.agentCreates ≤ limits.creates

def InOrder (limits : BudgetLimits) (rows : Grants) : Prop :=
  ∀ id grant, rows id = some grant → RowFits limits rows grant

/-- No grant is gone, and each has the parent and the budget it had. -/
def Keeps (s s' : Grants) : Prop :=
  ∀ id grant, s id = some grant → ∃ grant', s' id = some grant' ∧
    grant'.exchangedFromGrantId = grant.exchangedFromGrantId ∧
    grant'.budgetGrantId = grant.budgetGrantId

variable {limits : BudgetLimits} {s s' s'' : Grants} {id root : GrantId} {grant : Grant}
  {kind : BudgetKind}

theorem Keeps.refl (s : Grants) : Keeps s s := fun _ grant h ↦ ⟨grant, h, rfl, rfl⟩

theorem Keeps.trans (h : Keeps s s') (h' : Keeps s' s'') : Keeps s s'' := by
  intro id grant hrow
  obtain ⟨grant', hrow', hfrom, hbudget⟩ := h id grant hrow
  obtain ⟨grant'', hrow'', hfrom', hbudget'⟩ := h' id grant' hrow'
  exact ⟨grant'', hrow'', hfrom'.trans hfrom, hbudget'.trans hbudget⟩

theorem Top.keeps (h : Top s id root) (hkeeps : Keeps s s') : Top s' id root := by
  induction h with
  | own hrow hown =>
    obtain ⟨grant', hrow', hfrom, -⟩ := hkeeps _ _ hrow
    exact .own hrow' (hfrom.trans hown)
  | exchanged hrow hfrom _ ih =>
    obtain ⟨grant', hrow', hfrom', -⟩ := hkeeps _ _ hrow
    exact .exchanged hrow' (hfrom'.trans hfrom) ih

theorem chargedTo_keeps (hkeeps : Keeps s s') (h : chargedTo s id = some root) :
    chargedTo s' id = some root := by
  obtain ⟨grant, hrow, hroot⟩ := Option.bind_eq_some_iff.mp h
  obtain ⟨grant', hrow', hfrom, hbudget⟩ := hkeeps id grant hrow
  rw [chargedTo, hrow', Option.bind_some, hfrom, hbudget]
  exact hroot

/-- A grant that is there charges the top of its chain. -/
theorem InOrder.chargedTo (h : InOrder limits s) (hrow : s id = some grant) :
    ∃ root, chargedTo s id = some root ∧ Top s id root := by
  have hfits := h id grant hrow
  cases hfrom : grant.exchangedFromGrantId with
  | none =>
    refine ⟨id, ?_, .own hrow hfrom⟩
    simp [AgentWriteBudget.chargedTo, hrow, hfits.own hfrom, hfrom]
  | some parent =>
    obtain ⟨root, hbudget, htop⟩ := hfits.exchanged parent hfrom
    refine ⟨root, ?_, .exchanged hrow hfrom htop⟩
    simp [AgentWriteBudget.chargedTo, hrow, hbudget]

theorem RowFits.keeps (h : RowFits limits s grant) (hkeeps : Keeps s s') :
    RowFits limits s' grant :=
  { h with
    exchanged := by
      intro parent hfrom
      obtain ⟨root, hbudget, htop⟩ := h.exchanged parent hfrom
      exact ⟨root, hbudget, htop.keeps hkeeps⟩ }

/-! ### One row at a time -/

theorem oneRow_none : oneRow none = (Writes.nothing : Writes grantDatabase) := rfl

theorem laidOver_oneRow (id : GrantId) (row : Grant) (s : Grants) :
    @Writes.laidOver grantDatabase (oneRow (some (id, row))) s =
      Function.update s id (some row) := by
  funext id'
  by_cases hid : id' = id
  · subst hid
    simp [Writes.laidOver, oneRow]
  · simp [Writes.laidOver, oneRow, hid]

variable {row : Grant}

theorem keeps_update (h : ∀ grant, s id = some grant →
    row.exchangedFromGrantId = grant.exchangedFromGrantId ∧
      row.budgetGrantId = grant.budgetGrantId) :
    Keeps s (Function.update s id (some row)) := by
  intro id' grant hrow
  by_cases hid : id' = id
  · subst hid
    obtain ⟨hfrom, hbudget⟩ := h grant hrow
    exact ⟨row, Function.update_self .., hfrom, hbudget⟩
  · exact ⟨grant, by rwa [Function.update_of_ne hid], rfl, rfl⟩

theorem InOrder.update (h : InOrder limits s)
    (hkeeps : Keeps s (Function.update s id (some row)))
    (hfits : RowFits limits (Function.update s id (some row)) row) :
    InOrder limits (Function.update s id (some row)) := by
  intro id' grant hrow
  by_cases hid : id' = id
  · subst hid
    obtain rfl : row = grant := by simpa using hrow
    exact hfits
  · rw [Function.update_of_ne hid] at hrow
    exact (h id' grant hrow).keeps hkeeps

/-! ### What a call commits -/

/-- The row a call commits with its answer. -/
inductive Commits (limits : BudgetLimits) (s : Grants) :
    GrantCall → GrantOutcome → Option (GrantId × Grant) → Prop where
  | nothing {call : GrantCall} {outcome : GrantOutcome} (h : outcome ≠ .reserved true) :
      Commits limits s call outcome none
  | signIn {id : GrantId} (hfree : s id = none) :
      Commits limits s (.signIn id) .done (some (id, Grant.fresh none none))
  | exchange {id parent root : GrantId} (hfree : s id = none) (htop : Top s parent root) :
      Commits limits s (.exchange id parent) .done
        (some (id, Grant.fresh (some parent) (some root)))
  | revoke {id : GrantId} {revokedAt : Time} {grant : Grant} (hrow : s id = some grant) :
      Commits limits s (.revoke id revokedAt) (.revoked true)
        (some (id, { grant with revokedAt := some revokedAt }))
  | reserve {id root : GrantId} {kind : BudgetKind} {grant : Grant}
      (hcharged : chargedTo s id = some root) (hrow : s root = some grant)
      (hroom : grant.hasRoom limits kind = true) :
      Commits limits s (.reserve id kind) (.reserved true) (some (root, grant.spent kind))
  | release {reservation : ℕ} {id root : GrantId} {kind : BudgetKind} {grant : Grant}
      (hcharged : chargedTo s id = some root) (hrow : s root = some grant) :
      Commits limits s (.release reservation id kind) .done
        (some (root, grant.givenBack kind))

variable {call : GrantCall} {outcome : GrantOutcome} {written : Option (GrantId × Grant)}

theorem Commits.keeps (h : Commits limits s call outcome written) :
    Keeps s (@Writes.laidOver grantDatabase (oneRow written) s) := by
  cases h with
  | nothing => exact Keeps.refl s
  | signIn hfree | exchange hfree _ =>
    rw [laidOver_oneRow]
    exact keeps_update fun grant hrow ↦ by simp [hfree] at hrow
  | revoke hrow | reserve _ hrow _ | release _ hrow =>
    rw [laidOver_oneRow]
    refine keeps_update fun grant hrow' ↦ ?_
    obtain rfl := Option.some.inj (hrow.symm.trans hrow')
    exact ⟨rfl, rfl⟩

theorem hasRoom_iff : grant.hasRoom limits kind = true ↔ grant.revokedAt = none ∧
    grant.agentWrites < limits.mutating ∧
      (kind = .create → grant.agentCreates < limits.creates) := by
  simp only [Grant.hasRoom, Bool.and_eq_true, Option.isNone_iff_eq_none, decide_eq_true_eq,
    Bool.or_eq_true, ne_eq, and_assoc]
  refine and_congr_right fun _ ↦ and_congr_right fun _ ↦ ?_
  by_cases hkind : kind = .create <;> simp [hkind]

theorem creates_nonneg (kind : BudgetKind) : 0 ≤ kind.creates ∧ kind.creates ≤ 1 := by
  cases kind <;> decide

/-- The counters stay between none and the limits. -/
theorem RowFits.spent (h : RowFits limits s grant) (hroom : grant.hasRoom limits kind = true) :
    RowFits limits s (grant.spent kind) := by
  obtain ⟨-, hwrites, hcreates⟩ := hasRoom_iff.mp hroom
  have hw := h.writes
  have hc := h.creates
  refine { h with writes := ?_, creates := ?_ }
  · simp only [Grant.spent]
    omega
  · cases kind with
    | mutating => simpa [Grant.spent, BudgetKind.creates] using hc
    | create =>
      have hlt := hcreates rfl
      simp only [Grant.spent, BudgetKind.creates]
      omega

theorem RowFits.givenBack (h : RowFits limits s grant) :
    RowFits limits s (grant.givenBack kind) := by
  have hw := h.writes
  have hc := h.creates
  have hk := creates_nonneg kind
  refine { h with writes := ?_, creates := ?_ }
  · simp only [Grant.givenBack]
    omega
  · simp only [Grant.givenBack]
    omega

/-- What is committed leaves the grants in order. -/
theorem Commits.inOrder (hs : InOrder limits s) (h : Commits limits s call outcome written) :
    InOrder limits (@Writes.laidOver grantDatabase (oneRow written) s) := by
  have hkeeps := h.keeps
  cases h with
  | nothing => exact hs
  | signIn =>
    rw [laidOver_oneRow] at hkeeps ⊢
    exact hs.update hkeeps ⟨fun _ ↦ rfl, fun _ h ↦ by simp [Grant.fresh] at h,
      by simp [Grant.fresh], by simp [Grant.fresh]⟩
  | exchange _ htop =>
    rw [laidOver_oneRow] at hkeeps ⊢
    refine hs.update hkeeps ⟨fun h ↦ by simp [Grant.fresh] at h, fun parent hparent ↦ ?_,
      by simp [Grant.fresh], by simp [Grant.fresh]⟩
    obtain rfl := Option.some.inj hparent
    exact ⟨_, rfl, htop.keeps hkeeps⟩
  | revoke hrow =>
    rw [laidOver_oneRow] at hkeeps ⊢
    exact hs.update hkeeps { (hs _ _ hrow).keeps hkeeps with }
  | reserve _ hrow hroom =>
    rw [laidOver_oneRow] at hkeeps ⊢
    exact hs.update hkeeps (((hs _ _ hrow).keeps hkeeps).spent hroom)
  | release _ hrow =>
    rw [laidOver_oneRow] at hkeeps ⊢
    exact hs.update hkeeps ((hs _ _ hrow).keeps hkeeps).givenBack

/-- No reservation is answered for a grant that was revoked while the root it charges is
not. -/
def sparing (limits : BudgetLimits) : Discipline (agentWrites limits) where
  mayRun := fun _ _ _ ↦ True
  mayCommit := fun call _ s _ ↦ ∀ id kind, call = .reserve id kind → ∀ grant root,
    s id = some grant → grant.revokedAt ≠ none → grant.budgetGrantId = some root →
      Grants.live s root = false

variable {d : Discipline (agentWrites limits)}

/-- Every commit is one of these, under the discipline. -/
def budgeted (limits : BudgetLimits) (d : Discipline (agentWrites limits)) :
    Contract (agentWrites limits) where
  Inv := InOrder limits
  Guar := fun _ call s w outcome ↦ ∃ answer written, outcome = some answer ∧ w = oneRow written ∧
    Commits limits s call answer written ∧ d.mayCommit call (some answer) s w
  Thrown := fun _ _ _ _ ↦ True
  kept := by
    rintro _ call s _ _ hinv ⟨answer, written, rfl, rfl, hcommits, -⟩
    exact hcommits.inOrder hinv

theorem Keeps.of_rely {w : Writes grantDatabase} (h : (budgeted limits d).Rely w s s') :
    Keeps s s' := by
  refine h.1.stable (P := Keeps s) ?_ (Keeps.refl s)
  rintro _ call s₁ _ _ - ⟨answer, written, rfl, rfl, hcommits, -⟩ - hkeeps
  exact hkeeps.trans hcommits.keeps

/-! ### Every call is safe -/

section Safe

variable {t : ℕ} {α : Type} {w : Writes grantDatabase}
  {post : α → Writes grantDatabase → Grants → Prop}

theorem wp_write {op : GrantOp} {f : op.Answer → GrantTx α}
    (h : ∀ s', (budgeted limits d).Rely Writes.nothing s s' →
      (f (op.answer s')).wp ((budgeted limits d).rules d t call) (oneRow (op.written s')) s' post) :
    (onGrants op >>= f).wp ((budgeted limits d).rules d t call) Writes.nothing s post := by
  rw [wp_bind, wp_ask]
  rintro s' a hrely - rfl
  change (f _).wp _ (Writes.nothing.andThen (oneRow (op.written s'))) s' post
  rw [Writes.nothing_andThen]
  exact h s' hrely

theorem wp_read {op : GrantOp} {f : op.Answer → GrantTx α}
    (hreads : ∀ rows : Grants, op.written rows = none)
    (h : ∀ s', (budgeted limits d).Rely Writes.nothing s s' →
      (f (op.answer s')).wp ((budgeted limits d).rules d t call) Writes.nothing s' post) :
    (onGrants op >>= f).wp ((budgeted limits d).rules d t call) Writes.nothing s post := by
  refine wp_write fun s' hrely ↦ ?_
  rw [hreads, oneRow_none]
  exact h s' hrely

theorem wp_budgetGrant {f : Option GrantId → GrantTx α}
    (h : ∀ s', (budgeted limits d).Rely Writes.nothing s s' →
      (f (chargedTo s' id)).wp ((budgeted limits d).rules d t call) Writes.nothing s' post) :
    (budgetGrant id >>= f).wp ((budgeted limits d).rules d t call) Writes.nothing s post := by
  rw [budgetGrant, wp_bind]
  refine wp_read (fun _ ↦ rfl) fun s' hrely ↦ ?_
  have hf := h s' hrely
  cases hrow : s' id with
  | none =>
    simp only [GrantOp.answer, hrow]
    simpa [chargedTo, hrow] using hf
  | some grant =>
    simp only [GrantOp.answer, hrow]
    cases hbudget : grant.budgetGrantId with
    | none | some => simpa [chargedTo, hrow, hbudget] using hf

/-- What is owed at the end of a call: the row that was written, as it is still. -/
def Owes (limits : BudgetLimits) (d : Discipline (agentWrites limits)) (call : GrantCall)
    (outcome : GrantOutcome) (w : Writes grantDatabase) (s : Grants) : Prop :=
  ∃ written, w = oneRow written ∧
    ∀ s', (budgeted limits d).Rely w s s' → Commits limits s' call outcome written

theorem Owes.safe (h : Owes limits d call outcome w s) :
    (budgeted limits d).Safe d t call (.done outcome) w s := by
  obtain ⟨written, rfl, hcommits⟩ := h
  exact fun s' hrely hmay ↦ ⟨outcome, written, rfl, rfl, hcommits s' hrely, hmay⟩

theorem owes_nothing (h : outcome ≠ .reserved true) :
    Owes limits d call outcome Writes.nothing s :=
  ⟨none, rfl, fun _ _ ↦ .nothing h⟩

theorem locked {row : Grant} (h : (budgeted limits d).Rely (oneRow (some (id, row))) s s') :
    s' id = s id :=
  h.1.locked (k := id) (v := some row) (by simp [oneRow])

theorem safe_insertGrant {row : Grant} {rest : Unit → GrantTx GrantOutcome}
    (hrest : rest () = .done outcome)
    (h : ∀ s', s' id = none → Keeps s s' → Commits limits s' call outcome (some (id, row))) :
    (budgeted limits d).Safe d t call (insertGrant id row >>= rest) Writes.nothing s := by
  rw [Contract.Safe, insertGrant, wp_bind]
  refine wp_write fun s₁ hrely ↦ ?_
  cases hrow : s₁ id with
  | some =>
    simp only [GrantOp.answer, hrow, Option.isNone_some]
    exact fun _ _ ↦ trivial
  | none =>
    simp only [GrantOp.answer, GrantOp.written, hrow, Option.isNone_none, if_true, wp_pure, hrest]
    refine Owes.safe ⟨_, rfl, fun s' hrely' ↦ ?_⟩
    exact h s' ((locked hrely').trans hrow) ((Keeps.of_rely hrely).trans (Keeps.of_rely hrely'))

theorem safe_signIn :
    (budgeted limits d).Safe d t (.signIn id) ((agentWrites limits).body (.signIn id))
      Writes.nothing s :=
  safe_insertGrant rfl fun _ hfree _ ↦ .signIn hfree

theorem safe_exchange {parent : GrantId} :
    (budgeted limits d).Safe d t (.exchange id parent)
      ((agentWrites limits).body (.exchange id parent)) Writes.nothing s := by
  change (exchange id parent).wp _ _ _ _
  refine wp_read (fun _ ↦ rfl) fun s₁ hrely ↦ ?_
  by_cases hlive :
      (GrantOp.answer s₁ (.byId parent)).any (fun grant ↦ grant.revokedAt.isNone) = true
  · rw [if_pos hlive, create, wp_bind]
    obtain ⟨grant, hrow, -⟩ := (Option.any_eq_true _ _).mp hlive
    refine wp_budgetGrant fun s₂ hrely' ↦ ?_
    obtain ⟨grant', hrow', -⟩ := Keeps.of_rely hrely' _ _ hrow
    obtain ⟨root, hcharged, htop⟩ := hrely'.2.chargedTo hrow'
    rw [hcharged, ← wp_bind]
    exact safe_insertGrant rfl fun _ hfree hkeeps ↦ .exchange hfree (htop.keeps hkeeps)
  · rw [if_neg hlive]
    exact fun _ _ ↦ trivial

theorem safe_revoke {revokedAt : Time} :
    (budgeted limits d).Safe d t (.revoke id revokedAt)
      ((agentWrites limits).body (.revoke id revokedAt)) Writes.nothing s := by
  refine wp_write fun s₁ hrely ↦ ?_
  refine Owes.safe ?_
  simp only [GrantOp.answer, GrantOp.written, Grants.live]
  cases hrow : s₁ id with
  | none => exact owes_nothing (by simp)
  | some grant =>
    by_cases hrevoked : grant.revokedAt.isNone = true
    · simp only [Option.bind_some, Option.any_some, hrevoked, if_true]
      exact ⟨_, rfl, fun s' hrely' ↦ .revoke ((locked hrely').trans hrow)⟩
    · simp only [Option.bind_some, Option.any_some, hrevoked]
      exact owes_nothing (by simp)

/-- A reservation that is not admitted writes nothing. -/
theorem safe_notAdmitted :
    (isLive id >>= fun live ↦ (if live then pure (.reserved false) else throw .ended :
      GrantTx GrantOutcome)).wp ((budgeted limits d).rules d t call) Writes.nothing s
      fun outcome w s ↦ ∀ s', (budgeted limits d).Rely w s s' →
        d.mayCommit call (some outcome) s' w →
          (budgeted limits d).Guar t call s' w (some outcome) := by
  rw [isLive, wp_bind]
  refine wp_budgetGrant fun s₁ _ ↦ ?_
  cases chargedTo s₁ id with
  | none => exact fun _ _ ↦ trivial
  | some =>
    refine wp_read (fun _ ↦ rfl) fun s₂ _ ↦ ?_
    rw [wp_pure]
    split_ifs
    · exact Owes.safe (owes_nothing (by simp))
    · exact fun _ _ ↦ trivial

theorem safe_reserve :
    (budgeted limits d).Safe d t (.reserve id kind) ((agentWrites limits).body (.reserve id kind))
      Writes.nothing s := by
  change (reserve limits id kind).wp _ _ _ _
  rw [reserve, reserveAgentWrite, wp_bind]
  refine wp_budgetGrant fun s₁ _ ↦ ?_
  cases hcharged : chargedTo s₁ id with
  | none => exact safe_notAdmitted
  | some root =>
    simp only []
    rw [← wp_bind]
    refine wp_write fun s₂ hrely ↦ ?_
    have hcharged' := chargedTo_keeps (Keeps.of_rely hrely) hcharged
    by_cases hadmitted : GrantOp.answer s₂ (.spend limits root kind) = true
    · rw [if_pos hadmitted]
      obtain ⟨grant, hrow, hroom⟩ := (Option.any_eq_true _ _).mp hadmitted
      have hwritten : (GrantOp.spend limits root kind).written s₂ =
          some (root, grant.spent kind) := by
        simp [GrantOp.written, hrow, hroom]
      rw [hwritten]
      refine Owes.safe ⟨_, rfl, fun s' hrely' ↦ ?_⟩
      exact .reserve (chargedTo_keeps (Keeps.of_rely hrely') hcharged')
        ((locked hrely').trans hrow) hroom
    · have hwritten : (GrantOp.spend limits root kind).written s₂ = none := by
        cases hrow : s₂ root with
        | none => simp [GrantOp.written, hrow]
        | some => simpa [GrantOp.written, GrantOp.answer, hrow] using hadmitted
      rw [if_neg hadmitted, hwritten]
      exact safe_notAdmitted

theorem safe_release {reservation : ℕ} :
    (budgeted limits d).Safe d t (.release reservation id kind)
      ((agentWrites limits).body (.release reservation id kind)) Writes.nothing s := by
  change (releaseAgentWrite id kind >>= fun _ ↦ pure GrantOutcome.done).wp _ _ _ _
  rw [releaseAgentWrite, wp_bind]
  refine wp_budgetGrant fun s₁ _ ↦ ?_
  cases hcharged : chargedTo s₁ id with
  | none => exact Owes.safe (owes_nothing (by simp))
  | some root =>
    simp only []
    rw [← wp_bind]
    refine wp_write fun s₂ hrely ↦ ?_
    have hcharged' := chargedTo_keeps (Keeps.of_rely hrely) hcharged
    refine Owes.safe ?_
    simp only [GrantOp.written]
    cases hrow : s₂ root with
    | none => exact owes_nothing (by simp)
    | some =>
      exact ⟨_, rfl, fun s' hrely' ↦ .release (chargedTo_keeps (Keeps.of_rely hrely') hcharged')
        ((locked hrely').trans hrow)⟩

end Safe

theorem safe_body (t : ℕ) (call : GrantCall) (s : Grants) :
    (budgeted limits d).Safe d t call ((agentWrites limits).body call) Writes.nothing s := by
  cases call with
  | signIn => exact safe_signIn
  | exchange => exact safe_exchange
  | revoke => exact safe_revoke
  | reserve => exact safe_reserve
  | release => exact safe_release

/-! ### Reservations outstanding -/

/-- A reservation that was admitted, by the number of its call. -/
structure Reservation where
  number : ℕ
  grant : GrantId
  kind : BudgetKind
  deriving DecidableEq

/-- The reservations admitted and not given back, of what has been answered, latest first. -/
def outstanding : List (Answered (agentWrites limits)) → List Reservation
  | [] => []
  | ⟨number, .reserve id kind, .ok (.reserved true)⟩ :: earlier =>
    ⟨number, id, kind⟩ :: outstanding earlier
  | ⟨_, .release reservation id kind, .ok _⟩ :: earlier =>
    (outstanding earlier).erase ⟨reservation, id, kind⟩
  | _ :: earlier => outstanding earlier

/-- What was given back was outstanding. -/
def GivesBackOwn : List (Answered (agentWrites limits)) → Prop
  | [] => True
  | ⟨_, .release reservation id kind, .ok _⟩ :: earlier =>
    ⟨reservation, id, kind⟩ ∈ outstanding earlier ∧ GivesBackOwn earlier
  | _ :: earlier => GivesBackOwn earlier

/-- The reservation is charged to the root. -/
def charges (rows : Grants) (root : GrantId) (reservation : Reservation) : Bool :=
  decide (chargedTo rows reservation.grant = some root)

/-- A counter of a grant, and what a call of a kind adds to it. -/
structure Counter where
  read : Grant → ℤ
  amount : BudgetKind → ℤ
  nonneg : ∀ kind, 0 ≤ amount kind
  fresh : ∀ exchangedFrom budget, read (Grant.fresh exchangedFrom budget) = 0
  spent : ∀ grant kind, read (grant.spent kind) = read grant + amount kind
  givenBack : ∀ grant kind, read (grant.givenBack kind) = max (read grant - amount kind) 0
  revoked : ∀ grant revokedAt, read { grant with revokedAt } = read grant

def writesCounter : Counter where
  read := Grant.agentWrites
  amount := fun _ ↦ 1
  nonneg := fun _ ↦ by decide
  fresh := fun _ _ ↦ rfl
  spent := fun _ _ ↦ rfl
  givenBack := fun _ _ ↦ rfl
  revoked := fun _ _ ↦ rfl

def createsCounter : Counter where
  read := Grant.agentCreates
  amount := BudgetKind.creates
  nonneg := fun kind ↦ (creates_nonneg kind).1
  fresh := fun _ _ ↦ rfl
  spent := fun _ _ ↦ rfl
  givenBack := fun _ _ ↦ rfl
  revoked := fun _ _ ↦ rfl

/-- What the reservations add to the counter of a root. -/
def load (C : Counter) (rows : Grants) (root : GrantId) (reservations : List Reservation) : ℤ :=
  (reservations.map fun r ↦ if charges rows root r then C.amount r.kind else 0).sum

/-- Every reservation is charged to a root that is there. -/
def Named (rows : Grants) (reservations : List Reservation) : Prop :=
  ∀ r ∈ reservations, ∃ root grant, chargedTo rows r.grant = some root ∧ rows root = some grant

/-- The counters count the reservations, at least. -/
def Covers (C : Counter) (rows : Grants) (reservations : List Reservation) : Prop :=
  ∀ root grant, rows root = some grant → load C rows root reservations ≤ C.read grant

variable {C : Counter} {reservations : List Reservation}

theorem Named.keeps (h : Named s reservations) (hkeeps : Keeps s s') : Named s' reservations := by
  intro r hr
  obtain ⟨root, grant, hcharged, hrow⟩ := h r hr
  obtain ⟨grant', hrow', -⟩ := hkeeps root grant hrow
  exact ⟨root, grant', chargedTo_keeps hkeeps hcharged, hrow'⟩

theorem load_keeps (h : Named s reservations) (hkeeps : Keeps s s') (root : GrantId) :
    load C s' root reservations = load C s root reservations := by
  refine congrArg List.sum (List.map_congr_left fun r hr ↦ ?_)
  obtain ⟨root', -, hcharged, -⟩ := h r hr
  simp [charges, hcharged, chargedTo_keeps hkeeps hcharged]

theorem load_erase (C : Counter) (s : Grants) (root : GrantId) {r : Reservation}
    (h : r ∈ reservations) :
    (if charges s root r then C.amount r.kind else 0) + load C s root (reservations.erase r) =
      load C s root reservations :=
  List.sum_map_erase (fun r ↦ if charges s root r then C.amount r.kind else 0) h

theorem load_of_none (h : Named s reservations) (hrow : s root = none) :
    load C s root reservations = 0 := by
  refine List.sum_eq_zero fun x hx ↦ ?_
  obtain ⟨r, hr, rfl⟩ := List.mem_map.mp hx
  obtain ⟨root', grant, hcharged, hrow'⟩ := h r hr
  have hne : chargedTo s r.grant ≠ some root := by
    rintro heq
    obtain rfl := Option.some.inj (hcharged.symm.trans heq)
    simp [hrow] at hrow'
  simp [charges, hne]

/-- A row put with the counter it had, or new, covers what was covered. -/
theorem Covers.update (h : Covers C s reservations) (hnamed : Named s reservations)
    (hkeeps : Keeps s (Function.update s id (some row)))
    (hread : ∀ grant, s id = some grant → C.read row = C.read grant) (hfresh : 0 ≤ C.read row) :
    Covers C (Function.update s id (some row)) reservations := by
  intro root grant hrow
  rw [load_keeps hnamed hkeeps]
  by_cases hroot : root = id
  · subst hroot
    obtain rfl : row = grant := by simpa using hrow
    cases hold : s root with
    | none => exact (load_of_none hnamed hold).trans_le hfresh
    | some old => exact (h root old hold).trans_eq (hread old hold).symm
  · rw [Function.update_of_ne hroot] at hrow
    exact h root grant hrow

variable {number : ℕ}

/-- One more reservation, counted by its root. -/
theorem Covers.reserve (h : Covers C s reservations) (hnamed : Named s reservations)
    (hkeeps : Keeps s (Function.update s root (some (grant.spent kind))))
    (hcharged : chargedTo s id = some root) (hrow : s root = some grant) :
    Covers C (Function.update s root (some (grant.spent kind)))
      (⟨number, id, kind⟩ :: reservations) := by
  intro root' grant' hrow'
  have hcharges : chargedTo (Function.update s root (some (grant.spent kind))) id = some root :=
    chargedTo_keeps hkeeps hcharged
  have hload : load C (Function.update s root (some (grant.spent kind))) root'
      (⟨number, id, kind⟩ :: reservations) =
        (if root = root' then C.amount kind else 0) + load C s root' reservations := by
    rw [← load_keeps hnamed hkeeps]
    simp [load, charges, hcharges]
  rw [hload]
  by_cases hroot : root' = root
  · subst hroot
    obtain rfl : grant.spent kind = grant' := by simpa using hrow'
    rw [C.spent, if_pos rfl, add_comm]
    exact add_le_add (h root' grant hrow) le_rfl
  · rw [Function.update_of_ne hroot] at hrow'
    rw [if_neg (Ne.symm hroot), zero_add]
    exact h root' grant' hrow'

/-- One reservation less, counted back by its root. -/
theorem Covers.release (h : Covers C s reservations) (hnamed : Named s reservations)
    (hkeeps : Keeps s (Function.update s root (some (grant.givenBack kind))))
    (hcharged : chargedTo s id = some root) (hrow : s root = some grant)
    (hmem : ⟨number, id, kind⟩ ∈ reservations) :
    Covers C (Function.update s root (some (grant.givenBack kind)))
      (reservations.erase ⟨number, id, kind⟩) := by
  have hnamed' : Named s (reservations.erase ⟨number, id, kind⟩) :=
    fun r hr ↦ hnamed r (List.mem_of_mem_erase hr)
  intro root' grant' hrow'
  rw [load_keeps hnamed' hkeeps]
  have herase := load_erase C s root' hmem
  by_cases hroot : root' = root
  · subst hroot
    obtain rfl : grant.givenBack kind = grant' := by simpa using hrow'
    have hcovered := h root' grant hrow
    simp only [charges, hcharged, decide_true, if_true] at herase
    rw [C.givenBack]
    omega
  · rw [Function.update_of_ne hroot] at hrow'
    have hcovered := h root' grant' hrow'
    simp only [charges, hcharged, Option.some.injEq, Ne.symm hroot, decide_false] at herase
    simpa using herase.trans_le hcovered

/-- Counting fewer reservations is covered. -/
theorem Covers.erase (h : Covers C s reservations) (r : Reservation) :
    Covers C s (reservations.erase r) := by
  intro root grant hrow
  by_cases hr : r ∈ reservations
  · have herase := load_erase C s root hr
    have hnonneg : 0 ≤ if charges s root r = true then C.amount r.kind else 0 := by
      split_ifs
      · exact C.nonneg r.kind
      · exact le_refl 0
    have hcovered := h root grant hrow
    omega
  · rw [List.erase_of_not_mem hr]
    exact h root grant hrow

/-! ### What a run has counted -/

/-- The reservations are charged to roots that count them. -/
structure Counted (rows : Grants) (reservations : List Reservation) : Prop where
  named : Named rows reservations
  writes : Covers writesCounter rows reservations
  creates : Covers createsCounter rows reservations

theorem Counted.start : Counted (fun _ ↦ none) [] where
  named := fun _ hr ↦ absurd hr List.not_mem_nil
  writes := fun _ _ hrow ↦ by simp at hrow
  creates := fun _ _ hrow ↦ by simp at hrow

/-- A row put with the counters it had, or new. -/
theorem Counted.update (h : Counted s reservations)
    (hkeeps : Keeps s (Function.update s id (some row)))
    (hread : ∀ (C : Counter) grant, s id = some grant → C.read row = C.read grant)
    (hfresh : 0 ≤ row.agentWrites ∧ 0 ≤ row.agentCreates) :
    Counted (Function.update s id (some row)) reservations where
  named := h.named.keeps hkeeps
  writes := h.writes.update h.named hkeeps (hread writesCounter) hfresh.1
  creates := h.creates.update h.named hkeeps (hread createsCounter) hfresh.2

theorem Counted.reserve (h : Counted s reservations)
    (hkeeps : Keeps s (Function.update s root (some (grant.spent kind))))
    (hcharged : chargedTo s id = some root) (hrow : s root = some grant) :
    Counted (Function.update s root (some (grant.spent kind)))
      (⟨number, id, kind⟩ :: reservations) where
  named := by
    intro r hr
    rcases List.mem_cons.mp hr with rfl | hold
    · exact ⟨root, _, chargedTo_keeps hkeeps hcharged, Function.update_self ..⟩
    · exact h.named.keeps hkeeps r hold
  writes := h.writes.reserve h.named hkeeps hcharged hrow
  creates := h.creates.reserve h.named hkeeps hcharged hrow

theorem Counted.erase (h : Counted s reservations) (r : Reservation) :
    Counted s (reservations.erase r) where
  named := fun r' hr ↦ h.named r' (List.mem_of_mem_erase hr)
  writes := h.writes.erase r
  creates := h.creates.erase r

theorem Counted.release (h : Counted s reservations)
    (hkeeps : Keeps s (Function.update s root (some (grant.givenBack kind))))
    (hcharged : chargedTo s id = some root) (hrow : s root = some grant)
    (hmem : ⟨number, id, kind⟩ ∈ reservations) :
    Counted (Function.update s root (some (grant.givenBack kind)))
      (reservations.erase ⟨number, id, kind⟩) where
  named := (h.erase _).named.keeps hkeeps
  writes := h.writes.release h.named hkeeps hcharged hrow hmem
  creates := h.creates.release h.named hkeeps hcharged hrow hmem

variable {history : List (Answered (agentWrites limits))}

/-- A call that writes nothing has at most given back. -/
theorem Counted.nothing {t : ℕ}
    (h : Counted s (outstanding history)) (hne : outcome ≠ .reserved true) :
    Counted s (outstanding (⟨t, call, .ok outcome⟩ :: history)) := by
  cases call with
  | signIn | exchange | revoke => exact h
  | release => exact h.erase _
  | reserve =>
    cases outcome with
    | done | revoked => exact h
    | reserved admitted =>
      cases admitted with
      | false => exact h
      | true => exact absurd rfl hne

theorem GivesBackOwn.before {answer : Answered (agentWrites limits)}
    (h : GivesBackOwn (answer :: history)) :
    GivesBackOwn history := by
  obtain ⟨number, call, result⟩ := answer
  cases call with
  | release =>
    cases result with
    | ok => exact h.2
    | error => exact h
  | signIn | exchange | revoke | reserve => exact h

theorem outstanding_refused {t : ℕ} {failure : GrantFailure}
    (history : List (Answered (agentWrites limits))) :
    outstanding (⟨t, call, .error failure⟩ :: history) = outstanding history := by
  cases call <;> rfl

/-- What is committed is counted, when what is given back was outstanding. -/
theorem Commits.counted {t : ℕ}
    (h : Commits limits s call outcome written) (hs : InOrder limits s)
    (hbacks : GivesBackOwn (⟨t, call, .ok outcome⟩ :: history))
    (hcounted : Counted s (outstanding history)) :
    Counted (@Writes.laidOver grantDatabase (oneRow written) s)
      (outstanding (⟨t, call, .ok outcome⟩ :: history)) := by
  have hkeeps := h.keeps
  cases h with
  | nothing hne => exact hcounted.nothing hne
  | signIn hfree | exchange hfree =>
    rw [laidOver_oneRow] at hkeeps ⊢
    exact hcounted.update hkeeps (fun C grant hrow ↦ by simp [hfree] at hrow)
      (by simp [Grant.fresh])
  | revoke hrow =>
    rw [laidOver_oneRow] at hkeeps ⊢
    have hfits := hs _ _ hrow
    refine hcounted.update hkeeps (fun C grant hrow' ↦ ?_) ⟨hfits.writes.1, hfits.creates.1⟩
    obtain rfl := Option.some.inj (hrow.symm.trans hrow')
    exact C.revoked _ _
  | reserve hcharged hrow =>
    rw [laidOver_oneRow] at hkeeps ⊢
    exact hcounted.reserve hkeeps hcharged hrow
  | release hcharged hrow =>
    rw [laidOver_oneRow] at hkeeps ⊢
    exact hcounted.release hkeeps hcharged hrow hbacks.1

theorem sound_start : (budgeted limits d).Sound d 0 (.start fun _ ↦ none) :=
  Contract.sound_start fun _ _ hrow ↦ by simp at hrow

variable {c : Config (agentWrites limits)}

/-- In every run, of which what was given back was outstanding, the reservations are counted. -/
theorem counted_of_reaches
    (hreaches : Reaches d (.start fun _ ↦ none) c) :
    GivesBackOwn c.history → Counted c.rows (outstanding c.history) := by
  refine Contract.invariant (fun t call s _ _ ↦ safe_body t call s)
    (P := fun rows history ↦ GivesBackOwn history → Counted rows (outstanding history))
    (fun s history s' history' heffect ih hbacks ↦ ?_) sound_start hreaches fun _ ↦ Counted.start
  cases heffect with
  | part _ hguar =>
    obtain ⟨answer, written, houtcome, -⟩ := hguar
    cases houtcome
  | commit hinv hguar =>
    obtain ⟨answer, written, houtcome, rfl, hcommits, -⟩ := hguar
    obtain rfl := Option.some.inj houtcome
    exact hcommits.counted hinv hbacks (ih hbacks.before)
  | refuse =>
    rw [outstanding_refused]
    exact ih hbacks.before

theorem load_writes (rows : Grants) (root : GrantId) (reservations : List Reservation) :
    load writesCounter rows root reservations = reservations.countP (charges rows root) := by
  induction reservations with
  | nil => rfl
  | cons r _ ih =>
    rw [load, List.map_cons, List.sum_cons, ← load, ih, List.countP_cons]
    by_cases hcharges : charges rows root r = true
    · simp [hcharges, writesCounter, add_comm]
    · simp [hcharges]

/-- The reservation is charged to the root, of a create. -/
def chargesCreate (rows : Grants) (root : GrantId) (reservation : Reservation) : Bool :=
  charges rows root reservation && decide (reservation.kind = .create)

theorem load_creates (rows : Grants) (root : GrantId) (reservations : List Reservation) :
    load createsCounter rows root reservations =
      reservations.countP (chargesCreate rows root) := by
  induction reservations with
  | nil => rfl
  | cons r _ ih =>
    rw [load, List.map_cons, List.sum_cons, ← load, ih, List.countP_cons, chargesCreate]
    by_cases hcharges : charges rows root r = true
    · cases hkind : r.kind <;> simp [hcharges, createsCounter, BudgetKind.creates, add_comm]
    · simp [hcharges]

/-- What the reservations add to the counter of a root, whether the root is there or not. -/
theorem Counted.load_le {C : Counter} {limit : ℕ} (hnamed : Named s reservations)
    (hcovers : Covers C s reservations)
    (hlimit : ∀ grant, s root = some grant → C.read grant ≤ limit) :
    load C s root reservations ≤ limit := by
  cases hrow : s root with
  | none =>
    rw [load_of_none hnamed hrow]
    exact Int.natCast_nonneg limit
  | some grant => exact (hcovers root grant hrow).trans (hlimit grant hrow)

theorem outstanding_le (hs : InOrder limits s) (h : Counted s reservations) (root : GrantId) :
    reservations.countP (charges s root) ≤ limits.mutating ∧
      reservations.countP (chargesCreate s root) ≤ limits.creates := by
  constructor
  · have hload := Counted.load_le h.named h.writes fun grant hrow ↦ (hs root grant hrow).writes.2
    rw [load_writes] at hload
    exact Int.ofNat_le.mp hload
  · have hload := Counted.load_le h.named h.creates fun grant hrow ↦ (hs root grant hrow).creates.2
    rw [load_creates] at hload
    exact Int.ofNat_le.mp hload

/-- Where calls give back their own places, the outstanding ones are within the limits. -/
theorem outstanding_le_of_reaches
    (hreaches : Reaches d (.start fun _ ↦ none) c) (hbacks : GivesBackOwn c.history)
    (root : GrantId) :
    (outstanding c.history).countP (charges c.rows root) ≤ limits.mutating ∧
      (outstanding c.history).countP (chargesCreate c.rows root) ≤ limits.creates := by
  have hsound := (sound_start (d := d)).reaches (fun t call s _ _ ↦ safe_body t call s) hreaches
  exact outstanding_le hsound.inv (counted_of_reaches hreaches hbacks) root

/-- An answer given at one step, with what was committed for it. -/
theorem commits_of_step {c c' : Config (agentWrites limits)} {t : ℕ}
    (hreaches : Reaches d (.start fun _ ↦ none) c) (hstep : Step d c c')
    (hanswered : c'.history = ⟨t, call, .ok outcome⟩ :: c.history) :
    ∃ written w, Commits limits c.rows call outcome written ∧
      d.mayCommit call (some outcome) c.rows w := by
  have hsound := (sound_start (d := d)).reaches (fun t call s _ _ ↦ safe_body t call s) hreaches
  obtain ⟨-, heffect⟩ := hsound.step (fun t call s _ _ ↦ safe_body t call s) hstep
  rw [hanswered] at heffect
  generalize c'.rows = rows' at heffect
  generalize c.history = history at heffect
  rcases (Relation.reflGen_iff _ _ _).mp heffect with heq | heffect
  · simp at heq
  · cases heffect with
    | commit _ hguar =>
      obtain ⟨answer, written, houtcome, -, hcommits, hmay⟩ := hguar
      obtain rfl := Option.some.inj houtcome
      exact ⟨written, _, hcommits, hmay⟩

/-- A reservation that is admitted is of a grant that is there, and whose root is not revoked. -/
theorem Commits.reserved (h : Commits limits s (.reserve id kind) (.reserved true) written) :
    ∃ grant root, s id = some grant ∧ chargedTo s id = some root ∧ Grants.live s root = true := by
  cases h with
  | nothing hne => exact absurd rfl hne
  | reserve hcharged hrow hroom =>
    obtain ⟨grant, hid, -⟩ := Option.bind_eq_some_iff.mp hcharged
    refine ⟨grant, _, hid, hcharged, ?_⟩
    rw [Grants.live, hrow, Option.any_some, (hasRoom_iff.mp hroom).1, Option.isNone_none]

/-- A grant charges the root it names, or is its own. -/
theorem chargedTo_cases (hrow : s id = some grant) (h : chargedTo s id = some root) :
    grant.budgetGrantId = some root ∨ root = id := by
  simp only [chargedTo, hrow, Option.bind_some] at h
  cases hbudget : grant.budgetGrantId with
  | some => exact Or.inl (by simpa [hbudget] using h)
  | none =>
    simp only [hbudget, Option.none_or] at h
    split_ifs at h
    exact Or.inr (Option.some.inj h).symm

/-- In a run in which no reservation is answered for a grant revoked alone: the reservations
outstanding of a root are within the limits, no counter is negative, an exchanged grant
charges the top of its chain, and a reservation is admitted for a grant that is there and not
revoked. -/
theorem agent_writes_exact (limits : BudgetLimits) {c : Config (agentWrites limits)}
    (hreaches : Reaches (sparing limits) (.start fun _ ↦ none) c)
    (hbacks : GivesBackOwn c.history) :
    (∀ root, (outstanding c.history).countP (charges c.rows root) ≤ limits.mutating ∧
      (outstanding c.history).countP (chargesCreate c.rows root) ≤ limits.creates) ∧
    (∀ id grant, c.rows id = some grant → 0 ≤ grant.agentWrites ∧ 0 ≤ grant.agentCreates) ∧
    (∀ id grant parent, c.rows id = some grant → grant.exchangedFromGrantId = some parent →
      ∃ root, chargedTo c.rows id = some root ∧ Top c.rows id root) ∧
    ∀ c' t id kind, Step (sparing limits) c c' →
      c'.history = ⟨t, .reserve id kind, .ok (.reserved true)⟩ :: c.history →
        ∃ grant, c.rows id = some grant ∧ grant.revokedAt = none := by
  have hinv := (sound_start (d := sparing limits)).reaches
    (fun t call s _ _ ↦ safe_body t call s) hreaches |>.inv
  refine ⟨outstanding_le_of_reaches hreaches hbacks, fun id grant hrow ↦ ?_,
    fun id grant parent hrow _ ↦ hinv.chargedTo hrow, fun c' t id kind hstep hanswered ↦ ?_⟩
  · exact ⟨(hinv id grant hrow).writes.1, (hinv id grant hrow).creates.1⟩
  · obtain ⟨written, w, hcommits, hmay⟩ := commits_of_step hreaches hstep hanswered
    obtain ⟨grant, root, hrow, hcharged, hlive⟩ := hcommits.reserved
    refine ⟨grant, hrow, ?_⟩
    by_contra hrevoked
    rcases chargedTo_cases hrow hcharged with hbudget | rfl
    · have hended := hmay id kind rfl grant root hrow hrevoked hbudget
      exact absurd hlive (Bool.eq_false_iff.mp hended)
    · rw [Grants.live, hrow, Option.any_some, Option.isNone_iff_eq_none] at hlive
      exact hrevoked hlive

def GrantOp.reads : GrantOp → Bool
  | byId _ | countLive _ _ => true
  | _ => false

def oracle : Oracle grantDatabase where
  answer := fun op s ↦ some (op.answer s)
  reads := GrantOp.reads
  right := fun op s a h ↦ (Option.some.inj h).symm
  effect_of_reads := fun op s h ↦ by cases op <;> first | rfl | simp [GrantOp.reads] at h

instance instDecidablePredGivesBackOwn : DecidablePred (@GivesBackOwn limits)
  | [] => isTrue trivial
  | ⟨_, .release reservation id kind, .ok _⟩ :: earlier =>
    have := instDecidablePredGivesBackOwn earlier
    inferInstanceAs (Decidable (⟨reservation, id, kind⟩ ∈ outstanding earlier ∧
      GivesBackOwn earlier))
  | ⟨_, .release .., .error _⟩ :: earlier | ⟨_, .signIn _, _⟩ :: earlier
  | ⟨_, .exchange .., _⟩ :: earlier | ⟨_, .revoke .., _⟩ :: earlier
  | ⟨_, .reserve .., _⟩ :: earlier => instDecidablePredGivesBackOwn earlier

instance : Discipline.Checked (sparing limits) where
  mayRun := fun _ _ _ ↦ instDecidableTrue
  mayCommit := fun call _ s _ ↦
    match call with
    | .reserve id _ =>
      decidable_of_iff (∀ grant ∈ s id, grant.revokedAt ≠ none →
          ∀ root ∈ grant.budgetGrantId, Grants.live s root = false)
        ⟨fun h _ _ hcall grant root hrow hrevoked hbudget ↦ by
            obtain ⟨rfl, -⟩ := GrantCall.reserve.inj hcall
            exact h grant hrow hrevoked root hbudget,
          fun h grant hrow hrevoked root hbudget ↦ h id _ rfl grant root hrow hrevoked hbudget⟩
    | .signIn _ | .exchange .. | .revoke .. | .release .. =>
      isTrue fun _ _ hcall ↦ nomatch hcall

/-- One mutating call, or one create. -/
def one : BudgetLimits := ⟨1, 1⟩

/-- A sign-in, an exchange, a reservation given back and another. -/
def spentTwice : List (Cue (agentWrites one)) :=
  [.begins (.signIn 1), .ends 0, .begins (.exchange 2 1), .ends 1,
    .begins (.reserve 2 .mutating), .ends 2, .begins (.release 2 2 .mutating), .ends 3,
    .begins (.reserve 2 .create), .ends 4]

/-- One reservation is outstanding of the root, and it was given back once. -/
theorem agent_writes_exact_spentTwice :
    ∃ c, Reaches (sparing one) (.start fun _ ↦ none) c ∧
      outstanding c.history = [⟨4, 2, .create⟩] ∧
      ∀ root, (outstanding c.history).countP (charges c.rows root) ≤ 1 := by
  have hplay : ((Scene.playAll (sparing one) oracle (.start fun _ ↦ none) spentTwice).map
      fun m ↦ (outstanding m.history, decide (GivesBackOwn m.history))) =
        some ([⟨4, 2, .create⟩], true) := by decide +kernel
  obtain ⟨m, hplayed, hm⟩ := Option.map_eq_some_iff.mp hplay
  obtain ⟨houtstanding, hbacks⟩ := Prod.mk.inj hm
  have hreaches := Scene.reaches_of_start hplayed
  have hexact := agent_writes_exact one hreaches (of_decide_eq_true hbacks)
  exact ⟨m.config, hreaches, houtstanding, fun root ↦ (hexact.1 root).1⟩

/-- The exchanged grant is revoked, and then a call is reserved for it. -/
def revokedAlone : List (Event (agentWrites one)) :=
  [.begin (.signIn 1), .run 0, .finish 0,
    .begin (.exchange 2 1), .run 1, .run 1, .run 1, .finish 1,
    .begin (.revoke 2 5), .run 2, .finish 2,
    .begin (.reserve 2 .mutating), .run 3, .run 3]

theorem revoked_reserved : ¬ ∀ (limits : BudgetLimits) (c c' : Config (agentWrites limits))
    (t : ℕ) (id : GrantId) (kind : BudgetKind), Reaches .free (.start fun _ ↦ none) c →
      GivesBackOwn c.history → Step .free c c' →
      c'.history = ⟨t, .reserve id kind, .ok (.reserved true)⟩ :: c.history →
        ∃ grant, c.rows id = some grant ∧ grant.revokedAt = none := by
  intro hclaim
  have hplay : ((Schedule.performAll .free oracle (Schedule.start fun _ ↦ none) revokedAlone).map
      fun m ↦ (m.config.history, m.config.running 3 |>.map fun r ↦ (r.call, r.program),
        (m.config.rows 2).map Grant.revokedAt)) =
      some ([⟨2, .revoke 2 5, .ok (.revoked true)⟩, ⟨1, .exchange 2 1, .ok .done⟩,
        ⟨0, .signIn 1, .ok .done⟩],
        some (.reserve 2 .mutating, .done (.reserved true)), some (some 5)) := by rfl
  obtain ⟨m, hplayed, hm⟩ := Option.map_eq_some_iff.mp hplay
  simp only [Prod.mk.injEq] at hm
  obtain ⟨hhistory, hrunning, hrow⟩ := hm
  obtain ⟨⟨call, program, w⟩, hrunning, hleft⟩ := Option.map_eq_some_iff.mp hrunning
  obtain ⟨rfl, rfl⟩ := Prod.mk.inj hleft
  have hbacks : GivesBackOwn m.config.history := by
    rw [hhistory]
    trivial
  obtain ⟨grant, hgrant, hnone⟩ := hclaim one m.config _ 3 2 .mutating
    (Schedule.reaches hplayed) hbacks (.commit hrunning trivial) rfl
  simp [hgrant, hnone] at hrow

end Odudu.ProtocolOidc.AgentWriteBudget
