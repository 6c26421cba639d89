import Odudu.ProtocolOidc.SingleRedemption

/-!
# Rotations and redemptions interleaved

The token endpoint as a system: rotations of refresh tokens, redemptions of codes, and
any other transaction of the server whose statements issue, consume and attach nothing
(revocations, ended sessions, new codes, the clock).  The contract says what each call
commits; the theorems are about every interleaving of every number of calls.

A rotation reads its grant after it has consumed the token presented, and takes no lock on
it.  One under way when a family is revoked may therefore still commit its successor, on
the revoked grant; one that begins afterwards does not.
-/

set_option autoImplicit false

namespace Odudu.ProtocolOidc

open ReadCommitted Program OneTimeTokens

/-- The methods that issue, consume and attach no token and no code, and create no grant;
a code is created as codes are. -/
def Op.Peripheral : Op → Bool
  | .refreshTokenCreate .. | .refreshTokenConsume .. | .refreshTokenAttachReplacement ..
  | .tokenGrantCreate .. | .authorizationCodeConsume .. | .authorizationCodeAttachGrant .. => false
  | .authorizationCodeCreate _ row => row.consumedAt.isNone && row.grantId.isNone
  | _ => true

/-- A call of the server. -/
inductive Call where
  | rotate (r : RotationRequest)
  | redeem (r : RedemptionRequest)
  /-- Any other transaction, by its statements. -/
  | other (ops : List Op) (hops : ∀ op ∈ ops, op.Peripheral = true)

inductive Outcome where
  | rotation (outcome : RotationOutcome)
  | tokens (response : TokenResponse)
  | finished

def Call.body (env : Deployment) : Call → Tx Outcome
  | rotate r => do
    let outcome ← rotateRefreshToken r
    pure (.rotation outcome)
  | redeem r => do
    let response ← issueAuthorizationCodeTokens env r
    pure (.tokens response)
  | other ops _ => do
    runAll ops
    pure .finished

/-- The token endpoint and what runs beside it. -/
abbrev tokenEndpoint (env : Deployment) : System where
  db := database
  Call := Call
  Outcome := Outcome
  Failure := Failure
  body := Call.body env

/-- What a transaction of peripheral statements has written: no token, and no code but
new ones. -/
structure Untouched (w : Writes database) (s : Rows) : Prop where
  tokens : ∀ hash, w ⟨.refreshTokens, hash⟩ = none
  codes : ∀ hash cell, w ⟨.authorizationCodes, hash⟩ = some cell → s.code hash = none ∧
    ∃ row, cell = some row ∧ row.consumedAt = none ∧ row.grantId = none

/-- What each call commits. -/
inductive Committed (env : Deployment) (P : Rows → Prop) :
    Call → Rows → Writes database → Option Outcome → Prop where
  | rotate {r : RotationRequest} {s : Rows} {w : Writes database} {outcome : RotationOutcome}
      (h : Rotation P r outcome w s) :
      Committed env P (.rotate r) s w (some (.rotation outcome))
  | redeem {r : RedemptionRequest} {s : Rows} {w : Writes database} {response : TokenResponse}
      {row : AuthorizationCode} {consumedAt : Time}
      (h : Redemption env P r response row consumedAt w s) :
      Committed env P (.redeem r) s w (some (.tokens response))
  | replay {r : RedemptionRequest} {s : Rows} {w : Writes database} {grantId : GrantId}
      (hw : ∀ k, k ≠ ⟨.tokenGrants, grantId⟩ → w k = none) :
      Committed env P (.redeem r) s w none
  | other {ops : List Op} {hops : ∀ op ∈ ops, op.Peripheral = true} {s : Rows}
      {w : Writes database} (h : Untouched w s) :
      Committed env P (.other ops hops) s w (some .finished)

/-- The rows of the token endpoint are in order. -/
structure Rows.InOrder (s : Rows) : Prop where
  families : s.FamiliesInOrder
  codes : s.CodesInOrder

variable {env : Deployment} {P : Rows → Prop} {R : Rules database Failure}
  {w : Writes database} {s s' : Rows}

theorem Untouched.of_rely (h : Untouched w s) (hrely : ageing.Rely w s s') : Untouched w s' where
  tokens := h.tokens
  codes := fun hash cell hcell ↦
    ⟨(hrely.locked _ _ hcell).trans (h.codes hash cell hcell).1, (h.codes hash cell hcell).2⟩

theorem Untouched.code (h : Untouched w s) {hash : TokenHash} {row : AuthorizationCode}
    (hrow : (s.after w).code hash = some row) :
    s.code hash = some row ∨ row.consumedAt = none ∧ row.grantId = none := by
  cases hcell : w ⟨.authorizationCodes, hash⟩ with
  | none => exact Or.inl ((Rows.after_of_none hcell).symm.trans hrow)
  | some cell =>
    obtain ⟨-, row', rfl, hnew⟩ := h.codes hash cell hcell
    obtain rfl : row' = row := Option.some.inj ((Rows.after_of_some hcell).symm.trans hrow)
    exact Or.inr hnew

variable {outcome : Option Outcome} {call : Call}

/-- What is committed is so still when others have committed. -/
theorem Committed.of_rely
    (h : Committed env P call s w outcome) (hrely : ageing.Rely w s s') :
    Committed env P call s' w outcome := by
  cases h with
  | rotate h => exact .rotate (h.of_rely hrely)
  | redeem h => exact .redeem (h.of_rely hrely)
  | replay hw => exact .replay hw
  | other h => exact .other (h.of_rely hrely)

/-- A commit leaves the rows in order. -/
theorem Committed.inOrder
    (h : Committed env P call s w outcome) (hages : s.Ages (s.after w)) (hs : s.InOrder) :
    (s.after w).InOrder := by
  cases h with
  | @rotate r s w outcome h =>
    refine ⟨Rotated.inOrder ⟨hages, h⟩ hs.families, hs.codes.unwritten hages fun hash ↦ ?_⟩
    exact h.codes hash
  | redeem h =>
    have hredeemed : Redeemed env P _ _ w s := ⟨hages, _, _, h⟩
    exact ⟨hredeemed.families hs.families, hredeemed.codes hs.codes⟩
  | replay hw =>
    exact ⟨hs.families.move hages (.keep fun hash ↦ Rows.ledger_unwritten (hw _ (by simp))),
      hs.codes.unwritten hages fun hash ↦ hw _ (by simp)⟩
  | other h =>
    refine ⟨hs.families.move hages (.keep fun hash ↦ Rows.ledger_unwritten (h.tokens hash)),
      hs.codes.kept hages fun hash row hrow ↦ ?_⟩
    exact h.code hrow

variable {op : Op}

theorem Op.Peripheral.ages (hop : op.Peripheral = true) : op.AgesRows = true := by
  cases op <;> first | rfl | exact hop

theorem Op.Peripheral.tokens (hop : op.Peripheral = true) (s : Rows)
    (hash : TokenHash) : op.effect s ⟨.refreshTokens, hash⟩ = none := by
  cases op <;> first | rfl | exact absurd hop (by simp [Op.Peripheral])

/-- A peripheral method writes no code but a new one. -/
theorem Op.Peripheral.codes (hop : op.Peripheral = true) {s : Rows} {hash : TokenHash}
    {cell : Option AuthorizationCode}
    (hcell : op.effect s ⟨.authorizationCodes, hash⟩ = some cell) :
    s.code hash = none ∧
      ∃ row, cell = some row ∧ row.consumedAt = none ∧ row.grantId = none := by
  by_cases hcreate : ∃ hash' row, op = .authorizationCodeCreate hash' row
  · obtain ⟨hash', row, rfl⟩ := hcreate
    simp only [Op.Peripheral, Bool.and_eq_true, Option.isNone_iff_eq_none] at hop
    by_cases hsame : hash = hash'
    · subst hsame
      cases hfree : s.code hash with
      | none =>
        have hput : Op.effect (.authorizationCodeCreate hash row) s ⟨.authorizationCodes, hash⟩ =
          some (some row) := Layout.insert_of_free (L := layout) hfree
        exact ⟨rfl, row, Option.some.inj (hcell.symm.trans hput), hop⟩
      | some =>
        have hnone : Op.effect (.authorizationCodeCreate hash row) s ⟨.authorizationCodes, hash⟩ =
          none := Layout.insert_of_taken (L := layout) hfree
        simp [hnone] at hcell
    · have hnone : Op.effect (.authorizationCodeCreate hash' row) s ⟨.authorizationCodes, hash⟩ =
        none := Layout.insert_other (L := layout) hsame
      simp [hnone] at hcell
  · have hnone : op.effect s ⟨.authorizationCodes, hash⟩ = none := by
      cases op <;>
        first
        | exact absurd ⟨_, _, rfl⟩ hcreate
        | rfl
        | exact absurd hop (by simp [Op.Peripheral])
    simp [hnone] at hcell

variable (hR : ageing.Governs P R)

include hR

/-- A transaction of peripheral statements. -/
theorem wp_runAll {ops : List Op} (hops : ∀ op ∈ ops, op.Peripheral = true)
    (hages : s.Ages (s.after w)) (hw : Untouched w s) :
    (runAll ops).wp R w s fun _ w (s : Rows) ↦ s.Ages (s.after w) ∧ Untouched w s := by
  induction ops generalizing w s with
  | nil => exact ⟨hages, hw⟩
  | cons op _ ih =>
    have hop := hops op (by simp)
    refine wp_writing hR hages fun s₁ _ hrely₁ _ _ ↦
      ⟨_, rfl, Op.ages_effect (Op.Peripheral.ages hop) _, fun hages₁ ↦ ?_⟩
    refine ih (fun op' hop' ↦ hops op' (by simp [hop'])) hages₁ ⟨fun hash ↦ ?_, ?_⟩
    · exact (Writes.andThen_of_none (Op.Peripheral.tokens hop _ hash)).trans (hw.tokens hash)
    · intro hash cell hcell
      have hw₁ := hw.of_rely hrely₁
      cases hlater : op.effect (s₁.after w) ⟨.authorizationCodes, hash⟩ with
      | none => exact hw₁.codes hash cell ((Writes.andThen_of_none hlater).symm.trans hcell)
      | some cell' =>
        obtain rfl : cell' = cell :=
          Option.some.inj ((Writes.andThen_of_some hlater).symm.trans hcell)
        obtain ⟨hfree, hnew⟩ := Op.Peripheral.codes hop hlater
        refine ⟨?_, hnew⟩
        cases hcode : w ⟨.authorizationCodes, hash⟩ with
        | none => exact (Rows.after_of_none hcode).symm.trans hfree
        | some cell'' => exact (hw₁.codes hash cell'' hcode).1

omit hR

/-- What is known when a call throws.  `P` is what is known of the rows while it runs. -/
inductive Refused (P : Rows → Prop) : Call → Failure → Rows → Prop where
  | rotate {r : RotationRequest} {s₁ s₂ : Rows} {row : RefreshToken} (hs₁ : P s₁)
      (hrow : s₁.refreshToken r.presentedHash = some row) (hunused : row.usedAt = none) :
      Refused P (.rotate r) .internal s₂
  | redeem {r : RedemptionRequest} {s₁ s₂ : Rows} {failure : Failure} (hs₁ : P s₁)
      (hunredeemed : ¬∃ grantId, s₁.RedeemedInto r.codeHash grantId)
      (hfailure : ∀ grantId, failure ≠ .replayed grantId) : Refused P (.redeem r) failure s₂
  | replay {r : RedemptionRequest} {s : Rows} {grantId : GrantId} (hs : P s)
      (hinto : s.RedeemedInto r.codeHash grantId) (hrevoked : s.Revoked grantId) :
      Refused P (.redeem r) (.replayed grantId) s

/-- Every call commits and throws as described, under any rules that let the others only
age the rows. -/
theorem wp_body (hR : ageing.Governs P R) (hP : ∀ s, P s → s.InOrder)
    (hcommit : ∀ (s : Rows) w, s.Ages (s.after w) → Committed env P call s w none →
      R.owesCommit s w)
    (hthrow : ∀ failure (s : Rows), Refused P call failure s → R.owesThrow failure s) :
    (call.body env).wp R Writes.nothing s fun outcome w (s : Rows) ↦
      s.Ages (s.after w) ∧ Committed env P call s w (some outcome) := by
  cases call with
  | rotate =>
    refine (wp_bind _ _ _).mpr (wp_mono ?_ (wp_rotateRefreshToken hR (fun s hs ↦ (hP s hs).families)
      fun s₁ s₂ row hs₁ hrow hunused ↦ hthrow _ s₂ (.rotate hs₁ hrow hunused)))
    exact fun outcome w s h ↦ ⟨h.1, .rotate h.2⟩
  | redeem =>
    refine (wp_bind _ _ _).mpr (wp_mono ?_ (wp_issueAuthorizationCodeTokens hR
      (fun s hs ↦ (hP s hs).codes) ⟨?_, ?_, ?_⟩))
    · exact fun response w s h ↦ ⟨h.1, h.2.elim fun _ ⟨_, h⟩ ↦ .redeem h⟩
    · exact fun s w grantId hages _ hw _ ↦ hcommit s w hages (.replay hw)
    · exact fun s₁ s₂ failure hs₁ hnot hne ↦ hthrow failure s₂ (.redeem hs₁ hnot hne)
    · exact fun s grantId hs hinto hrevoked ↦ hthrow _ s (.replay hs hinto hrevoked)
  | other _ hops =>
    refine (wp_bind _ _ _).mpr (wp_mono ?_ (wp_runAll hR hops
      (Ageing.Ages.refl (A := ageing) s) ⟨fun _ ↦ rfl, ?_⟩))
    · exact fun _ w s h ↦ ⟨h.1, .other h.2⟩
    · intro hash cell hcell
      simp at hcell

/-- What every call guarantees. -/
def guarantee (env : Deployment) : Contract (tokenEndpoint env) where
  Inv := Rows.InOrder
  Guar := fun _ call s w outcome ↦
    Rows.Ages s (Rows.after s w) ∧ Committed env Rows.InOrder call s w outcome
  Thrown := fun _ call s failure ↦ Refused Rows.InOrder call failure s
  kept := fun hinv hguar ↦ hguar.2.inOrder hguar.1 hinv

theorem guarantee_rely {w : Writes database} {s s' : Rows}
    (hrely : (guarantee env).Rely w s s') : ageing.Rely w s s' ∧ s'.InOrder :=
  ⟨Ageing.rely_of_contract (K := guarantee env) (fun _ _ _ _ _ _ hguar ↦ hguar.1) hrely, hrely.2⟩

theorem guarantee_safe (t : ℕ) (call : Call) (s : Rows) :
    (guarantee env).Safe .free t call (call.body env) Writes.nothing s := by
  refine wp_mono ?_ (wp_body (P := Rows.InOrder) (fun _ _ _ ↦ guarantee_rely)
    (fun _ hs ↦ hs) (fun _ _ hages hcommitted ↦ ⟨hages, hcommitted⟩) fun _ _ hrefused ↦ hrefused)
  intro outcome w s ⟨hages, hcommitted⟩ s' hrely _
  have hrely' := (guarantee_rely hrely).1
  exact ⟨hrely'.laidOver hages, hcommitted.of_rely hrely'⟩

section Later

variable {J : Rows → Prop} (hJ : ∀ {s s' : Rows}, s.Ages s' → J s → J s')

/-- What is known of the rows once `J` holds of them. -/
abbrev Knowing (J : Rows → Prop) (s : Rows) : Prop := s.InOrder ∧ J s

/-- The guarantee from a moment at which `J` holds: the requests that begin afterwards
meet only rows of which it holds. -/
def guaranteeFrom (env : Deployment) (first : ℕ) (J : Rows → Prop)
    (hJ : ∀ {s s' : Rows}, s.Ages s' → J s → J s') : Contract (tokenEndpoint env) :=
  (guarantee env).tighten first J (Committed env (Knowing J))
    (fun call s failure ↦ Refused (Knowing J) call failure s)
    fun _ _ _ _ _ _ hguar hs ↦ hJ hguar.1 hs

theorem guaranteeFrom_rely {first : ℕ} {w : Writes database} {s s' : Rows}
    (hrely : (guaranteeFrom env first J hJ).Rely w s s') :
    ageing.Rely w s s' ∧ Knowing J s' :=
  ⟨Ageing.rely_of_contract (K := guaranteeFrom env first J hJ)
    (fun _ _ _ _ _ _ hguar ↦ hguar.1.1) hrely, hrely.2⟩

theorem guaranteeFrom_safe {first : ℕ} (t : ℕ) (call : Call) (s : Rows) :
    (guaranteeFrom env first J hJ).Safe .free t call (call.body env) Writes.nothing s := by
  refine Contract.Safe.tighten (guarantee_safe t call s) fun _ ↦ ?_
  refine wp_mono ?_ (wp_body (P := Knowing J) (fun _ _ _ ↦ guaranteeFrom_rely hJ)
    (fun _ hs ↦ hs.1) (fun _ _ _ hcommitted ↦ hcommitted) fun _ _ hrefused ↦ hrefused)
  intro outcome w s ⟨_, hcommitted⟩ s' hrely _
  exact hcommitted.of_rely (guaranteeFrom_rely hJ hrely).1

/-- How the calls that begin after `J` holds are answered. -/
theorem accounts_later {rows : Rows} (hrows : rows.InOrder) {c c' : Config (tokenEndpoint env)}
    (hc : Reaches .free (.start rows) c) (hJc : J c.rows) (hc' : Reaches .free c c') :
    ∀ a ∈ c'.history, c.begun ≤ a.number →
      (guaranteeFrom env c.begun J hJ).Accounts a := by
  intro a ha hnumber
  have hsound : (guarantee env).Sound .free 0 c :=
    (Contract.sound_start hrows).reaches (fun t call s _ _ ↦ guarantee_safe t call s) hc
  have haccounts := Contract.accounts_of_reaches (K := guaranteeFrom env c.begun J hJ)
    (fun t call s _ _ ↦ guaranteeFrom_safe hJ t call s) (hsound.tighten hJc) hc' a ha
  refine haccounts.resolve_left fun hbefore ↦ ?_
  exact absurd (((Config.numbered_start rows).reaches hc).history a hbefore)
    (Nat.not_lt.mpr hnumber)

end Later

end Odudu.ProtocolOidc
