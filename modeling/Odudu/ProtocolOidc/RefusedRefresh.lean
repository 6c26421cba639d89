import Odudu.ProtocolOidc.RefreshIssuance
import Odudu.ProtocolOidc.RowsAge

/-!
# What a refused refresh leaves behind

A refresh is judged before the presented token is rotated, so that one that is to be refused
consumes nothing.  Two refusals come after: that of a session that is over, which the
rotation finds, and that of a scope which is not one for the audience, which signing the
access token finds.  `refusal_unspent_iff` says that a refused refresh leaves the token
unspent exactly where neither of the two is what refuses it.
-/

set_option autoImplicit false

namespace Odudu.ProtocolOidc

open ReadCommitted Program

/-- An unused refresh token of an unrevoked grant is presented. -/
structure Presents (r : RefreshRequest) (s : Rows) (row : RefreshToken) (grant : TokenGrant) :
    Prop where
  tokenRow : s.refreshToken r.presentedHash = some row
  unused : row.usedAt = none
  grantRow : s.grant row.grantId = some grant
  unrevoked : grant.revokedAt = none

/-- The presented token is as it was, no other was issued, and the grants are as they
were. -/
structure Unspent (r : RefreshRequest) (s s' : Rows) : Prop where
  token : s'.refreshToken r.presentedHash = s.refreshToken r.presentedHash
  successor : ∀ hash, s.refreshToken hash = none → s'.refreshToken hash = none
  grant : ∀ id, s'.grant id = s.grant id

/-- What the checks before the rotation find the grant to hold. -/
def presentedHeld (env : Deployment) (r : RefreshRequest) (s : Rows) (grant : TokenGrant) :
    Except Failure (List String × List String) :=
  match s.subject grant.subjectId with
  | none => .error .invalidGrant
  | some subject => refreshHeld env r grant subject

/-- The session that bounds a grant is live, where there is one. -/
def grantSessionLive (r : RefreshRequest) (s : Rows) (grant : TokenGrant) : Bool :=
  match grant.sessionId with
  | none => true
  | some sessionId => (s.session sessionId).any fun row ↦ stillLive row r.lifespans s.clock

/-- The scope may be signed for the audience. -/
def signable (env : Deployment) (scope audience : List String) : Bool :=
  scopesCoherentWithAudience scope (audience.filter (· != env.issuer)) env.mcpAudience
    ADMIN_API_AUDIENCE

/-- What passes the checks before the rotation, with a token that has not expired, is on a
session that is live and holds a scope that may be signed for its audience. -/
def RefusesUnspent (env : Deployment) (r : RefreshRequest) (s : Rows) (row : RefreshToken)
    (grant : TokenGrant) : Prop :=
  ∀ scope audience, presentedHeld env r s grant = .ok (scope, audience) →
    s.clock < row.expiresAt →
      grantSessionLive r s grant = true ∧ signable env scope audience = true

section Rows

variable {r : RefreshRequest} {s s' : Rows} {row : RefreshToken} {grant : TokenGrant}

theorem Unspent.refl (r : RefreshRequest) (s : Rows) : Unspent r s s :=
  ⟨rfl, fun _ h ↦ h, fun _ ↦ rfl⟩

/-- The presented token has been used. -/
def Spent (r : RefreshRequest) (s : Rows) : Prop :=
  ∃ row, s.refreshToken r.presentedHash = some row ∧ row.usedAt.isSome

theorem Presents.not_unspent (h : Presents r s row grant) (hspent : Spent r s') :
    ¬Unspent r s s' := by
  rintro ⟨htoken, -, -⟩
  obtain ⟨row', hrow', hused⟩ := hspent
  obtain rfl := Option.some.inj (hrow'.symm.trans (htoken.trans h.tokenRow))
  simp [h.unused] at hused

theorem Spent.ages (h : Spent r s) (hages : s.Ages s') : Spent r s' := by
  obtain ⟨row, hrow, hused⟩ := h
  obtain ⟨row', hrow', hage⟩ := hages.refreshToken hrow
  exact ⟨row', hrow', hage.usedAt.isSome hused⟩

theorem Spent.attachReplacement (h : Spent r s) (next : TokenHash) :
    Spent r (s.after (Op.effect (.refreshTokenAttachReplacement r.presentedHash next) s)) := by
  obtain ⟨row, hrow, hused⟩ := h
  rw [effect_refreshTokenAttachReplacement hrow]
  exact ⟨_, Rows.after_of_some Layout.put_self, hused⟩

theorem spent_consume (h : s.refreshToken r.presentedHash = some row) {now : Time}
    (hok : Op.refreshTokenConsumable now row = true) :
    Spent r (s.after (Op.effect (.refreshTokenConsume r.presentedHash now) s)) := by
  rw [effect_refreshTokenConsume h hok]
  exact ⟨_, Rows.after_of_some Layout.put_self, rfl⟩

end Rows

section Run

variable {env : Deployment} {r : RefreshRequest} {s : Rows} {row : RefreshToken}
  {grant : TokenGrant} {owes : Failure → Rows → Prop}

/-- The rules of a refresh that runs by itself. -/
abbrev byItself (owes : Failure → Rows → Prop) : Rules database Failure :=
  .alone (fun _ ↦ True) owes

theorem wp_evaluatePresentedRefreshToken (h : Presents r s row grant)
    (howes : ∀ e, presentedHeld env r s grant = .error e → owes e s) :
    (evaluatePresentedRefreshToken env r).wp (byItself owes) Writes.nothing s
      fun _ w (s' : Rows) ↦ s' = s ∧ w = Writes.nothing ∧
        ∃ scope audience, presentedHeld env r s grant = .ok (scope, audience) := by
  rw [evaluatePresentedRefreshToken]
  refine wp_reading_alone rfl fun presented hpresented ↦ ?_
  obtain rfl : some row = presented := h.tokenRow.symm.trans (Option.some.inj hpresented)
  refine wp_reading_alone rfl fun found hfound ↦ ?_
  obtain rfl : some grant = found := h.grantRow.symm.trans (Option.some.inj hfound)
  refine wp_reading_alone rfl fun subject hsubject ↦ ?_
  obtain rfl : s.subject grant.subjectId = subject := Option.some.inj hsubject
  unfold presentedHeld at howes ⊢
  cases hsubject : s.subject grant.subjectId with
  | none => exact wp_throw_alone (howes _ (by rw [hsubject]))
  | some subject =>
    simp only [hsubject] at howes ⊢
    cases hheld : refreshHeld env r grant subject with
    | error e => exact wp_throw_alone (howes e hheld)
    | ok held => exact ⟨rfl, rfl, held.1, held.2, rfl⟩

/-- What a rotation leaves: an expired token is not consumed, and one that is consumed is
rotated where the session lives. -/
structure RotationLeaves (r : RefreshRequest) (s : Rows) (row : RefreshToken)
    (grant : TokenGrant) (outcome : RotationOutcome) (s' : Rows) : Prop where
  expired : row.expiresAt ≤ s.clock → outcome = .unknown ∧ s' = s
  consumed : s.clock < row.expiresAt → Spent r s'
  rotated : s.clock < row.expiresAt → grantSessionLive r s grant = true →
    outcome = .rotated row.grantId grant r.nextHash
  dead : s.clock < row.expiresAt → grantSessionLive r s grant = false → outcome = .revoked
  subject : ∀ id, s'.subject id = s.subject id

theorem subject_effect {op : Op} (hop : ∀ id enabled now, op ≠ .subjectSetEnabled id enabled now)
    (s : Rows) (id : SubjectId) : (s.after (op.effect s)).subject id = s.subject id := by
  cases op with
  | subjectSetEnabled id enabled now => exact absurd rfl (hop id enabled now)
  | _ => rfl

variable {w : Writes database}

/-- A grant's session is touched where it lives, which spends nothing. -/
theorem wp_touchSession_alone
    (hsessions : ∀ id, (s.after w).session id = s.session id) :
    (touchSession grant.sessionId r.lifespans s.clock).wp (byItself owes) w s
      fun alive w' (s' : Rows) ↦ s' = s ∧ alive = grantSessionLive r s grant ∧
        (s.after w).Ages (s.after w') ∧
        ∀ id, (s.after w').subject id = (s.after w).subject id := by
  unfold grantSessionLive touchSession
  cases hsession : grant.sessionId with
  | none => exact ⟨rfl, rfl, Ageing.Ages.refl (A := ageing) _, fun _ ↦ rfl⟩
  | some sessionId =>
    refine wp_reading_alone rfl fun live hlive ↦ ?_
    obtain rfl := Option.some.inj hlive
    rw [hsessions]
    cases hrow : s.session sessionId with
    | none =>
      simp only [hrow, Option.filter_none]
      exact ⟨rfl, rfl, Ageing.Ages.refl (A := ageing) _, fun _ ↦ rfl⟩
    | some row =>
      cases hstill : stillLive row r.lifespans s.clock with
      | false =>
        simp only [hrow, Option.filter_some, hstill, Option.any_some]
        exact ⟨rfl, rfl, Ageing.Ages.refl (A := ageing) _, fun _ ↦ rfl⟩
      | true =>
        simp only [hrow, Option.filter_some, hstill, Option.any_some, if_true]
        refine wp_query_alone fun _ w' _ hw' ↦ ⟨rfl, rfl, ?_, fun id ↦ ?_⟩
        · rw [hw']
          exact Op.ages_effect rfl _
        · rw [hw']
          exact subject_effect (by simp) _ id

theorem wp_issueSuccessor_alone (hspent : Spent r (s.after w))
    (howes : owes .internal s) :
    (issueSuccessor (r.rotation s.clock) row.grantId grant).wp (byItself owes) w s
      fun outcome w' (s' : Rows) ↦ s' = s ∧ outcome = .rotated row.grantId grant r.nextHash ∧
        Spent r (s.after w') ∧ ∀ id, (s.after w').subject id = (s.after w).subject id := by
  refine wp_query_alone fun created w₁ hcreated hw₁ ↦ ?_
  cases created with
  | false => exact wp_throw_alone howes
  | true =>
    have hspent₁ : Spent r (s.after w₁) := by
      rw [hw₁]
      exact hspent.ages (Op.ages_effect rfl _)
    refine wp_query_alone fun _ w₂ _ hw₂ ↦ ⟨rfl, rfl, ?_, fun id ↦ ?_⟩
    · rw [hw₂]
      exact hspent₁.attachReplacement _
    · rw [hw₂, subject_effect (by simp) _ id, hw₁]
      exact subject_effect (by simp) _ id

/-- What becomes of the presented token once it is consumed. -/
theorem wp_rotateConsumed_alone (h : Presents r s row grant) (howes : owes .internal s)
    (hw : s.after w =
      s.after (Op.effect (.refreshTokenConsume r.presentedHash s.clock) s))
    (hlive : s.clock < row.expiresAt) :
    (rotateConsumed (r.rotation s.clock) { row with usedAt := some s.clock }).wp (byItself owes)
      w s fun outcome w (s' : Rows) ↦ s' = s ∧
        RotationLeaves r s row grant outcome (s.after w) := by
  have hok : Op.refreshTokenConsumable s.clock row = true := by
    simp [Op.refreshTokenConsumable, h.unused, hlive]
  have hspent : Spent r (s.after w) := by
    rw [hw]
    exact spent_consume h.tokenRow hok
  have hgrant : (s.after w).grant row.grantId = some grant := by
    rw [hw]
    exact h.grantRow
  have hsubject : ∀ id, (s.after w).subject id = s.subject id := by
    intro id
    rw [hw]
    exact subject_effect (by simp) s id
  refine wp_reading_alone rfl fun found hfound ↦ ?_
  obtain rfl : some grant = found := hgrant.symm.trans (Option.some.inj hfound)
  simp only [h.unrevoked]
  rw [wp_bind]
  refine wp_mono ?_ (wp_touchSession_alone fun id ↦ ?_)
  · rintro _ w₁ (s : Rows) ⟨rfl, rfl, hages, hsubject₁⟩
    cases halive : grantSessionLive r s grant with
    | false =>
      refine ⟨rfl, fun hexpired ↦ absurd hexpired (Nat.not_le.mpr hlive),
        fun _ ↦ hspent.ages hages, fun _ hsome ↦ ?_, fun _ _ ↦ rfl,
        fun id ↦ (hsubject₁ id).trans (hsubject id)⟩
      simp [halive] at hsome
    | true =>
      refine wp_mono ?_ (wp_issueSuccessor_alone (hspent.ages hages) howes)
      rintro outcome w₂ _ ⟨rfl, rfl, hspent₂, hsubject₂⟩
      refine ⟨rfl, fun hexpired ↦ absurd hexpired (Nat.not_le.mpr hlive), fun _ ↦ hspent₂,
        fun _ _ ↦ rfl, fun _ hnone ↦ ?_,
        fun id ↦ (hsubject₂ id).trans ((hsubject₁ id).trans (hsubject id))⟩
      simp [halive] at hnone
  · rw [hw]
    rfl

/-- A rotation by itself of an unused token of an unrevoked grant. -/
theorem wp_rotateRefreshToken_alone (h : Presents r s row grant) (howes : owes .internal s) :
    (rotateRefreshToken (r.rotation s.clock)).wp (byItself owes) Writes.nothing s
      fun outcome w (s' : Rows) ↦ s' = s ∧ RotationLeaves r s row grant outcome (s.after w) := by
  refine wp_reading_alone rfl fun now hnow ↦ ?_
  obtain rfl : s.clock = now := Option.some.inj hnow
  refine wp_query_alone fun consumed w₁ hconsumed hw₁ ↦ ?_
  have hconsumed : consumed = ((s.refreshToken r.presentedHash).filter
      (Op.refreshTokenConsumable s.clock)).map fun row ↦ { row with usedAt := some s.clock } :=
    (Option.some.inj hconsumed).symm
  by_cases hexpired : row.expiresAt ≤ s.clock
  · have hnot : Op.refreshTokenConsumable s.clock row = false := by
      simp [Op.refreshTokenConsumable, Nat.not_lt.mpr hexpired]
    have hnone : (s.refreshToken r.presentedHash).filter (Op.refreshTokenConsumable s.clock) =
        none := by
      simp [h.tokenRow, hnot]
    have hsame : s.after w₁ = s := by
      rw [hw₁]
      funext k
      exact Rows.after_of_none (congrFun (effect_refreshTokenConsume_none hnone) k)
    obtain rfl : consumed = none := by rw [hconsumed, hnone, Option.map_none]
    refine wp_reading_alone rfl fun existing hexisting ↦ ?_
    obtain rfl : existing = some row := by
      rw [← Option.some.inj hexisting, hsame]
      exact h.tokenRow
    simp only [h.unused]
    refine ⟨rfl, fun _ ↦ ⟨rfl, hsame⟩, ?_, ?_, ?_, fun id ↦ by rw [hsame]⟩
    all_goals exact fun hlive ↦ absurd hexpired (Nat.not_le.mpr hlive)
  · have hlive : s.clock < row.expiresAt := Nat.lt_of_not_le hexpired
    obtain rfl : consumed = some { row with usedAt := some s.clock } := by
      simp [hconsumed, h.tokenRow, Op.refreshTokenConsumable, h.unused, hlive]
    exact wp_rotateConsumed_alone h howes hw₁ hlive

/-- What is said of a refusal: an error of the protocol leaves the token unspent exactly
where it may, and then leaves everything. -/
def RefusalAsSaid (env : Deployment) (r : RefreshRequest) (row : RefreshToken) (grant : TokenGrant)
    (s : Rows) (failure : Failure) (s' : Rows) : Prop :=
  failure ≠ .internal →
    (Unspent r s s' ↔ RefusesUnspent env r s row grant) ∧
      (RefusesUnspent env r s row grant → s' = s)

theorem refusalAsSaid_unspent (h : RefusesUnspent env r s row grant) (failure : Failure) :
    RefusalAsSaid env r row grant s failure s :=
  fun _ ↦ ⟨⟨fun _ ↦ h, fun _ ↦ Unspent.refl r s⟩, fun _ ↦ rfl⟩

theorem refusalAsSaid_spent (h : Presents r s row grant) {s' : Rows} (hspent : Spent r s')
    (hnot : ¬RefusesUnspent env r s row grant) (failure : Failure) :
    RefusalAsSaid env r row grant s failure s' :=
  fun _ ↦ ⟨⟨fun hunspent ↦ absurd hunspent (h.not_unspent hspent), fun hok ↦ absurd hok hnot⟩,
    fun hok ↦ absurd hok hnot⟩

/-- What follows a rotation refuses only a scope that may not be signed. -/
theorem wp_issueRotated_alone (h : Presents r s row grant) {s₁ : Rows} {scope audience : List String}
    (hheld : presentedHeld env r s grant = .ok (scope, audience))
    (hlive : s.clock < row.expiresAt) (hspent : Spent r s₁)
    (hsubject : ∀ id, s₁.subject id = s.subject id) {now : Time} {next : TokenHash} :
    (issueRotated env r now row.grantId grant next).wp
      (byItself (RefusalAsSaid env r row grant s)) Writes.nothing s₁ fun _ _ _ ↦ True := by
  refine wp_reading_alone rfl fun subject hfound ↦ ?_
  obtain rfl : s.subject grant.subjectId = subject :=
    (hsubject _).symm.trans (Option.some.inj hfound)
  unfold presentedHeld at hheld
  cases hsubject : s.subject grant.subjectId with
  | none => simp [hsubject] at hheld
  | some =>
    simp only [hsubject] at hheld ⊢
    simp only [hheld]
    cases hmint : mintAccessToken env (refreshMint r row.grantId grant scope audience) now with
    | some => trivial
    | none =>
      refine wp_throw_alone (refusalAsSaid_spent h hspent (fun hok ↦ ?_) _)
      have hpresented : presentedHeld env r s grant = .ok (scope, audience) := by
        simp only [presentedHeld, hsubject, hheld]
      have hsignable := (hok scope audience hpresented hlive).2
      rw [signable] at hsignable
      simp [mintAccessToken, refreshMint, hsignable] at hmint

theorem wp_issueRefreshTokens_alone (h : Presents r s row grant) :
    (issueRefreshTokens env r).wp (byItself (RefusalAsSaid env r row grant s)) Writes.nothing s
      fun _ _ _ ↦ True := by
  have hinternal : RefusalAsSaid env r row grant s .internal s := fun hne ↦ absurd rfl hne
  refine wp_reading_alone rfl fun now hnow ↦ ?_
  obtain rfl : s.clock = now := Option.some.inj hnow
  rw [wp_bind]
  refine wp_mono ?_ (wp_evaluatePresentedRefreshToken h fun e hrefused ↦
    refusalAsSaid_unspent (fun scope audience hheld ↦ ?_) e)
  · rintro _ _ (s : Rows) ⟨rfl, rfl, scope, audience, hheld⟩
    refine wp_endTransaction_alone trivial ?_
    rw [wp_bind]
    refine wp_mono ?_ (wp_rotateRefreshToken_alone h hinternal)
    rintro outcome w (s : Rows) ⟨rfl, hleaves⟩
    refine wp_endTransaction_alone trivial ?_
    by_cases hexpired : row.expiresAt ≤ s.clock
    · obtain ⟨rfl, hsame⟩ := hleaves.expired hexpired
      have hok : RefusesUnspent env r s row grant :=
        fun _ _ _ hlive ↦ absurd hexpired (Nat.not_le.mpr hlive)
      refine wp_throw_alone ?_
      change RefusalAsSaid env r row grant s .invalidGrant (s.after w)
      rw [hsame]
      exact refusalAsSaid_unspent hok .invalidGrant
    · have hlive : s.clock < row.expiresAt := Nat.lt_of_not_le hexpired
      have hspent := hleaves.consumed hlive
      cases halive : grantSessionLive r s grant with
      | false =>
        obtain rfl := hleaves.dead hlive halive
        refine wp_throw_alone (refusalAsSaid_spent h hspent (fun hok ↦ ?_) .invalidGrant)
        exact absurd (hok scope audience hheld hlive).1 (by simp [halive])
      | true =>
        obtain rfl := hleaves.rotated hlive halive
        exact wp_issueRotated_alone h hheld hlive hspent hleaves.subject
  · simp [hrefused] at hheld

end Run

/-- A refresh with an unused token of an unrevoked grant that ends in a refusal leaves the token
unspent, without a successor and with its grant, exactly where what the checks before the
rotation pass is on a live session and may be signed; and then it leaves everything as it
was. -/
theorem refusal_unspent_iff (env : Deployment) {r : RefreshRequest} {s s' : Rows}
    {row : RefreshToken} {grant : TokenGrant} (h : Presents r s row grant) {failure : Failure}
    (hrefused : (issueRefreshTokens env r).Ends Writes.nothing s (.error failure) s')
    (hprotocol : failure ≠ .internal) :
    (Unspent r s s' ↔ RefusesUnspent env r s row grant) ∧
      (RefusesUnspent env r s row grant → s' = s) :=
  (ends_of_wp hrefused trivial (wp_issueRefreshTokens_alone h)).2 hprotocol

/-- The grant of an agent whose token is for the MCP endpoint and, as every token, for the
issuer. -/
def agentGrant : TokenGrant where
  clientId := 1
  subjectId := 1
  scope := [MCP_READ_SCOPE]
  audience := withIssuer plainDeployment [plainDeployment.mcpAudience]
  revokedAt := none
  sessionId := none
  actorSubjectId := none
  exchangedFromGrantId := none
  actChain := none
  expCeiling := none
  requestedUserinfoClaims := none

/-- An unused refresh token of that grant. -/
def agentRefreshToken : RefreshToken where
  grantId := 5
  expiresAt := 1000
  usedAt := none
  replacedBy := none

/-- One enabled subject, with a grant and a refresh token. -/
def oneGrant : Rows
  | ⟨.subjects, 1⟩ => some ⟨none⟩
  | ⟨.tokenGrants, 5⟩ => some agentGrant
  | ⟨.refreshTokens, 20⟩ => some agentRefreshToken
  | _ => none

/-- A refresh of that token that asks for this target and this scope. -/
def refreshFor (resource : Field) (requestedScope : List String) : RefreshRequest where
  presentedHash := 20
  requestedScope
  resource
  clientId := 1
  registrationOrigin := .operator
  registrationPolicy := .other
  accessTokenTtlSeconds := 60
  refreshTokenTtlSeconds := 600
  lifespans := ⟨300, 600, 300, 600⟩
  nextHash := 21

theorem presents_agentRefreshToken (resource : Field) (requestedScope : List String) :
    Presents (refreshFor resource requestedScope) oneGrant agentRefreshToken agentGrant :=
  ⟨rfl, rfl, rfl, rfl⟩

/-- What a refresh by itself is refused with, and whether its token is used afterwards. -/
def refusedWith (r : RefreshRequest) : Option (Failure × Option Bool) :=
  match (issueRefreshTokens plainDeployment r).perform oracle Writes.nothing oneGrant with
  | some (.error failure, s') =>
    some (failure, (Rows.refreshToken s' r.presentedHash).map fun row ↦ row.usedAt.isSome)
  | _ => none

theorem ends_of_refusedWith {r : RefreshRequest} {failure : Failure} {used : Option Bool}
    (h : refusedWith r = some (failure, used)) :
    ∃ s' : Rows, (issueRefreshTokens plainDeployment r).Ends Writes.nothing oneGrant
      (.error failure) s' ∧
        (s'.refreshToken r.presentedHash).map (fun row ↦ row.usedAt.isSome) = used := by
  unfold refusedWith at h
  split at h
  case h_1 failure' s' hperform =>
    obtain ⟨rfl, rfl⟩ := Prod.mk.inj (Option.some.inj h)
    exact ⟨s', ends_of_perform hperform, rfl⟩
  case h_2 => simp at h

example : refusedWith (refreshFor .absent []) = none := by decide

/-- A scope the grant does not hold is refused, and spends nothing. -/
theorem refusal_unspent_iff_widened : ∃ s' : Rows,
    (issueRefreshTokens plainDeployment (refreshFor .absent ["openid"])).Ends Writes.nothing
      oneGrant (.error .invalidScope) s' ∧ s' = oneGrant := by
  have hrefused : refusedWith (refreshFor .absent ["openid"]) =
      some (.invalidScope, some false) := by decide
  obtain ⟨s', hends, -⟩ := ends_of_refusedWith hrefused
  refine ⟨s', hends, (refusal_unspent_iff plainDeployment (presents_agentRefreshToken _ _) hends
    (by simp)).2 ?_⟩
  exact fun scope audience hheld ↦ nomatch hheld

/-- The issuer asked for as the target is refused, once the token is spent. -/
theorem refusal_spends_token : ¬∀ (env : Deployment) (r : RefreshRequest) (s s' : Rows)
    (row : RefreshToken) (grant : TokenGrant) (failure : Failure), Presents r s row grant →
      (issueRefreshTokens env r).Ends Writes.nothing s (.error failure) s' →
        failure ≠ .internal → Unspent r s s' := by
  intro hall
  have hrefused : refusedWith (refreshFor (.one plainDeployment.issuer) []) =
      some (.invalidScope, some true) := by decide
  obtain ⟨s', hends, hused⟩ := ends_of_refusedWith hrefused
  have hunspent := hall _ _ _ s' _ _ _ (presents_agentRefreshToken _ _) hends (by simp)
  rw [hunspent.token] at hused
  simp [oneGrant, refreshFor, agentRefreshToken, Rows.refreshToken] at hused

end Odudu.ProtocolOidc
