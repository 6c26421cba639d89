import Odudu.ProtocolOidc.CodeRedemption
import Odudu.ProtocolOidc.TokenFamilies

/-!
# A code redeemed once

What a redemption leaves behind whatever the others do while it runs, as long as they
only age the rows: the code it consumed, the grant it recorded and the first token of that
grant's family.  A refusal leaves nothing, except that a code redeemed before has its
grant revoked.
-/

set_option autoImplicit false

namespace Odudu.ProtocolOidc

open ReadCommitted Program OneTimeTokens

/-- A code that was redeemed into a grant. -/
def Rows.RedeemedInto (s : Rows) (hash : TokenHash) (grantId : GrantId) : Prop :=
  ∃ row, s.code hash = some row ∧ row.consumedAt.isSome ∧ row.grantId = some grantId

/-- A code is consumed exactly when it is bound to a grant, which exists. -/
structure Rows.CodesInOrder (s : Rows) : Prop where
  bound : ∀ {hash row}, s.code hash = some row → (row.consumedAt.isSome ↔ row.grantId.isSome)
  hasGrant : ∀ {hash row grantId}, s.code hash = some row → row.grantId = some grantId →
    ∃ grant, s.grant grantId = some grant

variable {hash : TokenHash}

theorem Rows.RedeemedInto.ages {s s' : Rows} {grantId : GrantId}
    (h : s.RedeemedInto hash grantId) (hages : s.Ages s') : s'.RedeemedInto hash grantId := by
  obtain ⟨row, hrow, hconsumed, hgrant⟩ := h
  obtain ⟨row', hrow', hage⟩ := hages.code hrow
  exact ⟨row', hrow', hage.consumedAt.isSome hconsumed, hage.grantId _ hgrant⟩

/-- A grant recorded. -/
abbrev granting (grantId : GrantId) (grant : TokenGrant) : Writes database :=
  Layout.put (L := layout) .tokenGrants grantId (some grant)

theorem Rows.RedeemedInto.unique {s : Rows} {grantId grantId' : GrantId}
    (h : s.RedeemedInto hash grantId) (h' : s.RedeemedInto hash grantId') :
    grantId = grantId' := by
  obtain ⟨row, hrow, -, hgrant⟩ := h
  obtain ⟨row', hrow', -, hgrant'⟩ := h'
  obtain rfl : row = row' := Option.some.inj (hrow.symm.trans hrow')
  exact Option.some.inj (hgrant.symm.trans hgrant')

/-- A code consumed. -/
abbrev consuming (hash : TokenHash) (row : AuthorizationCode) (consumedAt : Time) :
    Writes database :=
  Layout.put (L := layout) .authorizationCodes hash (some { row with consumedAt := some consumedAt })

/-- A code consumed and bound to its grant, which is recorded. -/
abbrev recording (r : RedemptionRequest) (row : AuthorizationCode) (consumedAt : Time)
    (grant : TokenGrant) : Writes database :=
  ((consuming r.codeHash row consumedAt).andThen (granting r.grantId grant)).andThen
    (Layout.put (L := layout) .authorizationCodes r.codeHash
      (some { row with consumedAt := some consumedAt, grantId := some r.grantId }))

variable {env : Deployment} {P : Rows → Prop} {r : RedemptionRequest}
  {R : Rules database Failure} {w : Writes database} {s s' : Rows}

/-- The code a redemption has consumed and found good, before it issues anything. -/
structure Consumed (env : Deployment) (P : Rows → Prop) (r : RedemptionRequest)
    (row : AuthorizationCode) (consumedAt : Time) (s : Rows) : Prop where
  held : s.code r.codeHash = some row
  unconsumed : row.consumedAt = none
  unexpired : consumedAt < row.expiresAt
  started : ∃ s₁ : Rows, P s₁ ∧ consumedAt = s₁.clock
  evaluated :
    evaluateAuthorizationCodeGrant env row r.clientId r.redirectUri r.codeVerifier = true
  enabled : ∃ s₁ : Rows, P s₁ ∧ subjectIsEnabled (s₁.subject row.subjectId) = true

/-- What a redemption leaves behind: its writes over the rows. -/
structure Redemption (env : Deployment) (P : Rows → Prop) (r : RedemptionRequest)
    (response : TokenResponse) (row : AuthorizationCode) (consumedAt : Time)
    (w : Writes database) (s : Rows) : Prop where
  consumed : Consumed env P r row consumedAt s
  minted : ∃ audience now, resolveAudience env row.resource r.resource = some audience ∧
    mintAccessToken env (redemptionMint r row audience) now = some response.accessToken
  free : s.grant r.grantId = none
  code : w ⟨.authorizationCodes, r.codeHash⟩ =
    some (some { row with consumedAt := some consumedAt, grantId := some r.grantId })
  grant : w ⟨.tokenGrants, r.grantId⟩ =
    some (some (redeemedGrant r row response.accessToken))
  token : ∀ hash, response.refreshToken = some hash → s.refreshToken hash = none ∧
    ∃ expiresAt, w ⟨.refreshTokens, hash⟩ = some (some ⟨r.grantId, expiresAt, none, none⟩)
  rest : ∀ k : layout.Key, k ≠ ⟨.authorizationCodes, r.codeHash⟩ →
    k ≠ ⟨.tokenGrants, r.grantId⟩ →
    (∀ hash, response.refreshToken = some hash → k ≠ ⟨.refreshTokens, hash⟩) → w k = none

variable {row : AuthorizationCode} {consumedAt : Time}

/-- A code is still as it was consumed when others have committed. -/
theorem Consumed.of_locked
    (h : Consumed env P r row consumedAt s) {v : Option AuthorizationCode}
    (hlocked : w ⟨.authorizationCodes, r.codeHash⟩ = some v) (hrely : ageing.Rely w s s') :
    Consumed env P r row consumedAt s' :=
  { h with held := (hrely.locked _ _ hlocked).trans h.held }

variable {response : TokenResponse}

/-- What a redemption leaves behind is so still when others have committed. -/
theorem Redemption.of_rely
    (h : Redemption env P r response row consumedAt w s)
    (hrely : ageing.Rely w s s') : Redemption env P r response row consumedAt w s' where
  consumed := h.consumed.of_locked h.code hrely
  minted := h.minted
  free := (hrely.locked _ _ h.grant).trans h.free
  code := h.code
  grant := h.grant
  token := by
    intro hash hhash
    obtain ⟨hfree, expiresAt, hnew⟩ := h.token hash hhash
    exact ⟨(hrely.locked _ _ hnew).trans hfree, expiresAt, hnew⟩
  rest := h.rest

/-- What is owed for a redemption. -/
abbrev Redeemed (env : Deployment) (P : Rows → Prop) (r : RedemptionRequest)
    (response : TokenResponse) (w : Writes database) (s : Rows) : Prop :=
  s.Ages (s.after w) ∧ ∃ row consumedAt, Redemption env P r response row consumedAt w s

/-- What the rules must grant a redemption for its refusals: nothing was redeemed, or the
grant that was is revoked. -/
structure Refusable (P : Rows → Prop) (r : RedemptionRequest) (R : Rules database Failure) :
    Prop where
  commit : ∀ (s : Rows) w grantId, s.Ages (s.after w) → s.RedeemedInto r.codeHash grantId →
    (∀ k, k ≠ ⟨.tokenGrants, grantId⟩ → w k = none) → (s.after w).Revoked grantId →
    R.owesCommit s w
  refused : ∀ (s₁ s₂ : Rows) failure, P s₁ → (¬∃ grantId, s₁.RedeemedInto r.codeHash grantId) →
    (∀ grantId, failure ≠ .replayed grantId) → R.owesThrow failure s₂
  replayed : ∀ (s : Rows) grantId, P s → s.RedeemedInto r.codeHash grantId →
    s.Revoked grantId → R.owesThrow (.replayed grantId) s

theorem not_redeemedInto
    (hrow : s.code hash = some row) (hunconsumed : row.consumedAt = none) :
    ¬∃ grantId, s.RedeemedInto hash grantId := by
  rintro ⟨grantId, row', hrow', hconsumed, -⟩
  obtain rfl : row = row' := Option.some.inj (hrow.symm.trans hrow')
  simp [hunconsumed] at hconsumed

/-- What issuing a family's first token writes over the rows it sees. -/
def FirstToken (r : RedemptionRequest) (token : Option TokenHash) (later : Writes database)
    (s : Rows) : Prop :=
  token = none ∧ later = Writes.nothing ∨
    ∃ expiresAt, token = some r.refreshTokenHash ∧ s.refreshToken r.refreshTokenHash = none ∧
      later = issuing r.refreshTokenHash ⟨r.grantId, expiresAt, none, none⟩

theorem FirstToken.eq_none {token : Option TokenHash} {later : Writes database}
    (h : FirstToken r token later s) {k : layout.Key}
    (hk : ∀ hash, token = some hash → k ≠ ⟨.refreshTokens, hash⟩) : later k = none := by
  rcases h with ⟨-, rfl⟩ | ⟨expiresAt, htoken, -, rfl⟩
  · rfl
  · exact Layout.put_of_key_ne (L := layout) (hk _ htoken)

/-- What a redemption writes before it issues a token. -/
theorem recording_apply (r : RedemptionRequest) (row : AuthorizationCode) (consumedAt : Time)
    (grant : TokenGrant) :
    recording r row consumedAt grant ⟨.authorizationCodes, r.codeHash⟩ =
        some (some { row with consumedAt := some consumedAt, grantId := some r.grantId }) ∧
      recording r row consumedAt grant ⟨.tokenGrants, r.grantId⟩ = some (some grant) ∧
      ∀ k : layout.Key, k ≠ ⟨.authorizationCodes, r.codeHash⟩ → k ≠ ⟨.tokenGrants, r.grantId⟩ →
        recording r row consumedAt grant k = none := by
  refine ⟨Writes.andThen_of_some (Layout.put_self (L := layout)), ?_, fun k hcode hgrant ↦ ?_⟩
  · exact (Writes.andThen_of_none (Layout.put_of_ne (L := layout) (by decide) _)).trans
      (Writes.andThen_of_some (Layout.put_self (L := layout)))
  · exact (Writes.andThen_of_none (Layout.put_of_key_ne (L := layout) hcode)).trans
      ((Writes.andThen_of_none (Layout.put_of_key_ne (L := layout) hgrant)).trans
        (Layout.put_of_key_ne (L := layout) hcode))

section Redeeming

variable (hR : ageing.Governs P R) (hP : ∀ s, P s → s.CodesInOrder)

include hR hP

/-- The replay of a code revokes the grant it was redeemed into, and is refused. -/
theorem wp_refuseUnconsumable {post : AuthorizationCode → Writes database → Rows → Prop}
    (hrefusable : Refusable P r R) :
    (refuseUnconsumable r).wp R Writes.nothing s post := by
  unfold refuseUnconsumable
  refine wp_reading hR rfl fun s₁ existing _ hs₁ hexisting ↦ ?_
  have hexisting : existing = s₁.code r.codeHash := (Option.some.inj hexisting).symm
  cases hgrant : existing.bind (fun code ↦ code.grantId) with
  | none =>
    intro (s' : Rows) _
    refine hrefusable.refused s₁ s' _ hs₁ ?_ (by simp)
    rintro ⟨grantId, row, hrow, -, hrowGrant⟩
    simp [hexisting, hrow, hrowGrant] at hgrant
  | some grantId =>
    obtain ⟨row, hsome, hrowGrant⟩ := Option.bind_eq_some_iff.mp hgrant
    have hrow : s₁.code r.codeHash = some row := hexisting.symm.trans hsome
    have hinto : s₁.RedeemedInto r.codeHash grantId :=
      ⟨row, hrow, ((hP _ hs₁).bound hrow).mpr (by simp [hrowGrant]), hrowGrant⟩
    obtain ⟨grant, hheld⟩ := (hP _ hs₁).hasGrant hrow hrowGrant
    refine wp_reading hR rfl fun s₂ revokedAt hrely₂ _ _ ↦ ?_
    refine wp_writing_first hR fun s₃ _ hrely₃ _ _ ↦
      ⟨_, rfl, Op.ages_effect rfl _, fun hages₃ ↦ ?_⟩
    have haged₃ := aged (hrely₂.trans hrely₃)
    obtain ⟨grant₃, hheld₃, -⟩ := haged₃.grant hheld
    have hrevoked := revoked_of_revoke revokedAt hheld₃
    refine wp_committing hR fun s₄ hrely₄ _ ↦ ?_
    have hinto₄ := (hinto.ages haged₃).ages (aged hrely₄)
    have hrevoked₄ := hrevoked.ages (agedSeen hrely₄)
    have hages₄ := hrely₄.laidOver hages₃
    refine ⟨hrefusable.commit s₄ _ grantId hages₄ hinto₄ (fun k hk ↦ revoke_eq_none hk)
      hrevoked₄, ?_⟩
    intro (s₅ : Rows) hrely₅
    have haged₅ := aged (hR _ _ _ hrely₅).1
    exact hrefusable.replayed s₅ grantId (hR _ _ _ hrely₅).2 ((hinto₄.ages hages₄).ages haged₅)
      (hrevoked₄.ages haged₅)

/-- A code is consumed, and what it was issued for is found right. -/
theorem wp_redeemAuthorizationCode (hrefusable : Refusable P r R) :
    (redeemAuthorizationCode env r).wp R Writes.nothing s fun code w (s : Rows) ↦
      ∃ row consumedAt, code = { row with consumedAt := some consumedAt } ∧
        w = consuming r.codeHash row consumedAt ∧ s.Ages (s.after w) ∧
        Consumed env P r row consumedAt s := by
  unfold redeemAuthorizationCode
  refine wp_reading hR rfl fun s₁ transactionStart _ hs₁ hstart ↦ ?_
  refine wp_writing_first hR fun s₂ record _ hs₂ hrecord ↦ ?_
  have hrecord : record = ((s₂.code r.codeHash).filter
    (Op.codeConsumable transactionStart)).map _ := (Option.some.inj hrecord).symm
  cases hfilter : (s₂.code r.codeHash).filter (Op.codeConsumable transactionStart) with
  | none =>
    rw [hfilter] at hrecord
    subst hrecord
    exact ⟨_, effect_authorizationCodeConsume_none hfilter, Op.ages_effect rfl _,
      fun _ ↦ wp_refuseUnconsumable hR hP hrefusable⟩
  | some row =>
    rw [hfilter] at hrecord
    subst hrecord
    obtain ⟨hrow, hok⟩ := Option.filter_eq_some_iff.mp hfilter
    refine ⟨_, effect_authorizationCodeConsume hrow hok, Op.ages_effect rfl _, fun hages ↦ ?_⟩
    simp only [Op.codeConsumable, Bool.and_eq_true, Option.isNone_iff_eq_none,
      decide_eq_true_eq] at hok
    have hrefused : ∀ s', R.owesThrow .invalidGrant s' := fun s' ↦
      hrefusable.refused s₂ s' _ hs₂ (not_redeemedInto hrow hok.1) (by simp)
    simp only [Option.map_some]
    split_ifs with hevaluated
    · refine wp_reading hR rfl fun s₃ subject hrely₃ hs₃ hsubject ↦ ?_
      have hseen : (s₃.after (consuming r.codeHash row transactionStart)).subject row.subjectId =
          s₃.subject row.subjectId :=
        Rows.after_of_none (Layout.put_of_ne (L := layout) (by decide) _)
      obtain rfl : subject = s₃.subject row.subjectId :=
        (Option.some.inj hsubject).symm.trans hseen
      split_ifs with henabled
      · exact ⟨row, transactionStart, rfl, rfl, hrely₃.laidOver hages,
          { held := (hrely₃.locked _ _ (Layout.put_self (L := layout))).trans hrow
            unconsumed := hok.1
            unexpired := hok.2
            started := ⟨s₁, hs₁, (Option.some.inj hstart).symm⟩
            evaluated := hevaluated
            enabled := ⟨s₃, hs₃, henabled⟩ }⟩
      · exact fun s' _ ↦ hrefused s'
    · exact fun s' _ ↦ hrefused s'

omit hP in
/-- The first refresh token of a family, where one is issued. -/
theorem wp_issueFirstRefreshToken (hinternal : ∀ s, R.owesThrow .internal s)
    {code : AuthorizationCode} {now : Time} (hages : s.Ages (s.after w))
    {post : Option TokenHash → Writes database → Rows → Prop}
    (hpost : ∀ token later (s' : Rows), ageing.Rely w s s' → FirstToken r token later (s'.after w) →
      s'.Ages (s'.after (w.andThen later)) → post token (w.andThen later) s') :
    (issueFirstRefreshToken r code now).wp R w s post := by
  unfold issueFirstRefreshToken
  split_ifs with hissued
  · refine wp_writing hR hages fun s₁ created hrely₁ _ hcreated ↦ ?_
    cases created with
    | false => exact ⟨_, rfl, Op.ages_effect rfl _, fun _ s' _ ↦ hinternal s'⟩
    | true =>
      have hfree : (s₁.after w).refreshToken r.refreshTokenHash = none :=
        Option.isNone_iff_eq_none.mp (Option.some.inj hcreated)
      exact ⟨_, effect_refreshTokenCreate _ hfree, Op.ages_effect rfl _,
        hpost _ _ s₁ hrely₁ (Or.inr ⟨_, rfl, hfree, rfl⟩)⟩
  · have hnothing := hpost none Writes.nothing s (.refl _ _) (Or.inl ⟨rfl, rfl⟩)
    rw [Writes.andThen_nothing] at hnothing
    exact hnothing hages

omit hP in
/-- A redemption is recorded. -/
theorem wp_recordRedemption (hinternal : ∀ s, R.owesThrow .internal s)
    {row : AuthorizationCode} {consumedAt now mintedAt : Time} {audience : List String}
    {token : AccessToken} (hconsumed : Consumed env P r row consumedAt s)
    (hunbound : row.grantId = none)
    (haudience : resolveAudience env row.resource r.resource = some audience)
    (hminted : mintAccessToken env (redemptionMint r row audience) mintedAt = some token)
    (hages : s.Ages (s.after (consuming r.codeHash row consumedAt))) :
    (recordRedemption r { row with consumedAt := some consumedAt } token now).wp R
      (consuming r.codeHash row consumedAt) s (Redeemed env P r) := by
  unfold recordRedemption
  refine wp_writing hR hages fun s₁ created hrely₁ _ hcreated ↦ ?_
  cases created with
  | false => exact ⟨_, rfl, Op.ages_effect rfl _, fun _ s' _ ↦ hinternal s'⟩
  | true =>
    have hfree : (s₁.after (consuming r.codeHash row consumedAt)).grant r.grantId = none :=
      Option.isNone_iff_eq_none.mp (Option.some.inj hcreated)
    have hfree₁ : s₁.grant r.grantId = none :=
      (Rows.after_of_none (Layout.put_of_ne (L := layout) (by decide) _)).symm.trans hfree
    have hconsumed₁ := hconsumed.of_locked (Layout.put_self (L := layout)) hrely₁
    refine ⟨_, effect_tokenGrantCreate _ hfree, Op.ages_effect rfl _, fun hages₁ ↦ ?_⟩
    change s₁.Ages (s₁.after ((consuming r.codeHash row consumedAt).andThen
      (granting r.grantId (redeemedGrant r row token)))) at hages₁
    have hgranted : ((consuming r.codeHash row consumedAt).andThen
        (granting r.grantId (redeemedGrant r row token))) ⟨.tokenGrants, r.grantId⟩ = some _ :=
      Writes.andThen_of_some (Layout.put_self (L := layout))
    have hspent : ((consuming r.codeHash row consumedAt).andThen
        (granting r.grantId (redeemedGrant r row token))) ⟨.authorizationCodes, r.codeHash⟩ =
          some _ :=
      (Writes.andThen_of_none (Layout.put_of_ne (L := layout) (by decide) _)).trans
        (Layout.put_self (L := layout))
    refine wp_writing hR hages₁ fun s₂ _ hrely₂ _ _ ↦ ?_
    have hseen₂ : (s₂.after _).code r.codeHash = some _ := Rows.after_of_some hspent
    have hconsumed₂ := hconsumed₁.of_locked hspent hrely₂
    have hfree₂ : s₂.grant r.grantId = none := (hrely₂.locked _ _ hgranted).trans hfree₁
    refine ⟨_, effect_authorizationCodeAttachGrant hseen₂, ?_, fun hages₂ ↦ ?_⟩
    · refine ages_attachGrant r.codeHash r.grantId fun row' hrow' ↦ ?_
      obtain rfl : _ = row' := Option.some.inj (hseen₂.symm.trans hrow')
      exact hunbound
    rw [wp_bind]
    refine wp_issueFirstRefreshToken hR hinternal hages₂ fun refreshToken later s₃ hrely₃ hfirst hages₃ ↦ ?_
    obtain ⟨hcode, hgrant, hrest⟩ := recording_apply r row consumedAt (redeemedGrant r row token)
    exact ⟨hages₃, row, consumedAt, {
      consumed := hconsumed₂.of_locked hcode hrely₃
      minted := ⟨audience, mintedAt, haudience, hminted⟩
      free := (hrely₃.locked _ _ hgrant).trans hfree₂
      code := (Writes.andThen_of_none (hfirst.eq_none (by simp))).trans hcode
      grant := (Writes.andThen_of_none (hfirst.eq_none (by simp))).trans hgrant
      token := fun hash hhash ↦ by
        rcases hfirst with ⟨hnone, -⟩ | ⟨expiresAt, htoken, hfirstFree, rfl⟩
        · simp [hnone] at hhash
        · obtain rfl : r.refreshTokenHash = hash := Option.some.inj (htoken.symm.trans hhash)
          have hunwritten := hrest ⟨.refreshTokens, r.refreshTokenHash⟩ (by simp) (by simp)
          exact ⟨(Rows.after_of_none hunwritten).symm.trans hfirstFree, expiresAt,
            Writes.andThen_of_some (Layout.put_self (L := layout))⟩
      rest := fun k hcode hgrant htoken ↦
        (Writes.andThen_of_none (hfirst.eq_none htoken)).trans (hrest k hcode hgrant) }⟩

/-- The tokens of a redemption, whatever the others do meanwhile. -/
theorem wp_issueAuthorizationCodeTokens (hrefusable : Refusable P r R) :
    (issueAuthorizationCodeTokens env r).wp R Writes.nothing s (Redeemed env P r) := by
  unfold issueAuthorizationCodeTokens
  rw [wp_bind]
  refine wp_mono ?_ (wp_redeemAuthorizationCode hR hP hrefusable)
  rintro _ _ (s₁ : Rows) ⟨row, consumedAt, rfl, rfl, hages, hconsumed⟩
  refine wp_reading hR rfl fun s₂ now hrely₂ hs₂ _ ↦ ?_
  have hconsumed₂ := hconsumed.of_locked (Layout.put_self (L := layout)) hrely₂
  have hrefused : ∀ failure, (∀ grantId, failure ≠ .replayed grantId) → ∀ s',
      R.owesThrow failure s' := fun failure hfailure s' ↦
    hrefusable.refused s₂ s' failure hs₂
      (not_redeemedInto hconsumed₂.held hconsumed₂.unconsumed) hfailure
  have hunbound : row.grantId = none := by
    have hiff := (hP _ hs₂).bound hconsumed₂.held
    simpa [hconsumed₂.unconsumed] using hiff
  split
  case h_1 => exact fun s' _ ↦ hrefused _ (by simp) s'
  case h_2 audience haudience =>
    split
    case h_1 => exact fun s' _ ↦ hrefused _ (by simp) s'
    case h_2 token hminted =>
      exact wp_recordRedemption hR (hrefused _ (by simp)) hconsumed₂ hunbound haudience hminted
        (hrely₂.laidOver hages)

end Redeeming

/-- A redemption opens the family of its grant, or leaves the ledger. -/
theorem Redemption.move
    (h : Redemption env P r response row consumedAt w s)
    (hs : s.FamiliesInOrder) :
    Move (fun grantId ↦ ∃ grant, (s.after w).grant grantId = some grant) s.ledger
      (s.after w).ledger := by
  cases htoken : response.refreshToken with
  | none =>
    refine .keep fun hash ↦ Rows.ledger_unwritten (h.rest _ (by simp) (by simp) ?_)
    simp [htoken]
  | some hash =>
    obtain ⟨hfree, expiresAt, hnew⟩ := h.token hash htoken
    refine .openFamily ⟨_, Rows.after_of_some h.grant⟩ (Rows.ledger_of_none hfree) ?_
      (Rows.ledger_written hnew) fun hash' hne ↦
        Rows.ledger_unwritten (h.rest _ (by simp) (by simp) ?_)
    · intro hash' e hheld hfamily
      obtain ⟨row', hrow', rfl⟩ := Option.map_eq_some_iff.mp hheld
      obtain ⟨grant, hgrant⟩ := hs.hasGrant hrow'
      have hnone := h.free
      rw [← show row'.grantId = r.grantId from hfamily, hgrant] at hnone
      simp at hnone
    · rintro hash'' hhash'' heq
      obtain rfl : hash = hash'' := Option.some.inj (htoken.symm.trans hhash'')
      simp only [Sigma.mk.injEq, heq_eq_eq, true_and] at heq
      exact hne heq

theorem Redeemed.families (h : Redeemed env P r response w s)
    (hs : s.FamiliesInOrder) : (s.after w).FamiliesInOrder := by
  obtain ⟨hages, row, consumedAt, h⟩ := h
  exact hs.move hages (h.move hs)

/-- A redemption leaves the codes in order. -/
theorem Redeemed.codes (h : Redeemed env P r response w s)
    (hs : s.CodesInOrder) : (s.after w).CodesInOrder := by
  obtain ⟨hages, row, consumedAt, h⟩ := h
  have hcases : ∀ {hash row'}, (s.after w).code hash = some row' →
      hash = r.codeHash ∧
        row' = { row with consumedAt := some consumedAt, grantId := some r.grantId } ∨
      s.code hash = some row' := by
    intro hash row' hrow'
    by_cases hne : hash = r.codeHash
    · subst hne
      exact Or.inl ⟨rfl, (Option.some.inj ((Rows.after_of_some h.code).symm.trans hrow')).symm⟩
    · exact Or.inr ((Rows.after_of_none (h.rest _ (by simpa using hne) (by simp)
        (by simp))).symm.trans hrow')
  refine ⟨fun {hash row'} hrow' ↦ ?_, fun {hash row' grantId} hrow' hgrantId ↦ ?_⟩
  · rcases hcases hrow' with ⟨-, rfl⟩ | hold
    · simp
    · exact hs.bound hold
  · rcases hcases hrow' with ⟨-, rfl⟩ | hold
    · obtain rfl : r.grantId = grantId := Option.some.inj hgrantId
      exact ⟨_, Rows.after_of_some h.grant⟩
    · obtain ⟨grant, hgrant⟩ := hs.hasGrant hold hgrantId
      obtain ⟨grant', hgrant', -⟩ := Rows.Ages.grant hages hgrant
      exact ⟨grant', hgrant'⟩

/-- The codes are in order after a commit that writes none of them but new ones. -/
theorem Rows.CodesInOrder.kept (hs : s.CodesInOrder) (hages : s.Ages s')
    (hw : ∀ hash row, s'.code hash = some row →
      s.code hash = some row ∨ row.consumedAt = none ∧ row.grantId = none) : s'.CodesInOrder where
  bound := by
    intro hash row hrow
    rcases hw hash row hrow with hold | ⟨hconsumed, hgrantId⟩
    · exact hs.bound hold
    · simp [hconsumed, hgrantId]
  hasGrant := by
    intro hash row grantId hrow hgrantId
    rcases hw hash row hrow with hold | ⟨-, hnone⟩
    · obtain ⟨grant, hgrant⟩ := hs.hasGrant hold hgrantId
      obtain ⟨grant', hgrant', -⟩ := hages.grant hgrant
      exact ⟨grant', hgrant'⟩
    · simp [hnone] at hgrantId

theorem Rows.CodesInOrder.unwritten (hs : s.CodesInOrder) (hages : s.Ages (s.after w))
    (hw : ∀ hash, w ⟨.authorizationCodes, hash⟩ = none) : (s.after w).CodesInOrder :=
  hs.kept hages fun hash _ hrow ↦ Or.inl ((Rows.after_of_none (hw hash)).symm.trans hrow)

end Odudu.ProtocolOidc
