import Odudu.ProtocolOidc.TokenEndpoint

/-!
# Single use, over every interleaving

A refresh token is rotated once and a code redeemed once, a replay of either revokes what
was made from it, and nothing that begins after the replay is answered with a token.
-/

set_option autoImplicit false

namespace Odudu.ProtocolOidc

open ReadCommitted OneTimeTokens

variable {env : Deployment}

/-- The token an answer issued in exchange for the token of this hash. -/
def successorOf (hash : TokenHash) (a : Answered (tokenEndpoint env)) : Option TokenHash :=
  match a.call, a.result with
  | .rotate r, .ok (.rotation (.rotated _ _ next)) =>
    if r.presentedHash = hash then some next else none
  | _, _ => none

/-- The tokens issued in exchange for the token of this hash. -/
def successors (hash : TokenHash) (history : List (Answered (tokenEndpoint env))) :
    List TokenHash :=
  history.filterMap (successorOf hash)

/-- The grant an answer made from the code of this hash. -/
def grantFrom (hash : TokenHash) (a : Answered (tokenEndpoint env)) : Option GrantId :=
  match a.call, a.result with
  | .redeem r, .ok (.tokens response) =>
    if r.codeHash = hash then some response.accessToken.grantId else none
  | _, _ => none

/-- The grants made from the code of this hash. -/
def grantsFrom (hash : TokenHash) (history : List (Answered (tokenEndpoint env))) :
    List GrantId :=
  history.filterMap (grantFrom hash)

/-- The token of this hash was exchanged at most once, and for what its row says. -/
def ExchangedOnce (s : Rows) (history : List (Answered (tokenEndpoint env))) : Prop :=
  ∀ hash, successors hash history = [] ∨ ∃ next row, successors hash history = [next] ∧
    s.refreshToken hash = some row ∧ row.replacedBy = some next

/-- The code of this hash was redeemed at most once, and into the grant its row says. -/
def RedeemedOnce (s : Rows) (history : List (Answered (tokenEndpoint env))) : Prop :=
  ∀ hash, grantsFrom hash history = [] ∨ ∃ grantId, grantsFrom hash history = [grantId] ∧
    s.RedeemedInto hash grantId

/-- The grant an answer revoked: the family of a token used before, or what a code
redeemed before was redeemed into. -/
def revokedBy (a : Answered (tokenEndpoint env)) : Option GrantId :=
  match a.result with
  | .ok (.rotation (.reused grantId _)) => some grantId
  | .error (.replayed grantId) => some grantId
  | _ => none

/-- A grant that an answer revoked is revoked. -/
def ReuseRevoked (s : Rows) (history : List (Answered (tokenEndpoint env))) : Prop :=
  ∀ a ∈ history, ∀ grantId, revokedBy a = some grantId → s.Revoked grantId

variable {s s' : Rows}

theorem ExchangedOnce.ages {history : List (Answered (tokenEndpoint env))}
    (h : ExchangedOnce s history) (hages : s.Ages s') : ExchangedOnce s' history := by
  intro hash
  rcases h hash with hnone | ⟨next, row, hone, hrow, hnext⟩
  · exact Or.inl hnone
  · obtain ⟨row', hrow', hage⟩ := hages.refreshToken hrow
    exact Or.inr ⟨next, row', hone, hrow', hage.replacedBy _ hnext⟩

theorem RedeemedOnce.ages {history : List (Answered (tokenEndpoint env))}
    (h : RedeemedOnce s history) (hages : s.Ages s') : RedeemedOnce s' history := by
  intro hash
  rcases h hash with hnone | ⟨grantId, hone, hinto⟩
  · exact Or.inl hnone
  · exact Or.inr ⟨grantId, hone, hinto.ages hages⟩

private theorem successorOf_eq_some {hash next : TokenHash} {a : Answered (tokenEndpoint env)}
    (h : successorOf hash a = some next) :
    ∃ r grantId grant, a.call = .rotate r ∧ r.presentedHash = hash ∧
      a.result = .ok (.rotation (.rotated grantId grant next)) := by
  unfold successorOf at h
  split at h
  · next r grantId grant next' hcall hresult =>
    split_ifs at h with hpresented
    obtain rfl := Option.some.inj h
    exact ⟨r, grantId, grant, hcall, hpresented, hresult⟩
  · simp at h

variable {hash : TokenHash} {grantId : GrantId}

private theorem grantFrom_eq_some
    {a : Answered (tokenEndpoint env)} (h : grantFrom hash a = some grantId) :
    ∃ r response, a.call = .redeem r ∧ r.codeHash = hash ∧
      a.result = .ok (.tokens response) ∧ response.accessToken.grantId = grantId := by
  unfold grantFrom at h
  split at h
  · next r response hcall hresult =>
    split_ifs at h with hpresented
    exact ⟨r, response, hcall, hpresented, hresult, Option.some.inj h⟩
  · simp at h

variable {w : Writes database} {P : Rows → Prop}

/-- A token that is rotated has been exchanged for nothing, and is for its successor. -/
private theorem Rotation.exchanged {r : RotationRequest}
    {grant : TokenGrant} {next : TokenHash} {s : Rows}
    (h : Rotation P r (.rotated grantId grant next) w s) :
    (∃ row, s.refreshToken r.presentedHash = some row ∧ row.usedAt = none) ∧
      ∃ row, (s.after w).refreshToken r.presentedHash = some row ∧ row.replacedBy = some next := by
  cases h with
  | rotated _ hrow hunused _ hspent =>
    exact ⟨⟨_, hrow, hunused⟩, _, Rows.after_of_some hspent, rfl⟩

variable {history history' : List (Answered (tokenEndpoint env))}

/-- Every effect leaves every token exchanged once. -/
theorem exchangedOnce_effect
    (heffect : Contract.Effect (guarantee env) (s, history) (s', history'))
    (h : ExchangedOnce s history) : ExchangedOnce s' history' := by
  cases heffect with
  | part _ hguar => exact h.ages hguar.1
  | refuse =>
    intro hash
    simpa [successors, successorOf] using h hash
  | @commit t call _ w outcome _ hinv hguar =>
    intro hash
    cases hsucc : successorOf hash (⟨t, call, .ok outcome⟩ : Answered (tokenEndpoint env)) with
    | none => simpa only [successors, List.filterMap_cons, hsucc] using h.ages hguar.1 hash
    | some next =>
      obtain ⟨r, grantId, grant, rfl, rfl, hresult⟩ := successorOf_eq_some hsucc
      obtain rfl : outcome = .rotation (.rotated grantId grant next) := by simpa using hresult
      cases hguar.2 with
      | rotate hrotation =>
        obtain ⟨⟨row, hrow, hunused⟩, row', hrow', hnext⟩ := hrotation.exchanged
        rcases h r.presentedHash with hnone | ⟨next', row'', -, hrow'', hnext'⟩
        · refine Or.inr ⟨next, row', ?_, hrow', hnext⟩
          simp only [successors, List.filterMap_cons, hsucc]
          exact congrArg (next :: ·) hnone
        · obtain rfl : row = row'' := Option.some.inj (hrow.symm.trans hrow'')
          have hspent := (hinv.families.ledger.succeeded (Rows.ledger_of_some hrow) hnext').1
          simp [RefreshToken.entry, hunused] at hspent

/-- Every effect leaves every code redeemed once. -/
theorem redeemedOnce_effect
    (heffect : Contract.Effect (guarantee env) (s, history) (s', history'))
    (h : RedeemedOnce s history) : RedeemedOnce s' history' := by
  cases heffect with
  | part _ hguar => exact h.ages hguar.1
  | refuse =>
    intro hash
    simpa [grantsFrom, grantFrom] using h hash
  | @commit t call _ w outcome _ hinv hguar =>
    intro hash
    cases hgrant : grantFrom hash (⟨t, call, .ok outcome⟩ : Answered (tokenEndpoint env)) with
    | none => simpa only [grantsFrom, List.filterMap_cons, hgrant] using h.ages hguar.1 hash
    | some grantId =>
      obtain ⟨r, response, rfl, rfl, hresult, rfl⟩ := grantFrom_eq_some hgrant
      obtain rfl : outcome = .tokens response := by simpa using hresult
      cases hguar.2 with
      | @redeem _ _ _ _ row consumedAt hredemption =>
        have hgrantId : response.accessToken.grantId = r.grantId := by
          obtain ⟨audience, now, -, hminted⟩ := hredemption.minted
          exact (mints_of_mintAccessToken hminted).grantId
        rcases h r.codeHash with hnone | ⟨grantId, -, hinto⟩
        · refine Or.inr ⟨response.accessToken.grantId, ?_, ?_⟩
          · simp only [grantsFrom, List.filterMap_cons, hgrant]
            exact congrArg (response.accessToken.grantId :: ·) hnone
          · rw [hgrantId]
            exact ⟨_, Rows.after_of_some hredemption.code, rfl, rfl⟩
        · exact absurd ⟨grantId, hinto⟩ (not_redeemedInto hredemption.consumed.held
            hredemption.consumed.unconsumed)

/-- Every effect leaves revoked what answers have revoked. -/
theorem reuseRevoked_effect
    (heffect : Contract.Effect (guarantee env) (s, history) (s', history'))
    (h : ReuseRevoked s history) : ReuseRevoked s' history' := by
  intro a ha grantId hrevokes
  cases heffect with
  | part _ hguar => exact (h a ha grantId hrevokes).ages hguar.1
  | refuse _ hthrown =>
    rcases List.mem_cons.mp ha with rfl | hbefore
    · cases hthrown with
      | rotate => simp [revokedBy] at hrevokes
      | redeem _ _ hfailure =>
        unfold revokedBy at hrevokes
        split at hrevokes
        · next hresult => simp at hresult
        · next grantId' hresult => exact absurd (Except.error.inj hresult) (hfailure grantId')
        · simp at hrevokes
      | replay _ _ hrevoked =>
        obtain rfl := Option.some.inj hrevokes
        exact hrevoked
    · exact h a hbefore grantId hrevokes
  | commit _ hguar =>
    rcases List.mem_cons.mp ha with rfl | hbefore
    · cases hguar.2 with
      | rotate hrotation =>
        cases hrotation with
        | reused _ _ _ hrevoked =>
          obtain rfl := Option.some.inj hrevokes
          exact hrevoked
        | _ => simp [revokedBy] at hrevokes
      | _ => simp [revokedBy] at hrevokes
    · exact (h a hbefore grantId hrevokes).ages hguar.1

variable {row : AuthorizationCode}

/-- A commit that redeems no code leaves a code as it is. -/
private theorem Committed.code_eq {call : Call} {outcome : Option Outcome}
    {s : Rows} (h : Committed env P call s w outcome)
    (hrow : s.code hash = some row)
    (hnot : ∀ r response, call = .redeem r → outcome = some (.tokens response) →
      r.codeHash ≠ hash) : (s.after w).code hash = some row := by
  refine (Rows.after_of_none ?_).trans hrow
  cases h with
  | rotate h => exact h.codes hash
  | @redeem r _ _ response _ _ h =>
    exact h.rest _ (by simpa using (hnot r response rfl rfl).symm) (by simp) (by simp)
  | replay hw => exact hw _ (by simp)
  | other h =>
    by_contra hwritten
    obtain ⟨cell, hcell⟩ := Option.ne_none_iff_exists'.mp hwritten
    exact absurd ((h.codes hash cell hcell).1.symm.trans hrow) (by simp)

/-- Every effect but its redemption leaves a code as it was issued. -/
theorem code_eq_effect
    (heffect : Contract.Effect (guarantee env) (s, history) (s', history'))
    (h : grantsFrom hash history = [] → s.code hash = some row) :
    grantsFrom hash history' = [] → s'.code hash = some row := by
  intro hunredeemed
  cases heffect with
  | part _ hguar =>
    exact hguar.2.code_eq (h hunredeemed) fun _ _ _ houtcome ↦ by simp at houtcome
  | refuse =>
    exact h (by simpa [grantsFrom, grantFrom] using hunredeemed)
  | @commit t call _ w outcome _ hinv hguar =>
    simp only [grantsFrom, List.filterMap_cons] at hunredeemed
    cases hgrant : grantFrom hash (⟨t, call, .ok outcome⟩ : Answered (tokenEndpoint env)) with
    | some => simp [hgrant] at hunredeemed
    | none =>
      rw [hgrant] at hunredeemed
      refine hguar.2.code_eq (h hunredeemed) ?_
      rintro r response rfl houtcome rfl
      obtain rfl := Option.some.inj houtcome
      simp [grantFrom] at hgrant

section Runs

variable {rows : Rows} (hrows : rows.InOrder) {c c' : Config (tokenEndpoint env)}
  (hc : Reaches .free (.start rows) c) (hc' : Reaches .free c c')

include hrows hc

theorem sound_of_reaches : (guarantee env).Sound .free 0 c :=
  (Contract.sound_start hrows).reaches (fun t call s _ _ ↦ guarantee_safe t call s) hc

/-- What every guaranteed effect keeps holds of every run. -/
theorem holds_of_reaches {P : Rows → List (Answered (tokenEndpoint env)) → Prop}
    (heffect : ∀ s history s' history',
      Contract.Effect (guarantee env) (s, history) (s', history') → P s history → P s' history')
    (hstart : P rows []) : P c.rows c.history :=
  Contract.invariant (fun t call s _ _ ↦ guarantee_safe t call s) heffect
    (Contract.sound_start hrows) hc hstart

include hc'

/-- From one moment of a run to a later one the rows have aged. -/
theorem ages_of_reaches : Rows.Ages c.rows c'.rows :=
  Contract.invariant (K := guarantee env) (P := fun s _ ↦ Rows.Ages c.rows s)
    (fun t call s _ _ ↦ guarantee_safe t call s)
    (fun s history s' history' heffect hages ↦ by
      cases heffect with
      | part _ hguar | commit _ hguar => exact hages.trans hguar.1
      | refuse => exact hages)
    (sound_of_reaches hrows hc) hc' (.refl _)

variable {a : Answered (tokenEndpoint env)}

/-- A token that was spent is answered with the reuse of its family, whoever presents it
afterwards. -/
theorem reused_of_spent {hash : TokenHash} {row : RefreshToken}
    (hrow : Rows.refreshToken c.rows hash = some row) (hused : row.usedAt.isSome)
    (ha : a ∈ c'.history) (hnumber : c.begun ≤ a.number)
    {r : RotationRequest} (hcall : a.call = .rotate r) (hpresented : r.presentedHash = hash) :
    ∃ subjectId, a.result = .ok (.rotation (.reused row.grantId subjectId)) := by
  subst hpresented
  -- what stays true of the rows from this moment on
  let J : Rows → Prop := fun s ↦ ∃ row', s.refreshToken r.presentedHash = some row' ∧
    row'.usedAt.isSome ∧ row'.grantId = row.grantId
  have hJ : ∀ {s s' : Rows}, s.Ages s' → J s → J s' := by
    rintro s s' hages ⟨row₁, hrow₁, hused₁, hfamily₁⟩
    obtain ⟨row₂, hrow₂, hage⟩ := hages.refreshToken hrow₁
    exact ⟨row₂, hrow₂, hage.usedAt.isSome hused₁, hage.grantId.trans hfamily₁⟩
  have hspent : ∀ {s : Rows} {row' : RefreshToken}, J s →
      s.refreshToken r.presentedHash = some row' → row'.usedAt.isSome ∧
        row'.grantId = row.grantId := by
    rintro s row' ⟨row₁, hrow₁, hboth⟩ hrow'
    obtain rfl : row₁ = row' := Option.some.inj (hrow₁.symm.trans hrow')
    exact hboth
  have haccounts := accounts_later hJ hrows hc ⟨row, hrow, hused, rfl⟩ hc' a ha hnumber
  cases haccounts with
  | ok hinv hguar =>
    subst hcall
    cases hguar.2 hnumber with
    | rotate hrotation =>
      cases hrotation with
      | unknown hread =>
        obtain ⟨s₁, hs₁, hunused⟩ := hread
        obtain ⟨row₁, hrow₁, hused₁, -⟩ := hs₁.2
        simp [hunused row₁ hrow₁] at hused₁
      | reused hrow' =>
        exact ⟨_, by rw [(hspent hinv.2 hrow').2]⟩
      | revoked hrow' hunused | rotated _ hrow' hunused =>
        have hused' := (hspent hinv.2 hrow').1
        simp [hunused] at hused'
  | error _ hthrown =>
    subst hcall
    cases hthrown.2 hnumber with
    | rotate hs₁ hrow' hunused =>
      have hused' := (hspent hs₁.2 hrow').1
      simp [hunused] at hused'

variable {grantId : GrantId}

/-- A rotation that begins when its family is revoked issues nothing. -/
theorem not_rotated_of_revoked (hrevoked : Rows.Revoked c.rows grantId)
    (ha : a ∈ c'.history) (hnumber : c.begun ≤ a.number)
    (grant : TokenGrant) (next : TokenHash) :
    a.result ≠ .ok (.rotation (.rotated grantId grant next)) := by
  intro hresult
  have haccounts := accounts_later (fun hages h ↦ Rows.Revoked.ages h hages) hrows hc hrevoked
    hc' a ha hnumber
  cases haccounts with
  | ok _ hguar =>
    obtain rfl := Except.ok.inj hresult
    cases hguar.2 hnumber with
    | rotate hrotation =>
      cases hrotation with
      | rotated hread =>
        obtain ⟨s₁, ⟨-, grant', hgrant', hisSome⟩, hgrant, hnone⟩ := hread
        obtain rfl := Option.some.inj (hgrant.symm.trans hgrant')
        simp [hnone] at hisSome
  | error => simp at hresult

/-- A code that was redeemed is answered with its replay, whoever presents it
afterwards. -/
theorem replayed_of_redeemed {hash : TokenHash}
    (hinto : Rows.RedeemedInto c.rows hash grantId)
    (ha : a ∈ c'.history) (hnumber : c.begun ≤ a.number) {r : RedemptionRequest}
    (hcall : a.call = .redeem r) (hpresented : r.codeHash = hash) :
    a.result = .error (.replayed grantId) ∧ Rows.Revoked c'.rows grantId := by
  subst hpresented
  have hresult : a.result = .error (.replayed grantId) := by
    have haccounts := accounts_later (fun hages h ↦ Rows.RedeemedInto.ages h hages) hrows hc
      hinto hc' a ha hnumber
    cases haccounts with
    | ok hinv hguar =>
      subst hcall
      cases hguar.2 hnumber with
      | redeem hredemption =>
        exact absurd ⟨grantId, hinv.2⟩ (not_redeemedInto hredemption.consumed.held
          hredemption.consumed.unconsumed)
    | error _ hthrown =>
      subst hcall
      cases hthrown.2 hnumber with
      | redeem hs₁ hnot => exact absurd ⟨grantId, hs₁.2⟩ hnot
      | replay hs hinto' => rw [hs.2.unique hinto']
  refine ⟨hresult, ?_⟩
  exact holds_of_reaches hrows (hc.trans hc') (fun _ _ _ _ ↦ reuseRevoked_effect)
    (fun _ h ↦ by simp at h) a ha grantId (by simp [revokedBy, hresult])

end Runs

/-- At most one token of a family is unused. -/
def OneUnused (s : Rows) : Prop :=
  ∀ hash hash' row row', s.refreshToken hash = some row → s.refreshToken hash' = some row' →
    row.grantId = row'.grantId → row.usedAt = none → row'.usedAt = none → hash = hash'

theorem Rows.FamiliesInOrder.oneUnused {s : Rows} (h : s.FamiliesInOrder) : OneUnused s :=
  fun _ _ _ _ hrow hrow' hfamily hunused hunused' ↦
    h.ledger.oneUnspent (Rows.ledger_of_some hrow) (Rows.ledger_of_some hrow') hfamily
      (by simp [RefreshToken.entry, hunused]) (by simp [RefreshToken.entry, hunused'])

/-- Rows with no code and no refresh token are in order. -/
theorem Rows.inOrder_of_fresh {s : Rows} (hcodes : ∀ hash, s.code hash = none)
    (htokens : ∀ hash, s.refreshToken hash = none) : s.InOrder where
  families :=
    { ledger := Ledger.inOrder_of_empty fun hash ↦ Rows.ledger_of_none (htokens hash)
      hasGrant := fun hrow ↦ by simp [htokens] at hrow }
  codes :=
    { bound := fun hrow ↦ by simp [hcodes] at hrow
      hasGrant := fun hrow ↦ by simp [hcodes] at hrow }

/-- One enabled subject and nothing else. -/
def oneSubject : Rows
  | ⟨.subjects, 1⟩ => some ⟨none⟩
  | _ => none

/-- A code for the subject. -/
def oneCode : AuthorizationCode where
  clientId := 1
  subjectId := 1
  redirectUri := "https://app.example/cb"
  scope := ["openid"]
  codeChallenge := "challenge"
  authTime := 0
  expiresAt := 60
  consumedAt := none
  grantId := none
  sessionId := none
  resource := []
  userinfoClaims := []

/-- The code presented, to be redeemed into this grant. -/
def presentCode (grantId : GrantId) : RedemptionRequest where
  codeHash := 7
  redirectUri := "https://app.example/cb"
  codeVerifier := "challenge"
  resource := .absent
  clientId := 1
  assigned := ["openid"]
  accessTokenTtlSeconds := 300
  refreshTokenTtlSeconds := 3600
  idTokenTtlSeconds := 60
  refreshTokenConfigured := true
  grantId
  refreshTokenHash := 10

/-- The first refresh token presented, for this successor. -/
def presentToken (nextHash : TokenHash) : RotationRequest where
  presentedHash := 10
  now := 5
  refreshTokenTtlSeconds := 3600
  lifespans := ⟨1800, 36000, 1800, 36000⟩
  nextHash

/-- The code is issued and redeemed, the token of its grant rotated; then the token, and
then the code, is presented again. -/
def replays : List (Event (tokenEndpoint plainDeployment)) :=
  .begin (Call.other [.authorizationCodeCreate 7 oneCode] (by decide)) :: .run 0 :: .finish 0 ::
  .begin (Call.redeem (presentCode 1)) :: Schedule.runs _ 1 7 ++ .finish 1 ::
  .begin (Call.rotate (presentToken 11)) :: Schedule.runs _ 2 5 ++ .finish 2 ::
  .begin (Call.rotate (presentToken 12)) :: Schedule.runs _ 3 5 ++ .finish 3 ::
  .begin (Call.redeem (presentCode 2)) :: Schedule.runs _ 4 5 ++ [.finish 4, .finish 4]

/-- What the replays come to: one grant from the code, one successor of the token, and the
grant revoked by both. -/
theorem replays_run : ∃ c : Config (tokenEndpoint plainDeployment),
    Reaches .free (.start oneSubject) c ∧ grantsFrom 7 c.history = [1] ∧
    successors 10 c.history = [11] ∧
    c.history.map revokedBy = [some 1, some 1, none, none, none] := by
  have hplay : (Schedule.performAll .free oracle (Schedule.start oneSubject) replays).map
      (fun m ↦ (grantsFrom 7 m.config.history, successors 10 m.config.history,
        m.config.history.map revokedBy)) =
        some ([1], [11], [some 1, some 1, none, none, none]) := by decide
  obtain ⟨m, hm, hhistory⟩ := Option.map_eq_some_iff.mp hplay
  simp only [Prod.mk.injEq] at hhistory
  exact ⟨m.config, Schedule.reaches hm, hhistory⟩

theorem oneSubject_inOrder : oneSubject.InOrder :=
  Rows.inOrder_of_fresh (fun _ ↦ rfl) fun _ ↦ rfl

/-- Over every interleaving of rotations, redemptions and revocations: a family has one
unused token at most; a token is exchanged for one successor at most; the presentation of a
used token revokes its family, and so is every later one answered; and the revocation of a
family is never undone or moved, with no rotation that begins after it answered with a
token. -/
theorem refresh_family_single_use {rows : Rows} (hrows : rows.InOrder)
    {c : Config (tokenEndpoint env)} (hc : Reaches .free (.start rows) c) :
    OneUnused c.rows ∧
    (∀ hash, (successors hash c.history).length ≤ 1) ∧
    ReuseRevoked c.rows c.history ∧
    ∀ c', Reaches .free c c' →
      (∀ hash row, Rows.refreshToken c.rows hash = some row → row.usedAt.isSome →
        ∀ a ∈ c'.history, c.begun ≤ a.number → ∀ r, a.call = .rotate r → r.presentedHash = hash →
          ∃ subjectId, a.result = .ok (.rotation (.reused row.grantId subjectId))) ∧
      ∀ grantId grant revokedAt, Rows.grant c.rows grantId = some grant →
        grant.revokedAt = some revokedAt →
        (∃ grant', Rows.grant c'.rows grantId = some grant' ∧ grant'.revokedAt = some revokedAt) ∧
        ∀ a ∈ c'.history, c.begun ≤ a.number → ∀ grant' next,
          a.result ≠ .ok (.rotation (.rotated grantId grant' next)) := by
  have hinv := (sound_of_reaches hrows hc).inv
  refine ⟨hinv.families.oneUnused, fun hash ↦ ?_, ?_, fun c' hc' ↦ ⟨?_, ?_⟩⟩
  · have honce := holds_of_reaches hrows hc (fun _ _ _ _ ↦ exchangedOnce_effect)
      (fun _ ↦ Or.inl rfl) hash
    rcases honce with hnone | ⟨next, row, hone, -⟩
    · simp [hnone]
    · simp [hone]
  · exact holds_of_reaches hrows hc (fun _ _ _ _ ↦ reuseRevoked_effect) fun _ h ↦ by simp at h
  · intro hash row hrow hused a ha hnumber r hcall hpresented
    exact reused_of_spent hrows hc hc' hrow hused ha hnumber hcall hpresented
  · intro grantId grant revokedAt hgrant hrevokedAt
    obtain ⟨grant', hgrant', hage⟩ := (ages_of_reaches hrows hc hc').grant hgrant
    refine ⟨⟨grant', hgrant', hage.revokedAt _ hrevokedAt⟩, fun a ha hnumber grant'' next ↦ ?_⟩
    exact not_rotated_of_revoked hrows hc hc' ⟨grant, hgrant, by simp [hrevokedAt]⟩ ha hnumber
      grant'' next

/-- A token exchanged and then presented again. -/
theorem refresh_family_single_use_replays : ∃ c : Config (tokenEndpoint plainDeployment),
    successors 10 c.history = [11] ∧ OneUnused c.rows ∧ (successors 10 c.history).length ≤ 1 ∧
      ReuseRevoked c.rows c.history := by
  obtain ⟨c, hc, -, hsuccessors, -⟩ := replays_run
  obtain ⟨hone, hlength, hrevoked, -⟩ := refresh_family_single_use oneSubject_inOrder hc
  exact ⟨c, hsuccessors, hone, hlength 10, hrevoked⟩

/-- Over every interleaving of redemptions and what runs beside them: at most one
redemption of a code makes a grant; a code that none has redeemed is as it was issued,
however many were refused; and once one has, every presentation that begins afterwards is
refused and leaves the grant revoked. -/
theorem code_single_redemption {rows : Rows} (hrows : rows.InOrder)
    {c : Config (tokenEndpoint env)} (hc : Reaches .free (.start rows) c) :
    (∀ hash, (grantsFrom hash c.history).length ≤ 1) ∧
    ∀ c', Reaches .free c c' →
      (∀ hash row, Rows.code c.rows hash = some row → row.consumedAt = none →
        grantsFrom hash c'.history = [] → Rows.code c'.rows hash = some row) ∧
      ∀ hash grantId, grantId ∈ grantsFrom hash c.history →
        ∀ a ∈ c'.history, c.begun ≤ a.number → ∀ r, a.call = .redeem r → r.codeHash = hash →
          a.result = .error (.replayed grantId) ∧ Rows.Revoked c'.rows grantId := by
  have honce := holds_of_reaches hrows hc (fun _ _ _ _ ↦ redeemedOnce_effect)
    (fun _ ↦ Or.inl rfl)
  refine ⟨fun hash ↦ ?_, fun c' hc' ↦ ⟨?_, ?_⟩⟩
  · rcases honce hash with hnone | ⟨grantId, hone, -⟩
    · simp [hnone]
    · simp [hone]
  · intro hash row hrow _
    exact Contract.invariant (K := guarantee env)
      (P := fun s history ↦ grantsFrom hash history = [] → Rows.code s hash = some row)
      (fun t call s _ _ ↦ guarantee_safe t call s) (fun _ _ _ _ heffect ↦ code_eq_effect heffect)
      (sound_of_reaches hrows hc) hc' fun _ ↦ hrow
  · intro hash grantId hgrantId a ha hnumber r hcall hpresented
    rcases honce hash with hnone | ⟨grantId', hone, hinto⟩
    · simp [hnone] at hgrantId
    · obtain rfl : grantId = grantId' := by simpa [hone] using hgrantId
      exact replayed_of_redeemed hrows hc hc' hinto ha hnumber hcall hpresented

/-- A code redeemed and then presented again. -/
theorem code_single_redemption_replays : ∃ c : Config (tokenEndpoint plainDeployment),
    grantsFrom 7 c.history = [1] ∧ (grantsFrom 7 c.history).length ≤ 1 := by
  obtain ⟨c, hc, hgrants, -⟩ := replays_run
  exact ⟨c, hgrants, (code_single_redemption oneSubject_inOrder hc).1 7⟩

end Odudu.ProtocolOidc
