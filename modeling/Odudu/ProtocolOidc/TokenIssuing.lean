import Odudu.ProtocolOidc.TokenLineage

/-!
# What each grant type makes

A redemption makes its tokens from the grant it records, a refresh from the refresh token it
rotates, and a client's own token and an agent's are made under a grant.  Each is described
under any rules that abide by the law of refresh tokens; what a transaction knows of the rows
it carries along (`Carrying`), as tokens and grants keep what they were issued with.  An access
token says whose it is, which client it was issued to and which session bounds it as its grant
does (`Rows.Backs`).
-/

set_option autoImplicit false

namespace Odudu.ProtocolOidc

open ReadCommitted Program

/-- A fact about the rows that rests on what tokens and grants were issued with. -/
abbrev KeptByLineage (F : Rows → Prop) : Prop := Law.Kept lineage F

theorem kept_holds (x : Credential) (v : Worth) : KeptByLineage fun s ↦ s.Holds x v :=
  fun _ _ hkeeps h ↦ h.keeps hkeeps

/-- A grant that was found is there, with what it was recorded with. -/
def Rows.Found (s : Rows) (id : GrantId) (found : Option TokenGrant) : Prop :=
  ∀ grant, found = some grant → ∃ row, s.grant id = some row ∧ grant.SameBut row

theorem kept_found (id : GrantId) (found : Option TokenGrant) :
    KeptByLineage fun s ↦ s.Found id found := by
  intro s s' hkeeps h grant hgrant
  obtain ⟨row, hrow, hsame⟩ := h grant hgrant
  obtain ⟨row', hrow', hsame'⟩ := Rows.Keeps.grant hkeeps hrow
  exact ⟨row', hrow', hsame.trans hsame'⟩

theorem found_of_answers {s : Rows} {id : GrantId} {found : Option TokenGrant}
    (h : (Op.tokenGrantById id).Answers s found) : s.Found id found := by
  rintro grant rfl
  exact ⟨grant, Option.some.inj h, .refl grant⟩

theorem Rows.Found.recorded {s : Rows} {id : GrantId} {grant : TokenGrant}
    (h : s.Found id (some grant)) : s.Recorded id grant.worth := by
  obtain ⟨row, hrow, hsame⟩ := h grant rfl
  exact ⟨row, hrow, hsame.worth.symm⟩

/-- A token says what its grant says. -/
structure AccessToken.Backed (token : AccessToken) (grant : TokenGrant) : Prop where
  sub : token.sub = grant.subjectId
  clientId : token.clientId = grant.clientId
  sid : token.sid = grant.sessionId

/-- The grant that a token names is there, and the token says what it says. -/
def Rows.Backs (s : Rows) (token : AccessToken) : Prop :=
  ∃ grant, s.grant token.grantId = some grant ∧ token.Backed grant

theorem AccessToken.Backed.sameBut {token : AccessToken} {grant grant' : TokenGrant}
    (h : token.Backed grant) (hsame : grant.SameBut grant') : token.Backed grant' := by
  rw [TokenGrant.SameBut] at hsame
  rw [hsame]
  exact ⟨h.sub, h.clientId, h.sid⟩

theorem kept_backs (token : AccessToken) : KeptByLineage fun s ↦ s.Backs token := by
  rintro s s' hkeeps ⟨grant, hgrant, hbacked⟩
  obtain ⟨grant', hgrant', hsame⟩ := Rows.Keeps.grant hkeeps hgrant
  exact ⟨grant', hgrant', hbacked.sameBut hsame⟩

section Statements

variable {R : Rules database Failure} {F : Rows → Prop} {w : Writes database} {s : Rows} {α : Type}
  {post : α → Writes database → Rows → Prop}

/-- What a transaction carries along while it runs among issuing calls. -/
abbrev Carrying (F : Rows → Prop) (w : Writes database) (s : Rows) : Prop :=
  refreshLaw.Carries F w s

theorem wp_query_lawful (hR : refreshLaw.Abides R) (hF : KeptByLineage F) (h₀ : Carrying F w s)
    {op : Op} (hop : ∀ hash row, op ≠ .refreshTokenCreate hash row) {f : op.Answer → Tx α}
    (h : ∀ (s' : Rows) a w', op.Answers (s'.after w) a →
      s'.after w' = (s'.after w).after (op.effect (s'.after w)) → Carrying F w s' →
      Carrying F w' s' → (f a).wp R w' s' post) :
    (query op >>= f).wp R w s post :=
  hR.wp_ask hF h₀ (fun _ h₁ ↦ Op.keeps_refreshLaw hop h₁.seen) h

theorem wp_read_lawful (hR : refreshLaw.Abides R) (hF : KeptByLineage F) (h₀ : Carrying F w s)
    {op : Op} (hop : op.reads = true) {f : op.Answer → Tx α}
    (h : ∀ (s' : Rows) a, op.Answers (s'.after w) a → Carrying F w s' → (f a).wp R w s' post) :
    (query op >>= f).wp R w s post :=
  hR.wp_read hF h₀ (fun s ↦ oracle.effect_of_reads op s hop) h

/-- The rule of a grant that is recorded. -/
theorem wp_tokenGrantCreate (hR : refreshLaw.Abides R) (hF : KeptByLineage F) (h₀ : Carrying F w s)
    {id : GrantId} {row : TokenGrant} {p : Tx α}
    (h : ∀ (s' : Rows) w', Carrying (fun s ↦ F s ∧ s.Found id (some row)) w' s' →
      p.wp R w' s' post) :
    (query (.tokenGrantCreate id row) >>= fun created ↦
      if created then p else Program.throw .internal).wp R w s post := by
  refine wp_query_lawful hR hF h₀ (by simp) fun s' created w' hcreated hw' _ h₁ ↦ ?_
  cases created with
  | false => exact hR.wp_throw
  | true =>
    refine h s' w' (h₁.imp fun hfact ↦ ⟨hfact, ?_⟩)
    have hfree : (s'.after w).grant id = none := by
      simpa [Op.Answers, Op.answer] using hcreated
    rintro _ ⟨rfl⟩
    refine ⟨row, ?_, .refl row⟩
    change (s'.after w').grant id = some row
    rw [hw']
    exact Rows.after_insert row hfree

/-- The rule of a refresh token that is created under a grant known to allow it. -/
theorem wp_refreshTokenCreate (hR : refreshLaw.Abides R) (hF : KeptByLineage F)
    (h₀ : Carrying F w s) {hash : TokenHash} (row : RefreshToken) {u : Worth}
    (hrecorded : ∀ s : Rows, F s → s.Recorded row.grantId u)
    (hallowed : refreshAllowedForScope u.scope = true)
    (hceiling : (row.expiresAt : WithTop Time) ≤ u.ceiling) {p : Tx α}
    (h : ∀ (s' : Rows) w', Carrying (fun s ↦ F s ∧ s.Holds (.refreshToken hash)
      { u with expiresAt := (row.expiresAt : WithTop Time) }) w' s' → p.wp R w' s' post) :
    (query (.refreshTokenCreate hash row) >>= fun created ↦
      if created then p else Program.throw .internal).wp R w s post := by
  refine hR.wp_ask hF h₀ (fun s' h₁ ↦ keeps_refreshTokenCreate
    ⟨u, hrecorded _ h₁.fact, hallowed, hceiling⟩) fun s' created w' hcreated hw' _ h₁ ↦ ?_
  cases created with
  | false => exact hR.wp_throw
  | true =>
    refine h s' w' (h₁.imp fun hfact ↦ ⟨hfact, row, u, ?_, hrecorded _ hfact, rfl⟩)
    have hfree : (Rows.after s' w).refreshToken hash = none := by
      simpa [Op.Answers, Op.answer] using hcreated
    change (Rows.after s' w').refreshToken hash = some row
    rw [Rows.after, hw']
    exact Rows.after_insert row hfree

end Statements

section Making

def Credential.isIdToken : Credential → Bool
  | .idToken _ => true
  | _ => false

def Credential.isAccessToken : Credential → Bool
  | .accessToken _ => true
  | _ => false

/-- What is worth `u` is made into a credential worth no more.  Unless it is an ID token, which
carries neither claims nor marks, it has the same claims, and is marked as an agent's where
`marks` holds. -/
def Rows.Makes (s : Rows) (marks : Prop) (u : Worth) (y : Credential) : Prop :=
  ∃ v, s.Holds y v ∧ v.NoMore u ∧
    (y.isIdToken = false → v.claims = u.claims ∧ (marks → v.Marked))

theorem kept_makes (marks : Prop) (u : Worth) (y : Credential) :
    KeptByLineage fun s ↦ s.Makes marks u y := by
  rintro s s' hkeeps ⟨v, hholds, hrest⟩
  exact ⟨v, hholds.keeps hkeeps, hrest⟩

variable {s : Rows} {u : Worth} {env : Deployment} {input : MintInput} {now : Time}
  {token : AccessToken} {marks : Prop}

/-- A token minted for a recorded grant is made from anything it was minted no more than. -/
theorem makes_of_mint (h : mintAccessToken env input now = some token) {g : Worth}
    (hrecorded : s.Recorded input.grantId g) (hsub : input.subjectId = g.subjectId)
    (hscope : input.scope ⊆ g.scope)
    (hclaims : askedClaims input.requestedUserinfoClaims = g.claims)
    (hvia : input.endpointMinted = false)
    (hu : u.subjectId = g.subjectId ∧ input.scope ⊆ u.scope ∧ u.claims = g.claims)
    (hceiling : ceilingAt input.expCeiling ≤ u.ceiling)
    (hmarks : marks → input.act.isSome = true ∨ holdsMcpScope input.scope = true) :
    s.Makes marks u (.accessToken token) := by
  have hmints := mints_of_mintAccessToken h
  refine ⟨token.worth, ⟨rfl, g, ?_, ?_, ?_, ?_, ?_⟩, ⟨?_, ?_, ?_⟩, fun _ ↦ ⟨?_, fun h ↦ ?_⟩⟩
  · rw [hmints.grantId]
    exact hrecorded
  · exact hmints.sub.trans hsub
  · rw [hmints.scope]
    exact hscope
  · exact hmints.requestedUserinfoClaims.trans hclaims
  · exact hmints.via.trans hvia
  · exact hmints.sub.trans (hsub.trans hu.1.symm)
  · change token.scope ⊆ u.scope
    rw [hmints.scope]
    exact hu.2.1
  · refine le_trans ?_ hceiling
    change (token.exp : WithTop Time) ≤ ceilingAt input.expCeiling
    cases hexp : input.expCeiling with
    | none => exact le_top
    | some => exact WithTop.coe_le_coe.mpr (exp_le_of_mintAccessToken h hexp)
  · exact hmints.requestedUserinfoClaims.trans (hclaims.trans hu.2.2.symm)
  · change token.act.isSome = true ∨ holdsMcpScope token.scope = true
    rw [hmints.act, hmints.scope]
    exact hmarks h

/-- A token that is minted from a grant is backed by it. -/
theorem backs_of_mint (h : mintAccessToken env input now = some token)
    {grant : TokenGrant} (hfound : s.Found input.grantId (some grant)) (hsub : input.subjectId = grant.subjectId)
    (hclient : input.clientId = grant.clientId) (hsid : input.sessionId = grant.sessionId) :
    s.Backs token := by
  have hmints := mints_of_mintAccessToken h
  obtain ⟨row, hrow, hsame⟩ := hfound grant rfl
  refine ⟨row, ?_, AccessToken.Backed.sameBut ⟨?_, ?_, ?_⟩ hsame⟩
  · rw [hmints.grantId]
    exact hrow
  · exact hmints.sub.trans hsub
  · exact hmints.clientId.trans hclient
  · exact hmints.sid.trans hsid

end Making

section Redemption

variable {R : Rules database Failure} {w : Writes database} {s : Rows} {env : Deployment}

/-- What a response hands over. -/
def TokenResponse.credentials (response : TokenResponse) : List Credential :=
  .accessToken response.accessToken :: (response.refreshToken.map .refreshToken).toList ++
    (response.idToken.map .idToken).toList

theorem wp_redeemAuthorizationCode_lawful (hR : refreshLaw.Abides R) (r : RedemptionRequest)
    (h₀ : Carrying (fun _ ↦ True) w s) :
    (redeemAuthorizationCode env r).wp R w s fun _ w s ↦ Carrying (fun _ ↦ True) w s := by
  refine wp_read_lawful hR Law.kept_true h₀ rfl fun s₁ now _ h₁ ↦ ?_
  refine wp_query_lawful hR Law.kept_true h₁ (by simp) fun s₂ record w₂ _ _ _ h₂ ↦ ?_
  cases record with
  | none =>
    refine wp_read_lawful hR Law.kept_true h₂ rfl fun s₃ existing _ h₃ ↦ ?_
    cases existing.bind (fun code ↦ code.grantId) with
    | none => exact hR.wp_throw
    | some =>
      refine wp_read_lawful hR Law.kept_true h₃ rfl fun s₄ _ _ h₄ ↦ ?_
      refine wp_query_lawful hR Law.kept_true h₄ (by simp) fun s₅ _ w₅ _ _ _ h₅ ↦ ?_
      exact hR.wp_endTransaction Law.kept_true h₅ fun _ _ ↦ hR.wp_throw
  | some =>
    dsimp only
    split
    case isTrue =>
      refine wp_read_lawful hR Law.kept_true h₂ rfl fun s₃ subject _ h₃ ↦ ?_
      split
      case isTrue => exact h₃
      case isFalse => exact hR.wp_throw
    case isFalse => exact hR.wp_throw

variable {u : Worth}

/-- A refresh token that is held under a grant is made from it. -/
theorem makes_refreshToken {hash : TokenHash} {expiresAt : WithTop Time}
    {marks : Prop} (hmarks : marks → u.Marked)
    (h : s.Holds (.refreshToken hash) { u with expiresAt }) :
    s.Makes marks u (.refreshToken hash) :=
  ⟨_, h, ⟨rfl, fun _ hmem ↦ hmem, le_rfl⟩, fun _ ↦ ⟨rfl, hmarks⟩⟩

variable {code : AuthorizationCode} {r : RedemptionRequest}

theorem wp_issueFirstRefreshToken_lawful (hR : refreshLaw.Abides R) {F : Rows → Prop}
    (hF : KeptByLineage F) (h₀ : Carrying F w s)
    {now : Time}
    (hrecorded : ∀ s, F s → s.Recorded r.grantId u) (hscope : u.scope = redeemedScope r code)
    (hceiling : u.ceiling = ⊤) :
    (issueFirstRefreshToken r code now).wp R w s fun token w s ↦
      Carrying (fun s ↦ F s ∧ ∀ hash, token = some hash →
        s.Makes u.Marked u (.refreshToken hash)) w s := by
  rw [issueFirstRefreshToken]
  split
  case isTrue hallowed =>
    have hallowed : refreshAllowedForScope u.scope = true := by
      rw [hscope]
      exact (Bool.and_eq_true _ _ ▸ hallowed).2
    refine wp_refreshTokenCreate hR hF h₀ _ hrecorded hallowed (hceiling ▸ le_top) fun s₁ w₁ h₁ ↦ ?_
    refine h₁.imp fun ⟨hfact, hholds⟩ ↦ ⟨hfact, ?_⟩
    rintro _ ⟨rfl⟩
    exact makes_refreshToken id hholds
  case isFalse => exact h₀.imp fun hfact ↦ ⟨hfact, fun _ h ↦ nomatch h⟩

/-- The ID token of a redemption is for the subject of its grant. -/
theorem makes_redeemedIdToken {now : Time}
    {token : IdToken} (h : redeemedIdToken r code now = some token)
    (hsubject : u.subjectId = code.subjectId) (hceiling : u.ceiling = ⊤) :
    s.Makes u.Marked u (.idToken token) := by
  unfold redeemedIdToken at h
  split at h
  case isTrue =>
    obtain rfl := Option.some.inj h
    refine ⟨_, rfl, ⟨hsubject.symm, fun _ hmem ↦ (nomatch hmem), ?_⟩, fun h ↦ nomatch h⟩
    exact hceiling ▸ le_top
  case isFalse => exact nomatch h

/-- A redemption makes what it hands over from the grant that it records. -/
theorem wp_issueAuthorizationCodeTokens_lawful (hR : refreshLaw.Abides R) (r : RedemptionRequest)
    (h₀ : Carrying (fun _ ↦ True) w s) :
    (issueAuthorizationCodeTokens env r).wp R w s fun response w s ↦
      Carrying (fun s ↦ response.accessToken.Coherent env ∧ s.Backs response.accessToken ∧
        ∃ u, s.Holds (.grant r.grantId) u ∧
          ∀ y ∈ response.credentials, s.Makes u.Marked u y) w s := by
  rw [issueAuthorizationCodeTokens, wp_bind]
  refine wp_mono ?_ (wp_redeemAuthorizationCode_lawful hR r h₀)
  intro code w₁ s₁ h₁
  refine wp_read_lawful hR Law.kept_true h₁ rfl fun s₂ now _ h₂ ↦ ?_
  split
  case h_1 => exact hR.wp_throw
  case h_2 audience _ =>
    split
    case h_1 => exact hR.wp_throw
    case h_2 token hmint =>
      rw [recordRedemption]
      have hF := kept_found r.grantId (some (redeemedGrant r code token))
      refine wp_tokenGrantCreate hR Law.kept_true h₂ fun s₃ w₃ h₃ ↦ ?_
      refine wp_query_lawful hR hF (h₃.imp And.right) (by simp) fun s₄ _ w₄ _ _ _ h₄ ↦ ?_
      rw [wp_bind]
      refine wp_mono ?_ (wp_issueFirstRefreshToken_lawful hR hF h₄
        (fun _ h ↦ Rows.Found.recorded h) rfl rfl)
      intro refreshToken w₅ s₅ h₅
      refine h₅.imp fun ⟨hfound, hrefresh⟩ ↦ ⟨coherent_of_mintAccessToken hmint,
        backs_of_mint hmint hfound rfl rfl rfl, _, Rows.Found.recorded hfound, fun y hy ↦ ?_⟩
      simp only [TokenResponse.credentials, List.mem_append, List.mem_cons, Option.mem_toList,
        Option.map_eq_some_iff] at hy
      obtain (rfl | ⟨hash, hhash, rfl⟩) | ⟨idToken, hidToken, rfl⟩ := hy
      · exact makes_of_mint hmint (Rows.Found.recorded hfound) rfl (fun _ hmem ↦ hmem) rfl rfl
          ⟨rfl, fun _ hmem ↦ hmem, rfl⟩ le_rfl id
      · exact hrefresh hash hhash
      · exact makes_redeemedIdToken hidToken rfl rfl

end Redemption

section OwnTokens

variable {R : Rules database Failure} {w : Writes database} {s : Rows} {env : Deployment}

/-- A client's own token is made from the grant it is issued under. -/
theorem wp_issueClientCredentialsTokens_lawful (hR : refreshLaw.Abides R)
    (r : ClientCredentialsRequest) (h₀ : Carrying (fun _ ↦ True) w s) :
    (issueClientCredentialsTokens env r).wp R w s fun token w s ↦
      Carrying (fun s ↦ token.Coherent env ∧ s.Backs token ∧
        ∃ u, s.Holds (.grant r.grantId) u ∧ s.Makes u.Marked u (.accessToken token)) w s := by
  rw [issueClientCredentialsTokens]
  split
  case h_1 => exact hR.wp_throw
  case h_2 subjectId scope _ =>
    refine wp_read_lawful hR Law.kept_true h₀ rfl fun s₁ now _ h₁ ↦ ?_
    split
    case h_1 => exact hR.wp_throw
    case h_2 audience _ =>
      split
      case h_1 => exact hR.wp_throw
      case h_2 token hmint =>
        refine wp_tokenGrantCreate hR Law.kept_true h₁ fun s₂ w₂ h₂ ↦ ?_
        refine h₂.imp fun ⟨_, hfound⟩ ↦ ⟨coherent_of_mintAccessToken hmint,
          backs_of_mint hmint hfound rfl rfl rfl, _, hfound.recorded, ?_⟩
        exact makes_of_mint hmint hfound.recorded rfl (fun _ hmem ↦ hmem) rfl rfl
          ⟨rfl, fun _ hmem ↦ hmem, rfl⟩ le_rfl id

/-- What an agent's token is: marked as the endpoint's own, for the owner of the grant behind the
token presented, with no more scope than the grant, and no later than that token. -/
structure AgentTokenRequest.Minted (r : AgentTokenRequest) (token : AccessToken) (s : Rows) :
    Prop where
  via : token.via = true
  act : token.act = some (.mk r.agentClientId none)
  grantId : token.grantId = r.subjectGrantId
  grant : ∃ u, s.Recorded r.subjectGrantId u ∧ token.sub = u.subjectId ∧ token.scope ⊆ u.scope
  mcp : token.scope = r.scope ∧ ∀ scope ∈ token.scope, isMcpScope scope = true
  exp : token.exp ≤ r.notAfter

theorem kept_minted (r : AgentTokenRequest) (token : AccessToken) :
    KeptByLineage fun s ↦ r.Minted token s := by
  rintro s s' hkeeps h
  obtain ⟨u, hrecorded, hu⟩ := h.grant
  exact ⟨h.via, h.act, h.grantId, ⟨u, hrecorded.keeps hkeeps, hu⟩, h.mcp, h.exp⟩

variable {F : Rows → Prop}

theorem wp_sessionLiveness_lawful (hR : refreshLaw.Abides R)
    (hF : KeptByLineage F) (r : AgentTokenRequest) (grant : Option TokenGrant)
    (h₀ : Carrying F w s) :
    (sessionLiveness r grant).wp R w s fun _ w s ↦ Carrying F w s := by
  rw [sessionLiveness]
  split
  case h_1 => exact h₀
  case h_2 => exact wp_read_lawful hR hF h₀ rfl fun _ _ _ h₁ ↦ h₁

theorem wp_ownerEnabled_lawful (hR : refreshLaw.Abides R)
    (hF : KeptByLineage F) (grant : Option TokenGrant) (h₀ : Carrying F w s) :
    (ownerEnabled grant).wp R w s fun _ w s ↦ Carrying F w s := by
  cases grant with
  | none => exact h₀
  | some => exact wp_read_lawful hR hF h₀ rfl fun _ _ _ h₁ ↦ h₁

variable {r : AgentTokenRequest} {sessionLive : Option Bool} {subjectEnabled : Bool}
  {grant : TokenGrant}

theorem scope_of_standing
    (h : standingRefusal r (some grant) sessionLive subjectEnabled = none) :
    r.scope ⊆ grant.scope := by
  intro scope hmem
  by_contra hnot
  have hwidened : r.scope.all grant.scope.contains = false := by
    rw [List.all_eq_false]
    exact ⟨scope, hmem, by simpa using hnot⟩
  simp only [standingRefusal, hwidened] at h
  split_ifs at h <;> simp_all

theorem mcp_of_request (h : requestRefusal r = none) :
    ∀ scope ∈ r.scope, isMcpScope scope = true := by
  intro scope hmem
  unfold requestRefusal at h
  split_ifs at h with haudience hscope
  simp only [Bool.or_eq_true, not_or, Bool.not_eq_true', Bool.not_eq_true, Bool.not_eq_false] at hscope
  exact List.all_eq_true.mp hscope.2 scope hmem

theorem clientId_of_standing {client : AgentClient}
    (hclient : r.client = some client)
    (h : standingRefusal r (some grant) sessionLive subjectEnabled = none) :
    client.id = grant.clientId := by
  simp only [standingRefusal, hclient] at h
  split_ifs at h with _ _ _ _ hmismatch
  all_goals exact (not_not.mp hmismatch).symm

theorem wp_mintAgentToken_lawful (hR : refreshLaw.Abides R) (r : AgentTokenRequest)
    (h₀ : Carrying (fun _ ↦ True) w s) :
    (mintAgentToken env r).wp R w s fun token w s ↦
      Carrying (fun s ↦ token.Coherent env ∧ s.Backs token ∧ r.Minted token s) w s := by
  rw [mintAgentToken]
  split
  case h_1 => exact hR.wp_throw
  case h_2 hearly =>
    refine wp_read_lawful hR Law.kept_true h₀ rfl fun s₁ found hfound h₁ ↦ ?_
    have hF := kept_found r.subjectGrantId found
    have h₁ : Carrying (fun s ↦ s.Found r.subjectGrantId found) w s₁ :=
      h₁.imp fun _ ↦ found_of_answers hfound
    rw [wp_bind]
    refine wp_mono ?_ (wp_sessionLiveness_lawful hR hF r found h₁)
    intro sessionLive w₂ s₂ h₂
    rw [wp_bind]
    refine wp_mono ?_ (wp_ownerEnabled_lawful hR hF found h₂)
    intro subjectEnabled w₃ s₃ h₃
    split
    case h_1 _ _ grant client hclient hstanding =>
      split
      case h_1 => exact hR.wp_throw
      case h_2 token hmint =>
        have hmints := mints_of_mintAccessToken hmint
        refine h₃.imp fun hfact ↦ ⟨coherent_of_mintAccessToken hmint,
          backs_of_mint hmint hfact rfl (clientId_of_standing hclient hstanding) rfl,
          hmints.via, hmints.act, hmints.grantId, ⟨_, Rows.Found.recorded hfact, hmints.sub, ?_⟩, ⟨hmints.scope, ?_⟩,
          exp_le_of_mintAccessToken hmint rfl⟩
        · rw [hmints.scope]
          exact scope_of_standing hstanding
        · rw [hmints.scope]
          exact mcp_of_request hearly
    case h_2 => exact hR.wp_throw

end OwnTokens

section Refresh

variable {R : Rules database Failure} {w : Writes database} {s : Rows} {env : Deployment}

/-- A refresh token that was seen is there, with its grant and its deadline. -/
def Rows.Seen (s : Rows) (hash : TokenHash) (row : RefreshToken) : Prop :=
  ∃ row', s.refreshToken hash = some row' ∧ row.SameBut row'

theorem kept_seen (hash : TokenHash) (row : RefreshToken) :
    KeptByLineage fun s ↦ s.Seen hash row := by
  rintro s s' hkeeps ⟨row', hrow', hsame⟩
  obtain ⟨row'', hrow'', hsame'⟩ := Rows.Keeps.refreshToken hkeeps hrow'
  exact ⟨row'', hrow'', hsame.trans hsame'⟩

variable {hash : TokenHash} {consumed : RefreshToken} {now : Time}

theorem seen_of_consumed
    (h : (Op.refreshTokenConsume hash now).Answers s (some consumed)) : s.Seen hash consumed := by
  have h := Option.some.inj h
  obtain ⟨row, hrow, rfl⟩ := Option.map_eq_some_iff.mp h
  exact ⟨row, (Option.filter_eq_some_iff.mp hrow).1, rfl, rfl⟩

variable {row : RefreshToken} {u : Worth}

theorem Rows.Seen.holds (h : s.Seen hash row)
    (hrecorded : s.Recorded row.grantId u) :
    s.Holds (.refreshToken hash) { u with expiresAt := (row.expiresAt : WithTop Time) } := by
  obtain ⟨row', hrow', hsame⟩ := h
  refine ⟨row', u, hrow', ?_, ?_⟩
  · rw [hsame.grantId]
    exact hrecorded
  · rw [hsame.expiresAt]

/-- The grant of a token that is there may be refreshed. -/
theorem Rows.Seen.allowed (h : s.Seen hash row)
    (hs : refreshLaw.Lawful s) (hrecorded : s.Recorded row.grantId u) :
    refreshAllowedForScope u.scope = true := by
  obtain ⟨row', hrow', hsame⟩ := h
  obtain ⟨u', hrecorded', hallowed, -⟩ := rooted_of_lawful hs hrow'
  rw [hsame.grantId] at hrecorded'
  rw [hrecorded.unique hrecorded']
  exact hallowed

/-- A presented token and its successor, both worth the grant. -/
structure Rows.Rotated (s : Rows) (presented next : TokenHash) (grantId : GrantId)
    (grant : TokenGrant) : Prop where
  found : s.Found grantId (some grant)
  presented : ∃ e, s.Holds (.refreshToken presented) { grant.worth with expiresAt := e }
  next : ∃ e, s.Holds (.refreshToken next) { grant.worth with expiresAt := e }

variable {grant : TokenGrant} {grantId : GrantId}

theorem kept_rotated {presented next : TokenHash} :
    KeptByLineage fun s ↦ s.Rotated presented next grantId grant := by
  rintro s s' hkeeps ⟨hfound, ⟨e, hpresented⟩, ⟨e', hnext⟩⟩
  exact ⟨kept_found grantId (some grant) s s' hkeeps hfound, ⟨e, hpresented.keeps hkeeps⟩,
    ⟨e', hnext.keeps hkeeps⟩⟩

/-- What is said of the rows where a rotation answers with a successor. -/
def Rows.RotatedInto (s : Rows) (r : RotationRequest) (outcome : RotationOutcome) : Prop :=
  ∀ grantId grant next, outcome = .rotated grantId grant next →
    s.Rotated r.presentedHash next grantId grant

theorem kept_rotatedInto (r : RotationRequest) (outcome : RotationOutcome) :
    KeptByLineage fun s ↦ s.RotatedInto r outcome := by
  intro s s' hkeeps h grantId grant next houtcome
  exact kept_rotated s s' hkeeps (h grantId grant next houtcome)

theorem successorExpiresAt_le (r : RotationRequest) (grant : TokenGrant) :
    (successorExpiresAt r grant : WithTop Time) ≤ ceilingAt grant.expCeiling := by
  cases hceiling : grant.expCeiling with
  | none => exact le_top
  | some =>
    rw [successorExpiresAt, hceiling]
    exact WithTop.coe_le_coe.mpr (Nat.min_le_left _ _)

theorem wp_touchSession_lawful (hR : refreshLaw.Abides R) {F : Rows → Prop}
    (hF : KeptByLineage F) {sessionId : Option SessionId} {lifespans : SessionLifespans}
    (h₀ : Carrying F w s) :
    (touchSession sessionId lifespans now).wp R w s fun _ w s ↦ Carrying F w s := by
  cases sessionId with
  | none => exact h₀
  | some =>
    refine wp_read_lawful hR hF h₀ rfl fun s₁ live _ h₁ ↦ ?_
    cases live with
    | none => exact h₁
    | some => exact wp_query_lawful hR hF h₁ (by simp) fun _ _ _ _ _ _ h₂ ↦ h₂

theorem wp_issueSuccessor_lawful (hR : refreshLaw.Abides R) (r : RotationRequest)
    (h₀ : Carrying (fun s ↦ s.Seen r.presentedHash consumed ∧
      s.Found consumed.grantId (some grant)) w s) :
    (issueSuccessor r consumed.grantId grant).wp R w s fun outcome w s ↦
      Carrying (fun s ↦ s.RotatedInto r outcome) w s := by
  have hF := (kept_seen r.presentedHash consumed).and (kept_found consumed.grantId (some grant))
  have hallowed := h₀.fact.1.allowed h₀.seen (Rows.Found.recorded h₀.fact.2)
  refine wp_refreshTokenCreate hR hF h₀ (successor r consumed.grantId grant)
    (fun _ h ↦ Rows.Found.recorded h.2) hallowed (successorExpiresAt_le r grant) fun s₁ w₁ h₁ ↦ ?_
  refine wp_query_lawful hR (hF.and (kept_holds _ _)) h₁ (by simp) fun s₂ _ w₂ _ _ _ h₂ ↦ ?_
  refine h₂.imp fun ⟨⟨hseen, hfound⟩, hnext⟩ ↦ ?_
  rintro _ _ _ ⟨rfl, rfl, rfl⟩
  exact ⟨hfound, ⟨_, hseen.holds hfound.recorded⟩, ⟨_, hnext⟩⟩

theorem rotatedInto_of_ne {r : RotationRequest} {outcome : RotationOutcome}
    (h : ∀ grantId grant next, outcome ≠ .rotated grantId grant next) : s.RotatedInto r outcome :=
  fun grantId grant next houtcome ↦ absurd houtcome (h grantId grant next)

/-- A token that could not be consumed has no successor. -/
theorem wp_detectReuse_lawful (hR : refreshLaw.Abides R) (r : RotationRequest)
    (h₀ : Carrying (fun _ ↦ True) w s) :
    (detectReuse r).wp R w s fun outcome w s ↦
      (∀ grantId grant next, outcome ≠ .rotated grantId grant next) ∧
        Carrying (fun _ ↦ True) w s := by
  refine wp_read_lawful hR Law.kept_true h₀ rfl fun s₁ existing _ h₁ ↦ ?_
  cases existing with
  | none => exact ⟨by simp, h₁⟩
  | some existing =>
    cases hused : existing.usedAt with
    | none =>
      simp only [hused]
      exact ⟨by simp, h₁⟩
    | some =>
      simp only [hused]
      refine wp_read_lawful hR Law.kept_true h₁ rfl fun s₂ _ _ h₂ ↦ ?_
      refine wp_query_lawful hR Law.kept_true h₂ (by simp) fun s₃ _ w₃ _ _ _ h₃ ↦ ?_
      exact ⟨by simp, h₃⟩

/-- A rotation issues the successor under the grant of the token presented. -/
theorem wp_rotateRefreshToken_lawful (hR : refreshLaw.Abides R) (r : RotationRequest)
    (h₀ : Carrying (fun _ ↦ True) w s) :
    (rotateRefreshToken r).wp R w s fun outcome w s ↦
      Carrying (fun s ↦ s.RotatedInto r outcome) w s := by
  refine wp_read_lawful hR Law.kept_true h₀ rfl fun s₁ now _ h₁ ↦ ?_
  refine wp_query_lawful hR Law.kept_true h₁ (by simp) fun s₂ found w₂ hfound hw₂ _ h₂ ↦ ?_
  cases found with
  | none =>
    refine wp_mono (fun outcome w s hreuse ↦ ?_) (wp_detectReuse_lawful hR r h₂)
    exact hreuse.2.imp fun _ ↦ rotatedInto_of_ne hreuse.1
  | some consumed =>
    have hF := kept_seen r.presentedHash consumed
    have h₂ : Carrying (fun s ↦ s.Seen r.presentedHash consumed) w₂ s₂ := h₂.imp fun _ ↦ by
      have hkeeps := Op.keeps_effect (.refreshTokenConsume r.presentedHash now) (s₂.after w)
      rw [← hw₂] at hkeeps
      exact hF _ _ hkeeps (seen_of_consumed hfound)
    refine wp_read_lawful hR hF h₂ rfl fun s₃ found hfound h₃ ↦ ?_
    cases found with
    | none => exact hR.wp_throw
    | some grant =>
      cases hrevoked : grant.revokedAt with
      | some =>
        simp only [hrevoked]
        exact h₃.imp fun _ ↦ rotatedInto_of_ne (by simp)
      | none =>
        simp only [hrevoked]
        rw [wp_bind]
        refine wp_mono ?_ (wp_touchSession_lawful hR
          (hF.and (kept_found consumed.grantId (some grant)))
          (h₃.imp fun hseen ↦ ⟨hseen, found_of_answers hfound⟩))
        intro alive w₄ s₄ h₄
        split
        case isTrue => exact wp_issueSuccessor_lawful hR r h₄
        case isFalse => exact h₄.imp fun _ ↦ rotatedInto_of_ne (by simp)

variable {subject : Subject} {clientId : ClientId}

theorem evaluateRefreshGrant_subset
    {requested scope : List String}
    (h : evaluateRefreshGrant grant clientId subject requested = .ok scope) :
    scope ⊆ grant.scope := by
  dsimp only [evaluateRefreshGrant] at h
  generalize (if requested.isEmpty then grant.scope else requested) = asked at h
  split_ifs at h with hclient hrevoked hsubject hrefusable hwidened hdropped
  obtain rfl := Except.ok.inj h
  intro token hmem
  by_contra hnot
  exact hwidened (List.any_eq_true.mpr ⟨token, hmem, by simpa using hnot⟩)

variable {r : RefreshRequest} {scope audience : List String} {held : List String × List String}

theorem refreshCeiling_subset
    (h : refreshCeiling env r scope audience = some held) :
    held.1 ⊆ scope := by
  dsimp only [refreshCeiling] at h
  split_ifs at h with hdropped
  obtain rfl := Option.some.inj h
  dsimp only [refreshUnderPolicy]
  split_ifs
  · exact fun _ hmem ↦ hmem
  · exact fun _ hmem ↦ (List.mem_filter.mp hmem).1

/-- A refresh never widens the scope of its grant. -/
theorem refreshHeld_subset
    (h : refreshHeld env r grant subject = .ok (scope, audience)) : scope ⊆ grant.scope := by
  unfold refreshHeld at h
  split at h
  case h_1 => exact nomatch h
  case h_2 evaluated hevaluated =>
    split at h
    case h_1 => exact nomatch h
    case h_2 held hheld =>
      split at h
      case h_1 => exact nomatch h
      case h_2 =>
        obtain ⟨rfl, rfl⟩ := Prod.mk.inj (Except.ok.inj h)
        exact fun _ hmem ↦ evaluateRefreshGrant_subset hevaluated (refreshCeiling_subset hheld hmem)

/-- The policy takes `mcp:read` away from what this client refreshes. -/
def RefreshRequest.takesMcpAway (r : RefreshRequest) : Bool :=
  needsApproval r.registrationOrigin && decide (r.registrationPolicy ≠ .mcp)

theorem evaluateRefreshGrant_mcp
    {requested scope : List String}
    (h : evaluateRefreshGrant grant clientId subject requested = .ok scope)
    (hmcp : holdsMcpScope grant.scope = true) : holdsMcpScope scope = true := by
  dsimp only [evaluateRefreshGrant] at h
  generalize (if requested.isEmpty then grant.scope else requested) = asked at h
  split_ifs at h with hclient hrevoked hsubject hrefusable hwidened hdropped
  obtain rfl := Except.ok.inj h
  simpa [hmcp] using hdropped

theorem refreshCeiling_scope (hkeeps : r.takesMcpAway = false)
    (h : refreshCeiling env r scope audience = some held) : held.1 = scope := by
  dsimp only [refreshCeiling] at h
  split_ifs at h with hdropped
  obtain rfl := Option.some.inj h
  dsimp only [refreshUnderPolicy, refreshPolicy]
  rw [RefreshRequest.takesMcpAway] at hkeeps
  split_ifs with happroval hnot hnot <;> simp_all

/-- A refresh keeps the MCP scope of its grant, unless the policy takes it away. -/
theorem refreshHeld_mcp (hkeeps : r.takesMcpAway = false)
    (h : refreshHeld env r grant subject = .ok (scope, audience))
    (hmcp : holdsMcpScope grant.scope = true) : holdsMcpScope scope = true := by
  unfold refreshHeld at h
  split at h
  case h_1 => exact nomatch h
  case h_2 evaluated hevaluated =>
    split at h
    case h_1 => exact nomatch h
    case h_2 held hheld =>
      split at h
      case h_1 => exact nomatch h
      case h_2 =>
        obtain ⟨rfl, rfl⟩ := Prod.mk.inj (Except.ok.inj h)
        rw [refreshCeiling_scope hkeeps hheld]
        exact evaluateRefreshGrant_mcp hevaluated hmcp

/-- A refresh of what is worth this marks what it makes: an actor goes on being named, and an
MCP scope is kept, by an access token where the policy keeps it. -/
def RefreshRequest.Marks (r : RefreshRequest) (u : Worth) (y : Credential) : Prop :=
  u.acts = true ∨
    holdsMcpScope u.scope = true ∧ (y.isAccessToken = true → r.takesMcpAway = false)

theorem RefreshRequest.Marks.marked {y : Credential}
    (h : r.Marks u y) : u.Marked :=
  h.imp_right And.left

theorem wp_evaluatePresentedRefreshToken_lawful (hR : refreshLaw.Abides R) (r : RefreshRequest)
    (h₀ : Carrying (fun _ ↦ True) w s) :
    (evaluatePresentedRefreshToken env r).wp R w s fun _ w s ↦ Carrying (fun _ ↦ True) w s := by
  refine wp_read_lawful hR Law.kept_true h₀ rfl fun s₁ presented _ h₁ ↦ ?_
  cases presented with
  | none => exact hR.wp_throw
  | some =>
    refine wp_read_lawful hR Law.kept_true h₁ rfl fun s₂ grant _ h₂ ↦ ?_
    cases grant with
    | none => exact hR.wp_throw
    | some =>
      refine wp_read_lawful hR Law.kept_true h₂ rfl fun s₃ subject _ h₃ ↦ ?_
      cases subject with
      | none => exact hR.wp_throw
      | some =>
        dsimp only
        split
        case h_1 => exact hR.wp_throw
        case h_2 => exact h₃

theorem clientId_of_refreshHeld
    (h : refreshHeld env r grant subject = .ok held) :
    r.clientId = grant.clientId := by
  unfold refreshHeld at h
  by_contra hmismatch
  have hrefused : evaluateRefreshGrant grant r.clientId subject r.requestedScope =
      .error .clientMismatch := by
    rw [evaluateRefreshGrant, if_pos (Ne.symm hmismatch)]
  rw [hrefused] at h
  exact nomatch h

/-- A refresh makes what it hands over from the refresh token presented. -/
theorem wp_issueRotated_lawful (hR : refreshLaw.Abides R)
    {next : TokenHash}
    (h₀ : Carrying (fun s ↦ s.Rotated r.presentedHash next grantId grant) w s) :
    (issueRotated env r now grantId grant next).wp R w s fun response w s ↦
      Carrying (fun s ↦ response.accessToken.Coherent env ∧ s.Backs response.accessToken ∧
        ∃ u, s.Holds (.refreshToken r.presentedHash) u ∧
          ∀ y ∈ response.credentials, s.Makes (r.Marks u y) u y) w s := by
  refine wp_read_lawful hR kept_rotated h₀ rfl fun s₁ subject _ h₁ ↦ ?_
  cases subject with
  | none => exact hR.wp_throw
  | some =>
    dsimp only
    split
    case h_1 => exact hR.wp_throw
    case h_2 scope audience hheld =>
      split
      case h_1 => exact hR.wp_throw
      case h_2 token hmint =>
        refine h₁.imp fun ⟨hfound, ⟨e, hpresented⟩, ⟨e', hnext⟩⟩ ↦
          ⟨coherent_of_mintAccessToken hmint,
            backs_of_mint hmint hfound rfl (clientId_of_refreshHeld hheld) rfl,
            _, hpresented, fun y hy ↦ ?_⟩
        have hscope := refreshHeld_subset hheld
        simp only [TokenResponse.credentials, List.mem_append, List.mem_cons, Option.mem_toList,
          Option.map_some, Option.some.injEq, Option.map_none, reduceCtorEq, or_false] at hy
        obtain rfl | rfl := hy
        · refine makes_of_mint hmint hfound.recorded rfl hscope rfl rfl ⟨rfl, hscope, rfl⟩ le_rfl ?_
          exact fun hmarks ↦ hmarks.imp_right fun ⟨hmcp, hkeeps⟩ ↦
            refreshHeld_mcp (hkeeps rfl) hheld hmcp
        · exact ⟨_, hnext, ⟨rfl, fun _ hmem ↦ hmem, le_rfl⟩,
            fun _ ↦ ⟨rfl, RefreshRequest.Marks.marked⟩⟩

theorem wp_issueRefreshTokens_lawful (hR : refreshLaw.Abides R) (r : RefreshRequest)
    (h₀ : Carrying (fun _ ↦ True) w s) :
    (issueRefreshTokens env r).wp R w s fun response w s ↦
      Carrying (fun s ↦ response.accessToken.Coherent env ∧ s.Backs response.accessToken ∧
        ∃ u, s.Holds (.refreshToken r.presentedHash) u ∧
          ∀ y ∈ response.credentials, s.Makes (r.Marks u y) u y) w s := by
  refine wp_read_lawful hR Law.kept_true h₀ rfl fun s₁ now _ h₁ ↦ ?_
  rw [wp_bind]
  refine wp_mono ?_ (wp_evaluatePresentedRefreshToken_lawful hR r h₁)
  intro _ w₂ s₂ h₂
  refine hR.wp_endTransaction Law.kept_true h₂ fun s₃ h₃ ↦ ?_
  rw [wp_bind]
  refine wp_mono ?_ (wp_rotateRefreshToken_lawful hR (r.rotation now) h₃)
  intro outcome w₄ s₄ h₄
  refine hR.wp_endTransaction (kept_rotatedInto _ outcome) h₄ fun s₅ h₅ ↦ ?_
  cases outcome with
  | rotated grantId grant next =>
    exact wp_issueRotated_lawful hR (h₅.imp fun hrotated ↦ hrotated grantId grant next rfl)
  | reused | revoked | unknown => exact hR.wp_throw

end Refresh

end Odudu.ProtocolOidc
