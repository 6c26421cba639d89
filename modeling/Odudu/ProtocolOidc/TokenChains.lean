import Odudu.ProtocolOidc.ExchangedTokens

/-!
# Chains of tokens

Every call that signs a token or issues a refresh token, in any order and any interleaving.
`madeIn` and `exchangedIn` read off the answers what was made from what, and `Descends` is any
number of such links.  `descends_attenuates` says what is never gained along a chain, and
`access_tokens_coherent` what is never signed.  Every access token that is signed names the grant
it was issued under and says what it says, so a reader may go by the token or by the grant
(`backed_of_reaches`).

A redemption makes its tokens from the grant it records, and a refresh makes its own from the
token it rotates.  An exchange makes what it hands over from the token presented to it, which
may be any credential there is.
-/

set_option autoImplicit false

namespace Odudu.ProtocolOidc

open ReadCommitted Program

/-- The method that issues refresh tokens. -/
def Op.issuesRefreshToken : Op → Bool
  | .refreshTokenCreate .. => true
  | _ => false

/-- A call that signs access tokens, or any other. -/
inductive IssuingCall where
  | redeem (r : RedemptionRequest)
  | refresh (r : RefreshRequest)
  | exchange (r : ExchangeRequest)
  | clientCredentials (r : ClientCredentialsRequest)
  | mintAgent (r : AgentTokenRequest)
  /-- Any other transaction, by its statements. -/
  | other (ops : List Op) (hops : ∀ op ∈ ops, op.issuesRefreshToken = false)

inductive IssuingOutcome where
  | tokens (response : TokenResponse)
  | exchanged (response : ExchangeResponse)
  | accessToken (token : AccessToken)
  | finished

def IssuingCall.body (env : Deployment) : IssuingCall → Tx IssuingOutcome
  | redeem r => do
    let response ← issueAuthorizationCodeTokens env r
    pure (.tokens response)
  | refresh r => do
    let response ← issueRefreshTokens env r
    pure (.tokens response)
  | exchange r => do
    let response ← issueExchangedTokens env r
    pure (.exchanged response)
  | clientCredentials r => do
    let token ← issueClientCredentialsTokens env r
    pure (.accessToken token)
  | mintAgent r => do
    let token ← mintAgentToken env r
    pure (.accessToken token)
  | other ops _ => do
    runAll ops
    pure .finished

/-- The calls that issue tokens, and what runs beside them. -/
abbrev tokenIssuance (env : Deployment) : System where
  db := database
  Call := IssuingCall
  Outcome := IssuingOutcome
  Failure := Failure
  body := IssuingCall.body env

/-- The access token of an outcome. -/
def IssuingOutcome.signed : IssuingOutcome → Option AccessToken
  | tokens response => some response.accessToken
  | exchanged response =>
    match response.issued with
    | .accessToken token => some token
    | _ => none
  | accessToken token => some token
  | finished => none

/-- What a call made of a grant or in a rotation, each with what it was made from. -/
def IssuingCall.made : IssuingCall → IssuingOutcome → List (Credential × Credential)
  | redeem r, .tokens response => response.credentials.map (Credential.grant r.grantId, ·)
  | refresh r, .tokens response =>
    response.credentials.map (Credential.refreshToken r.presentedHash, ·)
  | clientCredentials r, .accessToken token => [(.grant r.grantId, .accessToken token)]
  | _, _ => []

/-- What a call made in an exchange, each with the token presented for it. -/
def IssuingCall.exchanged : IssuingCall → IssuingOutcome → List (Credential × Credential)
  | exchange r, .exchanged response =>
    r.presented.toList.flatMap fun x ↦ (response.credentials r).map (x, ·)
  | _, _ => []

variable {env : Deployment}

/-- What is read off the answers that are outcomes. -/
def outcomesOf {α : Type} (read : IssuingCall → IssuingOutcome → List α)
    (history : List (Answered (tokenIssuance env))) : List α :=
  history.flatMap fun a ↦
    match a.result with
    | .ok outcome => read a.call outcome
    | .error _ => []

/-- The access tokens that were signed. -/
def signedIn (history : List (Answered (tokenIssuance env))) : List AccessToken :=
  outcomesOf (fun _ outcome ↦ outcome.signed.toList) history

/-- What was made of grants and in rotations. -/
def madeIn (history : List (Answered (tokenIssuance env))) : List (Credential × Credential) :=
  outcomesOf IssuingCall.made history

/-- What was made in exchanges. -/
def exchangedIn (history : List (Answered (tokenIssuance env))) : List (Credential × Credential) :=
  outcomesOf IssuingCall.exchanged history

/-- One thing was made from another. -/
def Link (history : List (Answered (tokenIssuance env))) (x y : Credential) : Prop :=
  (x, y) ∈ madeIn history ∨ (x, y) ∈ exchangedIn history

/-- A chain of any number of links. -/
abbrev Descends (history : List (Answered (tokenIssuance env))) : Credential → Credential → Prop :=
  Relation.ReflTransGen (Link history)

/-- A chain in which no ID token is made. -/
abbrev DescendsByGrant (history : List (Answered (tokenIssuance env))) :
    Credential → Credential → Prop :=
  Relation.ReflTransGen fun x y ↦ Link history x y ∧ y.isIdToken = false

theorem mem_outcomesOf {α : Type} {read : IssuingCall → IssuingOutcome → List α}
    {history : List (Answered (tokenIssuance env))} {item : α} :
    item ∈ outcomesOf read history ↔
      ∃ a ∈ history, ∃ outcome, a.result = .ok outcome ∧ item ∈ read a.call outcome := by
  rw [outcomesOf, List.mem_flatMap]
  constructor
  · rintro ⟨a, ha, hitem⟩
    cases hresult : a.result with
    | error => simp [hresult] at hitem
    | ok outcome => exact ⟨a, ha, outcome, hresult, by simpa [hresult] using hitem⟩
  · rintro ⟨a, ha, outcome, hresult, hitem⟩
    exact ⟨a, ha, by simpa [hresult] using hitem⟩

section Promises

/-- What a call makes of what is worth this is marked as an agent's. -/
def IssuingCall.Marks : IssuingCall → Worth → Credential → Prop
  | refresh r, u, y => r.Marks u y
  | exchange r, u, _ => u.Marked ∨ r.delegates = true
  | _, u, _ => u.Marked

/-- What an answer says of the rows from then on. -/
structure Promised (env : Deployment) (call : IssuingCall) (outcome : IssuingOutcome) (s : Rows) :
    Prop where
  coherent : ∀ token, outcome.signed = some token → token.Coherent env
  made : ∀ x y, (x, y) ∈ call.made outcome → ∃ u, s.Holds x u ∧ s.Makes (call.Marks u y) u y
  exchanged : ∀ x y, (x, y) ∈ call.exchanged outcome →
    ∃ u, s.Takes x u ∧ s.Makes (call.Marks u y) u y
  minted : ∀ r token, call = .mintAgent r → outcome = .accessToken token → r.Minted token s

theorem kept_promised (call : IssuingCall) (outcome : IssuingOutcome) :
    KeptByLineage fun s ↦ Promised env call outcome s := by
  intro s s' hkeeps h
  constructor
  · exact h.coherent
  · intro x y hmade
    obtain ⟨u, hholds, hmakes⟩ := h.made x y hmade
    exact ⟨u, hholds.keeps hkeeps, kept_makes (call.Marks u y) u y _ _ hkeeps hmakes⟩
  · intro x y hexchanged
    obtain ⟨u, htakes, hmakes⟩ := h.exchanged x y hexchanged
    exact ⟨u, htakes.keeps hkeeps, kept_makes (call.Marks u y) u y _ _ hkeeps hmakes⟩
  · intro r token hcall houtcome
    exact kept_minted r token _ _ hkeeps (h.minted r token hcall houtcome)

variable {R : Rules database Failure} {s : Rows}

/-- What a call signed is backed. -/
def IssuingOutcome.Backed (outcome : IssuingOutcome) (s : Rows) : Prop :=
  ∀ token, outcome.signed = some token → s.Backs token

theorem kept_backedOutcome (outcome : IssuingOutcome) : KeptByLineage outcome.Backed :=
  fun s s' hkeeps h token hsigned ↦ kept_backs token s s' hkeeps (h token hsigned)

theorem issued_of_signed {response : ExchangeResponse} {token : AccessToken}
    (h : (IssuingOutcome.exchanged response).signed = some token) :
    response.issued = .accessToken token := by
  dsimp only [IssuingOutcome.signed] at h
  split at h
  case h_1 issued hissued => rw [hissued, Option.some.inj h]
  case h_2 => exact nomatch h

/-- A response whose credentials are made of one thing. -/
theorem promised_of_response {call : IssuingCall} {response : TokenResponse} {x : Credential}
    {u : Worth} (hmade : call.made (.tokens response) = response.credentials.map (x, ·))
    (hexchanged : call.exchanged (.tokens response) = [])
    (hcoherent : response.accessToken.Coherent env) (hholds : s.Holds x u)
    (hmakes : ∀ y ∈ response.credentials, s.Makes (call.Marks u y) u y) :
    Promised env call (.tokens response) s where
  coherent := by
    rintro _ ⟨rfl⟩
    exact hcoherent
  made := by
    intro x' y h
    rw [hmade] at h
    obtain ⟨y, hy, ⟨rfl, rfl⟩⟩ := List.mem_map.mp h
    exact ⟨u, hholds, hmakes y hy⟩
  exchanged := by
    rw [hexchanged]
    exact fun _ _ h ↦ nomatch h
  minted := fun _ _ _ h ↦ nomatch h

/-- Every call makes what it hands over of what it was given, and backs what it signs. -/
theorem IssuingCall.wp_body (hR : refreshLaw.Abides R) (call : IssuingCall)
    (hs : refreshLaw.Lawful s) :
    (call.body env).wp R Writes.nothing s fun outcome w s ↦
      Carrying (fun s ↦ Promised env call outcome s ∧ outcome.Backed s) w s := by
  have h₀ : Carrying (fun _ ↦ True) Writes.nothing s := .start hs trivial
  cases call with
  | redeem r =>
    refine (wp_bind _ _ _).mpr (wp_mono ?_ (wp_issueAuthorizationCodeTokens_lawful hR r h₀))
    intro response w s₁ h₁
    refine h₁.imp fun ⟨hcoherent, hbacks, u, hholds, hmakes⟩ ↦
      ⟨promised_of_response rfl rfl hcoherent hholds hmakes, ?_⟩
    rintro _ ⟨rfl⟩
    exact hbacks
  | refresh r =>
    refine (wp_bind _ _ _).mpr (wp_mono ?_ (wp_issueRefreshTokens_lawful hR r h₀))
    intro response w s₁ h₁
    refine h₁.imp fun ⟨hcoherent, hbacks, u, hholds, hmakes⟩ ↦
      ⟨promised_of_response rfl rfl hcoherent hholds hmakes, ?_⟩
    rintro _ ⟨rfl⟩
    exact hbacks
  | exchange r =>
    refine (wp_bind _ _ _).mpr (wp_mono ?_ (ExchangeRequest.wp_issueExchangedTokens_lawful r hR h₀))
    intro response w s₁ h₁
    refine h₁.imp fun ⟨hcoherent, hbacks, x, u, hx, htakes, hmakes⟩ ↦
      ⟨⟨fun token htoken ↦ hcoherent token (issued_of_signed htoken), ?_, ?_, ?_⟩,
        fun token htoken ↦ hbacks token (issued_of_signed htoken)⟩
    · exact fun _ _ h ↦ nomatch h
    · intro x' y hexchanged
      obtain ⟨x'', hx'', hmem⟩ := List.mem_flatMap.mp hexchanged
      obtain ⟨y, hy, ⟨rfl, rfl⟩⟩ := List.mem_map.mp hmem
      obtain rfl : x = x' := Option.some.inj (hx.symm.trans (Option.mem_toList.mp hx''))
      exact ⟨u, htakes, hmakes y hy⟩
    · exact fun _ _ h ↦ nomatch h
  | clientCredentials r =>
    refine (wp_bind _ _ _).mpr (wp_mono ?_ (wp_issueClientCredentialsTokens_lawful hR r h₀))
    intro token w s₁ h₁
    refine h₁.imp fun ⟨hcoherent, hbacks, u, hholds, hmakes⟩ ↦ ⟨⟨?_, fun x y hmade ↦ ?_, ?_, ?_⟩, ?_⟩
    · rintro _ ⟨rfl⟩
      exact hcoherent
    · obtain ⟨rfl, rfl⟩ := Prod.mk.inj (List.mem_singleton.mp hmade)
      exact ⟨u, hholds, hmakes⟩
    · exact fun _ _ h ↦ nomatch h
    · exact fun _ _ h ↦ nomatch h
    · rintro _ ⟨rfl⟩
      exact hbacks
  | mintAgent r =>
    refine (wp_bind _ _ _).mpr (wp_mono ?_ (wp_mintAgentToken_lawful hR r h₀))
    intro token w s₁ h₁
    refine h₁.imp fun ⟨hcoherent, hbacks, hminted⟩ ↦ ⟨⟨?_, ?_, ?_, ?_⟩, ?_⟩
    · rintro _ ⟨rfl⟩
      exact hcoherent
    · exact fun _ _ h ↦ nomatch h
    · exact fun _ _ h ↦ nomatch h
    · rintro _ _ ⟨rfl⟩ ⟨rfl⟩
      exact hminted
    · rintro _ ⟨rfl⟩
      exact hbacks
  | other ops hops =>
    have hkeeps (op : Op) (hop : op ∈ ops) (s : Rows) (hs : refreshLaw.Lawful s) :
        refreshLaw.Keeps op s :=
      Op.keeps_refreshLaw (fun hash row h ↦ nomatch h ▸ hops op hop) hs
    refine (wp_bind _ _ _).mpr (wp_mono ?_ (hR.wp_only (only_runAll hkeeps) h₀))
    intro _ w s₁ h₁
    refine h₁.imp fun _ ↦ ⟨⟨?_, ?_, ?_, ?_⟩, ?_⟩
    · exact fun _ h ↦ nomatch h
    · exact fun _ _ h ↦ nomatch h
    · exact fun _ _ h ↦ nomatch h
    · exact fun _ _ h ↦ nomatch h
    · exact fun _ h ↦ nomatch h

end Promises

section Chains

variable {rows : Rows} {c : Config (tokenIssuance env)} {x y : Credential} {u v : Worth}

/-- In every interleaving the rows are lawful, and every answer keeps what it promised and backs
what it signed. -/
theorem kept_of_reaches (hrows : refreshLaw.Lawful rows) (hc : Reaches .free (.start rows) c) :
    refreshLaw.Lawful c.rows ∧ ∀ a ∈ c.history, ∀ outcome, a.result = .ok outcome →
      Promised env a.call outcome c.rows ∧ outcome.Backed c.rows :=
  Law.promises_of_reaches (fun call outcome ↦ (kept_promised call outcome).and
    (kept_backedOutcome outcome)) (fun _ (call : IssuingCall) _ hR hs ↦ call.wp_body hR hs) hrows hc

/-- In every run each answer is one that the rows bear out. -/
theorem promised_of_reaches (hrows : refreshLaw.Lawful rows) (hc : Reaches .free (.start rows) c) :
    refreshLaw.Lawful c.rows ∧ ∀ a ∈ c.history, ∀ outcome, a.result = .ok outcome →
      Promised env a.call outcome c.rows :=
  ⟨(kept_of_reaches hrows hc).1, fun a ha outcome hresult ↦
    ((kept_of_reaches hrows hc).2 a ha outcome hresult).1⟩

/-- Every access token signed is backed by its grant. -/
theorem backed_of_reaches (hrows : refreshLaw.Lawful rows) (hc : Reaches .free (.start rows) c)
    {token : AccessToken} (htoken : token ∈ signedIn c.history) : Rows.Backs c.rows token := by
  obtain ⟨-, hkept⟩ := kept_of_reaches hrows hc
  obtain ⟨a, ha, outcome, hresult, hmem⟩ := mem_outcomesOf.mp htoken
  exact (hkept a ha outcome hresult).2 token (Option.mem_toList.mp hmem)

/-- A token that is made in an exchange expires no later than the one presented for it, nor does
anything made from it. -/
theorem noMore_of_exchanged (hrows : refreshLaw.Lawful rows) (hc : Reaches .free (.start rows) c)
    (hx : Rows.Holds c.rows x u) (hexchanged : (x, y) ∈ exchangedIn c.history) :
    ∃ v, Rows.Holds c.rows y v ∧ v.NoMore u ∧ v.ceiling ≤ u.expiresAt ∧
      (y.isIdToken = false → v.claims = u.claims) := by
  obtain ⟨hlawful, hpromised⟩ := promised_of_reaches hrows hc
  obtain ⟨a, ha, outcome, hresult, hmem⟩ := mem_outcomesOf.mp hexchanged
  obtain ⟨t, htakes, hmakes⟩ := (hpromised a ha outcome hresult).exchanged x y hmem
  obtain ⟨v, hholds, hmore, hrest⟩ := hmakes
  obtain ⟨hmore', hexpires, hclaims, -⟩ := htakes.noMore hlawful hx
  exact ⟨v, hholds, hmore.trans hmore', hmore.ceiling.trans hexpires,
    fun hid ↦ (hrest hid).1.trans hclaims⟩

theorem holds_of_made (hrows : refreshLaw.Lawful rows) (hc : Reaches .free (.start rows) c)
    (hmade : (x, y) ∈ madeIn c.history) :
    ∃ u v, Rows.Holds c.rows x u ∧ Rows.Holds c.rows y v ∧ v.NoMore u ∧
      (y.isIdToken = false → v.claims = u.claims) := by
  obtain ⟨-, hpromised⟩ := promised_of_reaches hrows hc
  obtain ⟨a, ha, outcome, hresult, hmem⟩ := mem_outcomesOf.mp hmade
  obtain ⟨u, hx, v, hy, hmore, hrest⟩ := (hpromised a ha outcome hresult).made x y hmem
  exact ⟨u, v, hx, hy, hmore, fun hid ↦ (hrest hid).1⟩

/-- What is made from something is worth no more. -/
theorem noMore_of_link (hrows : refreshLaw.Lawful rows) (hc : Reaches .free (.start rows) c)
    (hx : Rows.Holds c.rows x u) (hlink : Link c.history x y) :
    ∃ v, Rows.Holds c.rows y v ∧ v.NoMore u ∧ (y.isIdToken = false → v.claims = u.claims) := by
  rcases hlink with hmade | hexchanged
  · obtain ⟨t, v, ht, hv, hrest⟩ := holds_of_made hrows hc hmade
    obtain rfl := hx.unique ht
    exact ⟨v, hv, hrest⟩
  · obtain ⟨v, hholds, hmore, -, hclaims⟩ := noMore_of_exchanged hrows hc hx hexchanged
    exact ⟨v, hholds, hmore, hclaims⟩

/-- Nor is anything further down a chain. -/
theorem noMore_of_descends (hrows : refreshLaw.Lawful rows) (hc : Reaches .free (.start rows) c)
    (hx : Rows.Holds c.rows x u) (hdescends : Descends c.history x y) :
    ∃ v, Rows.Holds c.rows y v ∧ v.NoMore u := by
  induction hdescends with
  | refl => exact ⟨u, hx, .refl u⟩
  | tail _ hlink ih =>
    obtain ⟨t, ht, hmore⟩ := ih
    obtain ⟨v, hv, hmore', -⟩ := noMore_of_link hrows hc ht hlink
    exact ⟨v, hv, hmore'.trans hmore⟩

/-- The claims asked for go with the grant. -/
theorem claims_of_descends (hrows : refreshLaw.Lawful rows) (hc : Reaches .free (.start rows) c)
    (hx : Rows.Holds c.rows x u) (hdescends : DescendsByGrant c.history x y) :
    ∃ v, Rows.Holds c.rows y v ∧ v.claims = u.claims := by
  induction hdescends with
  | refl => exact ⟨u, hx, rfl⟩
  | tail _ hlink ih =>
    obtain ⟨t, ht, hclaims⟩ := ih
    obtain ⟨v, hv, -, hclaims'⟩ := noMore_of_link hrows hc ht hlink.1
    exact ⟨v, hv, (hclaims' hlink.2).trans hclaims⟩

/-- Whatever descends from a credential is for the same subject, with no more scope; it expires
within the ceiling of the credential, and no later than anything that was presented for an
exchange on the way; and it carries the claims asked for, where no ID token was made on the
way. -/
theorem descends_attenuates (hrows : refreshLaw.Lawful rows)
    (hc : Reaches .free (.start rows) c) (hx : Rows.Holds c.rows x u)
    (hdescends : Descends c.history x y) :
    ∃ v, Rows.Holds c.rows y v ∧ v.subjectId = u.subjectId ∧ v.scope ⊆ u.scope ∧
      v.expiresAt ≤ u.ceiling ∧
      (∀ p q, Descends c.history x p → (p, q) ∈ exchangedIn c.history → Descends c.history q y →
        ∃ t, Rows.Holds c.rows p t ∧ v.expiresAt ≤ t.expiresAt) ∧
      (DescendsByGrant c.history x y → v.claims = u.claims) := by
  have hlawful := (promised_of_reaches hrows hc).1
  obtain ⟨v, hv, hmore⟩ := noMore_of_descends hrows hc hx hdescends
  have hexpires := hv.expiresAt_le hlawful
  refine ⟨v, hv, hmore.subjectId, hmore.scope, hexpires.trans hmore.ceiling, ?_, ?_⟩
  · intro p q hp hexchanged hq
    obtain ⟨t, ht, -⟩ := noMore_of_descends hrows hc hx hp
    obtain ⟨t', ht', -, hceiling, -⟩ := noMore_of_exchanged hrows hc ht hexchanged
    obtain ⟨v', hv', hmore'⟩ := noMore_of_descends hrows hc ht' hq
    obtain rfl := hv.unique hv'
    exact ⟨t, ht, hexpires.trans (hmore'.ceiling.trans hceiling)⟩
  · intro hbyGrant
    obtain ⟨v', hv', hclaims⟩ := claims_of_descends hrows hc hx hbyGrant
    obtain rfl := hv.unique hv'
    exact hclaims

/-- Every access token signed is coherent with its audience, less the issuer, and short-lived
where it may write; and no grant that has a refresh token may write. -/
theorem access_tokens_coherent (hrows : refreshLaw.Lawful rows)
    (hc : Reaches .free (.start rows) c) :
    (∀ token ∈ signedIn c.history,
      scopesCoherentWithAudience token.scope (token.aud.filter (· != env.issuer))
        env.mcpAudience ADMIN_API_AUDIENCE = true ∧
      (MCP_WRITE_SCOPE ∈ token.scope → token.exp ≤ token.iat + MCP_WRITE_MAX_TTL_SECONDS)) ∧
    ∀ hash row, Rows.refreshToken c.rows hash = some row →
      ∃ grant, Rows.grant c.rows row.grantId = some grant ∧ MCP_WRITE_SCOPE ∉ grant.scope := by
  obtain ⟨hlawful, hpromised⟩ := promised_of_reaches hrows hc
  constructor
  · intro token htoken
    obtain ⟨a, ha, outcome, hresult, hmem⟩ := mem_outcomesOf.mp htoken
    have hcoherent := (hpromised a ha outcome hresult).coherent token (Option.mem_toList.mp hmem)
    exact ⟨hcoherent.scope, hcoherent.shortLived⟩
  · intro hash row hrow
    obtain ⟨_, ⟨grant, hgrant, rfl⟩, hallowed, -⟩ := rooted_of_lawful hlawful hrow
    refine ⟨grant, hgrant, fun hwrite ↦ ?_⟩
    have hcontains : grant.worth.scope.contains MCP_WRITE_SCOPE = true :=
      List.contains_iff_mem.mpr hwrite
    rw [refreshAllowedForScope, hcontains] at hallowed
    exact nomatch hallowed

end Chains

/-- A code for an agent, whose request asked for a claim by name. -/
def agentCode : AuthorizationCode where
  clientId := 1
  subjectId := 1
  redirectUri := "https://agent.example/cb"
  scope := ["openid", MCP_READ_SCOPE]
  codeChallenge := "challenge"
  authTime := 0
  expiresAt := 60
  consumedAt := none
  grantId := none
  sessionId := none
  resource := [plainDeployment.mcpAudience]
  userinfoClaims := ["email"]

/-- One enabled subject and the code. -/
def agentCodeRows : Rows
  | ⟨.subjects, 1⟩ => some ⟨none⟩
  | ⟨.authorizationCodes, 7⟩ => some agentCode
  | _ => none

/-- The code presented. -/
def presentAgentCode : RedemptionRequest where
  codeHash := 7
  redirectUri := "https://agent.example/cb"
  codeVerifier := "challenge"
  resource := .absent
  clientId := 1
  assigned := ["openid", MCP_READ_SCOPE]
  accessTokenTtlSeconds := 300
  refreshTokenTtlSeconds := 3600
  idTokenTtlSeconds := 60
  refreshTokenConfigured := true
  grantId := 1
  refreshTokenHash := 10

/-- The access token of its grant. -/
def agentAccessToken : AccessToken where
  sub := 1
  clientId := 1
  aud := [plainDeployment.mcpAudience, plainDeployment.issuer]
  scope := ["openid", MCP_READ_SCOPE]
  iat := 0
  exp := 300
  sid := none
  grantId := 1
  requestedUserinfoClaims := some ["email"]
  act := none
  via := false

/-- The ID token that comes with it. -/
def agentIdToken : IdToken where
  sub := 1
  aud := 1
  exp := 60
  sid := none
  act := none

/-- What the readers of tokens make of it. -/
def agentIdTokenText : TokenText where
  accessToken := none
  refreshTokenHash := 0
  idToken := some agentIdToken
  mayAct := .absent

/-- The ID token presented for an access token. -/
def presentIdToken : ExchangeRequest where
  subjectToken := agentIdTokenText
  subjectTokenType := "urn:ietf:params:oauth:token-type:id_token"
  actorToken := none
  actorTokenType := none
  requestedTokenType := none
  scope := none
  resource := .absent
  audience := .absent
  clientId := 1
  clientName := "agent"
  isPublic := false
  tokenExchangeAllowedForPublic := false
  tokenExchangeImpersonationAllowed := true
  tokenExchangeActorFromOtherClient := false
  audiences := ["https://api.example"]
  accessTokenTtlSeconds := 300
  refreshTokenTtlSeconds := 3600
  idTokenTtlSeconds := 60
  lifespans := ⟨1800, 36000, 1800, 36000⟩
  clientIsLive := fun _ ↦ true
  grantId := 2
  refreshTokenHash := 11

/-- The access token it is exchanged for. -/
def accessTokenForIdToken : AccessToken where
  sub := 1
  clientId := 1
  aud := ["https://api.example", plainDeployment.issuer]
  scope := []
  iat := 0
  exp := 60
  sid := none
  grantId := 2
  requestedUserinfoClaims := none
  act := none
  via := false

/-- The code is redeemed, and the ID token exchanged. -/
def idTokenExchange : List (Event (tokenIssuance plainDeployment)) :=
  .begin (IssuingCall.redeem presentAgentCode) :: Schedule.runs _ 0 7 ++ .finish 0 ::
  .begin (IssuingCall.exchange presentIdToken) :: Schedule.runs _ 1 3 ++ [.finish 1]

theorem idTokenExchange_run : ∃ c : Config (tokenIssuance plainDeployment),
    Reaches .free (.start agentCodeRows) c ∧
    signedIn c.history = [accessTokenForIdToken, agentAccessToken] ∧
    madeIn c.history = [(.grant 1, .accessToken agentAccessToken),
      (.grant 1, .refreshToken 10), (.grant 1, .idToken agentIdToken)] ∧
    exchangedIn c.history = [(.idToken agentIdToken, .grant 2),
      (.idToken agentIdToken, .accessToken accessTokenForIdToken)] := by
  have hplay : (Schedule.performAll .free oracle (Schedule.start agentCodeRows)
      idTokenExchange).map (fun m ↦ (signedIn m.config.history, madeIn m.config.history,
        exchangedIn m.config.history)) =
        some ([accessTokenForIdToken, agentAccessToken],
          [(.grant 1, .accessToken agentAccessToken), (.grant 1, .refreshToken 10),
            (.grant 1, .idToken agentIdToken)],
          [(.idToken agentIdToken, .grant 2),
            (.idToken agentIdToken, .accessToken accessTokenForIdToken)]) := by decide
  obtain ⟨m, hm, hhistory⟩ := Option.map_eq_some_iff.mp hplay
  simp only [Prod.mk.injEq] at hhistory
  exact ⟨m.config, Schedule.reaches hm, hhistory⟩

theorem agentCodeRows_lawful : refreshLaw.Lawful agentCodeRows :=
  lawful_of_rooted fun _ _ h ↦ nomatch h

/-- The claims asked for are lost where an ID token is presented for an access token: it names
no grant. -/
theorem idToken_exchange_loses_claims : ∃ c : Config (tokenIssuance plainDeployment),
    Reaches .free (.start agentCodeRows) c ∧ ∃ u v,
      Rows.Holds c.rows (.grant 1) u ∧
      Descends c.history (.grant 1) (.accessToken accessTokenForIdToken) ∧
      Rows.Holds c.rows (.accessToken accessTokenForIdToken) v ∧ v.claims ≠ u.claims := by
  obtain ⟨c, hc, -, hmade, hexchanged⟩ := idTokenExchange_run
  have hfirst : (Credential.grant 1, Credential.accessToken agentAccessToken) ∈ madeIn c.history := by
    simp [hmade]
  have hid : Link c.history (.grant 1) (.idToken agentIdToken) := Or.inl (by simp [hmade])
  have hlast : Link c.history (.idToken agentIdToken) (.accessToken accessTokenForIdToken) :=
    Or.inr (by simp [hexchanged])
  have hdescends : Descends c.history (.grant 1) (.accessToken accessTokenForIdToken) :=
    (Relation.ReflTransGen.single hid).tail hlast
  obtain ⟨u, _, hgrant, ⟨rfl, -⟩, -, hclaims⟩ := holds_of_made agentCodeRows_lawful hc hfirst
  obtain ⟨v, hv, -⟩ := noMore_of_descends agentCodeRows_lawful hc hgrant hdescends
  refine ⟨c, hc, u, v, hgrant, hdescends, hv, ?_⟩
  rw [hv.1, ← hclaims rfl]
  decide

/-- The agent's refresh token presented. -/
def presentRefreshToken : RefreshRequest where
  presentedHash := 10
  requestedScope := [MCP_READ_SCOPE]
  resource := .absent
  clientId := 1
  registrationOrigin := .operator
  registrationPolicy := .other
  accessTokenTtlSeconds := 60
  refreshTokenTtlSeconds := 600
  lifespans := ⟨1800, 36000, 1800, 36000⟩
  nextHash := 13

/-- The access token that its rotation comes with. -/
def refreshedToken : AccessToken := { agentAccessToken with scope := [MCP_READ_SCOPE], exp := 60 }

/-- The code is redeemed, and its refresh token rotated. -/
def rotation : List (Event (tokenIssuance plainDeployment)) :=
  .begin (IssuingCall.redeem presentAgentCode) :: Schedule.runs _ 0 7 ++ .finish 0 ::
  .begin (IssuingCall.refresh presentRefreshToken) :: Schedule.runs _ 1 4 ++ .finish 1 ::
    Schedule.runs _ 1 5 ++ .finish 1 :: Schedule.runs _ 1 1 ++ [.finish 1]

theorem rotation_run : ∃ c : Config (tokenIssuance plainDeployment),
    Reaches .free (.start agentCodeRows) c ∧
    madeIn c.history = [(.refreshToken 10, .accessToken refreshedToken),
      (.refreshToken 10, .refreshToken 13), (.grant 1, .accessToken agentAccessToken),
      (.grant 1, .refreshToken 10), (.grant 1, .idToken agentIdToken)] := by
  have hplay : (Schedule.performAll .free oracle (Schedule.start agentCodeRows) rotation).map
      (fun m ↦ madeIn m.config.history) = some [(.refreshToken 10, .accessToken refreshedToken),
        (.refreshToken 10, .refreshToken 13), (.grant 1, .accessToken agentAccessToken),
        (.grant 1, .refreshToken 10), (.grant 1, .idToken agentIdToken)] := by decide
  obtain ⟨m, hm, hmade⟩ := Option.map_eq_some_iff.mp hplay
  exact ⟨m.config, Schedule.reaches hm, hmade⟩

/-- The access token of a rotation, two links down from the agent's grant. -/
theorem descends_attenuates_rotated : ∃ c : Config (tokenIssuance plainDeployment),
    ∃ u v, Rows.Holds c.rows (.grant 1) u ∧ Rows.Holds c.rows (.accessToken refreshedToken) v ∧
      v.subjectId = u.subjectId ∧ v.scope ⊆ u.scope ∧ v.claims = u.claims := by
  obtain ⟨c, hc, hmade⟩ := rotation_run
  have hfirst : (Credential.grant 1, Credential.refreshToken 10) ∈ madeIn c.history := by
    simp [hmade]
  have hlink : Link c.history (.grant 1) (.refreshToken 10) := Or.inl hfirst
  have hrotated : Link c.history (.refreshToken 10) (.accessToken refreshedToken) :=
    Or.inl (by simp [hmade])
  have hbyGrant : DescendsByGrant c.history (.grant 1) (.accessToken refreshedToken) :=
    (Relation.ReflTransGen.single ⟨hlink, rfl⟩).tail ⟨hrotated, rfl⟩
  obtain ⟨u, _, hgrant, -⟩ := holds_of_made agentCodeRows_lawful hc hfirst
  obtain ⟨v, hv, hsubject, hscope, -, -, hclaims⟩ :=
    descends_attenuates agentCodeRows_lawful hc hgrant
      ((Relation.ReflTransGen.single hlink).tail hrotated)
  exact ⟨c, u, v, hgrant, hv, hsubject, hscope, hclaims hbyGrant⟩

/-- The issuer is in the audience of every token, and is no resource that an MCP scope is for. -/
theorem issuer_defines_no_mcp_scope : ∃ c : Config (tokenIssuance plainDeployment),
    Reaches .free (.start agentCodeRows) c ∧ ∃ token ∈ signedIn c.history,
      scopesCoherentWithAudience token.scope token.aud plainDeployment.mcpAudience
        ADMIN_API_AUDIENCE = false := by
  obtain ⟨c, hc, hsigned, -⟩ := idTokenExchange_run
  exact ⟨c, hc, agentAccessToken, by simp [hsigned], by decide⟩

/-- The agent's token, which is for the MCP endpoint. -/
theorem access_tokens_coherent_agent : ∃ c : Config (tokenIssuance plainDeployment),
    agentAccessToken ∈ signedIn c.history ∧
      scopesCoherentWithAudience agentAccessToken.scope
        (agentAccessToken.aud.filter (· != plainDeployment.issuer)) plainDeployment.mcpAudience
        ADMIN_API_AUDIENCE = true := by
  obtain ⟨c, hc, hsigned, -⟩ := idTokenExchange_run
  have hmem : agentAccessToken ∈ signedIn c.history := by simp [hsigned]
  exact ⟨c, hmem, ((access_tokens_coherent agentCodeRows_lawful hc).1 _ hmem).1⟩

end Odudu.ProtocolOidc
