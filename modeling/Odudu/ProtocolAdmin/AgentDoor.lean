import Odudu.ProtocolAdmin.AuthenticateAdmin
import Odudu.ProtocolOidc.AgentMarks

/-!
# An agent at the admin API

What the door lets a token through for follows from its claims, whatever is read of the
database: a person's own where nothing marks it, and otherwise a read that an agent gets or a
write of its list, and of those only an amendment without the MCP endpoint's mark.

Together with what is known of the claims along a chain (`marked_of_descends`) this confines
everything that is made from what an agent holds, on every chain that drops no mark.
`unmarked_at_admin_api` is one that drops it.
-/

set_option autoImplicit false

namespace Odudu.ProtocolAdmin

open ProtocolOidc ReadCommitted

section Door

variable {deps : AuthenticateAdminDeps} {input : AuthenticateAdminInput}
  {principal : AdminPrincipal} {token : AccessToken}

/-- Whatever verifies of what is presented is this token. -/
def Presenting (bearer : Option BearerToken) (token : AccessToken) : Prop :=
  ∀ presented, bearer = some presented → ∀ tenant payload,
    presented.verified tenant = some payload → payload = token

/-- What a principal says of the token it was made from. -/
structure StandsFor (principal : AdminPrincipal) (token : AccessToken) : Prop where
  scopes : principal.scopes = token.scope
  ordinary : principal.agent = none → token.Unmarked
  viaEndpoint : ∀ agent, principal.agent = some agent → agent.viaEndpoint = true → token.via = true

theorem standsFor_of_principalOf {matched : MatchedTenant} {claims : AgentClaims}
    {grant : TokenGrant} {client : ClientState} (hclaims : readAgentClaims token = some claims)
    (h : principalOf matched token claims grant client = .authenticated principal) :
    StandsFor principal token := by
  have hread : claims.scopes = token.scope ∧
      (claims.actorClientId = none → token.act = none) ∧
      (claims.endpointMinted = true → token.via = true) := by
    unfold readAgentClaims at hclaims
    split at hclaims
    case h_1 hact =>
      obtain rfl := Option.some.inj hclaims
      exact ⟨rfl, fun _ ↦ hact, fun h ↦ nomatch h⟩
    case h_2 act hact =>
      split at hclaims
      case h_1 => exact nomatch hclaims
      case h_2 =>
        obtain rfl := Option.some.inj hclaims
        exact ⟨rfl, fun h ↦ (nomatch h), id⟩
  obtain ⟨hscopes, hact, hvia⟩ := hread
  dsimp only [principalOf] at h
  split_ifs at h with hordinary hscope hclient
  · obtain rfl := AdminAuthOutcome.authenticated.inj h
    simp only [Bool.not_eq_true', Bool.or_eq_false_iff] at hordinary
    refine ⟨hscopes, fun _ ↦ ⟨hact (by simpa using hordinary.1.1), ?_⟩, fun _ h ↦ nomatch h⟩
    rw [← hscopes]
    exact hordinary.1.2
  · obtain rfl := AdminAuthOutcome.authenticated.inj h
    refine ⟨hscopes, fun h ↦ (nomatch h), ?_⟩
    rintro _ ⟨rfl⟩ hminted
    exact hvia hminted

/-- Who is let in stands for the token presented. -/
theorem standsFor_of_authenticateAdmin (hpresenting : Presenting input.bearer token)
    (h : authenticateAdmin deps input = .authenticated principal) : StandsFor principal token := by
  unfold authenticateAdmin at h
  split at h
  case h_1 => exact nomatch h
  case h_2 presented hbearer =>
    split at h
    case h_1 => exact nomatch h
    case h_2 iss _ =>
      split at h
      case h_1 => exact nomatch h
      case h_2 matched _ =>
        split at h
        case h_1 => exact nomatch h
        case h_2 payload hpayload =>
          obtain rfl := hpresenting presented hbearer matched.id payload
            (Option.filter_eq_some_iff.mp hpayload).1
          split at h
          case h_1 => exact nomatch h
          case h_2 claims hclaims =>
            split at h
            case h_1 => exact nomatch h
            case h_2 grant client _ => exact standsFor_of_principalOf hclaims h

end Door

section Routes

variable {deps : AdminRouterDeps} {route : AdminRoute} {request : AdminRequest}
  {granted : Granted} {token : AccessToken}

/-- What an agent's token is let through for. -/
structure Confined (route : AdminRoute) (body : Body) (token : AccessToken) : Prop where
  admitted : (route.method = .get ∧ routeKey route.method route.pattern ∉ AGENT_DENIED_READS) ∨
    (MCP_WRITE_SCOPE ∈ token.scope ∧ ∃ entry ∈ AGENT_WRITE_ROUTES,
      entry.method = route.method ∧ entry.pattern = route.pattern ∧ body.NamesOnly entry.fields)
  counted : route.method ≠ .get → route.method ≠ .patch → token.via = true

theorem authorizeRoute_eq_some (hpresenting : Presenting request.bearer token)
    (h : authorizeRoute deps route request = some granted) :
    StandsFor granted.principal token ∧
      agentRefused deps route granted.principal granted.tenantId = false := by
  unfold authorizeRoute at h
  split at h
  case h_1 => exact nomatch h
  case h_2 =>
    split at h
    case h_1 => exact nomatch h
    case h_2 =>
      split at h
      case h_1 principal hauthenticated =>
        split_ifs at h with hrefused hauthorized
        obtain rfl := Option.some.inj h
        exact ⟨standsFor_of_authenticateAdmin hpresenting hauthenticated, by simpa using hrefused⟩
      case h_2 => exact nomatch h

/-- An agent for whom a handler runs is confined. -/
theorem confined_of_handleRoute (hpresenting : Presenting request.bearer token)
    (h : handleRoute deps route request = some granted)
    (hagent : granted.principal.agent.isSome = true) : Confined route request.body token := by
  unfold handleRoute at h
  split at h
  case h_1 => exact nomatch h
  case h_2 granted' hgranted =>
    split_ifs at h with hbody hrecorded
    obtain rfl := Option.some.inj h
    obtain ⟨hstands, hadmitted⟩ := authorizeRoute_eq_some hpresenting hgranted
    obtain ⟨agent, hagent'⟩ := Option.isSome_iff_exists.mp hagent
    simp only [agentRefused, hagent', Bool.or_eq_false_iff, Bool.not_eq_false'] at hadmitted
    obtain ⟨⟨-, hscope⟩, hendpoint⟩ := hadmitted
    rw [hstands.scopes] at hscope
    rcases scopeAdmits_iff.mp hscope with ⟨hget, hdenied, -, -⟩ | ⟨hget, hwrite, hentry⟩
    · exact ⟨Or.inl ⟨hget, hdenied⟩, fun hnot ↦ absurd hget hnot⟩
    · have hadmits : agentBodyAdmitted route request.body = true := by
        have hmay : agentMayWrite deps route request granted' = true := by
          simpa [hagent, hget] using hbody
        unfold agentMayWrite at hmay
        by_contra hnot
        simp [hnot] at hmay
      obtain ⟨entry, hfound, hnames⟩ := namesOnly_of_admitted hadmits
      obtain ⟨hmem, hmethod, hpattern⟩ := writeEntry_eq_some hfound
      refine ⟨Or.inr ⟨hwrite, entry, hmem, hmethod, hpattern, hnames⟩, fun _ hpatch ↦ ?_⟩
      rw [agentWriteNeedsEndpoint_of_write hpatch hentry] at hendpoint
      refine hstands.viaEndpoint agent hagent' ?_
      simp only [Bool.true_and, Bool.or_eq_false_iff, Bool.not_eq_false'] at hendpoint
      exact hendpoint.1

end Routes

section Chains

variable {env : Deployment} {rows : Rows} {c : Config (tokenIssuance env)} {x : Credential}

/-- Whatever the database is found to hold, a token that comes of what an agent holds, on a chain
that drops no mark, is never taken for a person's own.  It is let through for a read that agents
get, or for a write of their list with no other members; and for a write that adds or removes a
row it is one that the MCP endpoint minted, within the scope of the grant and the life of the
token that was presented to the endpoint.  No chain makes one that the endpoint minted. -/
theorem agent_door_confined (hrows : refreshLaw.Lawful rows) (hc : Reaches .free (.start rows) c)
    (hx : AgentHolds c x) {token : AccessToken}
    (hdescends : DescendsMarked c x (.accessToken token)) :
    (∀ deps (input : AuthenticateAdminInput) principal, Presenting input.bearer token →
      authenticateAdmin deps input = .authenticated principal →
      principal.agent.isSome = true) ∧
    (∀ deps route (request : AdminRequest) granted, Presenting request.bearer token →
      handleRoute deps route request = some granted →
      granted.principal.agent.isSome = true ∧
      ((route.method = .get ∧ routeKey route.method route.pattern ∉ AGENT_DENIED_READS) ∨
        (MCP_WRITE_SCOPE ∈ token.scope ∧ ∃ entry ∈ AGENT_WRITE_ROUTES,
          entry.method = route.method ∧ entry.pattern = route.pattern ∧
          request.body.NamesOnly entry.fields)) ∧
      (route.method ≠ .get → route.method ≠ .patch →
        token.via = true ∧ ∃ r, (r, token) ∈ mintedIn c.history ∧ token.exp ≤ r.notAfter ∧
          ∃ grant, Rows.grant c.rows r.subjectGrantId = some grant ∧
            token.scope ⊆ grant.scope)) ∧
    ∀ p made, Link c.history p (.accessToken made) → made.via = false := by
  have hmarked := marked_of_descends hrows hc hx hdescends
  have hagent : ∀ principal, StandsFor principal token → principal.agent.isSome = true := by
    intro principal hstands
    by_contra hnone
    obtain ⟨hact, hscope⟩ := hstands.ordinary (by simpa using hnone)
    rcases hmarked with h | h
    · simp [hact] at h
    · simp [hscope] at h
  refine ⟨fun deps input principal hpresenting h ↦
    hagent principal (standsFor_of_authenticateAdmin hpresenting h), ?_,
    fun p made hlink ↦ via_of_link hrows hc hlink⟩
  intro deps route request granted hpresenting h
  have hstands : StandsFor granted.principal token := by
    unfold handleRoute at h
    split at h
    case h_1 => exact nomatch h
    case h_2 granted' hgranted =>
      split_ifs at h with hbody hrecorded
      obtain rfl := Option.some.inj h
      exact (authorizeRoute_eq_some hpresenting hgranted).1
  have hconfined := confined_of_handleRoute hpresenting h (hagent _ hstands)
  refine ⟨hagent _ hstands, hconfined.admitted, fun hget hpatch ↦ ?_⟩
  have hvia := hconfined.counted hget hpatch
  refine ⟨hvia, ?_⟩
  rcases agentHolds_of_descends hrows hc hx hdescends with hid | ⟨u, ⟨-, _, -, hunder⟩, -⟩ |
    ⟨r, token', heq, hminted⟩
  · exact nomatch hid
  · rw [hunder.via] at hvia
    exact nomatch hvia
  · obtain rfl := Credential.accessToken.inj heq
    have hminted' := minted_of_mintedIn hrows hc hminted
    obtain ⟨_, ⟨grant, hgrant, rfl⟩, -, hscope⟩ := hminted'.grant
    exact ⟨r, hminted, hminted'.exp, grant, hgrant, hscope⟩

end Chains

/-- What the readers of tokens make of the access token that the agent's ID token was exchanged
for. -/
def unscopedText : TokenText where
  accessToken := some accessTokenForIdToken
  refreshTokenHash := 0
  idToken := none
  mayAct := .absent

/-- That token presented by a client that may have one for the admin API. -/
def presentUnscoped : ExchangeRequest where
  subjectToken := unscopedText
  subjectTokenType := "urn:ietf:params:oauth:token-type:access_token"
  actorToken := none
  actorTokenType := none
  requestedTokenType := none
  scope := none
  resource := .absent
  audience := .absent
  clientId := 2
  clientName := "console"
  isPublic := false
  tokenExchangeAllowedForPublic := false
  tokenExchangeImpersonationAllowed := true
  tokenExchangeActorFromOtherClient := false
  audiences := [ADMIN_API_AUDIENCE]
  accessTokenTtlSeconds := 300
  refreshTokenTtlSeconds := 3600
  idTokenTtlSeconds := 60
  lifespans := ⟨1800, 36000, 1800, 36000⟩
  clientIsLive := fun _ ↦ true
  grantId := 3
  refreshTokenHash := 12

/-- The token for the admin API: nothing marks it. -/
def launderedToken : AccessToken where
  sub := 1
  clientId := 2
  aud := [ADMIN_API_AUDIENCE, plainDeployment.issuer]
  scope := []
  iat := 0
  exp := 60
  sid := none
  grantId := 3
  requestedUserinfoClaims := none
  act := none
  via := false

/-- The agent's ID token is exchanged, and what it is exchanged for is exchanged again. -/
def laundering : List (Event (tokenIssuance plainDeployment)) :=
  idTokenExchange ++
    .begin (IssuingCall.exchange presentUnscoped) :: Schedule.runs _ 2 4 ++ [.finish 2]

theorem laundering_run : ∃ c : Config (tokenIssuance plainDeployment),
    Reaches .free (.start agentCodeRows) c ∧
    madeIn c.history = [(.grant 1, .accessToken agentAccessToken),
      (.grant 1, .refreshToken 10), (.grant 1, .idToken agentIdToken)] ∧
    exchangedIn c.history = [(.accessToken accessTokenForIdToken, .grant 3),
      (.accessToken accessTokenForIdToken, .accessToken launderedToken),
      (.idToken agentIdToken, .grant 2),
      (.idToken agentIdToken, .accessToken accessTokenForIdToken)] := by
  have hplay : (Schedule.performAll .free oracle (Schedule.start agentCodeRows)
      laundering).map (fun m ↦ (madeIn m.config.history, exchangedIn m.config.history)) =
        some ([(.grant 1, .accessToken agentAccessToken), (.grant 1, .refreshToken 10),
            (.grant 1, .idToken agentIdToken)],
          [(.accessToken accessTokenForIdToken, .grant 3),
            (.accessToken accessTokenForIdToken, .accessToken launderedToken),
            (.idToken agentIdToken, .grant 2),
            (.idToken agentIdToken, .accessToken accessTokenForIdToken)]) := by decide
  obtain ⟨m, hm, hhistory⟩ := Option.map_eq_some_iff.mp hplay
  simp only [Prod.mk.injEq] at hhistory
  exact ⟨m.config, Schedule.reaches hm, hhistory⟩

/-- A tenant whose clients, subjects and grants all stand. -/
def standingTenant : AuthenticateAdminDeps where
  findTenant := fun _ ↦ some ⟨1, true, ⟨1800, 36000, 1800, 36000⟩⟩
  loadGrant := fun _ _ ↦ some {
    clientId := 2
    subjectId := 1
    scope := []
    audience := [ADMIN_API_AUDIENCE]
    revokedAt := none
    sessionId := none
    actorSubjectId := none
    exchangedFromGrantId := none
    actChain := none
    expCeiling := none
    requestedUserinfoClaims := none }
  isSessionLive := fun _ _ _ _ ↦ true
  loadClientState := fun _ _ ↦ some ⟨true, false, false, none⟩
  isSubjectEnabled := fun _ _ ↦ true
  acceptedIssuers := fun _ issuer _ ↦ [issuer]

/-- A door behind which a person may do anything. -/
def openDoor : AdminRouterDeps where
  auth := standingTenant
  authorizeAdmin := fun _ _ _ ↦ true
  isSystemTenantId := fun _ ↦ false
  tenantIssuerFor := fun name ↦ name
  now := 1
  scopeIsBuiltin := fun _ _ ↦ false
  recordAgentToolCall := fun _ _ ↦ true

/-- A request with this token. -/
def requestWith (token : AccessToken) : AdminRequest where
  bearer := some ⟨some "acme", fun _ ↦ some token⟩
  tenant := some "acme"
  id := some 1
  body := .absent

theorem presenting_requestWith (token : AccessToken) :
    Presenting (requestWith token).bearer token := by
  rintro _ ⟨rfl⟩ _ _ ⟨rfl⟩
  rfl

theorem agentHolds_agentGrant {c : Config (tokenIssuance plainDeployment)}
    (hc : Reaches .free (.start agentCodeRows) c)
    (hmade : (Credential.grant 1, Credential.accessToken agentAccessToken) ∈ madeIn c.history) :
    AgentHolds c (.grant 1) := by
  obtain ⟨u, _, hgrant, ⟨rfl, -⟩, hmore, -⟩ := holds_of_made agentCodeRows_lawful hc hmade
  exact Or.inl ⟨u, hgrant, Or.inr (holdsMcpScope_mono hmore.scope (by decide))⟩

/-- The grant of an agent comes to a token that the door takes for a person's own, and deletes a
client with. -/
theorem unmarked_at_admin_api : ∃ c : Config (tokenIssuance plainDeployment),
    Reaches .free (.start agentCodeRows) c ∧ AgentHolds c (.grant 1) ∧
    Descends c.history (.grant 1) (.accessToken launderedToken) ∧
    (handleRoute openDoor ⟨.delete, "/admin/tenants/:tenant/clients/:id"⟩
      (requestWith launderedToken)).map (fun granted ↦ granted.principal.agent) = some none := by
  obtain ⟨c, hc, hmade, hexchanged⟩ := laundering_run
  have hid : Link c.history (.grant 1) (.idToken agentIdToken) := Or.inl (by simp [hmade])
  have hunscoped : Link c.history (.idToken agentIdToken) (.accessToken accessTokenForIdToken) :=
    Or.inr (by simp [hexchanged])
  have hlaundered : Link c.history (.accessToken accessTokenForIdToken)
      (.accessToken launderedToken) := Or.inr (by simp [hexchanged])
  exact ⟨c, hc, agentHolds_agentGrant hc (by simp [hmade]),
    ((Relation.ReflTransGen.single hid).tail hunscoped).tail hlaundered, by decide⟩

/-- What the readers of tokens make of the agent's own access token. -/
def agentText : TokenText := { unscopedText with accessToken := some agentAccessToken }

/-- That token presented for one for the admin API, with the scope that marks it. -/
def presentMarked : ExchangeRequest :=
  { presentUnscoped with subjectToken := agentText, scope := some [MCP_READ_SCOPE] }

/-- The token for the admin API: the exchange names the client that asked as its actor. -/
def markedToken : AccessToken :=
  { launderedToken with
    scope := [MCP_READ_SCOPE]
    exp := 300
    requestedUserinfoClaims := some ["email"]
    act := some (.mk "console" none) }

/-- The agent's code is redeemed, and its access token exchanged. -/
def marking : List (Event (tokenIssuance plainDeployment)) :=
  .begin (IssuingCall.redeem presentAgentCode) :: Schedule.runs _ 0 7 ++ .finish 0 ::
  .begin (IssuingCall.exchange presentMarked) :: Schedule.runs _ 1 4 ++ [.finish 1]

theorem marking_run : ∃ c : Config (tokenIssuance plainDeployment),
    Reaches .free (.start agentCodeRows) c ∧
    (Credential.grant 1, Credential.accessToken agentAccessToken) ∈ madeIn c.history ∧
    (Credential.accessToken agentAccessToken, Credential.accessToken markedToken) ∈
      exchangedIn c.history := by
  have hplay : (Schedule.performAll .free oracle (Schedule.start agentCodeRows) marking).map
      (fun m ↦ (madeIn m.config.history, exchangedIn m.config.history)) =
        some ([(.grant 1, .accessToken agentAccessToken), (.grant 1, .refreshToken 10),
            (.grant 1, .idToken agentIdToken)],
          [(.accessToken agentAccessToken, .grant 3),
            (.accessToken agentAccessToken, .accessToken markedToken)]) := by decide
  obtain ⟨m, hm, hhistory⟩ := Option.map_eq_some_iff.mp hplay
  obtain ⟨hmade, hexchanged⟩ := Prod.mk.inj hhistory
  exact ⟨m.config, Schedule.reaches hm, by simp [hmade], by simp [hexchanged]⟩

/-- An exchange of anything but an ID token drops no mark. -/
theorem markedLink_of_exchanged {env : Deployment} {c : Config (tokenIssuance env)}
    {x y : Credential} (hexchanged : (x, y) ∈ exchangedIn c.history)
    (hx : x.isIdToken = false) : MarkedLink c x y := by
  obtain ⟨a, ha, outcome, hresult, hmem⟩ := mem_outcomesOf.mp hexchanged
  refine ⟨a, ha, outcome, hresult, Or.inr hmem, fun hdrops ↦ ?_⟩
  cases hcall : a.call with
  | exchange r =>
    rw [hcall] at hdrops
    exact absurd hdrops.1 (by simp [hx])
  | _ => simp [hcall, IssuingCall.exchanged] at hmem

/-- A read with the token that the agent's own was exchanged for. -/
theorem agent_door_confined_marked : ∃ c : Config (tokenIssuance plainDeployment),
    AgentHolds c (.accessToken agentAccessToken) ∧
    DescendsMarked c (.accessToken agentAccessToken) (.accessToken markedToken) ∧
    ∃ granted, handleRoute openDoor ⟨.get, "/admin/tenants/:tenant/clients"⟩
      (requestWith markedToken) = some granted ∧ granted.principal.agent.isSome = true := by
  obtain ⟨c, hc, hmade, hexchanged⟩ := marking_run
  obtain ⟨-, v, -, hv, -⟩ := holds_of_made agentCodeRows_lawful hc hmade
  obtain ⟨rfl, -⟩ := id hv
  have hholds : AgentHolds c (.accessToken agentAccessToken) := Or.inl ⟨_, hv, Or.inr (by decide)⟩
  have hchain : DescendsMarked c (.accessToken agentAccessToken) (.accessToken markedToken) :=
    .single (markedLink_of_exchanged hexchanged rfl)
  obtain ⟨granted, hgranted⟩ := Option.isSome_iff_exists.mp
    (show (handleRoute openDoor ⟨.get, "/admin/tenants/:tenant/clients"⟩
      (requestWith markedToken)).isSome = true by decide)
  have hconfined := agent_door_confined agentCodeRows_lawful hc hholds hchain
  exact ⟨c, hholds, hchain, granted, hgranted,
    (hconfined.2.1 _ _ _ granted (presenting_requestWith markedToken) hgranted).1⟩

end Odudu.ProtocolAdmin
