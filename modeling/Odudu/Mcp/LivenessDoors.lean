import Odudu.Mcp.ValidateMcpToken
import Odudu.ProtocolAdmin.AgentDoor

/-!
# Four doors, one judgement

An access token is shown at introspection, at userinfo, at the admin API and at the MCP
endpoint.  The first two judge its session by the `sid` it carries and its client by its
`client_id`; the last two ask the grant whether there is a session, and for the client.  A token
says what its grant says (`backed_of_reaches`), so the four come to one judgement: what the token
stands on is there, or it is dead at all of them (`liveness_doors_agree`).

`Served` is a deployment as its doors read it: the rows of each tenant, and what the reads of
`adminAuthDeps` and of introspection make of them.  Nothing is asked of the rows but that the
grant behind the token, where it is still there, is the one it was issued under, revoked or not
(a session is deleted only once no grant refers to it, so no grant loses the one it has).
-/

set_option autoImplicit false

namespace Odudu.Mcp

open ReadCommitted ProtocolOidc ProtocolAdmin

/-- The rows of a tenant that the doors read. -/
structure TenantRows where
  enabled : Bool
  lifespans : SessionLifespans
  grant : GrantId → Option TokenGrant
  session : SessionId → Option Session
  client : ClientId → Option ClientState
  subject : SubjectId → Option Subject

/-- A deployment as its doors read it. -/
structure Served where
  tenantId : String → Option TenantId
  rows : TenantId → TenantRows
  acceptedIssuers : TenantId → String → Time → List String

/-- `liveById` finds a session. -/
def TenantRows.isSessionLive (rows : TenantRows) (id : SessionId) (lifespans : SessionLifespans)
    (now : Time) : Bool :=
  match rows.session id with
  | none => false
  | some session => stillLive session lifespans now

def TenantRows.livenessReads (rows : TenantRows) : LivenessReads where
  loadGrant := rows.grant
  isSessionLive := rows.isSessionLive
  findLiveClient := fun id ↦ (rows.client id).map fun client ↦ { enabled := client.enabled }
  isSubjectEnabled := fun id ↦ subjectIsEnabled (rows.subject id)

def Served.findTenant (served : Served) (name : String) : Option TenantLookup :=
  (served.tenantId name).map fun id ↦
    { id, enabled := (served.rows id).enabled, lifespans := (served.rows id).lifespans }

/-- The reads by which a token is judged at the door of the admin API, and at the endpoint's. -/
def adminAuthDeps (served : Served) : AuthenticateAdminDeps where
  findTenant := served.findTenant
  loadGrant := fun tenant ↦ (served.rows tenant).grant
  isSessionLive := fun tenant ↦ (served.rows tenant).isSessionLive
  loadClientState := fun tenant ↦ (served.rows tenant).client
  isSubjectEnabled := fun tenant id ↦ subjectIsEnabled ((served.rows tenant).subject id)
  acceptedIssuers := served.acceptedIssuers

/-- Something that a token stands on is gone: its grant is revoked or gone, the session it was
issued under is no longer live, or its client or its subject is disabled or gone. -/
def TenantRows.Dead (rows : TenantRows) (token : AccessToken) (now : Time) : Prop :=
  (∀ grant, rows.grant token.grantId = some grant → grant.revokedAt.isSome = true) ∨
  (∃ sid, token.sid = some sid ∧ ∀ session, rows.session sid = some session →
    stillLive session rows.lifespans now = false) ∨
  (∀ client, rows.client token.clientId = some client → client.enabled = false) ∨
  subjectIsEnabled (rows.subject token.sub) = false

/-- All that a token stands on is there. -/
structure TenantRows.Stands (rows : TenantRows) (token : AccessToken) (now : Time) : Prop where
  grant : ∃ grant, rows.grant token.grantId = some grant ∧ grant.revokedAt.isSome = false
  session : sessionHolds rows.livenessReads token.sid rows.lifespans now = true
  client : ∃ client, rows.client token.clientId = some client ∧ client.enabled = true
  subject : subjectIsEnabled (rows.subject token.sub) = true

section Judgement

variable {rows : TenantRows} {token : AccessToken} {now : Time}

theorem sessionHolds_eq_false {sid : Option SessionId} :
    sessionHolds rows.livenessReads sid rows.lifespans now = false ↔
      ∃ id, sid = some id ∧ ∀ session, rows.session id = some session →
        stillLive session rows.lifespans now = false := by
  cases sid with
  | none => simp [sessionHolds]
  | some id =>
    cases hsession : rows.session id with
    | none => simp [sessionHolds, TenantRows.livenessReads, TenantRows.isSessionLive, hsession]
    | some =>
      simp [sessionHolds, TenantRows.livenessReads, TenantRows.isSessionLive, hsession]

/-- A token stands, or is dead. -/
theorem not_dead_iff : ¬rows.Dead token now ↔ rows.Stands token now := by
  constructor
  · intro halive
    simp only [TenantRows.Dead, not_or] at halive
    obtain ⟨hgrant, hsession, hclient, hsubject⟩ := halive
    refine ⟨?_, ?_, ?_, by simpa using hsubject⟩
    · simpa using hgrant
    · rw [← sessionHolds_eq_false] at hsession
      simpa using hsession
    · simpa using hclient
  · intro hstands hdead
    rcases hdead with hgrant | hsession | hclient | hsubject
    · obtain ⟨grant, hrow, hrevoked⟩ := hstands.grant
      simp [hgrant grant hrow] at hrevoked
    · have hlost := sessionHolds_eq_false.mpr hsession
      simp [hstands.session] at hlost
    · obtain ⟨client, hrow, henabled⟩ := hstands.client
      simp [hclient client hrow] at henabled
    · simp [hstands.subject] at hsubject

end Judgement

section OwnReads

variable {rows : TenantRows} {token : AccessToken} {now : Time} {shown : SignedToken}
  {issuers : List String}

theorem verified_of_verifyJwt {audience : Option (List String)} {payload : AccessToken}
    (h : verifyJwt shown issuers audience = some payload) : shown.verified = some payload := by
  unfold verifyJwt at h
  split at h
  case h_1 => exact nomatch h
  case h_2 =>
    split_ifs at h
    exact (Option.filter_eq_some_iff.mp h).1

theorem clientIsLive_iff (rows : TenantRows) (id : ClientId) :
    clientIsLive (rows.livenessReads.findLiveClient id) = true ↔
      ∃ client, rows.client id = some client ∧ client.enabled = true := by
  cases hclient : rows.client id with
  | none | some => simp [TenantRows.livenessReads, hclient, clientIsLive]

/-- What a token stands on, as the two endpoints read it. -/
theorem stands_iff : rows.Stands token now ↔
    ∃ grant, rows.livenessReads.loadGrant token.grantId = some grant ∧
      grant.revokedAt.isSome = false ∧
      clientIsLive (rows.livenessReads.findLiveClient token.clientId) = true ∧
      rows.livenessReads.isSubjectEnabled token.sub = true ∧
      sessionHolds rows.livenessReads token.sid rows.lifespans now = true := by
  rw [clientIsLive_iff]
  constructor
  · rintro ⟨⟨grant, hrow, hrevoked⟩, hsession, hclient, hsubject⟩
    exact ⟨grant, hrow, hrevoked, hclient, hsubject, hsession⟩
  · rintro ⟨grant, hrow, hrevoked, hclient, hsubject, hsession⟩
    exact ⟨⟨grant, hrow, hrevoked⟩, hsession, hclient, hsubject⟩

/-- Introspection describes a token to a caller whom it addresses, while it stands. -/
theorem introspect_isSome_iff (hshown : ∀ payload, shown.verified = some payload → payload = token)
    {caller : IntrospectionCaller} :
    (introspect rows.livenessReads issuers rows.lifespans shown caller now).isSome = true ↔
      (verifyJwt shown issuers none = some token ∧ callerIsAddressed caller token.aud = true) ∧
        rows.Stands token now := by
  unfold introspect
  cases hverify : verifyJwt shown issuers none with
  | none => simp
  | some payload =>
    obtain rfl := hshown payload (verified_of_verifyJwt hverify)
    rw [stands_iff]
    cases hrow : rows.livenessReads.loadGrant payload.grantId with
    | none => simp [hrow]
    | some =>
      simp only [hrow]
      split_ifs <;> simp_all [Option.isSome_iff_ne_none]

/-- Userinfo answers a token for its issuer that has the scope `openid`, while it stands. -/
theorem resolveUserinfo_answers_iff
    (hshown : ∀ payload, shown.verified = some payload → payload = token)
    {answer : AccessToken → UserinfoAnswer} {header : Option SignedToken} {form : FormToken}
    (hpresented : presentedBearerToken header form = .present shown) :
    (∃ a, resolveUserinfo rows.livenessReads (some ⟨rows.enabled, rows.lifespans⟩) issuers answer
        header form now = .answered a) ↔
      (rows.enabled = true ∧ verifyJwt shown issuers (some issuers) = some token ∧
        "openid" ∈ token.scope) ∧ rows.Stands token now := by
  simp only [resolveUserinfo, hpresented]
  cases hverify : verifyJwt shown issuers (some issuers) with
  | none => cases rows.enabled <;> simp
  | some payload =>
    obtain rfl := hshown payload (verified_of_verifyJwt hverify)
    rw [stands_iff]
    cases hrow : rows.livenessReads.loadGrant payload.grantId with
    | none =>
      simp only [hrow]
      split_ifs <;> simp
    | some =>
      simp only [hrow]
      split_ifs <;> simp_all [Option.isSome_iff_ne_none]

end OwnReads

section GrantReads

variable {served : Served} {matched : MatchedTenant} {token : AccessToken} {now : Time}
  {grant : TokenGrant}

/-- By the grant's session, which is the token's. -/
theorem sessionStanding_eq_none (hsid : token.sid = grant.sessionId)
    (hlifespans : matched.lifespans = (served.rows matched.id).lifespans) :
    sessionStanding (adminAuthDeps served) matched token grant now = none ↔
      sessionHolds (served.rows matched.id).livenessReads token.sid
        (served.rows matched.id).lifespans now = true := by
  rw [sessionStanding, ← hsid, hlifespans]
  cases token.sid with
  | none => simp [sessionHolds]
  | some =>
    simp only [Option.isNone_some, Bool.false_eq_true, if_false, sessionHolds]
    split
    case isTrue hlive => exact ⟨fun _ ↦ hlive, fun _ ↦ rfl⟩
    case isFalse hdead => exact ⟨fun h ↦ (nomatch h), fun hlive ↦ absurd hlive hdead⟩

/-- The judgement of the admin API and of the MCP endpoint. -/
theorem checkGrantLiveness_eq_live
    (hbacked : ∀ grant, (served.rows matched.id).grant token.grantId = some grant →
      token.Backed grant)
    (hlifespans : matched.lifespans = (served.rows matched.id).lifespans)
    {client : ClientState} :
    checkGrantLiveness (adminAuthDeps served) matched token now = .live grant client ↔
      (served.rows matched.id).grant token.grantId = some grant ∧
        (served.rows matched.id).client token.clientId = some client ∧
        (served.rows matched.id).Stands token now := by
  constructor
  · intro h
    unfold checkGrantLiveness at h
    split at h
    case h_1 => exact nomatch h
    case h_2 grant' hgrant =>
      obtain ⟨-, hclientId, hsid⟩ := hbacked grant' hgrant
      split at h
      case isTrue => exact nomatch h
      case isFalse hrevoked =>
        split at h
        case h_1 => exact nomatch h
        case h_2 hsession =>
          split at h
          case h_1 => exact nomatch h
          case h_2 client' hclient =>
            split_ifs at h with hdisabled hsubject
            obtain ⟨rfl, rfl⟩ := GrantLiveness.live.inj h
            rw [← hclientId] at hclient
            refine ⟨hgrant, hclient, ⟨grant', hgrant, by simpa using hrevoked⟩, ?_,
              ⟨client', hclient, by simpa using hdisabled⟩,
              by simpa [adminAuthDeps] using hsubject⟩
            exact (sessionStanding_eq_none hsid hlifespans).mp hsession
  · rintro ⟨hgrant, hclient, hstands⟩
    obtain ⟨-, hclientId, hsid⟩ := hbacked grant hgrant
    obtain ⟨_, hgrant', hrevoked⟩ := hstands.grant
    obtain rfl := Option.some.inj (hgrant.symm.trans hgrant')
    obtain ⟨_, hclient', henabled⟩ := hstands.client
    obtain rfl := Option.some.inj (hclient.symm.trans hclient')
    have hsession := (sessionStanding_eq_none hsid hlifespans).mpr hstands.session
    have hload : (adminAuthDeps served).loadGrant matched.id token.grantId = some grant := hgrant
    have hstate : (adminAuthDeps served).loadClientState matched.id grant.clientId = some client := by
      rw [← hclientId]
      exact hclient
    have hsubject : (adminAuthDeps served).isSubjectEnabled matched.id token.sub = true :=
      hstands.subject
    simp [checkGrantLiveness, hload, hrevoked, hsession, hstate, henabled, hsubject]

end GrantReads

section Doors

variable {served : Served} {bearer : BearerToken} {tenant : TenantId} {token : AccessToken}

/-- A tenant signed the token: it verifies with no other tenant's keys. -/
def SignedBy (bearer : BearerToken) (tenant : TenantId) (token : AccessToken) : Prop :=
  ∀ id payload, bearer.verified id = some payload → id = tenant ∧ payload = token

/-- The grant behind a token is gone, or is the one it was issued under, revoked or not. -/
def TenantRows.IssuedFrom (rows : TenantRows) (issued : Rows) (token : AccessToken) : Prop :=
  ∀ grant, rows.grant token.grantId = some grant →
    ∃ row, issued.grant token.grantId = some row ∧ row.SameBut grant

theorem backed_of_issuedFrom {rows : TenantRows} {issued : Rows} (h : rows.IssuedFrom issued token)
    (hbacks : issued.Backs token) :
    ∀ grant, rows.grant token.grantId = some grant → token.Backed grant := by
  intro grant hgrant
  obtain ⟨row, hrow, hsame⟩ := h grant hgrant
  obtain ⟨row', hrow', hbacked⟩ := hbacks
  obtain rfl := Option.some.inj (hrow.symm.trans hrow')
  exact hbacked.sameBut hsame

variable {input : AuthenticateAdminInput}

/-- A tenant that an issuer matches is read as it is. -/
theorem lifespans_of_matchIssuer {iss : String}
    {matched : MatchedTenant}
    (htarget : served.findTenant input.targetTenantName = some input.targetTenant)
    (h : matchIssuer (adminAuthDeps served) input iss = some matched) :
    matched.lifespans = (served.rows matched.id).lifespans := by
  have hfound : ∀ name found, served.findTenant name = some found →
      found.lifespans = (served.rows found.id).lifespans := by
    intro name found hname
    obtain ⟨id, -, rfl⟩ := Option.map_eq_some_iff.mp hname
    rfl
  dsimp only [matchIssuer] at h
  split at h
  case h_1 => exact nomatch h
  case h_2 name _ =>
    split at h
    case h_1 => exact nomatch h
    case h_2 found hname =>
      split_ifs at h
      obtain rfl := Option.some.inj h
      split_ifs at hname with htargeted
      · obtain rfl := Option.some.inj hname
        exact hfound _ _ htarget
      · exact hfound _ _ hname

/-- The rules of the admin API's door: the issuer is one of a tenant it accepts, the token is for
it, and an agent's carries an MCP scope. -/
def AdminRules (served : Served) (input : AuthenticateAdminInput) (bearer : BearerToken)
    (token : AccessToken) : Prop :=
  ∃ iss matched claims, bearer.issuer = some iss ∧
    matchIssuer (adminAuthDeps served) input iss = some matched ∧
    bearer.verified matched.id = some token ∧ ADMIN_API_AUDIENCE ∈ token.aud ∧
    readAgentClaims token = some claims ∧
    ∀ grant client, (served.rows matched.id).grant token.grantId = some grant →
      (served.rows matched.id).client token.clientId = some client →
      ∃ principal, principalOf matched token claims grant client = .authenticated principal

/-- The admin API lets a token in by its rules, while it stands. -/
theorem authenticateAdmin_iff (hsigned : SignedBy bearer tenant token)
    (hbacked : ∀ grant, (served.rows tenant).grant token.grantId = some grant → token.Backed grant)
    (hbearer : input.bearer = some bearer)
    (htarget : served.findTenant input.targetTenantName = some input.targetTenant) :
    (∃ principal, authenticateAdmin (adminAuthDeps served) input = .authenticated principal) ↔
      AdminRules served input bearer token ∧ (served.rows tenant).Stands token input.now := by
  constructor
  · rintro ⟨principal, h⟩
    simp only [authenticateAdmin, hbearer] at h
    split at h
    case h_1 => exact nomatch h
    case h_2 iss hiss =>
      split at h
      case h_1 => exact nomatch h
      case h_2 matched hmatched =>
        split at h
        case h_1 => exact nomatch h
        case h_2 payload hpayload =>
          obtain ⟨hverified, haudience⟩ := Option.filter_eq_some_iff.mp hpayload
          obtain ⟨rfl, rfl⟩ := hsigned _ _ hverified
          split at h
          case h_1 => exact nomatch h
          case h_2 claims hclaims =>
            split at h
            case h_1 => exact nomatch h
            case h_2 grant client hlive =>
              obtain ⟨hgrant, hclient, hstands⟩ := (checkGrantLiveness_eq_live hbacked
                (lifespans_of_matchIssuer htarget hmatched)).mp hlive
              refine ⟨⟨iss, matched, claims, hiss, hmatched, hverified, by simpa using haudience,
                hclaims, fun grant' client' hgrant' hclient' ↦ ⟨principal, ?_⟩⟩, hstands⟩
              obtain rfl := Option.some.inj (hgrant.symm.trans hgrant')
              obtain rfl := Option.some.inj (hclient.symm.trans hclient')
              exact h
  · rintro ⟨⟨iss, matched, claims, hiss, hmatched, hverified, haudience, hclaims, hrules⟩, hstands⟩
    obtain ⟨rfl, -⟩ := hsigned _ _ hverified
    obtain ⟨grant, hgrant, -⟩ := hstands.grant
    obtain ⟨client, hclient, -⟩ := hstands.client
    obtain ⟨principal, hprincipal⟩ := hrules grant client hgrant hclient
    have hlive := (checkGrantLiveness_eq_live hbacked
      (lifespans_of_matchIssuer htarget hmatched)).mpr ⟨hgrant, hclient, hstands⟩
    refine ⟨principal, ?_⟩
    simp only [authenticateAdmin, hbearer, hiss, hmatched, hverified, Option.filter_some,
      List.contains_iff_mem.mpr haudience, if_true, hclaims, hlive]
    exact hprincipal

/-- The rules of the MCP endpoint's door: the tenant is served, the issuer is one that it accepts,
the token is for the endpoint and not for the admin API, and it carries an MCP scope. -/
def McpRules (served : Served) (request : McpRequest) (bearer : BearerToken)
    (token : AccessToken) : Prop :=
  ∃ found iss, served.findTenant request.tenantName = some found ∧ found.enabled = true ∧
    bearer.issuer = some iss ∧
    iss ∈ served.acceptedIssuers found.id request.issuer request.now ∧
    verifyJwt (signedFor bearer found.id)
      (served.acceptedIssuers found.id request.issuer request.now) (some [request.resource]) =
      some token ∧
    request.adminAudience ∉ token.aud ∧
    ∃ scope ∈ token.scope, isMcpScope scope = true

theorem admitMcpToken_valid {input : ValidateMcpTokenInput} {iss : String}
    (hbacked : ∀ grant, (served.rows input.tenant.id).grant token.grantId = some grant →
      token.Backed grant)
    (hlifespans : input.tenant.lifespans = (served.rows input.tenant.id).lifespans) :
    (∃ valid clientDbId, admitMcpToken (adminAuthDeps served) input iss token =
        .valid valid clientDbId) ↔
      (input.adminAudience ∉ token.aud ∧ ∃ scope ∈ token.scope, isMcpScope scope = true) ∧
        (served.rows input.tenant.id).Stands token input.now := by
  have hscopes : (token.scope.any fun scope ↦ scope == MCP_READ_SCOPE || scope == MCP_WRITE_SCOPE) =
      true ↔ ∃ scope ∈ token.scope, isMcpScope scope = true := by
    simp
  constructor
  · rintro ⟨valid, clientDbId, h⟩
    unfold admitMcpToken at h
    split at h
    case isTrue => exact nomatch h
    case isFalse haudience =>
      split at h
      case h_1 => exact nomatch h
      case h_2 grant client hlive =>
        split_ifs at h with hmismatch hscope
        obtain ⟨-, -, hstands⟩ := (checkGrantLiveness_eq_live hbacked hlifespans).mp hlive
        rw [Bool.not_eq_true', Bool.not_eq_false] at hscope
        exact ⟨⟨by simpa using haudience, hscopes.mp hscope⟩, hstands⟩
  · rintro ⟨⟨haudience, hscope⟩, hstands⟩
    obtain ⟨grant, hgrant, -⟩ := hstands.grant
    obtain ⟨client, hclient, -⟩ := hstands.client
    have hlive := (checkGrantLiveness_eq_live hbacked hlifespans).mpr ⟨hgrant, hclient, hstands⟩
    have hsub := (hbacked grant hgrant).sub
    have haudience : token.aud.contains input.adminAudience = false := by simpa using haudience
    rw [admitMcpToken, haudience, hlive]
    simp only [hsub, hscopes.mpr hscope, Bool.false_eq_true, if_false, ne_eq, not_true_eq_false,
      Bool.not_true]
    exact ⟨_, _, rfl⟩

/-- The MCP endpoint lets a token in by its rules, while it stands. -/
theorem admitMcpRequest_iff {request : McpRequest} (hsigned : SignedBy bearer tenant token)
    (hbacked : ∀ grant, (served.rows tenant).grant token.grantId = some grant → token.Backed grant)
    (hbearer : request.bearer = some bearer) :
    (∃ valid clientDbId, admitMcpRequest (adminAuthDeps served) request =
        some (.valid valid clientDbId)) ↔
      McpRules served request bearer token ∧ (served.rows tenant).Stands token request.now := by
  constructor
  · rintro ⟨valid, clientDbId, h⟩
    unfold admitMcpRequest at h
    split at h
    case h_1 => exact nomatch h
    case h_2 found hfound =>
      have hfound : served.findTenant request.tenantName = some found := hfound
      split_ifs at h with hdisabled
      have h := Option.some.inj h
      simp only [validateMcpToken, hbearer] at h
      split at h
      case h_1 => exact nomatch h
      case h_2 iss hiss =>
        split at h
        case isTrue => exact nomatch h
        case isFalse haccepted =>
          split at h
          case h_1 => exact nomatch h
          case h_2 payload hverify =>
            obtain ⟨rfl, rfl⟩ := hsigned found.id payload (verified_of_verifyJwt hverify)
            obtain ⟨id, -, rfl⟩ := Option.map_eq_some_iff.mp hfound
            obtain ⟨⟨haudience, hscope⟩, hstands⟩ :=
              (admitMcpToken_valid hbacked rfl).mp ⟨valid, clientDbId, h⟩
            exact ⟨⟨_, iss, hfound, by simpa using hdisabled, hiss,
              by simpa [adminAuthDeps] using haccepted,
              hverify, haudience, hscope⟩, hstands⟩
  · rintro ⟨⟨found, iss, hfound, henabled, hiss, haccepted, hverify, haudience, hscope⟩, hstands⟩
    obtain ⟨rfl, -⟩ := hsigned found.id token (verified_of_verifyJwt hverify)
    obtain ⟨id, -, rfl⟩ := Option.map_eq_some_iff.mp hfound
    let input : ValidateMcpTokenInput := {
      bearer := some bearer
      tenant := { id, name := request.tenantName, lifespans := (served.rows id).lifespans }
      issuer := request.issuer
      resource := request.resource
      adminAudience := request.adminAudience
      now := request.now }
    obtain ⟨valid, clientDbId, hvalid⟩ :=
      (@admitMcpToken_valid served token input iss hbacked rfl).mpr ⟨⟨haudience, hscope⟩, hstands⟩
    refine ⟨valid, clientDbId, ?_⟩
    have hfind : (adminAuthDeps served).findTenant request.tenantName = some _ := hfound
    have hcontains : ((adminAuthDeps served).acceptedIssuers id request.issuer
        request.now).contains iss = true := List.contains_iff_mem.mpr haccepted
    have hverify : verifyJwt (signedFor bearer id) ((adminAuthDeps served).acceptedIssuers id
        request.issuer request.now) (some [request.resource]) = some token := hverify
    have henabled : (served.rows id).enabled = true := henabled
    simp only [admitMcpRequest, hfind, validateMcpToken, hbearer, hiss, hcontains, hverify, henabled,
      Bool.not_true, Bool.false_eq_true, if_false]
    exact congrArg some hvalid

end Doors

/-- Whatever the rows of the deployment are when a token is shown, and at whichever instant, each
of the four doors lets in the tokens that its own rules admit and that are not dead: a token that
is dead is refused at all of them, and none of them refuses for anything else that it reads of
the rows. -/
theorem liveness_doors_agree {env : Deployment} {start : Rows} {c : Config (tokenIssuance env)}
    (hstart : refreshLaw.Lawful start) (hc : Reaches .free (.start start) c) {token : AccessToken}
    (htoken : token ∈ signedIn c.history) {served : Served} {tenant : TenantId}
    {bearer : BearerToken} (hsigned : SignedBy bearer tenant token)
    (hissued : (served.rows tenant).IssuedFrom c.rows token) :
    (∀ id issuers caller now,
      (introspect (served.rows id).livenessReads issuers (served.rows id).lifespans
          (signedFor bearer id) caller now).isSome = true ↔
        (verifyJwt (signedFor bearer id) issuers none = some token ∧
          callerIsAddressed caller token.aud = true) ∧ ¬(served.rows tenant).Dead token now) ∧
    (∀ id issuers answer header form now,
      presentedBearerToken header form = .present (signedFor bearer id) →
      ((∃ a, resolveUserinfo (served.rows id).livenessReads
          (some ⟨(served.rows id).enabled, (served.rows id).lifespans⟩) issuers answer header form
          now = .answered a) ↔
        ((served.rows id).enabled = true ∧
          verifyJwt (signedFor bearer id) issuers (some issuers) = some token ∧
          "openid" ∈ token.scope) ∧ ¬(served.rows tenant).Dead token now)) ∧
    (∀ input : AuthenticateAdminInput, input.bearer = some bearer →
      served.findTenant input.targetTenantName = some input.targetTenant →
      ((∃ principal, authenticateAdmin (adminAuthDeps served) input = .authenticated principal) ↔
        AdminRules served input bearer token ∧
          ¬(served.rows tenant).Dead token input.now)) ∧
    (∀ request : McpRequest, request.bearer = some bearer →
      ((∃ valid clientDbId, admitMcpRequest (adminAuthDeps served) request =
          some (.valid valid clientDbId)) ↔
        McpRules served request bearer token ∧ ¬(served.rows tenant).Dead token request.now)) := by
  have hbacked := backed_of_issuedFrom hissued (backed_of_reaches hstart hc htoken)
  have hshown : ∀ id payload, (signedFor bearer id).verified = some payload →
      id = tenant ∧ payload = token := fun id payload h ↦ hsigned id payload h
  refine ⟨fun id issuers caller now ↦ ?_, fun id issuers answer header form now hpresented ↦ ?_,
    fun input hbearer htarget ↦ ?_, fun request hbearer ↦ ?_⟩
  · rw [introspect_isSome_iff fun payload h ↦ (hshown id payload h).2, not_dead_iff]
    refine and_congr_right fun hrules ↦ ?_
    obtain ⟨rfl, -⟩ := hshown id token (verified_of_verifyJwt hrules.1)
    exact Iff.rfl
  · rw [resolveUserinfo_answers_iff (fun payload h ↦ (hshown id payload h).2) hpresented,
      not_dead_iff]
    refine and_congr_right fun hrules ↦ ?_
    obtain ⟨rfl, -⟩ := hshown id token (verified_of_verifyJwt hrules.2.1)
    exact Iff.rfl
  · rw [not_dead_iff]
    exact authenticateAdmin_iff hsigned hbacked hbearer htarget
  · rw [not_dead_iff]
    exact admitMcpRequest_iff hsigned hbacked hbearer

/-- The agent's token, with the tenant that signed it. -/
def agentBearer : BearerToken where
  issuer := some plainDeployment.issuer
  verified := fun id ↦ if id = 1 then some agentAccessToken else none

/-- A tenant in which no grant is revoked, and every client and subject is enabled. -/
def agentServed (issued : Rows) : Served where
  tenantId := fun _ ↦ some 1
  rows := fun _ ↦ {
    enabled := true
    lifespans := ⟨1800, 36000, 1800, 36000⟩
    grant := fun id ↦ (issued.grant id).map fun grant ↦ { grant with revokedAt := none }
    session := fun _ ↦ none
    client := fun _ ↦ some ⟨true, false, false, none⟩
    subject := fun _ ↦ some ⟨none⟩ }
  acceptedIssuers := fun _ _ _ ↦ [plainDeployment.issuer]

/-- A call to the MCP endpoint with it. -/
def agentMcpRequest : McpRequest where
  bearer := some agentBearer
  tenantName := "agents"
  issuer := plainDeployment.issuer
  resource := plainDeployment.mcpAudience
  adminAudience := ADMIN_API_AUDIENCE
  now := 10

/-- A call to the admin API with it. -/
def agentAdminInput : AuthenticateAdminInput where
  bearer := some agentBearer
  targetTenantName := "agents"
  targetTenant := ⟨1, true, ⟨1800, 36000, 1800, 36000⟩⟩
  targetTenantIssuer := plainDeployment.issuer
  systemTenantIssuer := plainDeployment.issuer
  now := 10

/-- The agent's token is live at introspection, answered at userinfo and let in at the MCP
endpoint, and is not for the admin API. -/
theorem liveness_doors_agree_agent : ∃ c : Config (tokenIssuance plainDeployment),
    agentAccessToken ∈ signedIn c.history ∧
    (introspect ((agentServed c.rows).rows 1).livenessReads [plainDeployment.issuer]
      ((agentServed c.rows).rows 1).lifespans (signedFor agentBearer 1)
      ⟨plainDeployment.mcpAudience, []⟩ 10).isSome = true ∧
    (∃ a, resolveUserinfo ((agentServed c.rows).rows 1).livenessReads
      (some ⟨true, ((agentServed c.rows).rows 1).lifespans⟩) [plainDeployment.issuer]
      (fun _ ↦ .ok) (some (signedFor agentBearer 1)) .absent 10 = .answered a) ∧
    (¬∃ principal, authenticateAdmin (adminAuthDeps (agentServed c.rows)) agentAdminInput =
      .authenticated principal) ∧
    ∃ valid clientDbId, admitMcpRequest (adminAuthDeps (agentServed c.rows)) agentMcpRequest =
      some (.valid valid clientDbId) := by
  obtain ⟨c, hc, hsigned, -⟩ := idTokenExchange_run
  have hmem : agentAccessToken ∈ signedIn c.history := by simp [hsigned]
  obtain ⟨grant, hgrant, -⟩ := backed_of_reaches agentCodeRows_lawful hc hmem
  have hissued : ((agentServed c.rows).rows 1).IssuedFrom c.rows agentAccessToken := by
    intro grant' hgrant'
    obtain ⟨row, hrow, rfl⟩ := Option.map_eq_some_iff.mp hgrant'
    exact ⟨row, hrow, rfl⟩
  have hown : SignedBy agentBearer 1 agentAccessToken := by
    intro id payload h
    simp only [agentBearer] at h
    split_ifs at h with hid
    exact ⟨hid, (Option.some.inj h).symm⟩
  have halive : ¬((agentServed c.rows).rows 1).Dead agentAccessToken 10 := by
    have hrow : ((agentServed c.rows).rows 1).grant agentAccessToken.grantId =
        some { grant with revokedAt := none } := by simp [agentServed, hgrant]
    exact not_dead_iff.mpr ⟨⟨_, hrow, rfl⟩, rfl, ⟨_, rfl, rfl⟩, rfl⟩
  have hverify : ∀ audience, audience ∈ agentAccessToken.aud →
      verifyJwt (signedFor agentBearer 1) [plainDeployment.issuer] (some [audience]) =
        some agentAccessToken := by decide
  obtain ⟨hintrospect, huserinfo, hadmin, hmcp⟩ :=
    liveness_doors_agree agentCodeRows_lawful hc hmem hown hissued
  refine ⟨c, hmem, (hintrospect 1 _ _ 10).mpr ⟨by decide, halive⟩,
    (huserinfo 1 _ (fun _ ↦ .ok) _ .absent 10 rfl).mpr ⟨⟨rfl, hverify _ (by decide), by decide⟩,
      halive⟩, fun hin ↦ ?_, (hmcp agentMcpRequest rfl).mpr ⟨?_, halive⟩⟩
  · obtain ⟨hrules, -⟩ := (hadmin agentAdminInput rfl rfl).mp hin
    obtain ⟨-, -, -, -, -, -, haudience, -⟩ := hrules
    exact absurd haudience (by decide)
  · exact ⟨_, plainDeployment.issuer, rfl, rfl, rfl, List.mem_singleton_self _,
      hverify _ (by decide), by decide, MCP_READ_SCOPE, by decide, by decide⟩

end Odudu.Mcp
