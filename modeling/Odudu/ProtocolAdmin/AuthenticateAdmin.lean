import Odudu.ProtocolAdmin.AgentScope
import Odudu.ProtocolOidc.TokenExchange

/-!
# The door of the admin API

`authenticateAdmin` (`usecase/authenticate-admin.ts`): the principal a bearer token stands for,
and whether that is an agent.  `authorizeRoute`, `agentMayWrite` and `handleRoute`
(`view/routes/router.ts`) then decide whether the handler of a route runs for it.

What is read of the database, and what verifying a token makes of it, are the members of
`AuthenticateAdminDeps` and `AdminRouterDeps`, as in the source; so is the capability check of
`authorizeAdmin`, which comes after the scope's and only refuses.  Left out: whom a refusal is
recorded for, and idempotency, which answers a call again without running it.
-/

set_option autoImplicit false

namespace Odudu.ProtocolAdmin

open ProtocolOidc

abbrev TenantId := ℕ

def SYSTEM_TENANT_NAME : String := "system"

structure TenantLookup where
  id : TenantId
  enabled : Bool
  lifespans : SessionLifespans

structure ClientState where
  enabled : Bool
  builtinMcp : Bool
  builtinAdmin : Bool
  /-- The client's service account, when it has one. -/
  serviceSubjectId : Option SubjectId

/-- A bearer token, by what is made of it. -/
structure BearerToken where
  /-- `unverifiedIssuer`. -/
  issuer : Option String
  /-- The claims, where it verifies with the keys of a tenant as an unexpired access token of
  the issuer it names. -/
  verified : TenantId → Option AccessToken

structure AuthenticateAdminDeps where
  findTenant : String → Option TenantLookup
  loadGrant : TenantId → GrantId → Option TokenGrant
  isSessionLive : TenantId → SessionId → SessionLifespans → Time → Bool
  loadClientState : TenantId → ClientId → Option ClientState
  isSubjectEnabled : TenantId → SubjectId → Bool
  acceptedIssuers : TenantId → String → Time → List String

structure AuthenticateAdminInput where
  /-- The token of the `Authorization` header, where there is one. -/
  bearer : Option BearerToken
  targetTenantName : String
  targetTenant : TenantLookup
  targetTenantIssuer : String
  systemTenantIssuer : String
  now : Time

structure AdminAgent where
  clientId : String
  ownerSubjectId : SubjectId
  viaEndpoint : Bool
  ownerIsServiceAccount : Bool
  deriving DecidableEq

structure AdminPrincipal where
  subjectId : SubjectId
  issuerTenantId : TenantId
  issuerTenantName : String
  clientDbId : ClientId
  scopes : List String
  agent : Option AdminAgent

inductive AdminAuthOutcome where
  | authenticated (principal : AdminPrincipal)
  | unauthenticated (reason : String)
  /-- `agent_without_mcp_scope`. -/
  | forbidden (principal : AdminPrincipal)

structure MatchedTenant where
  id : TenantId
  name : String
  lifespans : SessionLifespans

/-- The issuer is one that this tenant's tokens may carry. -/
def namesTarget (deps : AuthenticateAdminDeps) (input : AuthenticateAdminInput) (iss : String) :
    Bool :=
  if input.targetTenantName = SYSTEM_TENANT_NAME then iss == input.targetTenantIssuer
  else if iss = input.systemTenantIssuer then false
  else (deps.acceptedIssuers input.targetTenant.id input.targetTenantIssuer input.now).contains iss

/-- Which tenant's keys a signature is verified against. -/
def matchIssuer (deps : AuthenticateAdminDeps) (input : AuthenticateAdminInput) (iss : String) :
    Option MatchedTenant :=
  let name :=
    if namesTarget deps input iss then some input.targetTenantName
    else if iss = input.systemTenantIssuer then some SYSTEM_TENANT_NAME
    else none
  match name with
  | none => none
  | some name =>
    let tenant :=
      if name = input.targetTenantName then some input.targetTenant else deps.findTenant name
    match tenant with
    | none => none
    | some tenant => if tenant.enabled then some ⟨tenant.id, name, tenant.lifespans⟩ else none

structure AgentClaims where
  scopes : List String
  actorClientId : Option String
  endpointMinted : Bool

/-- Nothing where `act` is present and cannot be read. -/
def readAgentClaims (payload : AccessToken) : Option AgentClaims :=
  match payload.act with
  | none => some ⟨payload.scope, none, false⟩
  | some act =>
    match narrowActClaim (some act) with
    | none => none
    | some (.mk sub _) => some ⟨payload.scope, some sub, payload.via⟩

inductive GrantLiveness where
  | live (grant : TokenGrant) (client : ClientState)
  | refused (reason : String)

/-- The session that bounds a grant is named by the token, and is live. -/
def sessionStanding (deps : AuthenticateAdminDeps) (tenant : MatchedTenant) (payload : AccessToken)
    (grant : TokenGrant) (now : Time) : Option String :=
  if grant.sessionId.isNone then none
  else
    match payload.sid with
    | none => some "invalid_token"
    | some sid =>
      if deps.isSessionLive tenant.id sid tenant.lifespans now then none else some "dead_session"

/-- What a verified token stands on is still there. -/
def checkGrantLiveness (deps : AuthenticateAdminDeps) (tenant : MatchedTenant)
    (payload : AccessToken) (now : Time) : GrantLiveness :=
  match deps.loadGrant tenant.id payload.grantId with
  | none => .refused "invalid_grant"
  | some grant =>
    if grant.revokedAt.isSome then .refused "invalid_grant"
    else
      match sessionStanding deps tenant payload grant now with
      | some reason => .refused reason
      | none =>
        match deps.loadClientState tenant.id grant.clientId with
        | none => .refused "client_disabled"
        | some client =>
          if !client.enabled then .refused "client_disabled"
          else if !deps.isSubjectEnabled tenant.id payload.sub then .refused "subject_disabled"
          else .live grant client

/-- Whom a token of a live grant stands for. -/
def principalOf (matched : MatchedTenant) (payload : AccessToken) (claims : AgentClaims)
    (grant : TokenGrant) (client : ClientState) : AdminAuthOutcome :=
  let holdsScope := holdsMcpScope claims.scopes
  let isAgent := claims.actorClientId.isSome || holdsScope || client.builtinMcp
  let base : AdminPrincipal := {
    subjectId := payload.sub
    issuerTenantId := matched.id
    issuerTenantName := matched.name
    clientDbId := grant.clientId
    scopes := claims.scopes
    agent := none }
  if !isAgent then .authenticated base
  else if !holdsScope then .forbidden base
  else
    let clientId := claims.actorClientId.getD (toString payload.clientId)
    if clientId = "" then .unauthenticated "invalid_token"
    else .authenticated { base with
      agent := some {
        clientId
        ownerSubjectId := payload.sub
        viaEndpoint := claims.endpointMinted
        ownerIsServiceAccount := client.serviceSubjectId == some payload.sub } }

def authenticateAdmin (deps : AuthenticateAdminDeps) (input : AuthenticateAdminInput) :
    AdminAuthOutcome :=
  match input.bearer with
  | none => .unauthenticated "missing_credentials"
  | some token =>
    match token.issuer with
    | none => .unauthenticated "malformed_token"
    | some iss =>
      match matchIssuer deps input iss with
      | none => .unauthenticated "issuer_mismatch"
      | some matched =>
        match (token.verified matched.id).filter fun payload ↦
            payload.aud.contains ADMIN_API_AUDIENCE with
        | none => .unauthenticated "invalid_token"
        | some payload =>
          match readAgentClaims payload with
          | none => .unauthenticated "invalid_token"
          | some claims =>
            match checkGrantLiveness deps matched payload input.now with
            | .refused reason => .unauthenticated reason
            | .live grant client => principalOf matched payload claims grant client

/-- A request to a route: its token, the parameters of its path, and its body. -/
structure AdminRequest where
  bearer : Option BearerToken
  tenant : Option String
  id : Option ℕ
  body : Body

structure AdminRouterDeps where
  auth : AuthenticateAdminDeps
  authorizeAdmin : AdminPrincipal → TenantId → AdminRoute → Bool
  isSystemTenantId : TenantId → Bool
  tenantIssuerFor : String → String
  now : Time
  scopeIsBuiltin : TenantId → ℕ → Bool
  /-- The row of a call that an agent made directly could be written. -/
  recordAgentToolCall : AdminPrincipal → AdminRoute → Bool

structure Granted where
  principal : AdminPrincipal
  tenantId : TenantId

/-- `includes`. -/
def includesText (text part : String) : Bool :=
  text.toList.tails.any fun rest ↦ part.toList.isPrefixOf rest

/-- The tenant of the path; the routes without one are the system tenant's. -/
def targetTenantNameFor (route : AdminRoute) (request : AdminRequest) : Option String :=
  if !includesText route.pattern ":tenant" then some SYSTEM_TENANT_NAME else request.tenant

/-- An agent's token is refused at a route that its scope, or the want of the endpoint's mark,
does not admit. -/
def agentRefused (deps : AdminRouterDeps) (route : AdminRoute) (principal : AdminPrincipal)
    (targetTenantId : TenantId) : Bool :=
  match principal.agent with
  | none => false
  | some agent =>
    principal.issuerTenantId != targetTenantId ||
      !scopeAdmits principal.scopes route (deps.isSystemTenantId principal.issuerTenantId) ||
      (agentWriteNeedsEndpoint route && (!agent.viaEndpoint || agent.ownerIsServiceAccount))

def authorizeRoute (deps : AdminRouterDeps) (route : AdminRoute) (request : AdminRequest) :
    Option Granted :=
  match targetTenantNameFor route request with
  | none => none
  | some targetTenantName =>
    match deps.auth.findTenant targetTenantName with
    | none => none
    | some targetTenant =>
      match authenticateAdmin deps.auth {
          bearer := request.bearer
          targetTenantName
          targetTenant
          targetTenantIssuer := deps.tenantIssuerFor targetTenantName
          systemTenantIssuer := deps.tenantIssuerFor SYSTEM_TENANT_NAME
          now := deps.now } with
      | .authenticated principal =>
        if agentRefused deps route principal targetTenant.id then none
        else if deps.authorizeAdmin principal targetTenant.id route then
          some ⟨principal, targetTenant.id⟩
        else none
      | _ => none

/-- A create names no built-in scope. -/
def namesBuiltinScope : Body → Bool
  | .object members =>
    match members.find? fun member ↦ member.1 == "name" with
    | some (_, .text name) => isBuiltinScopeName name
    | _ => false
  | _ => false

def agentMayWrite (deps : AdminRouterDeps) (route : AdminRoute) (request : AdminRequest)
    (granted : Granted) : Bool :=
  if !agentBodyAdmitted route request.body then false
  else if agentGuardsBuiltinScopeName route then !namesBuiltinScope request.body
  else if agentGuardsBuiltinScope route then
    match request.id with
    | none => true
    | some scopeId => !deps.scopeIsBuiltin granted.tenantId scopeId
  else if !agentWritesClient route then true
  else if !agentGuardsWholeClient route && !agentBodyNamesGuardedField request.body then true
  else
    match request.id.bind fun id ↦ deps.auth.loadClientState granted.tenantId id with
    | none => true
    | some target => !(target.builtinAdmin || target.builtinMcp)

/-- The row of a call made without the MCP endpoint is written before the handler runs. -/
def recordDirectAgentCall (deps : AdminRouterDeps) (route : AdminRoute) (granted : Granted) :
    Bool :=
  match granted.principal.agent with
  | none => true
  | some agent => agent.viaEndpoint || deps.recordAgentToolCall granted.principal route

/-- For whom the handler of the route runs, where it does. -/
def handleRoute (deps : AdminRouterDeps) (route : AdminRoute) (request : AdminRequest) :
    Option Granted :=
  match authorizeRoute deps route request with
  | none => none
  | some granted =>
    if granted.principal.agent.isSome && route.method != .get &&
        !agentMayWrite deps route request granted then none
    else if !recordDirectAgentCall deps route granted then none
    else some granted

end Odudu.ProtocolAdmin
