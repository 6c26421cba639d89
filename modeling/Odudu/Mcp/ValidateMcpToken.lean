import Odudu.ProtocolAdmin.AuthenticateAdmin
import Odudu.ProtocolOidc.Introspection

/-!
# The door of the MCP endpoint

`validateMcpToken` (`usecase/validate-mcp-token.ts`): a token is for the endpoint's own address
and not for the admin API, what it stands on is judged as at the admin API's door, and it
carries an MCP scope.

The address comes in as the two strings that are made of it.  Of `admitMcpRequest`
(`usecase/admit-mcp-request.ts`) the tenant and the token are here; the host and the origin of a
request, which are judged before, and the budgets of its principal, which are judged after, are
left out.
-/

set_option autoImplicit false

namespace Odudu.Mcp

open ProtocolOidc ProtocolAdmin

structure ValidateMcpTokenInput where
  bearer : Option BearerToken
  tenant : MatchedTenant
  /-- `addressIssuer(address)`. -/
  issuer : String
  /-- `mcpResourceUrl(address)`. -/
  resource : String
  adminAudience : String
  now : Time

structure ValidatedMcpToken where
  tenantId : TenantId
  tenantName : String
  issuer : String
  subjectId : SubjectId
  clientId : ClientId
  grantId : GrantId
  scope : List String
  expSeconds : Time

inductive McpAuthOutcome where
  | valid (token : ValidatedMcpToken) (clientDbId : ClientId)
  | unauthenticated (reason : String)
  /-- Valid in every way, with no MCP scope. -/
  | insufficientScope (principal : AdminPrincipal)

/-- The token of a tenant, as that tenant's keys verify it. -/
def signedFor (bearer : BearerToken) (tenant : TenantId) : SignedToken where
  issuer := bearer.issuer
  verified := bearer.verified tenant

/-- What is let through, once the token is verified. -/
def admitMcpToken (deps : AuthenticateAdminDeps) (input : ValidateMcpTokenInput) (iss : String)
    (payload : AccessToken) : McpAuthOutcome :=
  if payload.aud.contains input.adminAudience then .unauthenticated "admin_audience"
  else
    match checkGrantLiveness deps input.tenant payload input.now with
    | .refused reason => .unauthenticated reason
    | .live grant _ =>
      if grant.subjectId ≠ payload.sub then .unauthenticated "subject_mismatch"
      else if !payload.scope.any fun scope ↦ scope == MCP_READ_SCOPE || scope == MCP_WRITE_SCOPE then
        .insufficientScope {
          subjectId := payload.sub
          issuerTenantId := input.tenant.id
          issuerTenantName := input.tenant.name
          clientDbId := grant.clientId
          scopes := payload.scope
          agent := none }
      else
        .valid {
          tenantId := input.tenant.id
          tenantName := input.tenant.name
          issuer := iss
          subjectId := payload.sub
          clientId := payload.clientId
          grantId := payload.grantId
          scope := payload.scope
          expSeconds := payload.exp } grant.clientId

def validateMcpToken (deps : AuthenticateAdminDeps) (input : ValidateMcpTokenInput) :
    McpAuthOutcome :=
  match input.bearer with
  | none => .unauthenticated "missing_credentials"
  | some token =>
    match token.issuer with
    | none => .unauthenticated "malformed_token"
    | some iss =>
      let accepted := deps.acceptedIssuers input.tenant.id input.issuer input.now
      if !accepted.contains iss then .unauthenticated "issuer_mismatch"
      else
        match verifyJwt (signedFor token input.tenant.id) accepted (some [input.resource]) with
        | none => .unauthenticated "invalid_token"
        | some payload => admitMcpToken deps input iss payload

/-- A request of the endpoint. -/
structure McpRequest where
  bearer : Option BearerToken
  tenantName : String
  issuer : String
  resource : String
  adminAudience : String
  now : Time

/-- What is made of the token of a request; nothing where the tenant is not served. -/
def admitMcpRequest (deps : AuthenticateAdminDeps) (request : McpRequest) : Option McpAuthOutcome :=
  match deps.findTenant request.tenantName with
  | none => none
  | some tenant =>
    if !tenant.enabled then none
    else
      some (validateMcpToken deps {
        bearer := request.bearer
        tenant := { id := tenant.id, name := request.tenantName, lifespans := tenant.lifespans }
        issuer := request.issuer
        resource := request.resource
        adminAudience := request.adminAudience
        now := request.now })

end Odudu.Mcp
