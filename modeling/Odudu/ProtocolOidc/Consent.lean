import Odudu.ProtocolOidc.AccessToken

/-!
# Consent

A client registered over the wire, or resolved from a metadata document, is asked about
until a grant of its own exists, is never given `mcp:write`, and holds an MCP address and
`mcp:read` only while the tenant's registration policy gives them
(`service/mcp-registration-policy.ts`).

Whether a request is put to the person before it is answered, and what is left of its
scope when they have answered (`service/consent.ts`, and the parts of
`usecase/login-submission.ts` and `usecase/consent-submission.ts` about scopes).
-/

set_option autoImplicit false

namespace Odudu.ProtocolOidc

/-- How a client came to exist. -/
inductive RegistrationOrigin where
  | seeded
  | anonymous
  | token
  | operator
  | cimd
  deriving DecidableEq

/-- `clientRegistrationPolicy`: the policies other than `mcp` are one to the code here. -/
inductive RegistrationPolicy where
  | mcp
  | other
  deriving DecidableEq

/-- Registered over the wire without an administrator's say-so. -/
def needsApproval : RegistrationOrigin → Bool
  | .anonymous | .cimd => true
  | _ => false

/-- The request without the write scope such a client can never be given; one for the
write scope alone is left whole, to be refused. -/
def grantableScopes (origin : RegistrationOrigin) (requestedScopes : List String) :
    List String :=
  if !needsApproval origin then requestedScopes
  else
    let kept := requestedScopes.filter fun scope ↦ scope != MCP_WRITE_SCOPE
    if kept.isEmpty then requestedScopes else kept

def refusesWriteScope (origin : RegistrationOrigin) (requestedScopes : List String) : Bool :=
  needsApproval origin && requestedScopes.contains MCP_WRITE_SCOPE

/-- The audiences a client may be issued a token for under the policy as it is now. -/
def audiencesHeld (env : Deployment) (origin : RegistrationOrigin) (policy : RegistrationPolicy)
    (audiences : List String) : List String :=
  if !needsApproval origin then audiences
  else
    let others := audiences.filter fun audience ↦ !env.isMcpUrl audience
    if policy = .mcp ∧ others.length < audiences.length then others ++ [env.mcpAudience]
    else others

/-- What a refresh may carry, re-derived from the policy as it stands. -/
def refreshUnderPolicy (env : Deployment) (origin : RegistrationOrigin)
    (policy : RegistrationPolicy) (scope audience : List String) : List String × List String :=
  let audience := audiencesHeld env origin policy audience
  if !needsApproval origin || decide (policy = .mcp) then (scope, audience)
  else (scope.filter fun scope ↦ scope != MCP_READ_SCOPE, audience)

/-! ### What is asked -/

/-- What is known of a client when consent is decided. -/
structure ConsentContext where
  consentRequired : Bool
  approvalRequired : Bool
  defaultScopes : List String
  optionalScopes : List String
  scopeIdByName : List (String × ℕ)

structure ConsentInput where
  requestedScopes : List String
  defaultScopes : List String
  optionalScopes : List String
  grantedScopes : List String
  prompt : List Prompt
  consentRequired : Bool
  approvalRequired : Bool
  approved : Bool

inductive ConsentDecision where
  | notRequired
  | ask (defaultScopes optionalScopes alreadyGranted : List String)
  | refuse

def decideConsent (input : ConsentInput) : ConsentDecision :=
  let askDefault := input.defaultScopes.filter input.requestedScopes.contains
  let askOptional := input.optionalScopes.filter input.requestedScopes.contains
  let alreadyGranted := askOptional.filter fun scope ↦
    input.grantedScopes.contains scope && scope != MCP_WRITE_SCOPE
  let ask := ConsentDecision.ask askDefault askOptional alreadyGranted
  let silent := input.prompt.contains .none
  if input.prompt.contains .consent then ask
  else if (askDefault ++ askOptional).contains MCP_WRITE_SCOPE then
    if silent then .refuse else ask
  else if input.approvalRequired && !input.approved then
    if silent then .refuse else ask
  else if !input.consentRequired then .notRequired
  else if (askDefault ++ askOptional).all input.grantedScopes.contains then .notRequired
  else if silent then .refuse
  else ask

/-- `decideConsentGate`: the ids a grant is recorded under, as names again. -/
def decideConsentGate (context : ConsentContext) (grantedIds : List ℕ)
    (requestedScope : List String) (prompt : List Prompt) : ConsentDecision :=
  decideConsent {
    requestedScopes := requestedScope
    defaultScopes := context.defaultScopes
    optionalScopes := context.optionalScopes
    grantedScopes :=
      (context.scopeIdByName.filter fun named ↦ grantedIds.contains named.2).map Prod.fst
    prompt
    consentRequired := context.consentRequired
    approvalRequired := context.approvalRequired
    approved := !grantedIds.isEmpty }

/-- What a scope is narrowed to by what was left ticked: a scope that had no box is
kept. -/
def consentedScope (context : ConsentContext) (ticked requested : List String) : List String :=
  requested.filter fun scope ↦ !context.optionalScopes.contains scope || ticked.contains scope

theorem consentedScope_subset (context : ConsentContext) (ticked requested : List String) :
    consentedScope context ticked requested ⊆ requested :=
  List.filter_sublist.subset

end Odudu.ProtocolOidc
