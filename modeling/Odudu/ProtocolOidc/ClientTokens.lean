import Odudu.ProtocolOidc.AccessToken
import Odudu.ProtocolOidc.Repositories

/-!
# Tokens that no code is redeemed for

`issueClientCredentialsTokens` (`usecase/token-issuance.ts`): a client's own token, with no
session and no human behind it.  The subject is the client's service account, and there is no
refresh token.  The client and its configuration are inputs.  A service account retired while the
request waits is a foreign key the modelled tables do not have.

`mintAgentToken` (`usecase/mint-agent-token.ts`, with the rules of
`service/agent-token-rules.ts`): for a call the MCP endpoint serves, a token for the admin API
under the grant behind the token the agent presented.  Nothing is written.  The client and
whether the tenant is enabled are inputs.  A grant of another tenant is not seen, so the first
rule of `standingRefusal` asks for a grant.
-/

set_option autoImplicit false

namespace Odudu.ProtocolOidc

open ReadCommitted Program

structure ClientCredentialsRequest where
  clientId : ClientId
  isConfidential : Bool
  serviceSubjectId : Option SubjectId
  clientCredentialsScopes : List String
  /-- The members of `scope`. -/
  requestedScope : List String
  audiences : List String
  resource : Field
  accessTokenTtlSeconds : Time
  grantId : GrantId

/-- `evaluateClientCredentialsGrant`: the service account and the scope, or the refusal. -/
def evaluateClientCredentialsGrant (r : ClientCredentialsRequest) :
    Except Failure (SubjectId × List String) :=
  if !r.isConfidential then .error .invalidClient
  else
    match r.serviceSubjectId with
    | none => .error .unauthorizedClient
    | some serviceSubjectId =>
      if r.requestedScope.any fun token ↦ !r.clientCredentialsScopes.contains token then
        .error .invalidScope
      else .ok (serviceSubjectId, r.requestedScope)

/-- What the access token of a client is minted from. -/
def clientCredentialsMint (r : ClientCredentialsRequest) (subjectId : SubjectId)
    (scope audience : List String) : MintInput where
  subjectId
  clientId := r.clientId
  scope
  accessTokenTtlSeconds := r.accessTokenTtlSeconds
  audience
  sessionId := none
  grantId := r.grantId
  requestedUserinfoClaims := none
  act := none
  endpointMinted := false
  expCeiling := none

/-- The grant a client's own token is issued under. -/
def clientCredentialsGrant (r : ClientCredentialsRequest) (subjectId : SubjectId)
    (scope audience : List String) : TokenGrant where
  clientId := r.clientId
  subjectId
  scope
  audience
  revokedAt := none
  sessionId := none
  actorSubjectId := none
  exchangedFromGrantId := none
  actChain := none
  expCeiling := none
  requestedUserinfoClaims := none

def issueClientCredentialsTokens (env : Deployment) (r : ClientCredentialsRequest) :
    Tx AccessToken :=
  match evaluateClientCredentialsGrant r with
  | .error failure => throw failure
  | .ok (subjectId, scope) => do
    let now ← query .readClock
    match resolveAudience env r.audiences r.resource with
    | none => throw .invalidTarget
    | some audience =>
      match mintAccessToken env (clientCredentialsMint r subjectId scope audience) now with
      | none => throw .invalidScope
      | some token => do
        let created ← query (.tokenGrantCreate r.grantId
          (clientCredentialsGrant r subjectId scope token.aud))
        if created then pure token else throw .internal

/-- What an admin-audience token minted for an agent lives, at most. -/
def AGENT_TOKEN_MAX_TTL_SECONDS : Time := 300

/-- What is read of the agent's client. -/
structure AgentClient where
  id : ClientId
  enabled : Bool
  deriving DecidableEq

structure AgentTokenRequest where
  subjectGrantId : GrantId
  expectedSubjectId : SubjectId
  /-- The `client_id` of the agent; it becomes `act.sub`. -/
  agentClientId : String
  client : Option AgentClient
  audience : String
  scope : List String
  /-- The presented token's `exp`. -/
  notAfter : Time
  now : Time
  tenantEnabled : Bool
  lifespans : SessionLifespans
  deriving DecidableEq

inductive AgentTokenRefusal where
  | audienceNotAdmin
  | scopeNotMcp
  | scopeWidened
  | tokenExpired
  | grantNotFound
  | subjectMismatch
  | grantRevoked
  | grantNotAgentClient
  | clientDisabled
  | tenantDisabled
  | sessionEnded
  | subjectDisabled

/-- What can be judged before anything is read. -/
def requestRefusal (r : AgentTokenRequest) : Option AgentTokenRefusal :=
  if r.audience ≠ ADMIN_API_AUDIENCE then some .audienceNotAdmin
  else if r.scope.isEmpty || !r.scope.all isMcpScope then some .scopeNotMcp
  else if r.notAfter ≤ r.now then some .tokenExpired
  else none

/-- What must still stand, in the order a refusal names it; `sessionLive` is nothing where the
grant is bound to no session. -/
def standingRefusal (r : AgentTokenRequest) (grant : Option TokenGrant)
    (sessionLive : Option Bool) (subjectEnabled : Bool) : Option AgentTokenRefusal :=
  match grant with
  | none => some .grantNotFound
  | some grant =>
    if grant.subjectId ≠ r.expectedSubjectId then some .subjectMismatch
    else if grant.revokedAt.isSome then some .grantRevoked
    else if !r.scope.all grant.scope.contains then some .scopeWidened
    else
      match r.client with
      | none => some .clientDisabled
      | some client =>
        if !client.enabled then some .clientDisabled
        else if grant.clientId ≠ client.id then some .grantNotAgentClient
        else if !r.tenantEnabled then some .tenantDisabled
        else if sessionLive = some false then some .sessionEnded
        else if !subjectEnabled then some .subjectDisabled
        else none

/-- Whether the grant's session is live, where it has one. -/
def sessionLiveness (r : AgentTokenRequest) (grant : Option TokenGrant) : Tx (Option Bool) :=
  match grant.bind fun grant ↦ grant.sessionId with
  | none => pure none
  | some sessionId => do
    let live ← query (.sessionLiveById sessionId r.lifespans r.now)
    pure (some live.isSome)

def ownerEnabled (grant : Option TokenGrant) : Tx Bool :=
  match grant with
  | none => pure false
  | some grant => do
    let subject ← query (.subjectById grant.subjectId)
    pure (subjectIsEnabled subject)

/-- What an agent's token is minted from. -/
def agentMint (r : AgentTokenRequest) (grant : TokenGrant) (client : AgentClient) : MintInput where
  subjectId := grant.subjectId
  clientId := client.id
  scope := r.scope
  accessTokenTtlSeconds := AGENT_TOKEN_MAX_TTL_SECONDS
  audience := [ADMIN_API_AUDIENCE]
  sessionId := grant.sessionId
  grantId := r.subjectGrantId
  requestedUserinfoClaims := none
  act := some (.mk r.agentClientId none)
  endpointMinted := true
  expCeiling := some r.notAfter

def mintAgentToken (env : Deployment) (r : AgentTokenRequest) : Tx AccessToken :=
  match requestRefusal r with
  | some _ => throw .agentTokenRefused
  | none => do
    let grant ← query (.tokenGrantById r.subjectGrantId)
    let sessionLive ← sessionLiveness r grant
    let subjectEnabled ← ownerEnabled grant
    match standingRefusal r grant sessionLive subjectEnabled, grant, r.client with
    | none, some grant, some client =>
      match mintAccessToken env (agentMint r grant client) r.now with
      | none => throw .invalidScope
      | some token => pure token
    | _, _, _ => throw .agentTokenRefused

end Odudu.ProtocolOidc
