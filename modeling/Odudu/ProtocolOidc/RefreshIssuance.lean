import Odudu.ProtocolOidc.CodeRedemption
import Odudu.ProtocolOidc.RefreshRotation
import Odudu.ProtocolOidc.Consent
import Odudu.ProtocolOidc.TokenExchange

/-!
# Refreshing

`issueRefreshTokens` (`usecase/token-issuance.ts`).  The presented token is judged before it
is rotated, so that a request that is to be refused spends nothing; it is rotated in a
transaction of its own, so that reuse is recorded whatever becomes of the request; and the
grant is judged again from what the rotation read.

The client's registration and the tenant's policy for it are inputs.
-/

set_option autoImplicit false

namespace Odudu.ProtocolOidc

open ReadCommitted Program

/-- A refresh by an authenticated client, with what is read of its configuration and what is
generated for it. -/
structure RefreshRequest where
  presentedHash : TokenHash
  /-- The members of `scope`: none where it is blank. -/
  requestedScope : List String
  resource : Field
  clientId : ClientId
  registrationOrigin : RegistrationOrigin
  registrationPolicy : RegistrationPolicy
  accessTokenTtlSeconds : Time
  refreshTokenTtlSeconds : Time
  lifespans : SessionLifespans
  nextHash : TokenHash

inductive RefreshRefusal where
  | clientMismatch
  | grantRevoked
  | subjectDisabled
  | writeNotRefreshable
  | scopeWidened
  | mcpScopeDropped

def refusalIsAboutScope : RefreshRefusal → Bool
  | .scopeWidened | .mcpScopeDropped => true
  | _ => false

/-- The error a refusal is answered with. -/
def RefreshRefusal.failure (reason : RefreshRefusal) : Failure :=
  if refusalIsAboutScope reason then .invalidScope else .invalidGrant

def evaluateRefreshGrant (grant : TokenGrant) (clientId : ClientId) (subject : Subject)
    (requestedScope : List String) : Except RefreshRefusal (List String) :=
  if grant.clientId ≠ clientId then .error .clientMismatch
  else if grant.revokedAt.isSome then .error .grantRevoked
  else if !subjectIsEnabled (some subject) then .error .subjectDisabled
  else
    let requested := if requestedScope.isEmpty then grant.scope else requestedScope
    if !refreshAllowedForScope grant.scope then .error .writeNotRefreshable
    else if requested.any fun token ↦ !grant.scope.contains token then .error .scopeWidened
    else if holdsMcpScope grant.scope && !holdsMcpScope requested then .error .mcpScopeDropped
    else .ok requested

/-- The registration policy where it limits what the client may hold. -/
def refreshPolicy (r : RefreshRequest) : RegistrationPolicy :=
  if needsApproval r.registrationOrigin then r.registrationPolicy else .other

/-- The scope and the audience that a refresh starts from; nothing where an agent's chain
would go on to the admin API without the scope that marks it. -/
def refreshCeiling (env : Deployment) (r : RefreshRequest) (scope audience : List String) :
    Option (List String × List String) :=
  let held := refreshUnderPolicy env r.registrationOrigin (refreshPolicy r) scope audience
  if holdsMcpScope scope && !holdsMcpScope held.1 && held.2.contains ADMIN_API_AUDIENCE then none
  else some held

/-- What a refresh of this grant may carry: the grant's rules, the policy's ceiling and the
target, in the order in which the source asks for them. -/
def refreshHeld (env : Deployment) (r : RefreshRequest) (grant : TokenGrant) (subject : Subject) :
    Except Failure (List String × List String) :=
  match evaluateRefreshGrant grant r.clientId subject r.requestedScope with
  | .error reason => .error reason.failure
  | .ok scope =>
    match refreshCeiling env r scope grant.audience with
    | none => .error .invalidScope
    | some held =>
      match resolveAudience env held.2 r.resource with
      | none => .error .invalidTarget
      | some audience => .ok (held.1, audience)

/-- Decided from the presented token before anything is rotated: it may refuse, and never
admits. -/
def evaluatePresentedRefreshToken (env : Deployment) (r : RefreshRequest) : Tx Unit := do
  let presented ← query (.refreshTokenByHash r.presentedHash)
  match presented with
  | none => throw .invalidGrant
  | some presented => do
    let grant ← query (.tokenGrantById presented.grantId)
    match grant with
    | none => throw .invalidGrant
    | some grant => do
      let subject ← query (.subjectById grant.subjectId)
      match subject with
      | none => throw .invalidGrant
      | some subject =>
        match refreshHeld env r grant subject with
        | .error failure => throw failure
        | .ok _ => pure ()

/-- What the access token of a refresh is minted from. -/
def refreshMint (r : RefreshRequest) (grantId : GrantId) (grant : TokenGrant)
    (scope audience : List String) : MintInput where
  subjectId := grant.subjectId
  clientId := r.clientId
  scope
  accessTokenTtlSeconds := r.accessTokenTtlSeconds
  audience
  sessionId := grant.sessionId
  grantId
  requestedUserinfoClaims := grant.requestedUserinfoClaims
  act := narrowActClaim grant.actChain
  endpointMinted := false
  expCeiling := grant.expCeiling

/-- Everything after the rotation. -/
def issueRotated (env : Deployment) (r : RefreshRequest) (now : Time) (grantId : GrantId)
    (grant : TokenGrant) (next : TokenHash) : Tx TokenResponse := do
  let subject ← query (.subjectById grant.subjectId)
  match subject with
  | none => throw .invalidGrant
  | some subject =>
    match refreshHeld env r grant subject with
    | .error failure => throw failure
    | .ok (scope, audience) =>
      match mintAccessToken env (refreshMint r grantId grant scope audience) now with
      | none => throw .invalidScope
      | some token => pure { accessToken := token, refreshToken := some next, idToken := none }

def RefreshRequest.rotation (r : RefreshRequest) (now : Time) : RotationRequest where
  presentedHash := r.presentedHash
  now
  refreshTokenTtlSeconds := r.refreshTokenTtlSeconds
  lifespans := r.lifespans
  nextHash := r.nextHash

def issueRefreshTokens (env : Deployment) (r : RefreshRequest) : Tx TokenResponse := do
  let now ← query .readClock
  evaluatePresentedRefreshToken env r
  endTransaction
  let outcome ← rotateRefreshToken (r.rotation now)
  endTransaction
  match outcome with
  | .rotated grantId grant next => issueRotated env r now grantId grant next
  | _ => throw .invalidGrant

end Odudu.ProtocolOidc
