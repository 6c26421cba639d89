import Odudu.ProtocolOidc.Repositories
import Odudu.ProtocolOidc.AccessToken

/-!
# Redeeming an authorization code

`redeemAuthorizationCode` and `issueAuthorizationCodeTokens`
(`usecase/token-issuance.ts`).  The code is consumed by one conditional `UPDATE` in a
transaction that every refusal rolls back, so a refused redemption leaves it as it was.
A code that cannot be consumed because it was redeemed before has the grant it was
redeemed into revoked, in a transaction of its own: the refusal that follows does not
undo it.

What the source reads of the client's configuration is an input: its scopes as assigned
now, its lifetimes and whether it is configured for refresh tokens.  The claims of the ID
token that no modelled function reads, and the audit rows, are left out.
-/

set_option autoImplicit false

namespace Odudu.ProtocolOidc

open ReadCommitted Program

/-- A redemption by an authenticated client, with what is generated for it. -/
structure RedemptionRequest where
  codeHash : TokenHash
  redirectUri : String
  codeVerifier : String
  resource : Field
  clientId : ClientId
  /-- The scopes the client is assigned now. -/
  assigned : List String
  accessTokenTtlSeconds : Time
  refreshTokenTtlSeconds : Time
  idTokenTtlSeconds : Time
  /-- `config.grantTypes` includes `refresh_token`. -/
  refreshTokenConfigured : Bool
  grantId : GrantId
  refreshTokenHash : TokenHash

/-- What a redemption answers. -/
structure TokenResponse where
  accessToken : AccessToken
  refreshToken : Option TokenHash
  idToken : Option IdToken

variable (env : Deployment)

/-- RFC 7636 §4.6. -/
def verifyPkce (verifier challenge : String) : Bool :=
  env.isWellFormedPkceString verifier && env.s256 verifier == challenge

/-- `evaluateAuthorizationCodeGrant`: the client, the redirect URI and the verifier are
those the code was issued for. -/
def evaluateAuthorizationCodeGrant (record : AuthorizationCode) (clientId : ClientId)
    (redirectUri codeVerifier : String) : Bool :=
  decide (record.clientId = clientId) && record.redirectUri == redirectUri &&
    verifyPkce env codeVerifier record.codeChallenge

/-- The code was not consumed: unknown, expired, or redeemed before, and only the last of
these has a grant to revoke. -/
def refuseUnconsumable (r : RedemptionRequest) : Tx AuthorizationCode := do
  let existing ← query (.authorizationCodeByHash r.codeHash)
  match existing.bind (fun code ↦ code.grantId) with
  | none => throw .invalidGrant
  | some grantId => do
    let revokedAt ← query .readClock
    let _revoked ← query (.tokenGrantRevoke grantId revokedAt)
    endTransaction
    throw (.replayed grantId)

def redeemAuthorizationCode (r : RedemptionRequest) : Tx AuthorizationCode := do
  let transactionStart ← query .readClock
  let record ← query (.authorizationCodeConsume r.codeHash transactionStart)
  match record with
  | none => refuseUnconsumable r
  | some record =>
    if evaluateAuthorizationCodeGrant env record r.clientId r.redirectUri r.codeVerifier then do
      let subject ← query (.subjectById record.subjectId)
      if subjectIsEnabled subject then pure record else throw .invalidGrant
    else throw .invalidGrant

/-- The scope a code yields now. -/
def redeemedScope (r : RedemptionRequest) (code : AuthorizationCode) : List String :=
  resolveScope code.scope r.assigned none none

/-- An offline grant drops the session, unless its scope keeps it from being refreshed. -/
def redeemedSession (r : RedemptionRequest) (code : AuthorizationCode) : Option SessionId :=
  if (redeemedScope r code).contains "offline_access" && refreshAllowedForScope (redeemedScope r code)
  then none else code.sessionId

/-- The claims of the `claims` parameter's `userinfo` member, where it names any. -/
def requestedUserinfoClaims (code : AuthorizationCode) : Option (List String) :=
  if code.userinfoClaims.isEmpty then none else some code.userinfoClaims

/-- What the access token of a redemption is minted from. -/
def redemptionMint (r : RedemptionRequest) (code : AuthorizationCode) (audience : List String) :
    MintInput where
  subjectId := code.subjectId
  clientId := r.clientId
  scope := redeemedScope r code
  accessTokenTtlSeconds := r.accessTokenTtlSeconds
  audience
  sessionId := redeemedSession r code
  grantId := r.grantId
  requestedUserinfoClaims := requestedUserinfoClaims code
  act := none
  endpointMinted := false
  expCeiling := none

/-- The grant a redemption records. -/
def redeemedGrant (r : RedemptionRequest) (code : AuthorizationCode) (token : AccessToken) :
    TokenGrant where
  clientId := r.clientId
  subjectId := code.subjectId
  scope := redeemedScope r code
  audience := token.aud
  revokedAt := none
  sessionId := redeemedSession r code
  actorSubjectId := none
  exchangedFromGrantId := none
  actChain := none
  expCeiling := none
  requestedUserinfoClaims := requestedUserinfoClaims code

/-- The ID token of a redemption, where `openid` was granted. -/
def redeemedIdToken (r : RedemptionRequest) (code : AuthorizationCode) (now : Time) :
    Option IdToken :=
  if (redeemedScope r code).contains "openid" then
    some {
      sub := code.subjectId
      aud := r.clientId
      exp := now + r.idTokenTtlSeconds
      sid := redeemedSession r code
      act := none }
  else none

/-- A refresh token is issued to a client configured for it, for a scope that may be
refreshed. -/
def issueFirstRefreshToken (r : RedemptionRequest) (code : AuthorizationCode) (now : Time) :
    Tx (Option TokenHash) :=
  if r.refreshTokenConfigured && refreshAllowedForScope (redeemedScope r code) then do
    let created ← query (.refreshTokenCreate r.refreshTokenHash
      { grantId := r.grantId, expiresAt := now + r.refreshTokenTtlSeconds, usedAt := none,
        replacedBy := none })
    if created then pure (some r.refreshTokenHash) else throw .internal
  else pure none

/-- Records the grant, binds the code to it and issues the first refresh token. -/
def recordRedemption (r : RedemptionRequest) (code : AuthorizationCode) (token : AccessToken)
    (now : Time) : Tx TokenResponse := do
  let created ← query (.tokenGrantCreate r.grantId (redeemedGrant r code token))
  if created then do
    query (.authorizationCodeAttachGrant r.codeHash r.grantId)
    let refreshToken ← issueFirstRefreshToken r code now
    pure { accessToken := token, refreshToken, idToken := redeemedIdToken r code now }
  else throw .internal

def issueAuthorizationCodeTokens (r : RedemptionRequest) : Tx TokenResponse := do
  let code ← redeemAuthorizationCode env r
  let now ← query .readClock
  match resolveAudience env code.resource r.resource with
  | none => throw .invalidTarget
  | some audience =>
    match mintAccessToken env (redemptionMint r code audience) now with
    | none => throw .invalidScope
    | some token => recordRedemption r code token now

end Odudu.ProtocolOidc
