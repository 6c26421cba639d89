import Odudu.ProtocolOidc.AccessToken
import Odudu.ProtocolOidc.Repositories

/-!
# Exchanging a token

RFC 8693's grant (`service/token-exchange.ts`, `usecase/token-exchange-subject.ts` and
`issueExchangedTokens` of `usecase/token-issuance.ts`): a subject token, and an actor's where
there is one, for a token with no more scope and no longer a life.

A token is presented as a text, and each kind of reader makes of it what it can: `TokenText`
has what the verifier of access tokens, the hash of refresh tokens and the verifier of ID
tokens make of one.  A signature is not modelled, so a text may be read as any claims; what
relies on a token being one that was issued says so.  The clients table is an input.

Left out: the audit rows, `budget_grant_id`, and the claims of an ID token that no exchange
reads.
-/

set_option autoImplicit false

namespace Odudu.ProtocolOidc

open ReadCommitted Program

inductive ExchangeTokenType where
  | accessToken
  | refreshToken
  | idToken
  deriving DecidableEq

inductive TokenTypeOutcome where
  | accepted (type : ExchangeTokenType)
  | refused
  | deferred
  | unknown

def parseTokenType (raw : String) : TokenTypeOutcome :=
  if raw = "urn:ietf:params:oauth:token-type:access_token" then .accepted .accessToken
  else if raw = "urn:ietf:params:oauth:token-type:refresh_token" then .accepted .refreshToken
  else if raw = "urn:ietf:params:oauth:token-type:id_token" then .accepted .idToken
  else if raw = "urn:ietf:params:oauth:token-type:jwt" then .refused
  else if raw ∈ ["urn:ietf:params:oauth:token-type:saml1", "urn:ietf:params:oauth:token-type:saml2"]
  then .deferred
  else .unknown

/-- `accepted`: every other outcome is one refusal. -/
def acceptedType (raw : String) : Option ExchangeTokenType :=
  match parseTokenType raw with
  | .accepted type => some type
  | _ => none

/-- A field given once, or not at all; nothing where it is given more often. -/
def single : Field → Option (Option String)
  | .absent | .many [] => some none
  | .one raw | .many [raw] => some (some raw)
  | .many _ => none

/-- The audience of an exchange; nothing where the target is invalid. -/
def resolveExchangeAudience (env : Deployment) (resource audience : Field) (ceiling : List String)
    (issuedType : ExchangeTokenType) : Option (List String) :=
  match single resource, single audience with
  | some resource, some audience =>
    if issuedType = .idToken then
      if resource.isNone && audience.isNone then some [] else none
    else
      match resource, audience with
      | none, none => some ceiling
      | some resource, none => parseResource env (.one resource) ceiling
      | some resource, some audience =>
        if resource = audience then parseResource env (.one resource) ceiling else none
      | none, some audience => if ceiling.contains audience then some [audience] else none
  | _, _ => none

/-- What is asked of what is held: an empty `scope` asks for all of it, and a blank one is
refused like a wider one. -/
def attenuateScope (requested : Option (List String)) (granted : List String) :
    Option (List String) :=
  match requested with
  | none => some granted
  | some tokens =>
    let asked := tokens.eraseDups
    if asked.isEmpty then none
    else if asked.all granted.contains then some asked
    else none

def MAX_DELEGATION_DEPTH : ℕ := 8

inductive Narrowed where
  | ok (act : ActClaim)
  | malformed
  | tooDeep

/-- An `act` claim within a budget of actors. -/
def narrowAct : ℕ → ActClaim → Narrowed
  | 0, _ => .tooDeep
  | budget + 1, .mk sub act =>
    if sub = "" then .malformed
    else
      match act with
      | none => .ok (.mk sub none)
      | some act =>
        match narrowAct budget act with
        | .ok inner => .ok (.mk sub (some inner))
        | refused => refused

/-- The chain with an actor put before it. -/
def buildActChain (actorSubject : String) (priorAct : Option ActClaim) : Narrowed :=
  match priorAct with
  | none => .ok (.mk actorSubject none)
  | some prior =>
    match narrowAct (MAX_DELEGATION_DEPTH - 1) prior with
    | .ok inner => .ok (.mk actorSubject (some inner))
    | refused => refused

/-- The read side of a chain that was stored. -/
def narrowActClaim (act : Option ActClaim) : Option ActClaim :=
  act.bind fun act ↦
    match narrowAct MAX_DELEGATION_DEPTH act with
    | .ok act => some act
    | _ => none

/-- A `may_act` claim. -/
inductive MayAct where
  | absent
  | malformed
  | sub (sub : String)

def mayActPermits (mayAct : MayAct) (actorSubject : String) : Bool :=
  match mayAct with
  | .absent => true
  | .malformed => false
  | .sub sub => sub == actorSubject

/-- What the readers of tokens make of a text. -/
structure TokenText where
  /-- The claims, where the text verifies as an access token that has not expired. -/
  accessToken : Option AccessToken
  refreshTokenHash : TokenHash
  /-- The claims, where the text verifies as an ID token that has not expired. -/
  idToken : Option IdToken
  mayAct : MayAct

structure ResolvedExchangeToken where
  subjectId : SubjectId
  scope : List String
  sessionId : Option SessionId
  grantId : Option GrantId
  clientDbId : ClientId
  requestedUserinfoClaims : Option (List String)
  act : Option ActClaim
  mayAct : MayAct
  expiresAt : Option Time

/-- A request for an exchange by an authenticated client, with what is read of its
configuration and what is generated for it. -/
structure ExchangeRequest where
  subjectToken : TokenText
  subjectTokenType : String
  actorToken : Option TokenText
  actorTokenType : Option String
  requestedTokenType : Option String
  /-- Nothing where `scope` is empty. -/
  scope : Option (List String)
  resource : Field
  audience : Field
  clientId : ClientId
  /-- The `client_id` of the protocol. -/
  clientName : String
  isPublic : Bool
  tokenExchangeAllowedForPublic : Bool
  tokenExchangeImpersonationAllowed : Bool
  tokenExchangeActorFromOtherClient : Bool
  audiences : List String
  accessTokenTtlSeconds : Time
  refreshTokenTtlSeconds : Time
  idTokenTtlSeconds : Time
  lifespans : SessionLifespans
  clientIsLive : ClientId → Bool
  grantId : GrantId
  refreshTokenHash : TokenHash

inductive IssuedToken where
  | accessToken (token : AccessToken)
  | refreshToken (hash : TokenHash) (expiresAt : Time)
  | idToken (token : IdToken)

structure ExchangeResponse where
  issued : IssuedToken
  scope : List String

/-- The text of a subject's id. -/
def subjectText (id : SubjectId) : String := toString id

namespace ExchangeRequest

variable (r : ExchangeRequest)

/-- A session that bounds a grant is checked, never touched. -/
def sessionIsLive (sessionId : Option SessionId) (now : Time) : Tx Bool :=
  match sessionId with
  | none => pure true
  | some sessionId => do
    let live ← query (.sessionLiveById sessionId r.lifespans now)
    pure live.isSome

/-- `heldScope`: what the grant and the token both hold. -/
def heldScope (grantScope tokenScope : List String) : List String :=
  grantScope.filter tokenScope.contains

/-- The grant behind a token, unless it is revoked, or its client or session is over. -/
def liveGrant (grantId : GrantId) (now : Time) : Tx (Option TokenGrant) := do
  let grant ← query (.tokenGrantById grantId)
  match grant with
  | none => pure none
  | some grant =>
    if grant.revokedAt.isSome then pure none
    else if !r.clientIsLive grant.clientId then pure none
    else do
      let live ← r.sessionIsLive grant.sessionId now
      pure (if live then some grant else none)

def resolveAccessToken (text : TokenText) (now : Time) : Tx (Option ResolvedExchangeToken) :=
  match text.accessToken with
  | none => pure none
  | some payload => do
    let grant ← r.liveGrant payload.grantId now
    pure (grant.map fun grant ↦ {
      subjectId := grant.subjectId
      scope := heldScope grant.scope payload.scope
      sessionId := grant.sessionId
      grantId := some payload.grantId
      clientDbId := grant.clientId
      requestedUserinfoClaims := grant.requestedUserinfoClaims
      act := payload.act
      mayAct := text.mayAct
      expiresAt := some payload.exp })

def resolveRefreshToken (text : TokenText) (now : Time) : Tx (Option ResolvedExchangeToken) := do
  let record ← query (.refreshTokenByHash text.refreshTokenHash)
  match record with
  | none => pure none
  | some record =>
    if record.usedAt.isSome then pure none
    else if record.expiresAt ≤ now then pure none
    else do
      let grant ← r.liveGrant record.grantId now
      pure (grant.map fun grant ↦ {
        subjectId := grant.subjectId
        scope := grant.scope
        sessionId := grant.sessionId
        grantId := some record.grantId
        clientDbId := grant.clientId
        requestedUserinfoClaims := grant.requestedUserinfoClaims
        act := grant.actChain
        mayAct := .absent
        expiresAt := some record.expiresAt })

/-- An ID token names no grant and carries no scope; it is its client's own to present. -/
def resolveIdToken (text : TokenText) (now : Time) : Tx (Option ResolvedExchangeToken) :=
  match text.idToken with
  | none => pure none
  | some claims =>
    if claims.aud ≠ r.clientId then pure none
    else if !r.clientIsLive r.clientId then pure none
    else do
      let live ← r.sessionIsLive claims.sid now
      pure (if live then some {
        subjectId := claims.sub
        scope := []
        sessionId := claims.sid
        grantId := none
        clientDbId := r.clientId
        requestedUserinfoClaims := none
        act := none
        mayAct := text.mayAct
        expiresAt := some claims.exp }
      else none)

def resolveByType (type : ExchangeTokenType) (text : TokenText) (now : Time) :
    Tx (Option ResolvedExchangeToken) :=
  match type with
  | .accessToken => r.resolveAccessToken text now
  | .refreshToken => r.resolveRefreshToken text now
  | .idToken => r.resolveIdToken text now

/-- A token, unless its subject is disabled. -/
def resolveExchangeToken (type : ExchangeTokenType) (text : TokenText) (now : Time) :
    Tx (Option ResolvedExchangeToken) := do
  let outcome ← r.resolveByType type text now
  match outcome with
  | none => pure none
  | some token => do
    let subject ← query (.subjectById token.subjectId)
    pure (if subjectIsEnabled subject then some token else none)

/-- The actor's token, where there is one. -/
def resolveActor (now : Time) : Tx (Option ResolvedExchangeToken) :=
  match r.actorToken, r.actorTokenType with
  | some text, some raw =>
    match acceptedType raw with
    | none => throw .invalidRequest
    | some type => do
      let actor ← r.resolveExchangeToken type text now
      match actor with
      | none => throw .invalidRequest
      | some actor => pure (some actor)
  | none, some raw => if (acceptedType raw).isNone then throw .invalidRequest else pure none
  | _, none => pure none

/-- Whom the token issued is to name as the actor. -/
def actorSubject : Option ResolvedExchangeToken → String
  | none => r.clientName
  | some actor => subjectText actor.subjectId

/-- The chain that an actor's token adds to. -/
def delegatedAct (subject : ResolvedExchangeToken) (actor : Option ResolvedExchangeToken) :
    Except Failure (Option ActClaim) :=
  if actor.any fun actor ↦
      decide (actor.clientDbId ≠ r.clientId) && !r.tokenExchangeActorFromOtherClient then
    .error .invalidRequest
  else if !mayActPermits subject.mayAct (r.actorSubject actor) then .error .invalidRequest
  else
    match actor with
    | none => .ok none
    | some actor =>
      match buildActChain (subjectText actor.subjectId) actor.act with
      | .ok act => .ok (some act)
      | _ => .error .invalidRequest

def exchangedScope (subject : ResolvedExchangeToken) : Except Failure (List String) :=
  match attenuateScope r.scope subject.scope with
  | none => .error .invalidScope
  | some scope => .ok scope

/-- The marker of an agent's token, which an exchange neither drops nor narrows away. -/
def exchangedAct (subject : ResolvedExchangeToken) (scope : List String)
    (delegated : Option ActClaim) : Except Failure (Option ActClaim) :=
  if delegated.isNone && subject.act.isSome && (narrowActClaim subject.act).isNone then
    .error .invalidRequest
  else
    let act := delegated.or (narrowActClaim subject.act)
    if holdsMcpScope subject.scope then
      if !holdsMcpScope scope then .error .invalidScope
      else .ok (some (act.getD (.mk r.clientName none)))
    else .ok act

/-- The audience of the token issued; one for the admin API is not made from an ID token. -/
def exchangedAudience (env : Deployment) (subjectType issuedType : ExchangeTokenType) :
    Except Failure (List String) :=
  match resolveExchangeAudience env r.resource r.audience r.audiences issuedType with
  | none => .error .invalidTarget
  | some audience =>
    if subjectType = .idToken ∧ audience.contains ADMIN_API_AUDIENCE then .error .invalidTarget
    else .ok audience

/-- What an exchange has settled on. -/
structure Exchanged where
  subject : ResolvedExchangeToken
  actor : Option ResolvedExchangeToken
  scope : List String
  act : Option ActClaim
  audience : List String

def settle (env : Deployment) (subjectType issuedType : ExchangeTokenType)
    (subject : ResolvedExchangeToken) (actor : Option ResolvedExchangeToken) :
    Except Failure Exchanged := do
  let delegated ← r.delegatedAct subject actor
  let scope ← r.exchangedScope subject
  let act ← r.exchangedAct subject scope delegated
  let audience ← r.exchangedAudience env subjectType issuedType
  pure { subject, actor, scope, act, audience }

/-- The grant an exchange records. -/
def exchangedGrant (e : Exchanged) (audience : List String) : TokenGrant where
  clientId := r.clientId
  subjectId := e.subject.subjectId
  scope := e.scope
  audience
  revokedAt := none
  sessionId := e.subject.sessionId
  actorSubjectId := e.actor.map fun actor ↦ actor.subjectId
  exchangedFromGrantId := e.subject.grantId
  actChain := e.act
  expCeiling := e.subject.expiresAt
  requestedUserinfoClaims := e.subject.requestedUserinfoClaims

/-- No later than the token presented. -/
def cappedBy (ceiling : Option Time) (expiresAt : Time) : Time :=
  match ceiling with
  | none => expiresAt
  | some ceiling => min expiresAt ceiling

def issueExchangedRefreshToken (e : Exchanged) (now : Time) : Tx ExchangeResponse :=
  if !refreshAllowedForScope e.scope then throw .invalidScope
  else do
    let created ← query (.tokenGrantCreate r.grantId (r.exchangedGrant e e.audience))
    if created then do
      let expiresAt := cappedBy e.subject.expiresAt (now + r.refreshTokenTtlSeconds)
      let stored ← query (.refreshTokenCreate r.refreshTokenHash
        { grantId := r.grantId, expiresAt, usedAt := none, replacedBy := none })
      if stored then pure { issued := .refreshToken r.refreshTokenHash expiresAt, scope := e.scope }
      else throw .internal
    else throw .internal

def exchangedIdToken (e : Exchanged) (now : Time) : IdToken where
  sub := e.subject.subjectId
  aud := r.clientId
  exp := cappedBy e.subject.expiresAt (now + r.idTokenTtlSeconds)
  sid := e.subject.sessionId
  act := e.act

/-- What the access token of an exchange is minted from. -/
def exchangeMint (e : Exchanged) : MintInput where
  subjectId := e.subject.subjectId
  clientId := r.clientId
  scope := e.scope
  accessTokenTtlSeconds := r.accessTokenTtlSeconds
  audience := e.audience
  sessionId := e.subject.sessionId
  grantId := r.grantId
  requestedUserinfoClaims := e.subject.requestedUserinfoClaims
  act := e.act
  endpointMinted := false
  expCeiling := e.subject.expiresAt

def issueExchangedAccessToken (env : Deployment) (e : Exchanged) (now : Time) :
    Tx ExchangeResponse :=
  match mintAccessToken env (r.exchangeMint e) now with
  | none => throw .invalidScope
  | some token => do
    let created ← query (.tokenGrantCreate r.grantId (r.exchangedGrant e token.aud))
    if created then pure { issued := .accessToken token, scope := e.scope }
    else throw .internal

def issueExchanged (env : Deployment) (issuedType : ExchangeTokenType) (e : Exchanged)
    (now : Time) : Tx ExchangeResponse :=
  match issuedType with
  | .refreshToken => r.issueExchangedRefreshToken e now
  | .idToken => pure { issued := .idToken (r.exchangedIdToken e now), scope := e.scope }
  | .accessToken => r.issueExchangedAccessToken env e now

/-- The type of token asked for: an access token where none is named. -/
def issuedType : Option ExchangeTokenType :=
  match r.requestedTokenType with
  | none => some .accessToken
  | some raw => acceptedType raw

end ExchangeRequest

open ExchangeRequest in
def issueExchangedTokens (env : Deployment) (r : ExchangeRequest) : Tx ExchangeResponse :=
  match acceptedType r.subjectTokenType, r.issuedType with
  | some subjectType, some issuedType =>
    if r.isPublic && !r.tokenExchangeAllowedForPublic then throw .unauthorizedClient
    else if r.actorToken.isNone && !r.tokenExchangeImpersonationAllowed then
      throw .unauthorizedClient
    else do
      let now ← query .readClock
      let subject ← r.resolveExchangeToken subjectType r.subjectToken now
      match subject with
      | none => throw .invalidRequest
      | some subject => do
        let actor ← r.resolveActor now
        match r.settle env subjectType issuedType subject actor with
        | .error failure => throw failure
        | .ok exchanged => r.issueExchanged env issuedType exchanged now
  | _, _ => throw .invalidRequest

end Odudu.ProtocolOidc
