import Odudu.ProtocolOidc.TokenExchange

/-!
# Introspection and userinfo

`introspect` (`usecase/introspection.ts`) and `resolveUserinfo` (`usecase/userinfo.ts`): two
doors of a tenant at which an access token is shown.  Each verifies it, and then asks whether
what it stands on is still there: its grant, its client, its subject and its session.

A token is known by what verifying makes of it.  The claims are those that `mintAccessToken`
signs, so a claim of another type than the doors read is not among them.  What userinfo answers
a token that it lets in (the mapped claims, signed and encrypted as the client registered) is an
input, and so is the authentication of the client that introspects.
-/

set_option autoImplicit false

namespace Odudu.ProtocolOidc

/-- A token shown to a tenant, by what is made of it. -/
structure SignedToken where
  /-- The `iss` it names. -/
  issuer : Option String
  /-- The claims, where it verifies with the tenant's keys as an unexpired access token of the
  issuer it names. -/
  verified : Option AccessToken

/-- An empty string names no principal. -/
def named (expected : List String) : List String := expected.filter (· != "")

/-- `verifyJwt`, with `typ: at+jwt`; no audience is `AUDIENCE_UNCHECKED`, and a list is any-of. -/
def verifyJwt (token : SignedToken) (issuers : List String) (audience : Option (List String)) :
    Option AccessToken :=
  match token.issuer with
  | none => none
  | some iss =>
    if (named issuers).contains iss then
      token.verified.filter fun payload ↦
        match audience with
        | none => true
        | some expected => (named expected).any payload.aud.contains
    else none

structure LiveClient where
  enabled : Bool

def clientIsLive : Option LiveClient → Bool
  | none => false
  | some client => client.enabled

/-- What a door reads of a tenant to judge whether a token is still good. -/
structure LivenessReads where
  loadGrant : GrantId → Option TokenGrant
  isSessionLive : SessionId → SessionLifespans → Time → Bool
  findLiveClient : ClientId → Option LiveClient
  isSubjectEnabled : SubjectId → Bool

/-- A session that a token names is live; a token that names none is not dead for it. -/
def sessionHolds (reads : LivenessReads) (sid : Option SessionId) (lifespans : SessionLifespans)
    (now : Time) : Bool :=
  match sid with
  | none => true
  | some sessionId => reads.isSessionLive sessionId lifespans now

structure IntrospectionCaller where
  clientId : String
  audiences : List String

/-- Its own `client_id`, or a resource it is registered under, is named in the audience. -/
def callerIsAddressed (caller : IntrospectionCaller) (aud : List String) : Bool :=
  (caller.clientId :: caller.audiences).any aud.contains

structure IntrospectionResponse where
  scope : List String
  clientId : ClientId
  sub : SubjectId
  aud : List String
  exp : Time
  iat : Time

/-- What is said of an active token; nothing is `{ active: false }`. -/
def introspect (reads : LivenessReads) (acceptedIssuers : List String)
    (lifespans : SessionLifespans) (token : SignedToken) (caller : IntrospectionCaller)
    (now : Time) : Option IntrospectionResponse :=
  match verifyJwt token acceptedIssuers none with
  | none => none
  | some payload =>
    match reads.loadGrant payload.grantId with
    | none => none
    | some grant =>
      if grant.revokedAt.isSome then none
      else if !clientIsLive (reads.findLiveClient payload.clientId) then none
      else if !reads.isSubjectEnabled payload.sub then none
      else if !sessionHolds reads payload.sid lifespans now then none
      else if !callerIsAddressed caller payload.aud then none
      else some {
        scope := payload.scope
        clientId := payload.clientId
        sub := payload.sub
        aud := payload.aud
        exp := payload.exp
        iat := payload.iat }

/-- `presentedBearerToken`: by the header, by the form, or by more than one of them. -/
inductive PresentedToken where
  | absent
  | ambiguous
  | present (token : SignedToken)

/-- A form's own `access_token`, which may be repeated. -/
inductive FormToken where
  | absent
  | repeated
  | present (token : SignedToken)

def presentedBearerToken (header : Option SignedToken) (form : FormToken) : PresentedToken :=
  match form, header with
  | .repeated, _ => .ambiguous
  | .present _, some _ => .ambiguous
  | .present token, none => .present token
  | .absent, some token => .present token
  | .absent, none => .absent

/-- What userinfo makes of a token that it lets in. -/
inductive UserinfoAnswer where
  | ok
  | signingUnavailable
  | encryptionUnavailable

inductive UserinfoOutcome where
  | notFound
  | missingCredentials
  | invalidRequest
  | invalidToken
  | insufficientScope
  | answered (answer : UserinfoAnswer)

/-- What is read of the tenant's row. -/
structure UserinfoTenant where
  enabled : Bool
  lifespans : SessionLifespans

def resolveUserinfo (reads : LivenessReads) (tenant : Option UserinfoTenant)
    (acceptedIssuers : List String) (answer : AccessToken → UserinfoAnswer)
    (header : Option SignedToken) (form : FormToken) (now : Time) : UserinfoOutcome :=
  match tenant with
  | none => .notFound
  | some tenant =>
    if !tenant.enabled then .notFound
    else
      match presentedBearerToken header form with
      | .ambiguous => .invalidRequest
      | .absent => .missingCredentials
      | .present token =>
        match verifyJwt token acceptedIssuers (some acceptedIssuers) with
        | none => .invalidToken
        | some payload =>
          if !payload.scope.contains "openid" then .insufficientScope
          else
            match reads.loadGrant payload.grantId with
            | none => .invalidToken
            | some grant =>
              if grant.revokedAt.isSome then .invalidToken
              else if !clientIsLive (reads.findLiveClient payload.clientId) then .invalidToken
              else if !reads.isSubjectEnabled payload.sub then .invalidToken
              else if !sessionHolds reads payload.sid tenant.lifespans now then .invalidToken
              else .answered (answer payload)

end Odudu.ProtocolOidc
