import Odudu.ProtocolOidc.PrivateKeyJwt
import Odudu.ProtocolOidc.RedirectUri
import Odudu.Texts.Ascii

/-!
# Client authentication

What `/token`, `/revoke` and `/introspect` make of a request that a client authenticates
(`usecase/client-authentication.ts`, `usecase/private-key-jwt-authentication.ts`,
`service/tls-client-auth.ts` and `domain-tenant`'s `service/client.ts`): by a secret in the
header or in the body, by a signed assertion, by the certificate subject of a trusted proxy,
or by nothing for a public client.

Each statement of it is answered from the rows as they are read.  What the world outside
answers (the comparison of a hash, the fetched keys, a signature's verdict, the `jti`, the
limiter and the clock) is an environment.  What is only logged is left out.
-/

set_option autoImplicit false

namespace Odudu.ProtocolOidc.ClientAuthentication

open Texts (isSpace)
open ClientAssertion (FieldValue AssertionOutcome TakenAssertion Json CertificateSubject
  ClientAssertionBody parseClientAssertion tokenEndpointOf Runtime Date CLIENT_ASSERTION_TYPE)

/-- `token_endpoint_auth_method` -/
inductive AuthMethod where
  | clientSecretBasic
  | clientSecretPost
  | none
  | privateKeyJwt
  | tlsClientAuth
  deriving DecidableEq

def AuthMethod.text : AuthMethod → String
  | clientSecretBasic => "client_secret_basic"
  | clientSecretPost => "client_secret_post"
  | none => "none"
  | privateKeyJwt => "private_key_jwt"
  | tlsClientAuth => "tls_client_auth"

/-- A row of `clients`. -/
structure ClientRecord where
  id : String
  enabled : Bool
  type : ClientType
  secretHash : Option String
  previousSecretHash : Option String
  previousSecretExpiresAt : Option ℤ
  registrationOrigin : RegistrationOrigin

/-- A row of `client_oidc_config`. -/
structure ClientOidcConfig where
  tokenEndpointAuthMethod : AuthMethod
  jwks : Option Json
  jwksUri : Option String
  tlsClientAuthSubjectDn : Option String

/-- The tenant's rows, as the statements find them. -/
structure TenantRows where
  tenantId : String
  clientByClientId : String → Option ClientRecord
  configByClientId : String → Option ClientOidcConfig
  cimdEnabled : Bool

/-- What the world outside answers. -/
structure Environment where
  now : ℤ
  /-- Of a hash and a secret. -/
  verifyPassword : String → String → Bool
  /-- The seconds to retry after, once the budget of a key is spent. -/
  clientSecretLimiter : String → Option ℕ
  /-- At an address, for a metadata-document client or not. -/
  fetchKeys : String → Bool → Except String Json
  /-- Token, keys, issuer and audiences. -/
  verifyJwtAgainstJwkSet : String → Json → String → List String → Bool
  /-- Of a client and a `jti`. -/
  tryLock : String → String → Bool
  spentWithin : String → String → Bool

/-- How a request is decoded. -/
structure Platform where
  runtime : Runtime
  /-- Base64 to text. -/
  fromBase64 : String → String
  decodeURIComponent : String → Option String

/-! ### Errors -/

inductive AuditReason where
  | bad_credential
  | replayed
  | rate_limited

/-- A refusal as the audit is told of it. -/
structure RefusalAudit where
  clientDbId : String
  reason : AuditReason
  method : String

inductive AuthenticationError where
  | invalidClient (audit : Option RefusalAudit)
  | rateLimited (retryAfterSeconds : ℕ) (audit : Option RefusalAudit)

abbrev Authenticated : Type := Except AuthenticationError (ClientRecord × ClientOidcConfig)

/-- `refusedAuthentication` -/
def refusedAuthentication (method : AuthMethod) (client : ClientRecord) (reason : AuditReason) :
    AuthenticationError :=
  .invalidClient (some ⟨client.id, reason, method.text⟩)

/-! ### What is presented -/

structure BasicCredentials where
  clientId : String
  secret : String

structure RequestBody where
  client_id : Option FieldValue
  client_secret : Option FieldValue
  client_assertion : Option FieldValue
  client_assertion_type : Option FieldValue

structure ClientRequest where
  body : RequestBody
  authorizationHeader : Option String
  headers : String → Option FieldValue
  rawHeaders : List (String × String)
  acceptedIssuers : List String
  trustProxy : Bool
  tlsClientCertHeader : String

/-- An empty value, and a value that was sent more than once, is an omitted one. -/
def readOptionalField : Option FieldValue → Option String
  | some (.string value) => if value = "" then none else some value
  | _ => none

def isLineTerminator (c : Char) : Bool := c.toNat ∈ [0x0a, 0x0d, 0x2028, 0x2029]

def trim (s : String) : String :=
  String.ofList (((s.toList.dropWhile isSpace).reverse.dropWhile isSpace).reverse)

/-- `/^Basic(?:\s+(.*))?$/i`, and what its group matched. -/
def basicPayload (header : String) : Option String :=
  if (header.toList.take 5).map Char.toLower ≠ ['b', 'a', 's', 'i', 'c'] then none
  else
    match header.toList.drop 5 with
    | [] => some ""
    | c :: rest =>
      let payload := rest.dropWhile isSpace
      if !isSpace c || payload.any isLineTerminator then none else some (String.ofList payload)

variable (platform : Platform)

def decodeBasicCredentials (payload : String) : Option BasicCredentials :=
  let decoded := (platform.fromBase64 payload).toList
  match decoded.dropWhile (· ≠ ':') with
  | [] => none
  | _ :: secret => do
    let clientId ← platform.decodeURIComponent (String.ofList (decoded.takeWhile (· ≠ ':')))
    let secret ← platform.decodeURIComponent (String.ofList secret)
    pure { clientId, secret }

/-- A header of another scheme presents nothing; one of this scheme that cannot be read fails. -/
def parseBasicAuth (header : Option String) :
    Except AuthenticationError (Option BasicCredentials) :=
  match header.bind basicPayload with
  | none => .ok none
  | some payload =>
    match decodeBasicCredentials platform payload with
    | none => .error (.invalidClient none)
    | some credentials => .ok (some credentials)

def tlsClientSubject (request : ClientRequest) : CertificateSubject :=
  if !request.trustProxy then .absent
  else
    let name := request.tlsClientCertHeader.toLower
    match readOptionalField (request.headers name) with
    | none => .absent
    | some subject =>
      if 1 < request.rawHeaders.countP (fun header ↦ header.1.toLower == name) then .duplicated
      else .present subject

def tlsClientAuthSubjectMatches (presented registered : String) : Bool :=
  trim presented == trim registered

/-! ### Authentication -/

variable (env : Environment) (rows : TenantRows)

def verifyClientSecret (client : ClientRecord) (presented : Option String) : Bool :=
  if !client.enabled then false
  else if client.type = .isPublic then presented.isNone
  else
    match presented, client.secretHash with
    | some presented, some hash =>
      if env.verifyPassword hash presented then true
      else
        match client.previousSecretHash, client.previousSecretExpiresAt with
        | some previous, some expiresAt =>
          if expiresAt ≤ env.now then false else env.verifyPassword previous presented
        | _, _ => false
    | _, _ => false

def verifyClientCredentials (oauthClientId : String) (basic : Option BasicCredentials)
    (bodyClientSecret : Option String) (attemptedMethod : AuthMethod) : Authenticated :=
  match rows.clientByClientId oauthClientId with
  | none => .error (.invalidClient none)
  | some client =>
    if client.registrationOrigin = .cimd ∧ rows.cimdEnabled = false then
      .error (.invalidClient none)
    else
      match rows.configByClientId client.id with
      | none => .error (.invalidClient none)
      | some config =>
        let refused : Authenticated :=
          .error (refusedAuthentication attemptedMethod client .bad_credential)
        let finish (presented : Option String) : Authenticated :=
          if verifyClientSecret env client presented then .ok (client, config) else refused
        match basic, bodyClientSecret with
        | some basic, _ =>
          if config.tokenEndpointAuthMethod ≠ .clientSecretBasic then refused
          else finish (some basic.secret)
        | none, some bodyClientSecret =>
          if config.tokenEndpointAuthMethod ≠ .clientSecretPost then refused
          else finish (some bodyClientSecret)
        | none, none => finish none

def clientSecretLimiterKey (tenantId oauthClientId : String) : String :=
  tenantId ++ ":" ++ oauthClientId

/-- A failed presentation of a secret spends the client's budget. -/
def spendBudget (oauthClientId : String) : AuthenticationError → AuthenticationError
  | .invalidClient audit =>
    match env.clientSecretLimiter (clientSecretLimiterKey rows.tenantId oauthClientId) with
    | none => .invalidClient audit
    | some retryAfterSeconds =>
      .rateLimited retryAfterSeconds (audit.map fun audit ↦ { audit with reason := .rate_limited })
  | .rateLimited retryAfterSeconds audit => .rateLimited retryAfterSeconds audit

def authenticateClient (basic : Option BasicCredentials)
    (bodyClientId bodyClientSecret : Option String) : Authenticated :=
  if basic.isSome ∧ bodyClientSecret.isSome then .error (.invalidClient none)
  else
    match (basic.map (·.clientId)).or bodyClientId with
    | none => .error (.invalidClient none)
    | some oauthClientId =>
      let attemptedMethod : Option AuthMethod :=
        if basic.isSome then some .clientSecretBasic
        else if bodyClientSecret.isSome then some .clientSecretPost else none
      let answer := verifyClientCredentials env rows oauthClientId basic bodyClientSecret
        (attemptedMethod.getD .none)
      if attemptedMethod.isSome then answer.mapError (spendBudget env rows oauthClientId)
      else answer

def authenticatePrivateKeyJwt (taken : TakenAssertion) (tokenEndpoints : List String) :
    Authenticated :=
  match rows.clientByClientId taken.claimedClientId with
  | none => .error (.invalidClient none)
  | some client =>
    let fail (reason : AuditReason) : Authenticated :=
      .error (refusedAuthentication .privateKeyJwt client reason)
    if !client.enabled then fail .bad_credential
    else
      match rows.configByClientId client.id with
      | none => fail .bad_credential
      | some config =>
        let withKeys (jwks : Json) : Authenticated :=
          if !env.verifyJwtAgainstJwkSet taken.assertion jwks taken.claimedClientId
              tokenEndpoints then
            fail .bad_credential
          else if !env.tryLock taken.claimedClientId taken.jti then fail .replayed
          else if env.spentWithin taken.claimedClientId taken.jti then fail .replayed
          else .ok (client, config)
        if config.tokenEndpointAuthMethod ≠ .privateKeyJwt then fail .bad_credential
        else
          match config.jwks, config.jwksUri with
          | some jwks, _ => withKeys jwks
          | none, some jwksUri =>
            match env.fetchKeys jwksUri (decide (client.registrationOrigin = .cimd)) with
            | .ok jwks => withKeys jwks
            | .error _ => .error (.invalidClient none)
          | none, none => fail .bad_credential

def authenticateTlsClientAuth (certificateSubject : String) (claimedClientId : Option String) :
    Authenticated :=
  match claimedClientId.bind rows.clientByClientId with
  | none => .error (.invalidClient none)
  | some client =>
    let refuse : Authenticated :=
      .error (refusedAuthentication .tlsClientAuth client .bad_credential)
    if !client.enabled then refuse
    else if client.type ≠ .confidential then refuse
    else
      match rows.configByClientId client.id with
      | none => refuse
      | some config =>
        if config.tokenEndpointAuthMethod ≠ .tlsClientAuth then refuse
        else
          match config.tlsClientAuthSubjectDn with
          | none => refuse
          | some registered =>
            if !tlsClientAuthSubjectMatches certificateSubject registered then refuse
            else .ok (client, config)

/-- The assertion that a request presents, as it reads at a time. -/
def ClientRequest.assertion (request : ClientRequest) (now : Date) : AssertionOutcome :=
  parseClientAssertion platform.runtime
    ⟨request.body.client_assertion, request.body.client_assertion_type⟩ now
    (request.acceptedIssuers.map tokenEndpointOf)

def authenticateEndpointClient (request : ClientRequest) (now : Date) : Authenticated :=
  let tokenEndpoints := request.acceptedIssuers.map tokenEndpointOf
  let assertion := request.assertion platform now
  let bodyClientSecret := readOptionalField request.body.client_secret
  let clientId := readOptionalField request.body.client_id
  match parseBasicAuth platform request.authorizationHeader with
  | .error error => .error error
  | .ok basic =>
    match tlsClientSubject request with
    | .duplicated => .error (.invalidClient none)
    | .present subject =>
      if assertion ≠ .unsupported ∨ basic.isSome ∨ bodyClientSecret.isSome then
        .error (.invalidClient none)
      else authenticateTlsClientAuth rows subject clientId
    | .absent =>
      match assertion with
      | .unsupported => authenticateClient env rows basic clientId bodyClientSecret
      | .invalid => .error (.invalidClient none)
      | .ok taken =>
        if basic.isSome ∨ bodyClientSecret.isSome then .error (.invalidClient none)
        else if clientId.any (· ≠ taken.claimedClientId) then .error (.invalidClient none)
        else authenticatePrivateKeyJwt env rows taken tokenEndpoints

end Odudu.ProtocolOidc.ClientAuthentication
