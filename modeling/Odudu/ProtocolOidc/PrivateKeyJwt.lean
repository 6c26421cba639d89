import Odudu.ProtocolOidc.AssertionJti
import Odudu.ReadCommitted.Interleaving

/-!
# Authentication by a signed assertion

What an endpoint does with a request that a client authenticates
(`usecase/private-key-jwt-authentication.ts`): `authenticateEndpointClient` takes the
assertion, `authenticatePrivateKeyJwt` checks it and takes the lock of its `jti`, and
`settle` runs the endpoint's work under a savepoint and spends the `jti` whatever became of
it.  The token endpoint reads the clock again each time, the other two once, when the
request comes in.

The work is any number of statements on the tables it knows, and so is authentication by
another method with its work.  What a verifier of signatures says, and the number that a
lock's text hashes to, are inputs.
-/

set_option autoImplicit false

namespace Odudu.ProtocolOidc.ClientAssertion

open ReadCommitted Program

/-- What is done for a client that has authenticated, in the transaction it is given. -/
inductive EndpointWork (work : Database) where
  | done (response : String)
  | throw (refusal : String)
  | stmt (op : work.Op) (next : work.Answer op → EndpointWork work)

inductive Endpoint where
  | token
  | revoke
  | introspect

inductive CertificateSubject where
  | absent
  | present (subject : String)
  | duplicated
  deriving DecidableEq

/-- A request that a client authenticates. -/
structure ClientRequest (work : Database) where
  endpoint : Endpoint
  tenantId : String
  acceptedIssuers : List String
  body : ClientAssertionBody
  clientId : Option String
  clientSecret : Option String
  /-- The `Authorization` header's, of the basic method. -/
  basic : Option (String × String)
  certificate : CertificateSubject
  /-- For a client that authenticates by assertion. -/
  run : ClientRecord → ClientOidcConfig → EndpointWork work
  /-- Authentication by another method, and what is done then. -/
  otherwise : EndpointWork work

inductive AuditReason where
  | bad_credential
  | replayed

/-- An `invalid_client`: what the log is told, and whom the audit is told of. -/
structure AuthenticationRefusal where
  method : String
  reason : String
  claimedClientId : Option String
  audit : Option (String × AuditReason)

inductive EndpointFailure where
  | refused (refusal : AuthenticationRefusal)
  /-- The store would not take the `jti` of a request whose work was done. -/
  | unspent
  | failed (error : String)

inductive EndpointOutcome where
  /-- The work's response, with the assertion spent. -/
  | answered (response : String)
  /-- What the work threw, with the assertion spent or not. -/
  | refusedAfter (refusal : String) (spent : Bool)
  /-- The end of anything else. -/
  | other

variable {work : Database}

abbrev AssertionTx (work : Database) := Program (assertionDatabase work) EndpointFailure

/-- One statement on the rows of authentication. -/
abbrev onRows (op : AssertionOp) : AssertionTx work op.Answer :=
  @Program.ask (assertionDatabase work) EndpointFailure (.inl op)

/-- The work: its response, or what it threw. -/
def EndpointWork.program : EndpointWork work → AssertionTx work (Except String String)
  | done response => .done (.ok response)
  | throw refusal => .done (.error refusal)
  | stmt op next => .stmt (.inr op) fun answer ↦ (next answer).program

/-- What verification and the database do. -/
structure AssertionDeps extends Runtime where
  /-- Token, keys, issuer, audiences, the time and the tolerance in seconds. -/
  jwtVerify : String → Json → String → List String → Date → ℚ → Bool
  lockKey : JtiSlot → ℤ

/-- Whether every item is an object. -/
def allObjects : List Json → Bool
  | [] => true
  | .object _ :: items => allObjects items
  | _ => false

/-- A document that is a set of keys. -/
def isJwkSet (jwks : Json) : Bool :=
  match jwks.get "keys" with
  | some (.array keys) => allObjects keys
  | _ => false

def verifyJwtAgainstJwkSet (deps : AssertionDeps) (token : String) (jwks : Json)
    (issuer : String) (audience : List String) (now : Date) (clockToleranceSeconds : ℚ) : Bool :=
  isJwkSet jwks && deps.jwtVerify token jwks issuer audience now clockToleranceSeconds

def tokenEndpointOf (issuer : String) : String := issuer ++ "/protocol/openid-connect/token"

/-- The audiences an assertion may name. -/
def ClientRequest.tokenEndpoints (request : ClientRequest work) : List String :=
  request.acceptedIssuers.map tokenEndpointOf

/-- A client that authenticated by assertion, and what its assertion is to be spent as. -/
structure AuthenticatedClient where
  client : ClientRecord
  config : ClientOidcConfig
  slot : JtiSlot
  expiresAt : ℤ

def refusePrivateKeyJwt {α : Type} (reason : String) (claimedClientId : Option String)
    (audit : Option (String × AuditReason)) : AssertionTx work α :=
  throw (.refused { method := "private_key_jwt", reason, claimedClientId, audit })

def refuseTlsClientAuth {α : Type} (reason : String) : AssertionTx work α :=
  throw (.refused {
    method := "tls_client_auth", reason, claimedClientId := none, audit := none })

/-- The time as an endpoint takes it. -/
def ClientRequest.now (request : ClientRequest work) (requestNow : Date) : AssertionTx work Date :=
  match request.endpoint with
  | .token => onRows .readClock
  | .revoke | .introspect => pure requestNow

/-- The row that a `jti` is spent in. -/
def TakenAssertion.slot (taken : TakenAssertion) (tenantId : String) : JtiSlot :=
  ⟨tenantId, taken.claimedClientId, taken.jti⟩

/-- The lookup of the `jti`, whose lock is held. -/
def lookUpJti (request : ClientRequest work) (taken : TakenAssertion)
    (client : ClientRecord) (config : ClientOidcConfig) : AssertionTx work AuthenticatedClient := do
  let spent ← onRows (.spentWithin (taken.slot request.tenantId))
  if spent then
    refusePrivateKeyJwt "jti already spent" taken.claimedClientId (some (client.id, .replayed))
  else
    pure ⟨client, config, taken.slot request.tenantId, taken.expiresAt⟩

/-- The lock of the `jti`, tried and not waited for. -/
def claimJti (deps : AssertionDeps) (request : ClientRequest work) (taken : TakenAssertion)
    (client : ClientRecord) (config : ClientOidcConfig) : AssertionTx work AuthenticatedClient := do
  let got ← onRows (.tryLock (deps.lockKey (taken.slot request.tenantId)))
  if got then do
    onRows (.lockJti (deps.lockKey (taken.slot request.tenantId)))
    lookUpJti request taken client config
  else
    refusePrivateKeyJwt "jti is being used by another request" taken.claimedClientId
      (some (client.id, .replayed))

/-- The signature, against the keys at hand. -/
def verifyAssertion (deps : AssertionDeps) (request : ClientRequest work) (requestNow : Date)
    (taken : TakenAssertion) (client : ClientRecord) (config : ClientOidcConfig) (jwks : Json) :
    AssertionTx work AuthenticatedClient := do
  let now ← request.now requestNow
  if verifyJwtAgainstJwkSet deps taken.assertion jwks taken.claimedClientId request.tokenEndpoints
      now ASSERTION_LEEWAY_SECONDS then
    claimJti deps request taken client config
  else
    refusePrivateKeyJwt "assertion signature did not verify" taken.claimedClientId
      (some (client.id, .bad_credential))

/-- The keys, at hand or fetched. -/
def withKeys (deps : AssertionDeps) (request : ClientRequest work) (requestNow : Date)
    (taken : TakenAssertion) (client : ClientRecord) (config : ClientOidcConfig) :
    AssertionTx work AuthenticatedClient :=
  match config.jwks, config.jwksUri with
  | some jwks, _ => verifyAssertion deps request requestNow taken client config jwks
  | none, some jwksUri => do
    let fetched ← onRows (.fetchKeys jwksUri request.tenantId (client.registrationOrigin == "cimd"))
    match fetched with
    | .ok jwks => verifyAssertion deps request requestNow taken client config jwks
    | .error message => refusePrivateKeyJwt message taken.claimedClientId none
  | none, none =>
    refusePrivateKeyJwt "client publishes no keys" taken.claimedClientId
      (some (client.id, .bad_credential))

def authenticatePrivateKeyJwt (deps : AssertionDeps) (request : ClientRequest work)
    (requestNow : Date) (taken : TakenAssertion) : AssertionTx work AuthenticatedClient := do
  let found ← onRows (.clientByClientId request.tenantId taken.claimedClientId)
  match found with
  | none => refusePrivateKeyJwt "unknown client" taken.claimedClientId none
  | some client =>
    if !client.enabled then
      refusePrivateKeyJwt "client is disabled" taken.claimedClientId
        (some (client.id, .bad_credential))
    else do
      let config ← onRows (.configByClientId request.tenantId client.id)
      match config with
      | none =>
        refusePrivateKeyJwt "client is not registered for private_key_jwt" taken.claimedClientId
          (some (client.id, .bad_credential))
      | some config =>
        if config.tokenEndpointAuthMethod ≠ "private_key_jwt" then
          refusePrivateKeyJwt "client is not registered for private_key_jwt" taken.claimedClientId
            (some (client.id, .bad_credential))
        else
          withKeys deps request requestNow taken client config

/-- The spending, on the request's transaction: whether the store took it. -/
def spend (authenticated : AuthenticatedClient) : AssertionTx work Bool := do
  let refuses ← onRows .refusesWrite
  if refuses then pure false
  else do
    let _ ← onRows (.claimWithin authenticated.slot authenticated.expiresAt)
    pure true

/-- The spending after the work failed, under a savepoint of its own. -/
def spendAfter (authenticated : AuthenticatedClient) (refusal : String) :
    AssertionTx work EndpointOutcome :=
  .savepoint fun saved ↦ do
    let spent ← spend authenticated
    if spent then pure (.refusedAfter refusal true)
    else .rollbackTo saved (pure (.refusedAfter refusal false))

/-- The work under a savepoint, and the spending either way. -/
def settle (authenticated : AuthenticatedClient) (run : EndpointWork work) :
    AssertionTx work EndpointOutcome :=
  .savepoint fun saved ↦ do
    let result ← run.program
    match result with
    | .ok response => do
      let spent ← spend authenticated
      if spent then pure (.answered response) else throw .unspent
    | .error refusal => .rollbackTo saved (spendAfter authenticated refusal)

/-- Authentication by another method, with nothing to settle. -/
def runOtherwise (run : EndpointWork work) : AssertionTx work EndpointOutcome := do
  let result ← run.program
  match result with
  | .ok _ => pure .other
  | .error error => throw (.failed error)

/-- A presentation of an assertion, the only one the request may make. -/
def authenticateByAssertion (deps : AssertionDeps) (request : ClientRequest work)
    (requestNow : Date) : AssertionOutcome → AssertionTx work EndpointOutcome
  | .unsupported => runOtherwise request.otherwise
  | .invalid =>
    if request.basic.isSome || request.clientSecret.isSome then
      refusePrivateKeyJwt "assertion presented alongside a client_secret" none none
    else
      refusePrivateKeyJwt "assertion failed structural validation" none none
  | .ok taken =>
    if request.basic.isSome || request.clientSecret.isSome then
      refusePrivateKeyJwt "assertion presented alongside a client_secret" taken.claimedClientId none
    else if request.clientId.any fun clientId ↦ clientId ≠ taken.claimedClientId then
      refusePrivateKeyJwt "client_id does not match the assertion" taken.claimedClientId none
    else do
      let authenticated ← authenticatePrivateKeyJwt deps request requestNow taken
      settle authenticated (request.run authenticated.client authenticated.config)

/-- Client authentication and what is done then, at any of the endpoints. -/
def authenticateEndpointClient (deps : AssertionDeps) (request : ClientRequest work)
    (requestNow : Date) : AssertionTx work EndpointOutcome := do
  let now ← request.now requestNow
  let assertion := parseClientAssertion deps.toRuntime request.body now request.tokenEndpoints
  match request.certificate with
  | .duplicated =>
    refuseTlsClientAuth "certificate subject header presented more than once"
  | .present _ =>
    if assertion ≠ .unsupported ∨ request.basic.isSome ∨ request.clientSecret.isSome then
      refuseTlsClientAuth "certificate presented alongside another authentication method"
    else
      runOtherwise request.otherwise
  | .absent => authenticateByAssertion deps request requestNow assertion

/-- The deletion of what has expired, one tenant after another in one transaction. -/
def reapTenants (now : Date) : List String → AssertionTx work EndpointOutcome
  | [] => pure .other
  | tenantId :: tenantIds => do
    onRows (.reap tenantId now)
    reapTenants now tenantIds

/-- What may happen. -/
inductive AssertionCall (work : Database) where
  | authenticate (request : ClientRequest work)
  | reap (tenantIds : List String)
  /-- Time passes. -/
  | tick (date : Date)
  | putClient (tenantId clientId : String) (row : Option ClientRecord)
  | putConfig (tenantId id : String) (row : Option ClientOidcConfig)

def AssertionCall.body (deps : AssertionDeps) :
    AssertionCall work → AssertionTx work EndpointOutcome
  | authenticate request => do
    let requestNow ← onRows .readClock
    authenticateEndpointClient deps request requestNow
  | reap tenantIds => do
    let now ← onRows .readClock
    reapTenants now tenantIds
  | tick date => do
    onRows (.setClock date)
    pure .other
  | putClient tenantId clientId row => do
    onRows (.putClient tenantId clientId row)
    pure .other
  | putConfig tenantId id row => do
    onRows (.putConfig tenantId id row)
    pure .other

/-- Requests that clients authenticate, passes of the deletion, and the rest, beside one
another. -/
abbrev assertions (work : Database) (deps : AssertionDeps) : System where
  db := assertionDatabase work
  Call := AssertionCall work
  Outcome := EndpointOutcome
  Failure := EndpointFailure
  body := AssertionCall.body deps

end Odudu.ProtocolOidc.ClientAssertion
