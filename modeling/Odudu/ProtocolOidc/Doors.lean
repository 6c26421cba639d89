import Odudu.ProtocolOidc.CompleteLogin
import Odudu.ProtocolOidc.Consent
import Odudu.ProtocolOidc.SessionReuse

/-!
# The doors of a sign-in

The requests a browser makes to be given an authorization code: `/authorize`, the login
form, the account chooser, the consent page and the required-action page
(`usecase/authorization-request.ts`, `usecase/login-submission.ts`,
`usecase/consent-submission.ts`, `usecase/required-action-submission.ts`).  Each is one
transaction after another; one that throws is rolled back and answered `failed`.

Of `/authorize` this is what follows the validation of the request against its client's
registration.  What a door reads of configuration, users, consents and credentials is an
input of its call, and so are the ids and secrets it makes.  Left out: the pages' own
text, the cookies sent back, the audit, `remember_me` on its way to the consent page, and
the record of the consent.
-/

set_option autoImplicit false

namespace Odudu.ProtocolOidc

open ReadCommitted Program AuthnFlows

inductive RequiredAction where
  | updatePassword
  | configureTotp
  | configurePasskey
  | generateRecoveryCodes
  deriving DecidableEq

/-- `REQUIRED_ACTION_ORDER`. -/
def requiredActionOrder : List RequiredAction :=
  [.updatePassword, .configureTotp, .configurePasskey, .generateRecoveryCodes]

/-- The action a login must complete next. -/
def nextRequiredAction (pending : List RequiredAction) : Option RequiredAction :=
  requiredActionOrder.find? pending.contains

/-- What a door reads in tables that are not modelled. -/
structure DoorLookups where
  tenantEnabled : Bool
  verifyEmail : Bool
  registrationAllowed : Bool
  lifespans : SessionLifespans
  maxSessionsPerBrowser : ℕ
  loginTtlSeconds : Time
  authorizationCodeTtlSeconds : Time
  registrationPolicy : RegistrationPolicy
  /-- Nothing where there is no such client. -/
  registrationOrigin : ClientId → Option RegistrationOrigin
  registeredAudiences : ClientId → List String
  emailVerified : SubjectId → Bool
  pendingActions : SubjectId → List RequiredAction
  consentContext : ClientId → ConsentContext
  grantedScopeIds : SubjectId → ClientId → List ℕ
  /-- The flow and its factors. -/
  flow : Lookups

/-- What a request is made with: the cookies of its browser, what the door reads
elsewhere, and the ids and secrets it makes. -/
structure Door where
  seen : DoorLookups
  entries : List SessionEntry
  remembered : Bool
  codeHash : TokenHash
  newSessionId : SessionId
  newSecretHash : ℕ

inductive DoorOutcome where
  /-- No live attempt, or nobody to act for. -/
  | unauthenticated
  /-- The step was turned down, or asks for more. -/
  | reject
  | unverified
  | requiredAction (action : RequiredAction)
  | consent
  | errorRedirect (error : AuthorizationErrorCode)
  /-- A code, and the session it is on. -/
  | redirect (sessionId : SessionId) (codeHash : TokenHash)
  | started
  | register
  | select (candidates : List ReusableSession)
  | invalidSelection
  /-- The action submitted is not the one owed next, or was not done. -/
  | notOwed
  | notDone
  /-- An error nothing caught. -/
  | failed
  deriving DecidableEq

/-- What a door answers, with what the flow answered it and the factors it saw passed. -/
structure DoorAnswer where
  outcome : DoorOutcome
  ran : Option AdvanceOutcome
  passed : List Allowed

/-- An answer of a door that ran no factor. -/
def DoorOutcome.plain (outcome : DoorOutcome) : DoorAnswer := ⟨outcome, none, []⟩

/-- The sessions that the cookies prove. -/
def resolveSessions (entries : List SessionEntry) (lifespans : SessionLifespans) :
    Tx (List (SessionId × Session)) := do
  let now ← query .readClock
  query (.sessionLiveByEntries entries lifespans now)

/-- The session among these that was chosen. -/
def chosenAmong (sessions : List (SessionId × Session)) (sessionId : SessionId) :
    Option Session :=
  (sessions.find? fun session ↦ decide (session.1 = sessionId)).map Prod.snd

/-- What `/authorize` offers first, to nobody known. -/
def initialChallenge (V : Primitives) (seen : Lookups) : Tx AuthenticatorResult := do
  let now ← query .readClock
  let dispatched ← dispatchNext V seen .nothing ⟨none, none, now, seen.loginWithEmail⟩
    (loadSteps seen ⟨none, [], false, false⟩) []
  match dispatched with
  | .ran _ result => pure result
  | _ => pure (.failure .noApplicableExecution)

/-- A session's attempt, parked for what is still owed. -/
def promoteToParkedRequest (id : AuthSessionId) (ttlSeconds : Time) (request : PendingRequest)
    (session : ReusableSession) : Tx Bool := do
  let parked ← (startAuthentication id ttlSeconds
    { request with
      reuseSessionId := some session.id
      reuseAuthTime := some session.authTime }).transaction
  match parked with
  | .error _ => pure false
  | .ok _ => do
    markSessionAuthenticated id session.subjectId session.authenticators
    endTransaction
    pure true

namespace Door

variable (d : Door)

def owes (subjectId : SubjectId) : Option RequiredAction :=
  nextRequiredAction (d.seen.pendingActions subjectId)

def refusesUnverified (subjectId : SubjectId) : Bool :=
  d.seen.verifyEmail && !d.seen.emailVerified subjectId

def consentGate (clientId : ClientId) (subjectId : SubjectId) (scope : List String)
    (prompt : List Prompt) : ConsentDecision :=
  decideConsentGate (d.seen.consentContext clientId) (d.seen.grantedScopeIds subjectId clientId)
    scope prompt

/-- What a code is issued from, of a parked request. -/
def codeInput (pending : PendingRequest) (subjectId : SubjectId) :
    IssueAuthorizationCodeInput where
  codeHash := d.codeHash
  authorizationCodeTtlSeconds := d.seen.authorizationCodeTtlSeconds
  clientId := pending.clientId
  subjectId
  redirectUri := pending.redirectUri
  scope := pending.scope
  codeChallenge := pending.codeChallenge
  resource := pending.resource
  userinfoClaims := pending.userinfoClaims

/-- The session a parked request was promoted from. -/
def reuseSession (pending : PendingRequest) : Option (SessionId × Time) :=
  match pending.reuseSessionId, pending.reuseAuthTime with
  | some sessionId, some authTime => some (sessionId, authTime)
  | _, _ => none

def completion (id : AuthSessionId) (pending : PendingRequest) (subjectId : SubjectId)
    (authenticators : List AuthenticatorName) (before : List (SessionId × Session)) :
    CompleteLoginInput where
  authSessionId := id
  reuseSession := reuseSession pending
  code := d.codeInput pending subjectId
  session := {
    subjectId
    authenticators
    remembered := d.remembered
    browserSessions := before.filterMap fun session ↦
      session.2.secretHash.map fun secretHash ↦ ⟨session.1, secretHash⟩
    maxSessionsPerBrowser := d.seen.maxSessionsPerBrowser
    lifespans := d.seen.lifespans
    newSessionId := d.newSessionId
    newSecretHash := d.newSecretHash }

/-- The tail every path that finishes a login shares. -/
def completeAuthorizedLogin (id : AuthSessionId) (pending : PendingRequest)
    (subjectId : SubjectId) (authenticators : List AuthenticatorName) : Tx DoorOutcome := do
  let before ← resolveSessions d.entries d.seen.lifespans
  endTransaction
  let completed ←
    (completeLogin (d.completion id pending subjectId authenticators before)).transaction
  match completed with
  | .error _ => pure .failed
  | .ok .alreadyConsumed => pure .unauthenticated
  | .ok .subjectDisabled => pure .reject
  | .ok (.issued sessionId codeHash) => pure (.redirect sessionId codeHash)

/-- A live session answers by itself. -/
def reuse (pending : PendingRequest) (session : ReusableSession) : Tx DoorOutcome := do
  let completed ← (completeReuse (d.codeInput pending session.subjectId) session.id
    session.authTime).transaction
  match completed with
  | .error _ => pure .failed
  | .ok _ => pure (.redirect session.id d.codeHash)

/-- The attempt is put back to how it started, and the answer given. -/
def resetAnd (id : AuthSessionId) (outcome : DoorOutcome) : Tx DoorOutcome := do
  resetAuthenticationProgress id
  endTransaction
  pure outcome

/-- The gates between a request that is known to be for this subject and its code. -/
def gatedCompletion (id : AuthSessionId) (pending : PendingRequest) (subjectId : SubjectId)
    (authenticators : List AuthenticatorName) : Tx DoorOutcome :=
  match d.owes subjectId with
  | some action => pure (.requiredAction action)
  | none =>
    if (d.seen.registrationOrigin pending.clientId).isNone then pure .unauthenticated
    else
      match d.consentGate pending.clientId subjectId pending.scope pending.prompt with
      | .refuse => pure (.errorRedirect .consentRequired)
      | .ask .. => pure .consent
      | .notRequired => do
        let completed ← d.completeAuthorizedLogin id pending subjectId authenticators
        match completed with
        | .reject => resetAnd id .reject
        | completed => pure completed

/-- What follows a flow that ran out of steps. -/
def afterFactors (id : AuthSessionId) (subjectId : SubjectId)
    (authenticators : List AuthenticatorName) : Tx DoorOutcome := do
  let subject ← query (.subjectById subjectId)
  endTransaction
  if !subjectIsEnabled subject then resetAnd id .reject
  else if d.refusesUnverified subjectId then pure .unverified
  else do
    let pending ← loadPendingRequest id
    endTransaction
    match pending with
    | none => pure .unauthenticated
    | some pending =>
      if pending.idTokenHintSubject.any fun hinted ↦ decide (hinted ≠ subjectId) then
        resetAnd id (.errorRedirect .loginRequired)
      else if pending.claimsSubject.any fun claimed ↦ decide (claimed ≠ subjectId) then
        resetAnd id (.errorRedirect .loginRequired)
      else d.gatedCompletion id pending subjectId authenticators

/-- The login form posted, or a finished required action gone on with. -/
def handleLoginSubmission (V : Primitives) (id : AuthSessionId) (input : AdvanceInput)
    (seen : Seen) : Tx DoorAnswer :=
  if !d.seen.tenantEnabled then pure (DoorOutcome.plain .unauthenticated)
  else do
    let r ← advance V seen id input
    endTransaction
    match r.outcome with
    | .failure .authenticationSessionExpired => pure ⟨.unauthenticated, some r.outcome, r.allowed⟩
    | .failure _ | .challenge _ => pure ⟨.reject, some r.outcome, r.allowed⟩
    | .success subjectId authenticators => do
      let outcome ← d.afterFactors id subjectId authenticators
      pure ⟨outcome, some r.outcome, r.allowed⟩

/-- The login form is shown again, for somebody else. -/
def startedLogin (V : Primitives) : Tx DoorOutcome := do
  let initial ← initialChallenge V d.seen.flow
  match initial with
  | .challenge _ => pure .started
  | .failure _ => pure (.errorRedirect .loginRequired)
  | .success .. => pure .failed

/-- What follows a choice that is to stand. -/
def continueAs (id : AuthSessionId) (pending : PendingRequest) (session : ReusableSession) :
    Tx DoorOutcome :=
  match d.owes session.subjectId with
  | some action => do
    markSessionAuthenticated id session.subjectId session.authenticators
    endTransaction
    pure (.requiredAction action)
  | none =>
    match d.consentGate pending.clientId session.subjectId pending.scope pending.prompt with
    | .refuse => pure (.errorRedirect .consentRequired)
    | .ask .. => do
      markSessionAuthenticated id session.subjectId session.authenticators
      endTransaction
      pure .consent
    | .notRequired => d.reuse pending session

/-- The account chooser posted: a session, or none for somebody else. -/
def handleSelectAccountSubmission (V : Primitives) (id : AuthSessionId)
    (answer : Option SessionId) : Tx DoorOutcome :=
  if !d.seen.tenantEnabled then pure .unauthenticated
  else do
    let pending ← pendingSession id
    endTransaction
    match pending with
    | none => pure .unauthenticated
    | some pending =>
      match answer with
      | none => d.startedLogin V
      | some sessionId => do
        let sessions ← resolveSessions d.entries d.seen.lifespans
        endTransaction
        let now ← query .readClock
        match chosenAmong sessions sessionId with
        | none => pure .invalidSelection
        | some chosen =>
          if !withinMaxAge chosen.createdAt pending.maxAge now then pure .invalidSelection
          else if (d.seen.registrationOrigin pending.clientId).isNone then pure .unauthenticated
          else if pending.idTokenHintSubject.any fun hinted ↦ decide (hinted ≠ chosen.subjectId) then
            pure (.errorRedirect .loginRequired)
          else if pending.claimsSubject.any fun claimed ↦ decide (claimed ≠ chosen.subjectId) then
            pure (.errorRedirect .loginRequired)
          else if d.refusesUnverified chosen.subjectId then pure (.errorRedirect .loginRequired)
          else do
            let subject ← query (.subjectById chosen.subjectId)
            endTransaction
            if !subjectIsEnabled subject then d.startedLogin V
            else if !authenticatorsSatisfyFlow d.seen.flow chosen.subjectId chosen.authenticators then
              d.startedLogin V
            else d.continueAs id pending (toReusableSession (sessionId, chosen))

/-- The consent page posted: refused, or given for what was left ticked. -/
def handleConsentSubmission (id : AuthSessionId) (allow : Bool) (ticked : List String) :
    Tx DoorOutcome :=
  if !d.seen.tenantEnabled then pure .unauthenticated
  else do
    let authenticated ← authenticatedSession d.seen.flow id
    endTransaction
    match authenticated with
    | none => pure .unauthenticated
    | some (subjectId, authenticators) =>
      if d.refusesUnverified subjectId then pure .unverified
      else do
        let pending ← loadPendingRequest id
        endTransaction
        match pending with
        | none => pure .unauthenticated
        | some pending =>
          match d.owes subjectId with
          | some action => pure (.requiredAction action)
          | none =>
            if (d.seen.registrationOrigin pending.clientId).isNone then pure .unauthenticated
            else if !allow then pure (.errorRedirect .accessDenied)
            else do
              let scope := consentedScope (d.seen.consentContext pending.clientId) ticked
                pending.scope
              let completed ← d.completeAuthorizedLogin id { pending with scope } subjectId
                authenticators
              match completed with
              | .reject => pure .unauthenticated
              | completed => pure completed

end Door

/-- What a required action is submitted with. -/
inductive ActionSubmission where
  /-- Whether the password was taken. -/
  | updatePassword (updated : Bool)
  | configureTotp (secret code : String)
  /-- Whether there is a relying party, and the attestation was verified and stored. -/
  | configurePasskey (supported stored : Bool)
  /-- Whether there were codes to acknowledge, or no second factor to issue them for. -/
  | generateRecoveryCodes (acknowledged : Bool)

def ActionSubmission.action : ActionSubmission → RequiredAction
  | updatePassword _ => .updatePassword
  | configureTotp .. => .configureTotp
  | configurePasskey .. => .configurePasskey
  | generateRecoveryCodes _ => .generateRecoveryCodes

/-- The action done, if it can be, and the factors that doing it passed. -/
def completeAction (V : Primitives) (seen : Lookups) (id : AuthSessionId)
    (subjectId : SubjectId) : ActionSubmission → Tx (Bool × List Allowed)
  | .updatePassword updated => pure (updated, [])
  | .configureTotp secret code => do
    let outcome ← completeTotpEnrolment V seen id subjectId secret code
    match outcome with
    | .enrolled => pure (true, [(.otp, subjectId)])
    | .alreadyEnrolled => pure (true, [])
    | .invalidCode => pure (false, [])
  | .configurePasskey supported stored =>
    if !supported then pure (false, [])
    else do
      let challenge ← query (.authenticationSessionClaimWebauthnChallenge id)
      pure (challenge.isSome && stored, [])
  | .generateRecoveryCodes acknowledged => pure (acknowledged, [])

/-- The required-action page posted.  A finished action goes on with the parked login, in
which everything is read again. -/
def Door.handleRequiredActionSubmission (d : Door) (V : Primitives) (id : AuthSessionId)
    (submission : ActionSubmission) (seenAfter : DoorLookups) (seen : Seen) : Tx DoorAnswer :=
  if !d.seen.tenantEnabled then pure (DoorOutcome.plain .unauthenticated)
  else do
    let authenticated ← authenticatedSession d.seen.flow id
    endTransaction
    match authenticated with
    | none => pure (DoorOutcome.plain .unauthenticated)
    | some (subjectId, _) =>
      if d.owes subjectId ≠ some submission.action then pure (DoorOutcome.plain .notOwed)
      else do
        let (completed, passed) ← completeAction V d.seen.flow id subjectId submission
        endTransaction
        if !completed then pure ⟨.notDone, none, passed⟩
        else do
          let resumed ← { d with seen := seenAfter }.handleLoginSubmission V id .nothing seen
          pure { resumed with passed := passed ++ resumed.passed }

/-- A request to `/authorize` that is valid for its client. -/
structure AuthorizationRequest where
  clientId : ClientId
  redirectUri : String
  scope : List String
  codeChallenge : String
  prompts : Prompts
  maxAge : Option Time
  /-- Whom an `id_token_hint` names, and a `sub` of `claims`. -/
  hintSubject : Option SubjectId
  claimsSubject : Option SubjectId
  userinfoClaims : List String
  resource : Field

/-- What every branch of `/authorize` parks. -/
def AuthorizationRequest.parked (request : AuthorizationRequest) (scope audience : List String) :
    PendingRequest where
  clientId := request.clientId
  redirectUri := request.redirectUri
  scope
  codeChallenge := request.codeChallenge
  idTokenHintSubject := request.hintSubject
  claimsSubject := request.claimsSubject
  prompt := request.prompts.values
  maxAge := none
  reuseSessionId := none
  reuseAuthTime := none
  resource := audience
  userinfoClaims := request.userinfoClaims

/-- The sessions whose subjects are enabled. -/
def enabledSessions : List (SessionId × Session) → Tx (List (SessionId × Session))
  | [] => pure []
  | session :: sessions => do
    let subject ← query (.subjectById session.2.subjectId)
    let enabled ← enabledSessions sessions
    pure (if subjectIsEnabled subject then session :: enabled else enabled)

namespace Door

variable (d : Door) (V : Primitives)

/-- A request is parked, and a page shown. -/
def park (id : AuthSessionId) (request : PendingRequest) (shown : DoorOutcome) :
    Tx DoorOutcome := do
  let parked ← (startAuthentication id d.seen.loginTtlSeconds request).transaction
  match parked with
  | .error _ => pure .failed
  | .ok _ => pure shown

/-- The attempt is promoted, and a page shown. -/
def promote (id : AuthSessionId) (request : PendingRequest) (session : ReusableSession)
    (shown : DoorOutcome) : Tx DoorOutcome := do
  let parked ← promoteToParkedRequest id d.seen.loginTtlSeconds request session
  pure (if parked then shown else .failed)

/-- A request that a session answers. -/
def answerFrom (id : AuthSessionId) (request : PendingRequest) (session : ReusableSession) :
    Tx DoorOutcome :=
  if d.refusesUnverified session.subjectId then pure (.errorRedirect .loginRequired)
  else
    match d.owes session.subjectId with
    | some action =>
      if request.prompt.contains .none then pure (.errorRedirect .loginRequired)
      else d.promote id request session (.requiredAction action)
    | none =>
      match d.consentGate request.clientId session.subjectId request.scope request.prompt with
      | .refuse => pure (.errorRedirect .consentRequired)
      | .ask .. => d.promote id request session .consent
      | .notRequired => d.reuse request session

/-- A request that has to authenticate. -/
def authenticate (id : AuthSessionId) (request : PendingRequest) : Tx DoorOutcome := do
  let initial ← initialChallenge V d.seen.flow
  endTransaction
  match initial with
  | .challenge _ => d.park id request .started
  | .failure _ => pure (.errorRedirect .loginRequired)
  | .success .. => pure .failed

/-- What is done with a request once its resource and its scope are settled. -/
def answerParked (id : AuthSessionId) (request : PendingRequest) (maxAge : Option Time) :
    Tx DoorOutcome :=
  if request.prompt.contains .create then
    if !d.seen.registrationAllowed then pure (.errorRedirect .invalidRequest)
    else if request.idTokenHintSubject.isSome || request.claimsSubject.isSome then
      pure (.errorRedirect .invalidRequest)
    else d.park id { request with maxAge } .register
  else do
    let sessions ← resolveSessions d.entries d.seen.lifespans
    endTransaction
    let enabled ← enabledSessions sessions
    endTransaction
    let candidates := (enabled.map toReusableSession).filter fun session ↦
      request.idTokenHintSubject.all (fun hinted ↦ decide (session.subjectId = hinted)) &&
        request.claimsSubject.all fun claimed ↦ decide (session.subjectId = claimed)
    let now ← query .readClock
    match decideReuse candidates request.prompt maxAge now with
    | .refuse error => pure (.errorRedirect error)
    | .reuse session =>
      if authenticatorsSatisfyFlow d.seen.flow session.subjectId session.authenticators then
        d.answerFrom id request session
      else if request.prompt.contains .none then pure (.errorRedirect .loginRequired)
      else d.authenticate V id { request with maxAge }
    | .select candidates => d.park id { request with maxAge } (.select candidates)
    | .authenticate => d.authenticate V id { request with maxAge }

/-- `/authorize`, for a valid request. -/
def handleAuthorizationRequest (env : Deployment) (id : AuthSessionId)
    (request : AuthorizationRequest) : Tx DoorOutcome :=
  match d.seen.registrationOrigin request.clientId with
  | none => pure .unauthenticated
  | some origin =>
    let scope := grantableScopes origin request.scope
    match parseResource env request.resource
        (audiencesHeld env origin d.seen.registrationPolicy
          (d.seen.registeredAudiences request.clientId)) with
    | none => pure (.errorRedirect .invalidTarget)
    | some audience =>
      if refusesWriteScope origin scope ||
          !scopesCoherentWithAudience scope audience env.mcpAudience ADMIN_API_AUDIENCE then
        pure (.errorRedirect .invalidScope)
      else d.answerParked V id (request.parked scope audience) request.maxAge

end Door

end Odudu.ProtocolOidc
