import Odudu.AuthnFlows.Authenticators
import Odudu.AuthnFlows.Requirements
import Odudu.ProtocolOidc.Repositories

/-!
# Running a sign-in

`usecase/executor.ts` and `usecase/totp-enrolment.ts` over the rows: `advance`, what
promotes and resets an attempt, and who may act for one that is finished.  What these
read of users, credentials, lockouts and flow settings, and whether their conditional
writes to credentials land, are inputs (`Lookups`), one for each place at which the
source reads them, so that others may change those tables in between.

`advance` hands back its answer together with the `allowed` rows it wrote to the audit
trail: the factors it saw passed, and by whom.

Left out: the refused rows of the audit, the failure counts, and the required actions
that an attempt adds.
-/

set_option autoImplicit false

namespace Odudu.AuthnFlows

open ReadCommitted ProtocolOidc

/-- What an attempt finds in the tables it does not write to, at one place. -/
structure Lookups where
  /-- `executionRepository(tx).forTenant`. -/
  executions : List Execution
  otpRequired : Bool
  loginWithEmail : Bool
  byUsername : String → Option SubjectId
  byVerifiedEmail : String → Option SubjectId
  passwordCredentialFor : SubjectId → Option PasswordCredential
  lockedUntil : SubjectId → Option Time
  storedTotpFor : SubjectId → Option StoredTotp
  storedRecoveryCodesFor : SubjectId → List StoredRecoveryCode
  byLookupKey : String → Option PasskeyCredential
  relyingPartyOfTenant : Option RelyingParty
  /-- Whether the write of the step that just validated lands. -/
  recordTotpUse : CredentialId → Int → Bool
  advanceWebauthnCounter : CredentialId → ℕ → Bool
  spendRecoveryCode : CredentialId → Bool

/-- The lookups of one call of `advance`, in the order it makes them. -/
structure Seen where
  /-- `loadFlowContext`. -/
  atStart : Lookups
  /-- The step that answers the submission, and what it deferred. -/
  atFactor : Lookups
  /-- The flow read again for the subject. -/
  afterFactor : Lookups
  /-- The step offered next. -/
  atOffer : Lookups

/-- A write that a step verified and left to `advance`. -/
inductive Commit where
  | upgradePassword
  | advanceWebauthnCounter (credentialId : CredentialId) (counter : ℕ)
  | spendRecoveryCode (credentialId : CredentialId)

inductive AuthenticatorResult where
  | success (subjectId : SubjectId) (commit : Option Commit)
  | challenge (form : AuthenticatorName)
  | failure (reason : FailureReason)

/-- What is known about the attempt before any step runs. -/
structure StepContext where
  subjectId : Option SubjectId
  authSessionId : Option AuthSessionId
  now : Time
  loginWithEmail : Bool

/-- The id a lookup is keyed on when a name resolves to nobody. -/
def dummySubjectId : SubjectId := 0

def isLockedOut (lockedUntil : Option Time) (now : Time) : Bool :=
  lockedUntil.any fun until_ ↦ decide (now < until_)

/-- Whether what a step deferred lands. -/
def Lookups.lands (seen : Lookups) : Option Commit → Bool
  | none | some .upgradePassword => true
  | some (.advanceWebauthnCounter credentialId counter) =>
    seen.advanceWebauthnCounter credentialId counter
  | some (.spendRecoveryCode credentialId) => seen.spendRecoveryCode credentialId

section Steps

variable (V : Primitives) (seen : Lookups) (input : AdvanceInput) (context : StepContext)

/-- Whose account a name is: an input carrying `@` is a verified address first. -/
def accountFor (login : String) : Option SubjectId :=
  let byUsername := seen.byUsername login
  let byEmail := if context.loginWithEmail then seen.byVerifiedEmail login else none
  if '@' ∈ login.toList then byEmail.or byUsername else byUsername.or byEmail

def runPasswordStep : AuthenticatorResult :=
  match input.username, input.password with
  | some login, some password =>
    let found := accountFor seen context login
    let keyedOn := found.getD dummySubjectId
    match passwordStep V password ⟨found, seen.passwordCredentialFor keyedOn⟩ with
    | some (subjectId, upgrade) =>
      if isLockedOut (seen.lockedUntil keyedOn) context.now then .failure .invalidCredentials
      else .success subjectId (if upgrade then some .upgradePassword else none)
    | none => .failure .invalidCredentials
  | _, _ => .challenge .password

/-- `refusedWhileLocked`: a submission against a locked account is not looked at. -/
def refusedWhileLocked (submitted : Bool) : Bool :=
  submitted && context.subjectId.any fun subjectId ↦
    isLockedOut (seen.lockedUntil subjectId) context.now

def runOtpStep : AuthenticatorResult :=
  if refusedWhileLocked seen context input.code.isSome then .failure .invalidCredentials
  else
    let stored := context.subjectId.bind seen.storedTotpFor
    match totpStep V input.code context.subjectId (stored.map StoredTotp.secret) context.now with
    | .failure => .failure .invalidCredentials
    | .challenge => .challenge .otp
    | .success subjectId step =>
      match stored with
      | none => .success subjectId none
      | some stored =>
        if seen.recordTotpUse stored.id step then .success subjectId none
        else .failure .invalidCredentials

def runRecoveryStep : AuthenticatorResult :=
  if refusedWhileLocked seen context (recoveryCodeOffered V input) then
    .failure .invalidCredentials
  else
    let codes := (context.subjectId.map seen.storedRecoveryCodesFor).getD []
    match recoveryStep V input context.subjectId codes with
    | .failure reason => .failure reason
    | .challenge => .challenge .recoveryCode
    | .success subjectId credentialId => .success subjectId (some (.spendRecoveryCode credentialId))

/-- The challenge is read and cleared before the assertion is looked at. -/
def runPasskeyStep : Tx AuthenticatorResult :=
  if !assertionOffered input then pure (.challenge .passkey)
  else do
    let credential := (assertedCredentialId input.assertion).bind seen.byLookupKey
    let expectedChallenge ←
      match context.authSessionId with
      | none => pure none
      | some id => query (.authenticationSessionClaimWebauthnChallenge id)
    match passkeyStep V input.assertion credential expectedChallenge
        seen.relyingPartyOfTenant with
    | .failure => pure (.failure .invalidCredentials)
    | .success subjectId credentialId counter =>
      pure (.success subjectId (some (.advanceWebauthnCounter credentialId counter)))

/-- The registry. -/
def runAuthenticator : AuthenticatorName → Tx AuthenticatorResult
  | .password => pure (runPasswordStep V seen input context)
  | .passkey => runPasskeyStep V seen input context
  | .otp => pure (runOtpStep V seen input context)
  | .recoveryCode => pure (runRecoveryStep V seen input context)

inductive Dispatch where
  | ran (authenticator : AuthenticatorName) (result : AuthenticatorResult)
  | complete
  | fail

/-- One decision, and the step it names run. -/
def dispatchNext (steps : List Step) (satisfied : List AuthenticatorName) : Tx Dispatch :=
  match nextStep steps satisfied with
  | .fail => pure .fail
  | .complete => pure .complete
  | .run authenticator => do
    let result ← runAuthenticator V seen input context authenticator
    pure (.ran authenticator result)

end Steps

/-- What decides which steps apply. -/
structure FlowFacts where
  hasTotp : Bool
  hasRecoveryCodes : Bool
  otpRequired : Bool
  satisfied : List AuthenticatorName
  assertionOffered : Bool
  recoveryCodeOffered : Bool

structure FactsRequest where
  subjectId : Option SubjectId
  satisfied : List AuthenticatorName
  assertionOffered : Bool
  recoveryCodeOffered : Bool

def flowFacts (seen : Lookups) (request : FactsRequest) : FlowFacts where
  hasTotp := (request.subjectId.bind seen.storedTotpFor).isSome
  hasRecoveryCodes := request.recoveryCodeOffered &&
    request.subjectId.any fun subjectId ↦ !(seen.storedRecoveryCodesFor subjectId).isEmpty
  otpRequired := seen.otpRequired
  satisfied := request.satisfied
  assertionOffered := request.assertionOffered
  recoveryCodeOffered := request.recoveryCodeOffered

def otpApplies (facts : FlowFacts) : Bool :=
  otpApplicable facts.hasTotp facts.otpRequired facts.satisfied

/-- Whether a step applies, `recoveryCarries` saying that the recovery step will run for
this submission and so may take the place of the OTP step. -/
def isApplicable (facts : FlowFacts) (recoveryCarries : Bool) : AuthenticatorName → Bool
  | .password => true
  | .passkey => facts.assertionOffered
  | .recoveryCode =>
    recoveryApplicable facts.hasRecoveryCodes facts.recoveryCodeOffered
      (facts.hasTotp && otpApplies facts) facts.satisfied
  | .otp =>
    if recoveryCarries then false
    else if .recoveryCode ∈ facts.satisfied then false
    else otpApplies facts && facts.hasTotp

def loadSteps (seen : Lookups) (request : FactsRequest) : List Step :=
  let facts := flowFacts seen request
  let recoveryCarries :=
    (seen.executions.any fun execution ↦
      decide (execution.authenticator = .recoveryCode ∧ execution.requirement ≠ .disabled)) &&
      isApplicable facts false .recoveryCode
  seen.executions.map fun execution ↦
    ⟨execution.authenticator, execution.requirement,
      isApplicable facts recoveryCarries execution.authenticator⟩

/-- `BROWSER_FLOW_DEFAULT`: what a tenant is provisioned with. -/
def browserFlowDefault : List Execution :=
  [⟨.passkey, .alternative⟩, ⟨.password, .alternative⟩, ⟨.otp, .conditional⟩,
    ⟨.recoveryCode, .conditional⟩]

/-- `authenticatorsSatisfyFlow`: whether these leave the subject nothing to pass. -/
def authenticatorsSatisfyFlow (seen : Lookups) (subjectId : SubjectId)
    (authenticators : List AuthenticatorName) : Bool :=
  decide (nextStep (loadSteps seen ⟨some subjectId, authenticators, false, false⟩)
    authenticators = .complete)

section Advance

inductive AdvanceOutcome where
  | success (subjectId : SubjectId) (authenticators : List AuthenticatorName)
  | challenge (form : AuthenticatorName)
  | failure (reason : FailureReason)
  deriving DecidableEq

/-- A factor passed, and by whom: an `allowed` row of the audit. -/
abbrev Allowed := AuthenticatorName × SubjectId

/-- What a call of `advance` hands back, with the `allowed` rows it wrote. -/
structure Advanced where
  outcome : AdvanceOutcome
  allowed : List Allowed

inductive SettledResult where
  | success
  | challenge (form : AuthenticatorName)
  | failure (reason : FailureReason)

/-- Whatever the second step deferred, under the rules of the first. -/
def settle (seen : Lookups) (boundTo : SubjectId) : AuthenticatorResult → SettledResult
  | .challenge form => .challenge form
  | .failure reason => .failure reason
  | .success subjectId commit =>
    if subjectId ≠ boundTo then .failure .subjectMismatch
    else if seen.lands commit then .success
    else .failure .invalidCredentials

variable (V : Primitives) (seen : Seen) (id : AuthSessionId) (input : AdvanceInput)

/-- The last write of an attempt: the instant it ran out of steps, or none. -/
def recordOutcome (outcome : AdvanceOutcome) : Tx Unit :=
  match outcome with
  | .success .. => do
    let now ← query .readClock
    query (.authenticationSessionRecordAuthenticated id (some now))
  | _ => query (.authenticationSessionRecordAuthenticated id none)

/-- What follows the factor that was passed: the attempt is bound, the flow is read again
for the subject, and the next step is offered. -/
def advanceBound (satisfied : List AuthenticatorName) (authenticator : AuthenticatorName)
    (subjectId : SubjectId) : Tx Advanced := do
  query (.authenticationSessionBindSubject id subjectId)
  let steps := loadSteps seen.afterFactor
    ⟨some subjectId, satisfied ++ [authenticator], assertionOffered input,
      recoveryCodeOffered V input⟩
  query (.authenticationSessionRecordSatisfied id authenticator)
  let now ← query .readClock
  let dispatched ← dispatchNext V seen.atOffer .nothing
    ⟨some subjectId, some id, now, seen.afterFactor.loginWithEmail⟩ steps
    (satisfied ++ [authenticator])
  match dispatched with
  | .ran offered result =>
    match settle seen.atOffer subjectId result with
    | .success => do
      query (.authenticationSessionRecordSatisfied id offered)
      let outcome := AdvanceOutcome.success subjectId
        (satisfied ++ [authenticator, offered]).eraseDups
      recordOutcome id outcome
      pure ⟨outcome, [(authenticator, subjectId), (offered, subjectId)]⟩
    | .failure reason => do
      recordOutcome id (.failure reason)
      pure ⟨.failure reason, [(authenticator, subjectId)]⟩
    | .challenge form => do
      recordOutcome id (.challenge form)
      pure ⟨.challenge form, [(authenticator, subjectId)]⟩
  | .fail => do
    recordOutcome id (.failure .noApplicableExecution)
    pure ⟨.failure .noApplicableExecution, [(authenticator, subjectId)]⟩
  | .complete => do
    let outcome := AdvanceOutcome.success subjectId (satisfied ++ [authenticator]).eraseDups
    recordOutcome id outcome
    pure ⟨outcome, [(authenticator, subjectId)]⟩

/-- What becomes of the step that was run.  The guard is on the row as it was read. -/
def advanceRan (record : AuthenticationSession) : Dispatch → Tx Advanced
  | .ran _ (.challenge form) => do
    query (.authenticationSessionRecordAuthenticated id none)
    pure ⟨.challenge form, []⟩
  | .ran _ (.failure reason) => pure ⟨.failure reason, []⟩
  | .ran authenticator (.success subjectId commit) =>
    if record.subjectId ≠ none ∧ record.subjectId ≠ some subjectId then
      pure ⟨.failure .subjectMismatch, []⟩
    else if !seen.atFactor.lands commit then pure ⟨.failure .invalidCredentials, []⟩
    else advanceBound V seen id input record.satisfied authenticator subjectId
  | _ => pure ⟨.failure .noApplicableExecution, []⟩

/-- One submission against an attempt. -/
def advance : Tx Advanced := do
  let found ← query (.authenticationSessionById id)
  let checkedAt ← query .readClock
  match found with
  | none => pure ⟨.failure .authenticationSessionExpired, []⟩
  | some record =>
    if record.expiresAt ≤ checkedAt then pure ⟨.failure .authenticationSessionExpired, []⟩
    else do
      let steps := loadSteps seen.atStart
        ⟨record.subjectId, record.satisfied, assertionOffered input, recoveryCodeOffered V input⟩
      let now ← query .readClock
      let context : StepContext := ⟨record.subjectId, some id, now, seen.atStart.loginWithEmail⟩
      let dispatched ← dispatchNext V seen.atFactor input context steps record.satisfied
      match dispatched, record.subjectId with
      | .complete, some subjectId =>
        -- Every step is satisfied.  With nothing submitted that is a finished required
        -- action resuming the login; a submission runs from the first step.
        if !carriesCredential input then do
          let authenticatedAt ← query .readClock
          query (.authenticationSessionRecordAuthenticated id (some authenticatedAt))
          pure ⟨.success subjectId record.satisfied, []⟩
        else do
          let dispatched ← dispatchNext V seen.atFactor input context steps []
          advanceRan V seen id input record dispatched
      | dispatched, _ => advanceRan V seen id input record dispatched

end Advance

/-- The row of an attempt as it is parked: bound to nobody. -/
def startedSession (request : PendingRequest) (expiresAt : Time) : AuthenticationSession where
  pendingRequest := request
  expiresAt
  consumedAt := none
  satisfied := []
  subjectId := none
  authenticatedAt := none
  webauthnChallenge := none

/-- A request is parked. -/
def startAuthentication (id : AuthSessionId) (ttlSeconds : Time) (request : PendingRequest) :
    Tx Unit := do
  let now ← query .readClock
  let created ← query
    (.authenticationSessionCreate id (startedSession request (now + ttlSeconds)))
  if created then pure () else Program.throw .internal

/-- The parked request of an attempt, whatever its state. -/
def loadPendingRequest (id : AuthSessionId) : Tx (Option PendingRequest) := do
  let found ← query (.authenticationSessionById id)
  pure (found.map fun record ↦ record.pendingRequest)

/-- `sessionIsLive`: unexpired and unconsumed. -/
def sessionIsLive (record : AuthenticationSession) (now : Time) : Bool :=
  decide (now < record.expiresAt) && record.consumedAt.isNone

/-- The parked request of an attempt that is live, whoever it is bound to. -/
def pendingSession (id : AuthSessionId) : Tx (Option PendingRequest) := do
  let found ← query (.authenticationSessionById id)
  let now ← query .readClock
  pure ((found.filter fun record ↦ sessionIsLive record now).map fun record ↦
    record.pendingRequest)

/-- Whom a finished attempt answers for, and with which factors. -/
def authenticatedSession (seen : Lookups) (id : AuthSessionId) :
    Tx (Option (SubjectId × List AuthenticatorName)) := do
  let found ← query (.authenticationSessionById id)
  let now ← query .readClock
  match found with
  | none => pure none
  | some record =>
    match record.subjectId with
    | none => pure none
    | some subjectId =>
      if sessionIsLive record now && record.authenticatedAt.isSome &&
          authenticatorsSatisfyFlow seen subjectId record.satisfied then
        pure (some (subjectId, record.satisfied))
      else pure none

/-- `recordSatisfied` of each. -/
def recordAllSatisfied (id : AuthSessionId) : List AuthenticatorName → Tx Unit
  | [] => pure ()
  | authenticator :: authenticators => do
    query (.authenticationSessionRecordSatisfied id authenticator)
    recordAllSatisfied id authenticators

/-- A live SSO session answers for the attempt, with its own factors. -/
def markSessionAuthenticated (id : AuthSessionId) (subjectId : SubjectId)
    (authenticators : List AuthenticatorName) : Tx Unit := do
  query (.authenticationSessionBindSubject id subjectId)
  recordAllSatisfied id authenticators
  let now ← query .readClock
  query (.authenticationSessionRecordAuthenticated id (some now))

/-- The attempt is put back to how it started. -/
def resetAuthenticationProgress (id : AuthSessionId) : Tx Unit :=
  query (.authenticationSessionResetProgress id)

inductive TotpEnrolmentOutcome where
  | enrolled
  | invalidCode
  | alreadyEnrolled
  deriving DecidableEq

/-- An authenticator app enrolled in the middle of a login: the code that confirms it is
the login's OTP factor. -/
def completeTotpEnrolment (V : Primitives) (seen : Lookups) (id : AuthSessionId)
    (subjectId : SubjectId) (secret code : String) : Tx TotpEnrolmentOutcome :=
  if (seen.storedTotpFor subjectId).isSome then pure .alreadyEnrolled
  else if !isTotpSecretShape secret then pure .invalidCode
  else do
    let now ← query .readClock
    match verifyTotp V secret code now none with
    | none => pure .invalidCode
    | some _ => do
      query (.authenticationSessionRecordSatisfied id .otp)
      pure .enrolled

end Odudu.AuthnFlows
