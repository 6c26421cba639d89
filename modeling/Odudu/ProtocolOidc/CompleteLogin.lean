import Odudu.AuthnFlows.Executor

/-!
# Completing a login

The two transactions that issue an authorization code: `completeLogin`, which consumes
the parked attempt and establishes a session or goes on with the one the attempt was
promoted from, and `completeReuse`, which consumes nothing (`index.ts`,
`usecase/login-submission.ts`, and `usecase/session-admission.ts` of the sign-in flows).

The ids and secrets a transaction generates are part of its input.  The lock on the
tenant's row that orders admissions is left out, and so are the audit and `remember_me`'s
way to `remembered`.
-/

set_option autoImplicit false

namespace Odudu.ProtocolOidc

open ReadCommitted Program AuthnFlows

/-- What a code is issued from, its instant apart. -/
structure IssueAuthorizationCodeInput where
  codeHash : TokenHash
  authorizationCodeTtlSeconds : Time
  clientId : ClientId
  subjectId : SubjectId
  redirectUri : String
  scope : List String
  codeChallenge : String
  resource : List String
  userinfoClaims : List String

/-- The row of a code. -/
def authorizationCode (input : IssueAuthorizationCodeInput) (authTime now : Time)
    (sessionId : SessionId) : AuthorizationCode where
  clientId := input.clientId
  subjectId := input.subjectId
  redirectUri := input.redirectUri
  scope := input.scope
  codeChallenge := input.codeChallenge
  authTime
  expiresAt := now + input.authorizationCodeTtlSeconds
  consumedAt := none
  grantId := none
  sessionId := some sessionId
  resource := input.resource
  userinfoClaims := input.userinfoClaims

def issueAuthorizationCode (input : IssueAuthorizationCodeInput) (authTime now : Time)
    (sessionId : SessionId) : Tx Unit := do
  let created ← query
    (.authorizationCodeCreate input.codeHash (authorizationCode input authTime now sessionId))
  if created then pure () else throw .internal

/-- What a new session is established from. -/
structure AdmitSessionInput where
  subjectId : SubjectId
  authenticators : List AuthenticatorName
  remembered : Bool
  browserSessions : List SessionEntry
  maxSessionsPerBrowser : ℕ
  lifespans : SessionLifespans
  newSessionId : SessionId
  newSecretHash : ℕ

/-- `chooseEvictions`: the least recently used ones make room for one more. -/
def chooseEvictions (live : List (SessionId × Session)) (cap : ℕ) : List SessionId :=
  ((live.mergeSort fun a b ↦ decide (a.2.lastActiveAt ≤ b.2.lastActiveAt)).take
    (live.length + 1 - cap)).map Prod.fst

/-- The row of a session that is established. -/
def establishedSession (input : AdmitSessionInput) (transactionStart now : Time) : Session where
  subjectId := input.subjectId
  createdAt := transactionStart
  expiresAt := now + (lifespanFor input.lifespans input.remembered).2
  lastActiveAt := transactionStart
  authenticators := input.authenticators
  remembered := input.remembered
  secretHash := some input.newSecretHash

def establishSession (input : AdmitSessionInput) (transactionStart : Time) : Tx Unit := do
  let now ← query .readClock
  let created ← query
    (.sessionCreate input.newSessionId (establishedSession input transactionStart now))
  if created then pure () else throw .internal

def admitSession (input : AdmitSessionInput) (transactionStart : Time) : Tx Unit := do
  let now ← query .readClock
  let live ← query (.sessionLiveByEntries input.browserSessions input.lifespans now)
  query (.sessionEndMany (chooseEvictions live input.maxSessionsPerBrowser) now)
  establishSession input transactionStart

structure CompleteLoginInput where
  authSessionId : AuthSessionId
  /-- The session an attempt was promoted from, and when it authenticated. -/
  reuseSession : Option (SessionId × Time)
  code : IssueAuthorizationCodeInput
  session : AdmitSessionInput

inductive CompleteLoginOutcome where
  | alreadyConsumed
  | subjectDisabled
  /-- A code, and the session it is on. -/
  | issued (sessionId : SessionId) (codeHash : TokenHash)

def completeLogin (input : CompleteLoginInput) : Tx CompleteLoginOutcome := do
  let now ← query .readClock
  let subject ← query (.subjectById input.code.subjectId)
  if !subjectIsEnabled subject then pure .subjectDisabled
  else do
    let consumedAt ← query .readClock
    let consumed ← query (.authenticationSessionConsume input.authSessionId consumedAt)
    if !consumed then pure .alreadyConsumed
    else
      match input.reuseSession with
      | some (sessionId, authTime) => do
        query (.sessionTouch sessionId now)
        issueAuthorizationCode input.code authTime now sessionId
        pure (.issued sessionId input.code.codeHash)
      | none => do
        admitSession input.session now
        issueAuthorizationCode input.code now now input.session.newSessionId
        pure (.issued input.session.newSessionId input.code.codeHash)

/-- A live session answers a request for a code by itself. -/
def completeReuse (code : IssueAuthorizationCodeInput) (sessionId : SessionId)
    (authTime : Time) : Tx Unit := do
  let now ← query .readClock
  query (.sessionTouch sessionId now)
  issueAuthorizationCode code authTime now sessionId

end Odudu.ProtocolOidc
