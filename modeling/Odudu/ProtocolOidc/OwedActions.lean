import Odudu.DomainIdentity.PasswordPolicy
import Odudu.ProtocolOidc.Doors

/-!
# Actions a subject owes

`usecase/required-action-submission.ts`, and what it calls to complete each action:
`totp-enrolment.ts`, `passkey-enrolment.ts`, `recovery-codes.ts` and `update-password.ts` of
`authn-flows`, over the rows they read and write.  Each call is one transaction, and nothing
else is written between them.

Who may act for an authentication session is an input (`SubmissionDeps.authenticatedSubject`),
as are the tenant's policy, the verification of an attestation and the relying party, if one
can be derived.  `SignInStep` adds what else a browser can do in the middle of a login: the
gate that reads what is owed, and the pages that show codes and offer a passkey.

Left out: the audit, the labels and transports of a passkey, and when a password was set.
-/

set_option autoImplicit false

namespace Odudu.ProtocolOidc

/-- As the route and the rows spell it. -/
def RequiredAction.name : RequiredAction → String
  | updatePassword => "update-password"
  | configureTotp => "configure-totp"
  | configurePasskey => "configure-passkey"
  | generateRecoveryCodes => "generate-recovery-codes"

namespace OwedActions

open AuthnFlows DomainIdentity

/-- The rows of one subject. -/
structure SubjectRows where
  /-- Nothing where the subject is not a user. -/
  user : Option PasswordSubject
  password : Option String
  /-- Newest first. -/
  passwordHistory : List String
  totps : List TotpSecret
  recoveryCodes : List StoredRecoveryCode
  owed : RequiredAction → Bool

structure StoredPasskey where
  subjectId : SubjectId
  publicKey : String
  counter : ℕ
  rpId : String

/-- The rows of a tenant. -/
structure Rows where
  subjects : SubjectId → SubjectRows
  /-- By credential id, which is unique in the tenant. -/
  passkeys : String → Option StoredPasskey
  challenges : AuthSessionId → Option ℕ
  satisfied : AuthSessionId → List AuthenticatorName

/-- The rows of one subject written. -/
def Rows.amend (rows : Rows) (subjectId : SubjectId) (f : SubjectRows → SubjectRows) : Rows :=
  { rows with
    subjects := Function.update rows.subjects subjectId (f (rows.subjects subjectId)) }

/-! ### `requiredActionRepository` -/

def pendingFor (rows : Rows) (subjectId : SubjectId) : List RequiredAction :=
  requiredActionOrder.filter (rows.subjects subjectId).owed

def SubjectRows.add (action : RequiredAction) (rows : SubjectRows) : SubjectRows :=
  { rows with owed := Function.update rows.owed action true }

def SubjectRows.complete (action : RequiredAction) (rows : SubjectRows) : SubjectRows :=
  { rows with owed := Function.update rows.owed action false }

/-- What `setRequiredActions` writes once it is allowed to. -/
def SubjectRows.replaceAll (actions : List RequiredAction) (rows : SubjectRows) : SubjectRows :=
  { rows with owed := fun action ↦ decide (action ∈ actions) }

/-! ### `usecase/recovery-codes.ts` -/

structure RecoveryStanding where
  unspent : ℕ
  held : ℕ
  hasTotp : Bool

def SubjectRows.recoveryStanding (rows : SubjectRows) : RecoveryStanding where
  unspent := rows.recoveryCodes.countP fun code ↦ code.usedAt.isNone
  held := rows.recoveryCodes.length
  hasTotp := decide (rows.totps.length > 0)

/-- A set is owed only to somebody who holds a TOTP, and is cleared here otherwise. -/
def pendingActionsFor (rows : Rows) (subjectId : SubjectId) : List RequiredAction × Rows :=
  let owed := pendingFor rows subjectId
  if .generateRecoveryCodes ∉ owed then (owed, rows)
  else if (rows.subjects subjectId).recoveryStanding.hasTotp then (owed, rows)
  else
    (owed.filter fun action ↦ decide (action ≠ .generateRecoveryCodes),
      rows.amend subjectId (.complete .generateRecoveryCodes))

/-- The page that shows a fresh set, or finds no second factor. -/
def beginRecoveryCodes (rows : Rows) (subjectId : SubjectId) (codes : List StoredRecoveryCode) :
    Rows :=
  if (rows.subjects subjectId).recoveryStanding.hasTotp then
    rows.amend subjectId fun held ↦ { held with recoveryCodes := codes }
  else rows.amend subjectId (.complete .generateRecoveryCodes)

inductive RecoveryCodesOutcome where
  | acknowledged
  | noneIssued
  deriving DecidableEq

def completeRecoveryCodes (rows : Rows) (subjectId : SubjectId) : RecoveryCodesOutcome × Rows :=
  if (rows.subjects subjectId).recoveryCodes.length = 0 then (.noneIssued, rows)
  else (.acknowledged, rows.amend subjectId (.complete .generateRecoveryCodes))

def SubjectRows.oweRecoveryCodesIfNoneUnspent (rows : SubjectRows) : SubjectRows :=
  if rows.recoveryStanding.unspent > 0 then rows else rows.add .generateRecoveryCodes

/-! ### The other completions -/

structure VerifiedPasskey where
  credentialId : String
  publicKey : String
  counter : ℕ

/-- What a submission is handled with. -/
structure SubmissionDeps where
  tenantEnabled : Bool
  /-- Whom a finished authentication bound to the session. -/
  authenticatedSubject : Rows → AuthSessionId → Option SubjectId
  V : Primitives
  now : Time
  policy : PasswordPolicy
  hasher : PasswordHasher
  salt : ℕ
  relyingParty : Option RelyingParty
  /-- The field as JSON, of the shape of a response. -/
  parseRegistrationResponse : Option String → Option String
  verifyPasskeyRegistration : RelyingParty → ℕ → String → Option VerifiedPasskey

variable (deps : SubmissionDeps) (rows : Rows)

def completeTotpEnrolment (id : AuthSessionId) (subjectId : SubjectId) (secret code : String) :
    TotpEnrolmentOutcome × Rows :=
  if (rows.subjects subjectId).totps.length > 0 then (.alreadyEnrolled, rows)
  else if !isTotpSecretShape secret then (.invalidCode, rows)
  else
    match verifyTotp deps.V secret code deps.now none with
    | none => (.invalidCode, rows)
    | some step =>
      let enrolled := rows.amend subjectId fun held ↦
        (({ held with totps := ⟨secret, some step⟩ :: held.totps }).complete
          .configureTotp).oweRecoveryCodesIfNoneUnspent
      (.enrolled, { enrolled with
        satisfied := Function.update rows.satisfied id (rows.satisfied id ++ [.otp]) })

inductive PasskeyEnrolmentOutcome where
  | enrolled
  | noChallenge
  | invalidResponse
  | alreadyEnrolled
  deriving DecidableEq

/-- The challenge is spent whatever becomes of the response. -/
def completePasskeyEnrolment (relyingParty : RelyingParty) (id : AuthSessionId)
    (subjectId : SubjectId) (credential : Option String) : PasskeyEnrolmentOutcome × Rows :=
  let claimed := { rows with challenges := Function.update rows.challenges id none }
  match rows.challenges id with
  | none => (.noChallenge, claimed)
  | some challenge =>
    match deps.parseRegistrationResponse credential with
    | none => (.invalidResponse, claimed)
    | some response =>
      match deps.verifyPasskeyRegistration relyingParty challenge response with
      | none => (.invalidResponse, claimed)
      | some verified =>
        if (rows.passkeys verified.credentialId).isSome then (.alreadyEnrolled, claimed)
        else
          let enrolled := claimed.amend subjectId (.complete .configurePasskey)
          (.enrolled, { enrolled with
            passkeys := Function.update rows.passkeys verified.credentialId
              (some ⟨subjectId, verified.publicKey, verified.counter, relyingParty.id⟩) })

inductive UpdatePasswordOutcome where
  | updated
  | rejected (violations : List PolicyViolation)
  | superseded

inductive SubmissionFailure where
  | userNotFound
  | credentialNotFound

/-- `rotatePassword`: whether the password in force was still the one read. -/
def SubjectRows.rotatePassword (rows : SubjectRows) (current next : String) (historyDepth : ℕ) :
    Bool × SubjectRows :=
  if rows.password = some current then
    (true, { rows with
      password := some next
      passwordHistory := (current :: rows.passwordHistory).take historyDepth })
  else (false, rows)

def completeUpdatePassword (subjectId : SubjectId) (password : String) :
    Except SubmissionFailure (UpdatePasswordOutcome × Rows) :=
  let held := rows.subjects subjectId
  match held.user with
  | none => .error .userNotFound
  | some user =>
    let violations := evaluatePassword deps.hasher.lexicon password deps.policy user
    if violations.length > 0 then
      .ok (.rejected (withMinimum violations deps.policy.minLength), rows)
    else
      match held.password with
      | none => .error .credentialNotFound
      | some current =>
        if 0 < deps.policy.historyDepth ∧ (current :: held.passwordHistory).any fun hash ↦
            deps.hasher.verifyUserPassword hash password then
          .ok (.rejected [REUSED_PASSWORD], rows)
        else
          let rotated := held.rotatePassword current
            (deps.hasher.hashUserPassword deps.salt password) deps.policy.historyDepth
          .ok (if rotated.1 then .updated else .superseded,
            rows.amend subjectId fun _ ↦ rotated.2.complete .updatePassword)

/-! ### The submission -/

structure RequiredActionSubmission where
  /-- Nothing where it is missing or no uuid. -/
  authSessionId : Option AuthSessionId
  action : Option String
  secret : Option String
  code : Option String
  password : Option String
  credential : Option String

/-- Why a page is shown again. -/
inductive EnrolmentRefusal where
  | codeMismatch
  | passkeyNotAdded
  | codesNotSaved

inductive RequiredActionOutcome where
  | unauthenticated
  | notOwed (action : String)
  | unsupported (action : String)
  | completed (authSessionId : AuthSessionId)
  | passwordRejected (authSessionId : AuthSessionId) (violations : List PolicyViolation)
  | rejected (authSessionId : AuthSessionId) (subjectId : SubjectId) (action : RequiredAction)
      (reason : EnrolmentRefusal)

def SUPERSEDED_PASSWORD : PolicyViolation := ⟨"superseded", "password superseded", none⟩

def completePasskey (id : AuthSessionId) (subjectId : SubjectId)
    (submission : RequiredActionSubmission) : RequiredActionOutcome × Rows :=
  match deps.relyingParty with
  | none => (.unsupported RequiredAction.configurePasskey.name, rows)
  | some relyingParty =>
    let (outcome, after) :=
      completePasskeyEnrolment deps rows relyingParty id subjectId submission.credential
    if outcome = .enrolled then (.completed id, after)
    else (.rejected id subjectId .configurePasskey .passkeyNotAdded, after)

def acknowledgeRecoveryCodes (id : AuthSessionId) (subjectId : SubjectId) :
    RequiredActionOutcome × Rows :=
  let (outcome, after) := completeRecoveryCodes rows subjectId
  if outcome = .acknowledged then (.completed id, after)
  else (.rejected id subjectId .generateRecoveryCodes .codesNotSaved, after)

def changePassword (id : AuthSessionId) (subjectId : SubjectId)
    (submission : RequiredActionSubmission) :
    Except SubmissionFailure (RequiredActionOutcome × Rows) := do
  let (changed, after) ←
    completeUpdatePassword deps rows subjectId (submission.password.getD "")
  match changed with
  | .updated => pure (.completed id, after)
  | .superseded => pure (.passwordRejected id [SUPERSEDED_PASSWORD], after)
  | .rejected violations => pure (.passwordRejected id violations, after)

/-- A code that was already enrolled is taken for a second tab. -/
def enrolTotp (id : AuthSessionId) (subjectId : SubjectId)
    (submission : RequiredActionSubmission) : RequiredActionOutcome × Rows :=
  let (outcome, after) := completeTotpEnrolment deps rows id subjectId
    (submission.secret.getD "") (submission.code.getD "")
  if outcome = .enrolled ∨ outcome = .alreadyEnrolled then (.completed id, after)
  else (.rejected id subjectId .configureTotp .codeMismatch, after)

/-- The action that is owed next, completed as it is. -/
def completeOwed (id : AuthSessionId) (subjectId : SubjectId)
    (submission : RequiredActionSubmission) :
    RequiredAction → Except SubmissionFailure (RequiredActionOutcome × Rows)
  | .configurePasskey => .ok (completePasskey deps rows id subjectId submission)
  | .generateRecoveryCodes => .ok (acknowledgeRecoveryCodes rows id subjectId)
  | .updatePassword => changePassword deps rows id subjectId submission
  | .configureTotp => .ok (enrolTotp deps rows id subjectId submission)

def handleRequiredActionSubmission (submission : RequiredActionSubmission) :
    Except SubmissionFailure (RequiredActionOutcome × Rows) :=
  match submission.authSessionId with
  | none => .ok (.unauthenticated, rows)
  | some id =>
    if !deps.tenantEnabled then .ok (.unauthenticated, rows)
    else
      match deps.authenticatedSubject rows id with
      | none => .ok (.unauthenticated, rows)
      | some subjectId =>
        let (owed, gated) := pendingActionsFor rows subjectId
        match nextRequiredAction owed with
        | none => .ok (.notOwed (submission.action.getD ""), gated)
        | some next =>
          if submission.action = some next.name then
            completeOwed deps gated id subjectId submission next
          else .ok (.notOwed (submission.action.getD ""), gated)

/-! ### In the middle of a login -/

/-- What a browser does between the factors of a login and its end.  A submission that fails
writes nothing. -/
inductive SignInStep where
  | submits (deps : SubmissionDeps) (submission : RequiredActionSubmission)
  /-- The login resumed: the gate reads what is still owed. -/
  | resumes (subjectId : SubjectId)
  | showsCodes (subjectId : SubjectId) (codes : List StoredRecoveryCode)
  | offersPasskey (id : AuthSessionId) (challenge : ℕ)

/-- The rows after a step. -/
def SignInStep.after (rows : Rows) : SignInStep → Rows
  | submits deps submission =>
    match handleRequiredActionSubmission deps rows submission with
    | .ok (_, after) => after
    | .error _ => rows
  | resumes subjectId => (pendingActionsFor rows subjectId).2
  | showsCodes subjectId codes => beginRecoveryCodes rows subjectId codes
  | offersPasskey id challenge =>
    { rows with challenges := Function.update rows.challenges id (some challenge) }

end OwedActions

end Odudu.ProtocolOidc
