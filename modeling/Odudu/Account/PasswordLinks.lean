import Odudu.Account.Repositories

/-!
# Mailed links that set a password

`account/src/usecase/reset-password.ts`, `account/src/usecase/execute-actions.ts` and
`authn-flows/src/usecase/update-password.ts`, with the functions `apps/server/src/app.ts`
wires to them: a link is issued and mailed, a link is redeemed, and a password is rotated as
a required action at sign-in.  Each is one transaction.

A link is issued and presented by the hash of its token, which is fresh, as are the salt of
a hash and the id of a credential.  The tenant's policy and lifetimes, whether mail may go to
an address now (`mailGate`), and whether the server knows its own base URL are inputs.

Left out: the mail and its outbox, the audit, and what `endAccess` does to sessions and
grants, none of which a function of this module reads.
-/

set_option autoImplicit false

namespace Odudu.Account

open ReadCommitted
open ReadCommitted.Program (throw)
open DomainIdentity
open ProtocolOidc (Time SubjectId TokenHash)

/-- What these use cases throw. -/
inductive Failure where
  | userNotFound
  | credentialNotFound
  | noSubject
  | uniqueViolation
  /-- An actions link that names no action this server takes. -/
  | noAction

/-- A transaction of these use cases. -/
abbrev Tx := Program database Failure

/-- One statement. -/
abbrev query (op : Op) : Tx op.Answer := @Program.ask database Failure op

def LinkedRequiredAction.name : LinkedRequiredAction → String
  | updatePassword => "update-password"
  | configureTotp => "configure-totp"
  | configurePasskey => "configure-passkey"
  | generateRecoveryCodes => "generate-recovery-codes"

/-- `ORDER`: the order the sign-in flow asks for them. -/
def requiredActionOrder : List LinkedRequiredAction :=
  [.updatePassword, .configureTotp, .configurePasskey, .generateRecoveryCodes]

/-- Each named action once, in the order they are asked; anything unknown is dropped. -/
def orderedActions (actions : List String) : List LinkedRequiredAction :=
  requiredActionOrder.filter fun action ↦ actions.contains action.name

/-- An actions link asks for a new password when its row names `update-password`. -/
theorem mem_orderedActions_updatePassword (actions : List String) :
    .updatePassword ∈ orderedActions actions ↔ actions.contains "update-password" = true := by
  simp [orderedActions, requiredActionOrder, LinkedRequiredAction.name]

/-- The link a use case is about to mail: the hash of its token, and how long it lives. -/
structure MailLink where
  key : TokenHash
  ttlSeconds : Time
  deriving DecidableEq

/-- `actionTokenRepository(tx).issue`. -/
def issue (subjectId : SubjectId) (type : ActionTokenType) (email : Option String)
    (actions : Option (List String)) (link : MailLink) : Tx Unit := do
  let now ← query .readClock
  let inserted ← query (.actionTokenIssue link.key
    ⟨subjectId, type, email, actions, now + link.ttlSeconds, none⟩)
  if inserted then pure () else throw .uniqueViolation

def enqueueResetLink (subjectId : SubjectId) (email : String) (link : MailLink) : Tx Unit :=
  issue subjectId .resetPassword (some email) none link

def enqueueActionsLink (subjectId : SubjectId) (email : String) (actions : List String)
    (link : MailLink) : Tx Unit :=
  let ordered := orderedActions actions
  if ordered = [] then throw .noAction
  else issue subjectId .executeActions (some email)
    (some (ordered.map LinkedRequiredAction.name)) link

inductive RequestPasswordResetOutcome where
  | requested
  | misconfigured
  deriving DecidableEq

/-- `findByEmail`: who holds an address, and the address as it is stored. -/
def findByEmail (search : String) : Tx (Option (SubjectId × String)) := do
  match ← query (.holderOfEmail search) with
  | none => pure none
  | some holder => do
    let user ← query (.userBySubjectId holder)
    pure ((user.bind User.email).map fun email ↦ (holder, email))

def requestPasswordReset (issuerBase mailGate : Bool) (search : String) (link : MailLink) :
    Tx RequestPasswordResetOutcome :=
  if !issuerBase then pure .misconfigured
  else do
    match ← findByEmail search with
    | none => pure .requested
    | some (subjectId, email) =>
      if !mailGate then pure .requested
      else do
        enqueueResetLink subjectId email link
        pure .requested

section Redeeming

variable (hasher : PasswordHasher)

/-- `getUsername`. -/
def getUsername (subjectId : SubjectId) : Tx String := do
  match ← query (.userBySubjectId subjectId) with
  | none => throw .userNotFound
  | some user => pure user.username

/-- `unchangedPasswordViolations`. -/
def unchangedPasswordViolations (subjectId : SubjectId) (candidate : String) :
    Tx (List PolicyViolation) := do
  match ← query (.passwordFor subjectId) with
  | none => pure []
  | some current =>
    pure (if hasher.verifyUserPassword current candidate then [REUSED_PASSWORD] else [])

/-- What a link's redeemer is told of the password they chose: the rules it breaks, or that it
is the one already in force. -/
def newPasswordViolations (policy : PasswordPolicy) (peeked : ActionToken) (newPassword : String) :
    Tx (List PolicyViolation) := do
  let username ← getUsername peeked.subjectId
  let violations := evaluatePassword hasher.lexicon newPassword policy ⟨username, peeked.email⟩
  if violations ≠ [] then pure (withMinimum violations policy.minLength)
  else unchangedPasswordViolations hasher peeked.subjectId newPassword

/-- `setPassword`: the password replaced, or the first one. -/
def setPassword (subjectId : SubjectId) (hash : String) : Tx Unit := do
  match ← query (.passwordFor subjectId) with
  | some _ => do
    let found ← query (.passwordSet subjectId hash)
    if found then pure () else throw .credentialNotFound
  | none => do
    match ← query (.subjectById subjectId) with
    | none => throw .noSubject
    | some _ => do
      let inserted ← query (.passwordInsert subjectId hash)
      if inserted then pure () else throw .uniqueViolation

/-- `proveAddress`: how many factors went. -/
def proveAddress (subjectId : SubjectId) (mailedTo : Option String) : Tx (Option ℕ) := do
  match mailedTo with
  | none => pure none
  | some address => do
    let claimed ← query (.userClaimSelfRegistered subjectId address)
    if claimed then do
      let removed ← query (.deleteSecondFactors subjectId)
      pure (some removed)
    else pure none

/-- `recoverAccount`, but for `endAccess`: whether factors were removed. -/
def recoverAccount (subjectId : SubjectId) (mailedTo : Option String) : Tx Bool := do
  let removed ← proveAddress subjectId mailedTo
  pure (removed.any (0 < ·))

/-- What either link does once it is consumed and sets a password: the password, the recovery,
the action it satisfies, and the links it retires. -/
def setRecoveredPassword (salt : ℕ) (record : ActionToken) (newPassword : String) : Tx Bool := do
  setPassword record.subjectId (hasher.hashUserPassword salt newPassword)
  let factorsRemoved ← recoverAccount record.subjectId record.email
  query (.requiredActionComplete record.subjectId .updatePassword)
  let now ← query .readClock
  query (.actionTokenInvalidateOutstandingPasswordLinks record.subjectId now)
  pure factorsRemoved

inductive CompletePasswordResetResult where
  | reset (factorsRemoved : Bool)
  | invalid
  | invalidPassword (violations : List PolicyViolation)
  deriving DecidableEq

/-- `completePasswordReset` once the link is peeked and is a reset link. -/
def redeemResetLink (policy : PasswordPolicy) (salt : ℕ) (key : TokenHash) (peeked : ActionToken)
    (newPassword : String) : Tx CompletePasswordResetResult := do
  let violations ← newPasswordViolations hasher policy peeked newPassword
  if violations ≠ [] then pure (.invalidPassword violations)
  else do
    let now ← query .readClock
    match ← query (.actionTokenConsume key .resetPassword now) with
    | none => pure .invalid
    | some record => do
      let factorsRemoved ← setRecoveredPassword hasher salt record newPassword
      pure (.reset factorsRemoved)

def completePasswordReset (policy : PasswordPolicy) (salt : ℕ) (key : TokenHash)
    (newPassword : String) : Tx CompletePasswordResetResult := do
  let now ← query .readClock
  match ← query (.actionTokenPeek key now) with
  | none => pure .invalid
  | some peeked =>
    if peeked.type ≠ .resetPassword then pure .invalid
    else redeemResetLink hasher policy salt key peeked newPassword

inductive CompleteRequiredActionsResult where
  | done (remaining : List LinkedRequiredAction) (factorsRemoved : Bool)
  | invalid
  | passwordRequired
  | invalidPassword (violations : List PolicyViolation)
  deriving DecidableEq

/-- `addRequiredActions`. -/
def addRequiredActions (subjectId : SubjectId) : List LinkedRequiredAction → Tx Unit
  | [] => pure ()
  | action :: actions => do
    query (.requiredActionAdd subjectId action)
    addRequiredActions subjectId actions

/-- Why an actions link that asks for a password is refused before it is consumed. -/
def refusedPassword (policy : PasswordPolicy) (peeked : ActionToken) (newPassword : Option String) :
    Tx (Option CompleteRequiredActionsResult) :=
  if .updatePassword ∈ orderedActions (peeked.actions.getD []) then
    match newPassword with
    | none => pure (some .passwordRequired)
    | some newPassword => do
      let violations ← newPasswordViolations hasher policy peeked newPassword
      pure (if violations ≠ [] then some (.invalidPassword violations) else none)
  else pure none

/-- `completeRequiredActions` once the link is consumed: a new password where it asks for one,
and every other action owed. -/
def takeThroughActions (salt : ℕ) (actions : List LinkedRequiredAction)
    (newPassword : Option String) (record : ActionToken) : Tx CompleteRequiredActionsResult := do
  let factorsRemoved ←
    match newPassword with
    | some newPassword =>
      if .updatePassword ∈ actions then setRecoveredPassword hasher salt record newPassword
      else pure false
    | none => pure false
  let remaining := actions.filter (· ≠ .updatePassword)
  addRequiredActions record.subjectId remaining
  pure (.done remaining factorsRemoved)

/-- `completeRequiredActions` once the link is peeked and is an actions link. -/
def redeemActionsLink (policy : PasswordPolicy) (salt : ℕ) (key : TokenHash)
    (peeked : ActionToken) (newPassword : Option String) : Tx CompleteRequiredActionsResult := do
  match ← refusedPassword hasher policy peeked newPassword with
  | some refusal => pure refusal
  | none => do
    let now ← query .readClock
    match ← query (.actionTokenConsume key .executeActions now) with
    | none => pure .invalid
    | some record =>
      takeThroughActions hasher salt (orderedActions (peeked.actions.getD [])) newPassword record

def completeRequiredActions (policy : PasswordPolicy) (salt : ℕ) (key : TokenHash)
    (newPassword : Option String) : Tx CompleteRequiredActionsResult := do
  let now ← query .readClock
  match ← query (.actionTokenPeek key now) with
  | none => pure .invalid
  | some peeked =>
    if peeked.type ≠ .executeActions then pure .invalid
    else redeemActionsLink hasher policy salt key peeked newPassword

end Redeeming

section Rotating

variable (hasher : PasswordHasher)

inductive UpdatePasswordOutcome where
  | updated
  | rejected (violations : List PolicyViolation)
  /-- Some other transaction set a password for this subject first. -/
  | superseded
  deriving DecidableEq

/-- `reusesAKnownPassword`: the password in force, then the retired ones. -/
def reusesAKnownPassword (candidate current : String) (history : List String) : Bool :=
  (current :: history).any fun hash ↦ hasher.verifyUserPassword hash candidate

/-- `credentialRepository(tx).rotatePassword`: the password in force replaced if it is still
the one read, and retired. -/
def rotatePassword (subjectId : SubjectId) (current next : String) (retired : CredentialId)
    (startedAt : Time) (historyDepth : ℕ) : Tx Bool := do
  let rotated ← query (.passwordRotate subjectId current next)
  if rotated then do
    query (.passwordRetire subjectId ⟨retired, startedAt, current⟩)
    query (.trimPasswordHistory subjectId historyDepth)
    pure true
  else pure false

/-- `completeUpdatePassword` once the candidate is one the tenant allows. -/
def changePassword (policy : PasswordPolicy) (salt : ℕ) (retired : CredentialId)
    (startedAt : Time) (subjectId : SubjectId) (password : String) : Tx UpdatePasswordOutcome := do
  match ← query (.passwordFor subjectId) with
  | none => throw .credentialNotFound
  | some current => do
    let history ← query (.passwordHistory subjectId)
    if 0 < policy.historyDepth && reusesAKnownPassword hasher password current history then
      pure (.rejected [REUSED_PASSWORD])
    else do
      let rotated ← rotatePassword subjectId current (hasher.hashUserPassword salt password)
        retired startedAt policy.historyDepth
      query (.requiredActionComplete subjectId .updatePassword)
      pure (if rotated then .updated else .superseded)

def completeUpdatePassword (policy : PasswordPolicy) (salt : ℕ) (retired : CredentialId)
    (subjectId : SubjectId) (password : String) : Tx UpdatePasswordOutcome := do
  let startedAt ← query .readClock
  match ← query (.userBySubjectId subjectId) with
  | none => throw .userNotFound
  | some user =>
    let violations := evaluatePassword hasher.lexicon password policy ⟨user.username, user.email⟩
    if violations ≠ [] then pure (.rejected (withMinimum violations policy.minLength))
    else changePassword hasher policy salt retired startedAt subjectId password

end Rotating

/-- What may be asked of the account tables. -/
inductive Call where
  /-- Time passes. -/
  | tick (seconds : Time)
  | requestPasswordReset (issuerBase mailGate : Bool) (search : String) (link : MailLink)
  /-- A reset link an administrator mails. -/
  | enqueueResetLink (subjectId : SubjectId) (email : String) (link : MailLink)
  /-- An actions link an administrator mails. -/
  | enqueueActionsLink (subjectId : SubjectId) (email : String) (actions : List String)
      (link : MailLink)
  | completePasswordReset (policy : PasswordPolicy) (salt : ℕ) (key : TokenHash)
      (newPassword : String)
  | completeRequiredActions (policy : PasswordPolicy) (salt : ℕ) (key : TokenHash)
      (newPassword : Option String)
  | completeUpdatePassword (policy : PasswordPolicy) (salt : ℕ) (retired : CredentialId)
      (subjectId : SubjectId) (password : String)
  deriving DecidableEq

inductive Outcome where
  | ticked
  | requested (outcome : RequestPasswordResetOutcome)
  | enqueued
  | reset (result : CompletePasswordResetResult)
  | actions (result : CompleteRequiredActionsResult)
  | update (outcome : UpdatePasswordOutcome)
  deriving DecidableEq

/-- What a call does. -/
def Call.body (hasher : PasswordHasher) : Call → Tx Outcome
  | tick seconds => do
    query (.tick seconds)
    pure .ticked
  | requestPasswordReset issuerBase mailGate search link =>
    return .requested (← Account.requestPasswordReset issuerBase mailGate search link)
  | enqueueResetLink subjectId email link => do
    Account.enqueueResetLink subjectId email link
    pure .enqueued
  | enqueueActionsLink subjectId email actions link => do
    Account.enqueueActionsLink subjectId email actions link
    pure .enqueued
  | completePasswordReset policy salt key newPassword =>
    return .reset (← Account.completePasswordReset hasher policy salt key newPassword)
  | completeRequiredActions policy salt key newPassword =>
    return .actions (← Account.completeRequiredActions hasher policy salt key newPassword)
  | completeUpdatePassword policy salt retired subjectId password =>
    return .update (← Account.completeUpdatePassword hasher policy salt retired subjectId password)

/-- The account tables and the calls on them. -/
abbrev accounts (hasher : PasswordHasher) : System where
  db := database
  Call := Call
  Outcome := Outcome
  Failure := Failure
  body := Call.body hasher

end Odudu.Account
