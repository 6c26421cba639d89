import Odudu.AuthnFlows.Authenticators
import Odudu.ReadCommitted.Turns
import Mathlib.Data.Int.Notation

/-!
# Spending second-factor material

`runOtpStep`, `runRecoveryStep` and `runPasskeyStep` of `usecase/executor.ts` over the rows of
`user_credentials`: each reads, decides with its step of `service/authenticators`, and spends
what it accepted with one conditional update of `repository/credentials.ts`.  An update whose
predicate fails writes and locks nothing.

What an attempt reads of other tables comes with it (`Attempt`): whether the account is locked,
the challenge it claimed, and the address it is made at.  A row that is not of the shape of its
type makes the attempt throw.

Left out: the labels, the last use and the transports of a credential, and what a refused
attempt counts.
-/

set_option autoImplicit false

namespace Odudu.AuthnFlows.FactorUses

open ProtocolOidc ReadCommitted Program

inductive CredentialType where
  | totp
  | webauthn
  | recoveryCode

/-- What `secret_data` holds, by the type of its row. -/
inductive SecretData where
  | totp (secret : String) (lastStep : Option ℤ)
  | webauthn (publicKey : String) (counter : Option ℕ)
  | recoveryCode (hash : String) (usedAt : Option Time)

def SecretData.type : SecretData → CredentialType
  | totp .. => .totp
  | webauthn .. => .webauthn
  | recoveryCode .. => .recoveryCode

structure CredentialRow where
  subjectId : SubjectId
  secretData : SecretData
  lookupKey : Option String
  rpId : Option String

inductive CredentialSecret where
  | totp (secret : String) (lastStep : ℤ)
  | webauthn (publicKey : String) (counter : ℕ)
  | recoveryCode (hash : String) (usedAt : Option Time)

/-- Only `usedAt` may be absent. -/
def parseCredentialSecret : SecretData → Option CredentialSecret
  | .totp secret (some lastStep) => some (.totp secret lastStep)
  | .webauthn publicKey (some counter) => some (.webauthn publicKey counter)
  | .recoveryCode hash usedAt => some (.recoveryCode hash usedAt)
  | _ => none

def serializeCredentialSecret : CredentialSecret → SecretData
  | .totp secret lastStep => .totp secret (some lastStep)
  | .webauthn publicKey counter => .webauthn publicKey (some counter)
  | .recoveryCode hash usedAt => .recoveryCode hash usedAt

theorem parseCredentialSecret_eq_some_iff {data : SecretData} {secret : CredentialSecret} :
    parseCredentialSecret data = some secret ↔ data = serializeCredentialSecret secret := by
  constructor
  · intro h
    unfold parseCredentialSecret at h
    split at h
    case h_4 => exact nomatch h
    all_goals
      obtain rfl := Option.some.inj h
      rfl
  · rintro rfl
    cases secret <;> rfl

structure CredentialRecord where
  id : CredentialId
  subjectId : SubjectId
  secret : CredentialSecret
  rpId : Option String

def toRecord (row : CredentialId × CredentialRow) : Option CredentialRecord :=
  (parseCredentialSecret row.2.secretData).map fun secret ↦
    ⟨row.1, row.2.subjectId, secret, row.2.rpId⟩

/-! ### Uses -/

/-- What an update spends of a credential. -/
inductive Use where
  | totp (id : CredentialId) (step : ℤ)
  | webauthn (id : CredentialId) (counter : ℕ)
  | recoveryCode (id : CredentialId)
  deriving DecidableEq

def Use.id : Use → CredentialId
  | totp id _ | webauthn id _ | recoveryCode id => id

/-- The `WHERE` of an update, on the secret of the row it names. -/
def Use.finds : Use → SecretData → Bool
  | totp _ step, .totp _ lastStep => decide (lastStep.getD (-1) < step)
  | webauthn _ counter, .webauthn _ stored =>
    decide (stored.elim (-1) Int.ofNat < counter) || decide (counter = 0 ∧ stored = some 0)
  | recoveryCode _, .recoveryCode _ usedAt => usedAt.isNone
  | _, _ => false

/-- Its `SET`. -/
def Use.set (at_ : Time) : Use → SecretData → SecretData
  | totp _ step, .totp secret _ => .totp secret (some step)
  | webauthn _ counter, .webauthn publicKey _ => .webauthn publicKey (some counter)
  | recoveryCode _, .recoveryCode hash _ => .recoveryCode hash (some at_)
  | _, secretData => secretData

/-! ### Statements -/

abbrev Credentials : Type := CredentialId → Option CredentialRow

inductive FactorOp where
  | listFor (subjectId : SubjectId) (type : CredentialType)
  | byLookupKey (lookupKey : String)
  | update (use : Use) (at_ : Time)

@[reducible] def FactorOp.Answer : FactorOp → Type
  | listFor .. => List (CredentialId × CredentialRow)
  | byLookupKey _ => Option (CredentialId × CredentialRow)
  /- whether a row was updated -/
  | update .. => Bool

/-- The row an update puts. -/
def updated (rows : Credentials) (use : Use) (at_ : Time) : Option CredentialRow :=
  (rows use.id).bind fun row ↦
    if use.finds row.secretData then
      some { row with secretData := use.set at_ row.secretData }
    else none

/-- Rows are listed in any order. -/
def FactorOp.Answers (rows : Credentials) : (op : FactorOp) → op.Answer → Prop
  | listFor subjectId type, found => ∀ id row, (id, row) ∈ found ↔
      rows id = some row ∧ row.subjectId = subjectId ∧ row.secretData.type = type
  | byLookupKey lookupKey, none => ∀ id row, rows id = some row → row.lookupKey ≠ some lookupKey
  | byLookupKey lookupKey, some (id, row) => rows id = some row ∧ row.lookupKey = some lookupKey
  | update use at_, landed => landed = (updated rows use at_).isSome

/-- One row put, or none. -/
def putRow (id : CredentialId) (row : Option CredentialRow) :
    CredentialId → Option (Option CredentialRow) := fun id' ↦
  row.bind fun row ↦ if id' = id then some (some row) else none

def FactorOp.written (rows : Credentials) : FactorOp → CredentialId → Option (Option CredentialRow)
  | update use at_ => putRow use.id (updated rows use at_)
  | _ => fun _ ↦ none

abbrev factorDatabase : Database where
  Key := CredentialId
  Cell := fun _ ↦ Option CredentialRow
  Op := FactorOp
  Answer := FactorOp.Answer
  Answers := fun op rows a ↦ op.Answers rows a
  effect := fun op rows ↦ op.written rows

/-! ### Attempts -/

/-- One submission, with what is read for it of other tables. -/
structure Attempt where
  /-- The step that is run. -/
  factor : CredentialType
  /-- Whose the sign-in is so far. -/
  boundTo : Option SubjectId
  input : AdvanceInput
  now : Time
  /-- Whether the account it is bound to is locked. -/
  locked : Bool
  expectedChallenge : Option ℕ
  relyingParty : Option RelyingParty
  /-- The relying party of a passkey that recorded none. -/
  baseRelyingPartyId : Option String

inductive FactorFailure where
  | invalidCredentialSecret

inductive FactorOutcome where
  | accepted (subjectId : SubjectId) (spent : Option Use)
  | challenge (form : AuthenticatorName)
  | refused (reason : FailureReason)
  /-- The step accepted what its update then found spent; answered as a refusal. -/
  | lost (use : Use)

abbrev FactorTx := Program factorDatabase FactorFailure

abbrev onCredentials (op : FactorOp) : FactorTx op.Answer :=
  @Program.ask factorDatabase FactorFailure op

def parsed {α : Type} : Option α → FactorTx α
  | some record => pure record
  | none => .throw .invalidCredentialSecret

def listFor (subjectId : SubjectId) (type : CredentialType) : FactorTx (List CredentialRecord) := do
  let rows ← onCredentials (.listFor subjectId type)
  parsed (rows.mapM toRecord)

def byLookupKey (lookupKey : String) : FactorTx (Option CredentialRecord) := do
  let row ← onCredentials (.byLookupKey lookupKey)
  match row with
  | none => pure none
  | some row => do
    let record ← parsed (toRecord row)
    pure (some record)

def recordTotpUse (id : CredentialId) (step : ℤ) (at_ : Time) : FactorTx Bool :=
  onCredentials (.update (.totp id step) at_)

def advanceWebauthnCounter (id : CredentialId) (counter : ℕ) (at_ : Time) : FactorTx Bool :=
  onCredentials (.update (.webauthn id counter) at_)

def spendRecoveryCode (id : CredentialId) (at_ : Time) : FactorTx Bool :=
  onCredentials (.update (.recoveryCode id) at_)

def CredentialRecord.asTotp (record : CredentialRecord) : Option StoredTotp :=
  match record.secret with
  | .totp secret lastStep => some ⟨record.id, secret, some lastStep⟩
  | _ => none

def CredentialRecord.asRecoveryCode (record : CredentialRecord) : Option StoredRecoveryCode :=
  match record.secret with
  | .recoveryCode hash usedAt => some ⟨record.id, hash, usedAt⟩
  | _ => none

def CredentialRecord.asPasskey (record : CredentialRecord) (baseRelyingPartyId : Option String) :
    Option PasskeyCredential :=
  match record.secret with
  | .webauthn publicKey counter =>
    some ⟨record.id, record.subjectId, publicKey, counter, record.rpId.or baseRelyingPartyId⟩
  | _ => none

/-- A subject without a list of its own has no second factor. -/
def storedTotpFor : Option SubjectId → FactorTx (Option StoredTotp)
  | none => pure none
  | some subjectId => do
    let records ← listFor subjectId .totp
    pure (records.head?.bind CredentialRecord.asTotp)

def storedRecoveryCodesFor : Option SubjectId → FactorTx (List StoredRecoveryCode)
  | none => pure []
  | some subjectId => do
    let records ← listFor subjectId .recoveryCode
    pure (records.filterMap CredentialRecord.asRecoveryCode)

def passkeyCredentialFor (assertion : Option Assertion) (baseRelyingPartyId : Option String) :
    FactorTx (Option PasskeyCredential) :=
  match assertedCredentialId assertion with
  | none => pure none
  | some credentialId => do
    let record ← byLookupKey credentialId
    pure (record.bind fun record ↦ record.asPasskey baseRelyingPartyId)

variable (V : Primitives) (attempt : Attempt)

/-- What became of a use once its update was run. -/
def settled (subjectId : SubjectId) (use : Use) (landed : Bool) : FactorOutcome :=
  if landed then .accepted subjectId (some use) else .lost use

/-- The guard of `advance`, before what a step deferred. -/
def mismatched (subjectId : SubjectId) : Prop :=
  attempt.boundTo ≠ none ∧ attempt.boundTo ≠ some subjectId

instance (subjectId : SubjectId) : Decidable (mismatched attempt subjectId) :=
  inferInstanceAs (Decidable (_ ∧ _))

def refusedWhileLocked (submitted : Bool) : Bool :=
  submitted && attempt.boundTo.isSome && attempt.locked

/-- Spends inside the step; the guard that follows it is passed by the subject it is bound to. -/
def runOtpStep : FactorTx FactorOutcome :=
  if refusedWhileLocked attempt attempt.input.code.isSome then
    pure (.refused .invalidCredentials)
  else do
    let stored ← storedTotpFor attempt.boundTo
    match totpStep V attempt.input.code attempt.boundTo (stored.map StoredTotp.secret)
        attempt.now, stored with
    | .failure, _ => pure (.refused .invalidCredentials)
    | .challenge, _ => pure (.challenge .otp)
    | .success subjectId _, none => pure (.accepted subjectId none)
    | .success subjectId step, some stored => do
      let spent ← recordTotpUse stored.id step attempt.now
      pure (settled subjectId (.totp stored.id step) spent)

def runRecoveryStep : FactorTx FactorOutcome :=
  if refusedWhileLocked attempt (recoveryCodeOffered V attempt.input) then
    pure (.refused .invalidCredentials)
  else do
    let codes ← storedRecoveryCodesFor attempt.boundTo
    match recoveryStep V attempt.input attempt.boundTo codes with
    | .failure reason => pure (.refused reason)
    | .challenge => pure (.challenge .recoveryCode)
    | .success subjectId credentialId =>
      if mismatched attempt subjectId then pure (.refused .subjectMismatch)
      else do
        let spent ← spendRecoveryCode credentialId attempt.now
        pure (settled subjectId (.recoveryCode credentialId) spent)

def runPasskeyStep : FactorTx FactorOutcome :=
  if !assertionOffered attempt.input then pure (.challenge .passkey)
  else do
    let credential ← passkeyCredentialFor attempt.input.assertion attempt.baseRelyingPartyId
    match passkeyStep V attempt.input.assertion credential attempt.expectedChallenge
        attempt.relyingParty with
    | .failure => pure (.refused .invalidCredentials)
    | .success subjectId credentialId counter =>
      if mismatched attempt subjectId then pure (.refused .subjectMismatch)
      else do
        let advanced ← advanceWebauthnCounter credentialId counter attempt.now
        pure (settled subjectId (.webauthn credentialId counter) advanced)

def Attempt.body : FactorTx FactorOutcome :=
  match attempt.factor with
  | .totp => runOtpStep V attempt
  | .webauthn => runPasskeyStep V attempt
  | .recoveryCode => runRecoveryStep V attempt

/-- Any number of attempts beside one another. -/
abbrev factorAttempts : System where
  db := factorDatabase
  Call := Attempt
  Outcome := FactorOutcome
  Failure := FactorFailure
  body := Attempt.body V

end Odudu.AuthnFlows.FactorUses
