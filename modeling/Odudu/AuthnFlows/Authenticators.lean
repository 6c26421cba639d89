import Odudu.ProtocolOidc.Schema

/-!
# The authenticators

`service/authenticators`: the four steps, as functions of what was submitted and of what
was looked up for it, and when the second-factor steps apply.

The primitives are parameters (`Primitives`): the Argon2 and the WebAuthn verification,
the HMAC behind a one-time code, and the two Unicode functions.

Left out: the dummy hash that keeps an unknown name as slow as a wrong password, and the
transports and labels of a passkey.
-/

set_option autoImplicit false

namespace Odudu.AuthnFlows

open ProtocolOidc

abbrev CredentialId := ℕ

structure RelyingParty where
  id : String
  origin : String

/-- What the steps use of cryptography and Unicode. -/
structure Primitives where
  /-- Argon2id: whether the hash is of this text. -/
  verifyPassword : String → String → Bool
  /-- The NFC form. -/
  normalisePassword : String → String
  /-- HOTP of a secret at a counter. -/
  totpCode : String → Int → String
  /-- The signature counter a response verifies with, under a challenge and a key. -/
  verifyAssertion : RelyingParty → ℕ → String → String → Option ℕ
  toUpperCase : String → String

/-- The JSON `navigator.credentials.get()` produced, as it arrived. -/
inductive Assertion where
  /-- The empty field of a browser with JavaScript off. -/
  | empty
  /-- Not of the shape of a response. -/
  | malformed
  | response (id signed : String)

/-- What a login form submits. -/
structure AdvanceInput where
  username : Option String
  password : Option String
  code : Option String
  recoveryCode : Option String
  assertion : Option Assertion

/-- Nothing submitted. -/
def AdvanceInput.nothing : AdvanceInput := ⟨none, none, none, none, none⟩

/-- Why a step refuses, as the caller is told. -/
inductive FailureReason where
  | invalidCredentials
  | alreadyUsed
  | authenticationSessionExpired
  | noApplicableExecution
  | subjectMismatch
  deriving DecidableEq

structure PasswordCredential where
  hash : String
  normalised : Bool

inductive PasswordMatch where
  | normalised
  | asTyped

def matchUserPassword (V : Primitives) (stored plain : String) (tryAsTyped : Bool) :
    Option PasswordMatch :=
  if V.verifyPassword stored (V.normalisePassword plain) then some .normalised
  else if tryAsTyped && V.normalisePassword plain != plain && V.verifyPassword stored plain then
    some .asTyped
  else none

/-- What was looked up for a name. -/
structure PasswordVerification where
  subjectId : Option SubjectId
  stored : Option PasswordCredential

/-- The step once both fields are there: the subject, and whether the hash is to be
upgraded. -/
def passwordStep (V : Primitives) (password : String) (verification : PasswordVerification) :
    Option (SubjectId × Bool) :=
  match verification.subjectId, verification.stored with
  | some subjectId, some credential =>
    match matchUserPassword V credential.hash password (!credential.normalised) with
    | some _ => some (subjectId, !credential.normalised)
    | none => none
  | _, _ => none

structure TotpSecret where
  secret : String
  lastStep : Option Int

structure StoredTotp where
  id : CredentialId
  secret : TotpSecret

inductive TotpStepOutcome where
  | success (subjectId : SubjectId) (step : Int)
  | challenge
  | failure

def totpCounter (now : Time) : Int := (now / 30 : ℕ)

/-- `verifyTotp`: the code of a step of the window, above the last one used. -/
def verifyTotp (V : Primitives) (secret code : String) (now : Time) (lastStep : Option Int) :
    Option Int :=
  if code.length = 6 ∧ code.toList.all Char.isDigit then
    [totpCounter now - 1, totpCounter now, totpCounter now + 1].find? fun step ↦
      !(lastStep.any fun last ↦ decide (step ≤ last)) && V.totpCode secret step == code
  else none

def totpStep (V : Primitives) (code : Option String) (subjectId : Option SubjectId)
    (secret : Option TotpSecret) (now : Time) : TotpStepOutcome :=
  match code with
  | none => .challenge
  | some code =>
    match subjectId, secret with
    | some subjectId, some secret =>
      match verifyTotp V secret.secret code now secret.lastStep with
      | some step => .success subjectId step
      | none => .failure
    | _, _ => .failure

/-- `isTotpSecretShape`. -/
def isTotpSecretShape (candidate : String) : Bool :=
  decide (16 ≤ candidate.length ∧ candidate.length ≤ 128) &&
    candidate.toList.all fun c ↦ c.isUpper || (decide ('2' ≤ c) && decide (c ≤ '7'))

/-- Never after a passkey, which is two factors. -/
def otpApplicable (hasTotp otpRequired : Bool) (satisfied : List AuthenticatorName) : Bool :=
  if .passkey ∈ satisfied then false else hasTotp || otpRequired

structure PasskeyCredential where
  id : CredentialId
  subjectId : SubjectId
  publicKey : String
  counter : ℕ
  rpId : Option String

inductive PasskeyStepOutcome where
  | success (subjectId : SubjectId) (credentialId : CredentialId) (counter : ℕ)
  | failure

/-- `counterAdvanced`: an authenticator that never counts reports zero forever. -/
def counterAdvanced (stored asserted : ℕ) : Bool :=
  if asserted = 0 ∧ stored = 0 then true else decide (stored < asserted)

/-- Whether the submission answers the passkey step at all. -/
def assertionOffered (input : AdvanceInput) : Bool :=
  match input.assertion with
  | none | some .empty => false
  | some _ => true

def assertedCredentialId : Option Assertion → Option String
  | some (.response id _) => some id
  | _ => none

/-- The step once an assertion is offered. -/
def passkeyStep (V : Primitives) (assertion : Option Assertion)
    (credential : Option PasskeyCredential) (expectedChallenge : Option ℕ)
    (relyingParty : Option RelyingParty) : PasskeyStepOutcome :=
  match assertion, credential, expectedChallenge, relyingParty with
  | some (.response _ signed), some credential, some challenge, some relyingParty =>
    if credential.rpId ≠ some relyingParty.id then .failure
    else
      match V.verifyAssertion relyingParty challenge signed credential.publicKey with
      | none => .failure
      | some counter =>
        if counterAdvanced credential.counter counter then
          .success credential.subjectId credential.id counter
        else .failure
  | _, _, _, _ => .failure

structure StoredRecoveryCode where
  id : CredentialId
  hash : String
  usedAt : Option Time

inductive RecoveryStepOutcome where
  | success (subjectId : SubjectId) (credentialId : CredentialId)
  | challenge
  | failure (reason : FailureReason)

/-- The digits and letters a printed code is made of. -/
def recoveryCodeAlphabet : List Char := "0123456789ABCDEFGHJKMNPQRSTVWXYZ".toList

/-- Crockford's decoding rule. -/
def confusable : Char → Char
  | 'O' => '0'
  | 'I' => '1'
  | 'L' => '1'
  | c => c

def normaliseRecoveryCode (V : Primitives) (submitted : String) : List Char :=
  ((V.toUpperCase submitted).toList.map confusable).filter fun c ↦
    decide (c ∈ recoveryCodeAlphabet)

def recoveryCodeOffered (V : Primitives) (input : AdvanceInput) : Bool :=
  input.recoveryCode.any fun submitted ↦ !(normaliseRecoveryCode V submitted).isEmpty

/-- The first stored code that matches decides. -/
def recoveryStep (V : Primitives) (input : AdvanceInput) (subjectId : Option SubjectId)
    (codes : List StoredRecoveryCode) : RecoveryStepOutcome :=
  if !recoveryCodeOffered V input then .challenge
  else
    match subjectId with
    | none => .failure .invalidCredentials
    | some subjectId =>
      let submitted := String.ofList (normaliseRecoveryCode V (input.recoveryCode.getD ""))
      match codes.find? fun stored ↦ V.verifyPassword stored.hash submitted with
      | none => .failure .invalidCredentials
      | some stored =>
        if stored.usedAt.isSome then .failure .alreadyUsed else .success subjectId stored.id

/-- A recovery code stands in for a second factor that is in play. -/
def recoveryApplicable (hasRecoveryCodes offered secondFactorInPlay : Bool)
    (satisfied : List AuthenticatorName) : Bool :=
  if .passkey ∈ satisfied then false else offered && hasRecoveryCodes && secondFactorInPlay

/-- Whether the submission carries a credential of any kind. -/
def carriesCredential (input : AdvanceInput) : Bool :=
  input.username.isSome || input.password.isSome || input.code.isSome ||
    input.recoveryCode.isSome || input.assertion.isSome

end Odudu.AuthnFlows
