import Mathlib.Data.List.Infix

/-!
# The tenant's password policy

`service/password-policy.ts`: the rules a new password is held to, every broken one
reported, in their order.  The Unicode functions and the file of common passwords are
parameters (`Lexicon`).

Left out: `maxAgeDays`, which no modelled function reads.
-/

set_option autoImplicit false

namespace Odudu.DomainIdentity

structure PasswordPolicy where
  tenantName : String
  minLength : ℕ
  requireDigit : Bool
  requireUppercase : Bool
  requireLowercase : Bool
  requireSpecial : Bool
  notUsername : Bool
  notEmail : Bool
  historyDepth : ℕ
  deriving DecidableEq

structure PolicyViolation where
  rule : String
  message : String
  /-- The number the minimum-length rule states, on the pages that list it. -/
  minLength : Option ℕ
  deriving DecidableEq

structure PasswordSubject where
  username : String
  email : Option String

/-- What the rules use of Unicode, and the listed passwords. -/
structure Lexicon where
  /-- The NFC form. -/
  normalisePassword : String → String
  toLowerCase : String → String
  /-- The lower case of the NFKC form. -/
  fold : String → String
  /-- `COMMON.has`. -/
  common : String → Bool

def REUSED_PASSWORD : PolicyViolation :=
  ⟨"not-reused", "Password must not be one you have used before.", none⟩

def COMMON_PASSWORD : PolicyViolation :=
  ⟨"common-password", "That password is too easy to guess. Choose a different one.", none⟩

def MAX_PASSWORD_LENGTH : ℕ := 256

def PASSWORD_TOO_LONG : PolicyViolation :=
  ⟨"max-length", "Password must be at most 256 characters long.", none⟩

def PRODUCT_NAME : String := "odudu"

def isCommonPassword (lexicon : Lexicon) (candidate : String) (context : List String) : Bool :=
  let folded := lexicon.fold candidate
  folded != "" &&
    (lexicon.common folded ||
      (context ++ [PRODUCT_NAME]).any fun word ↦ lexicon.fold word == folded)

/-- `text.includes(part)`. -/
def includes (text part : String) : Bool := decide (part.toList <:+: text.toList)

/-- `email.split('@')[0]`. -/
def emailLocalPart : Option String → String
  | none => ""
  | some email => String.ofList (email.toList.takeWhile (· != '@'))

def isUpper (c : Char) : Bool := decide ('A' ≤ c ∧ c ≤ 'Z')

def isLower (c : Char) : Bool := decide ('a' ≤ c ∧ c ≤ 'z')

def isDigit (c : Char) : Bool := decide ('0' ≤ c ∧ c ≤ '9')

/-- A rule that is broken, or nothing. -/
def violation (broken : Bool) (rule message : String) : List PolicyViolation :=
  if broken then [⟨rule, message, none⟩] else []

/-- Every rule the candidate breaks, in the form that is hashed. -/
def evaluatePassword (lexicon : Lexicon) (typed : String) (policy : PasswordPolicy)
    (subject : PasswordSubject) : List PolicyViolation :=
  let candidate := lexicon.normalisePassword typed
  let characters := candidate.toList
  let contains := fun word ↦ includes (lexicon.toLowerCase candidate) (lexicon.toLowerCase word)
  let localPart := emailLocalPart subject.email
  violation (decide (characters.length < policy.minLength)) "min-length"
      ("Password must be at least " ++ toString policy.minLength ++ " characters long.") ++
    (if MAX_PASSWORD_LENGTH < characters.length then [PASSWORD_TOO_LONG] else []) ++
    violation (policy.requireDigit && !characters.any isDigit) "require-digit"
      "Password must contain a digit." ++
    violation (policy.requireUppercase && !characters.any isUpper) "require-uppercase"
      "Password must contain an uppercase letter." ++
    violation (policy.requireLowercase && !characters.any isLower) "require-lowercase"
      "Password must contain a lowercase letter." ++
    violation (policy.requireSpecial &&
        !characters.any fun c ↦ !(isUpper c || isLower c || isDigit c)) "require-special"
      "Password must contain a special character." ++
    violation (policy.notUsername && subject.username != "" && contains subject.username)
      "not-username" "Password must not contain the username." ++
    violation (policy.notEmail && subject.email.isSome && localPart != "" && contains localPart)
      "not-email" "Password must not contain the email address." ++
    (if isCommonPassword lexicon candidate [policy.tenantName, subject.username, localPart] then
      [COMMON_PASSWORD] else [])

/-- `withMinimum`: the minimum-length rule with the number it states. -/
def withMinimum (violations : List PolicyViolation) (minLength : ℕ) : List PolicyViolation :=
  violations.map fun v ↦ if v.rule = "min-length" then { v with minLength := some minLength } else v

/-- Argon2id of the NFC form, under a salt. -/
structure PasswordHasher where
  lexicon : Lexicon
  /-- Argon2id of a text, under a salt. -/
  hashPassword : ℕ → String → String
  /-- Whether the hash is of this text. -/
  verifyPassword : String → String → Bool

/-- `hashUserPassword`, whose salt is fresh. -/
def PasswordHasher.hashUserPassword (hasher : PasswordHasher) (salt : ℕ) (plain : String) :
    String :=
  hasher.hashPassword salt (hasher.lexicon.normalisePassword plain)

/-- `verifyUserPassword`: the NFC form, then the text as it was typed. -/
def PasswordHasher.verifyUserPassword (hasher : PasswordHasher) (stored plain : String) : Bool :=
  hasher.verifyPassword stored (hasher.lexicon.normalisePassword plain) ||
    (hasher.lexicon.normalisePassword plain != plain && hasher.verifyPassword stored plain)

end Odudu.DomainIdentity
