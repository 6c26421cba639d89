import Odudu.DomainIdentity.PasswordPolicy
import Odudu.ProtocolOidc.Schema
import Odudu.Runs.Reached

/-!
# What the anonymous doors tell about an address

`account/src/usecase/register.ts` (`register`, `requestVerification`), the request half of
`account/src/usecase/reset-password.ts`, and the statements they make.  A state is one
tenant's: the users, the registrations that wait for their mailed link, the links of account
recovery, the queued mails, the audit events, and the counters of the mail gate, which live in
the process and are read and moved by every mail it is asked about.

Where the tenant verifies addresses no request made without a mailed link writes a user row,
the username is answered from the user rows alone, and an address's holder decides only what
is queued.  So two states with the same usernames taken, whoever holds which address in them,
answer every sequence of requests alike.

Left out: the default roles and groups of a new account, the client whose look a mail wears,
the texts of the mails, and the unique index on a link's hash (a key is 32 random bytes).
-/

set_option autoImplicit false

namespace Odudu.Account.AnonymousRequests

open DomainIdentity
open ProtocolOidc (Time SubjectId)

abbrev SessionReference := ℕ

/-- A row of `users`. -/
structure UserRow where
  subjectId : SubjectId
  username : String
  email : Option String
  locale : Option String
  selfRegistered : Bool

/-- A row of `pending_registrations`. -/
structure PendingRegistration where
  tokenHash : String
  username : String
  email : String
  passwordHash : String
  authenticationSessionId : Option SessionReference
  createdAt : Time
  expiresAt : Time

/-- A row of `action_tokens` of the type `reset_password`. -/
structure ResetLink where
  subjectId : SubjectId
  tokenHash : String
  email : Option String
  expiresAt : Time
  consumedAt : Option Time
  authenticationSessionId : Option SessionReference

/-- A queued mail, by the function that renders it. -/
inductive Mail where
  | finishRegistration (address link : String)
  | registrationDuplicate (address : String) (resetLink : Option String)
  | resetPassword (address link : String) (locale : Option String)
  deriving DecidableEq

structure AuditEvent where
  action : String
  outcome : String
  actorSubjectId : Option SubjectId
  resourceId : SubjectId
  reason : Option String

inductive MailKind where
  | registration
  | held
  | reset

/-- One tenant's rows, and what the process remembers of the mails it let through. -/
structure State (Budgets : Type) where
  users : List UserRow
  passwords : List (SubjectId × String)
  pendingRegistrations : List PendingRegistration
  actionTokens : List ResetLink
  emailOutbox : List Mail
  auditEvents : List AuditEvent
  budgets : Budgets

/-- What the requests use of the platform. -/
structure Platform (Budgets : Type) where
  hasher : PasswordHasher
  /-- SQL's `lower`. -/
  lower : String → String
  sha256Hex : String → String
  /-- Whether a mail of this kind may go to this address now. -/
  mailGate : MailKind → String → Budgets → Bool × Budgets

/-- The statement could not be made: a text that holds U+0000 is none of the database's. -/
inductive DatabaseError where
  | invalidByteSequence

/-! ### The texts a request is held to -/

/-- U+202A to U+202E and U+2066 to U+2069. -/
def containsBidiControl (value : String) : Bool :=
  value.toList.any fun c ↦
    (decide (0x202A ≤ c.toNat) && decide (c.toNat ≤ 0x202E)) ||
      (decide (0x2066 ≤ c.toNat) && decide (c.toNat ≤ 0x2069))

def containsNul (value : String) : Bool := value.toList.any fun c ↦ c == Char.ofNat 0

def isAtext (c : Char) : Bool :=
  c.isAlphanum || "!#$%&'*+/=?^_`\x7b|\x7d~-".toList.contains c

/-- `ATEXT+(?:\.ATEXT+)*`. -/
def isLocalPart (text : List Char) : Bool :=
  (text.splitOn '.').all fun component ↦ !component.isEmpty && component.all isAtext

/-- `[A-Za-z0-9](?:[A-Za-z0-9-]*[A-Za-z0-9])?`. -/
def isDomainLabel (label : List Char) : Bool :=
  (label.head?.any Char.isAlphanum && label.getLast?.any Char.isAlphanum) &&
    label.all fun c ↦ c.isAlphanum || c == '-'

/-- Two labels or more. -/
def isDomain (text : List Char) : Bool :=
  decide (2 ≤ (text.splitOn '.').length) && (text.splitOn '.').all isDomainLabel

def MAX_LOCAL_PART_OCTETS : ℕ := 64

def MAX_ADDRESS_OCTETS : ℕ := 254

/-- `service/email.ts`: neither part of an address holds an `@`, so there is one. -/
def isEmailAddress (value : String) : Bool :=
  decide (value.toList.length ≤ MAX_ADDRESS_OCTETS) &&
    match value.toList.splitOn '@' with
    | [localPart, domain] =>
      isLocalPart localPart && isDomain domain && decide (localPart.length ≤ MAX_LOCAL_PART_OCTETS)
    | _ => false

/-! ### The statements -/

section Statements

variable {Budgets : Type} (platform : Platform Budgets)

/-- `userRepository(tx).byUsername`. -/
def byUsername (users : List UserRow) (username : String) : Except DatabaseError (Option UserRow) :=
  if containsNul username then .error .invalidByteSequence
  else .ok (users.find? fun row ↦ row.username == username)

/-- `userRepository(tx).holderOfEmail`: the first of the subjects holding the address in any
case. -/
def holderOfEmail (users : List UserRow) (email : String) :
    Except DatabaseError (Option SubjectId) :=
  if containsNul email then .error .invalidByteSequence
  else
    let holders :=
      users.filter fun row ↦ row.email.map platform.lower == some (platform.lower email)
    .ok (holders.map UserRow.subjectId).min?

/-- `userRepository(tx).bySubjectId`. -/
def bySubjectId (users : List UserRow) (subjectId : SubjectId) : Option UserRow :=
  users.find? fun row ↦ row.subjectId == subjectId

structure TakenIdentifiers where
  username : Bool
  emailOwner : Option SubjectId

/-- `findTaken` of `app.ts`. -/
def findTaken (users : List UserRow) (username email : String) :
    Except DatabaseError TakenIdentifiers := do
  let byName ← byUsername users username
  let holder ← holderOfEmail platform users email
  return { username := byName.isSome, emailOwner := holder }

structure FoundUser where
  subjectId : SubjectId
  email : String
  locale : Option String

/-- `findByEmail` of `app.ts`: the holder and the address as it is stored. -/
def findByEmail (users : List UserRow) (email : String) :
    Except DatabaseError (Option FoundUser) := do
  let holder ← holderOfEmail platform users email
  return do
    let user ← bySubjectId users (← holder)
    let stored ← user.email
    return { subjectId := user.subjectId, email := stored, locale := user.locale }

/-- `pendingRegistrationRepository(tx).replace`: one row for an address, in any case. -/
def replace (rows : List PendingRegistration) (row : PendingRegistration) :
    List PendingRegistration :=
  let sameAddress := fun other : PendingRegistration ↦
    platform.lower other.email == platform.lower row.email
  if rows.any sameAddress then rows.map fun other ↦ if sameAddress other then row else other
  else rows ++ [row]

end Statements

/-! ### The requests -/

structure NewAccountInput where
  username : String
  email : String
  password : String

/-- What a registration is made with: the tenant's settings, the request's, and what is drawn
for it. -/
structure RegisterDeps where
  /-- `ODUDU_PUBLIC_BASE_URL`. -/
  issuerBase : Option String
  /-- The tenant's canonical address under a base. -/
  addressUnder : String → String
  verifyEmailEnabled : Bool
  resetPasswordAllowed : Bool
  authenticationSessionId : Option SessionReference
  now : Time
  verifyEmailTtlSeconds : Time
  passwordPolicy : PasswordPolicy
  /-- The random bytes of the key, the salt of the hash and the id of a new subject. -/
  key : String
  salt : ℕ
  subjectId : SubjectId

inductive RegisterOutcome where
  | created (subjectId : SubjectId)
  | verificationSent
  | emailTaken
  | usernameTaken
  | invalidEmail
  | invalidUsername
  | invalidPassword (violations : List PolicyViolation)
  | misconfigured
  /-- The call threw. -/
  | failed (error : DatabaseError)

structure RequestPasswordResetDeps where
  issuerBase : Option String
  addressUnder : String → String
  authenticationSessionId : Option SessionReference
  now : Time
  resetPasswordTtlSeconds : Time
  key : String

inductive RequestPasswordResetOutcome where
  | requested
  | misconfigured
  | failed (error : DatabaseError)

def KEY_PREFIX : String := "reg_"

def actionLink (address token : String) : String :=
  address ++ "/login-actions/action-token?key=" ++ token

def resetPasswordLink (address : String) : String := address ++ "/login-actions/reset-password"

inductive AccountCreationFailure where
  | emailTaken
  | usernameTaken
  | invalidEmail
  | invalidUsername

/-- The outcome that names a failure. -/
def AccountCreationFailure.outcome : AccountCreationFailure → RegisterOutcome
  | emailTaken => .emailTaken
  | usernameTaken => .usernameTaken
  | invalidEmail => .invalidEmail
  | invalidUsername => .invalidUsername

section Requests

variable {Budgets : Type} (platform : Platform Budgets)

/-- `createAccount` of `app.ts`, with the failure `classifyAccountCreationError` finds. -/
def createAccount (deps : RegisterDeps) (input : NewAccountInput) (s : State Budgets) :
    Except AccountCreationFailure (State Budgets) :=
  if containsBidiControl input.username then .error .invalidUsername
  else if !isEmailAddress input.email then .error .invalidEmail
  else if s.users.any fun row ↦ row.username == input.username then .error .usernameTaken
  else if s.users.any fun row ↦ row.email == some input.email then .error .emailTaken
  else
    .ok { s with
      users := s.users ++ [{ subjectId := deps.subjectId, username := input.username
                             email := some input.email, locale := none, selfRegistered := true }]
      passwords := s.passwords ++
        [(deps.subjectId, platform.hasher.hashUserPassword deps.salt input.password)] }

/-- The transaction of a registration that waits for its mailed link. -/
def requestVerification (deps : RegisterDeps) (input : NewAccountInput) (s : State Budgets) :
    RegisterOutcome × State Budgets :=
  match deps.issuerBase with
  | none => (.misconfigured, s)
  | some issuerBase =>
    let passwordHash := platform.hasher.hashUserPassword deps.salt input.password
    let address := deps.addressUnder issuerBase
    match findTaken platform s.users input.username input.email with
    | .error error => (.failed error, s)
    | .ok taken =>
      if taken.username then (.usernameTaken, s)
      else match taken.emailOwner with
        | some owner =>
          let event : AuditEvent :=
            { action := "account.registration_duplicate", outcome := "refused"
              actorSubjectId := none, resourceId := owner, reason := some "already_registered" }
          let (allowed, budgets) := platform.mailGate .held input.email s.budgets
          let resetLink :=
            if deps.resetPasswordAllowed then some (resetPasswordLink address) else none
          let mails := if allowed then [Mail.registrationDuplicate input.email resetLink] else []
          (.verificationSent, { s with
            auditEvents := s.auditEvents ++ [event]
            emailOutbox := s.emailOutbox ++ mails
            budgets := budgets })
        | none =>
          let (allowed, budgets) := platform.mailGate .registration input.email s.budgets
          if !allowed then (.verificationSent, { s with budgets := budgets })
          else
            let key := KEY_PREFIX ++ deps.key
            let row : PendingRegistration :=
              { tokenHash := platform.sha256Hex key, username := input.username
                email := input.email, passwordHash := passwordHash
                authenticationSessionId := deps.authenticationSessionId
                createdAt := deps.now, expiresAt := deps.now + deps.verifyEmailTtlSeconds * 1000 }
            (.verificationSent, { s with
              pendingRegistrations := replace platform s.pendingRegistrations row
              emailOutbox :=
                s.emailOutbox ++ [.finishRegistration input.email (actionLink address key)]
              budgets := budgets })

/-- The transaction of a registration that needs no mailed link. -/
def registerAtOnce (deps : RegisterDeps) (input : NewAccountInput) (s : State Budgets) :
    RegisterOutcome × State Budgets :=
  match findTaken platform s.users input.username input.email with
  | .error error => (.failed error, s)
  | .ok taken =>
    if taken.username then (.usernameTaken, s)
    else if taken.emailOwner.isSome then (.emailTaken, s)
    else match createAccount platform deps input s with
      | .error failure => (failure.outcome, s)
      | .ok s' =>
        let event : AuditEvent :=
          { action := "account.registered", outcome := "allowed"
            actorSubjectId := some deps.subjectId, resourceId := deps.subjectId, reason := none }
        (.created deps.subjectId, { s' with auditEvents := s'.auditEvents ++ [event] })

def register (deps : RegisterDeps) (input : NewAccountInput) (s : State Budgets) :
    RegisterOutcome × State Budgets :=
  if deps.verifyEmailEnabled && deps.issuerBase.isNone then (.misconfigured, s)
  else if containsBidiControl input.username then (.invalidUsername, s)
  else
    let violations := evaluatePassword platform.hasher.lexicon input.password deps.passwordPolicy
      { username := input.username, email := some input.email }
    if violations ≠ [] then
      (.invalidPassword (withMinimum violations deps.passwordPolicy.minLength), s)
    else if !isEmailAddress input.email then (.invalidEmail, s)
    else if deps.verifyEmailEnabled then requestVerification platform deps input s
    else registerAtOnce platform deps input s

/-- The token and the mail carrying it. -/
def enqueueResetLink (deps : RequestPasswordResetDeps) (address : String) (user : FoundUser)
    (s : State Budgets) : State Budgets :=
  { s with
    actionTokens := s.actionTokens ++
      [{ subjectId := user.subjectId, tokenHash := platform.sha256Hex deps.key
         email := some user.email, expiresAt := deps.now + deps.resetPasswordTtlSeconds * 1000
         consumedAt := none, authenticationSessionId := deps.authenticationSessionId }]
    emailOutbox := s.emailOutbox ++
      [.resetPassword user.email (actionLink address deps.key) user.locale] }

def requestPasswordReset (deps : RequestPasswordResetDeps) (email : String) (s : State Budgets) :
    RequestPasswordResetOutcome × State Budgets :=
  match deps.issuerBase with
  | none => (.misconfigured, s)
  | some issuerBase =>
    let address := deps.addressUnder issuerBase
    match findByEmail platform s.users email with
    | .error error => (.failed error, s)
    | .ok none => (.requested, s)
    | .ok (some user) =>
      let (allowed, budgets) := platform.mailGate .reset user.email s.budgets
      let s' := { s with budgets := budgets }
      if allowed then (.requested, enqueueResetLink platform deps address user s')
      else (.requested, s')

/-! ### One request -/

/-- An anonymous request. -/
inductive Request where
  | register (deps : RegisterDeps) (input : NewAccountInput)
  | requestVerification (deps : RegisterDeps) (input : NewAccountInput)
  | requestPasswordReset (deps : RequestPasswordResetDeps) (email : String)

/-- What the caller is told. -/
inductive Told where
  | registration (outcome : RegisterOutcome)
  | passwordReset (outcome : RequestPasswordResetOutcome)

def serve (request : Request) (s : State Budgets) : Told × State Budgets :=
  match request with
  | .register deps input => (register platform deps input s).map .registration id
  | .requestVerification deps input =>
    (requestVerification platform deps input s).map .registration id
  | .requestPasswordReset deps email =>
    (requestPasswordReset platform deps email s).map .passwordReset id

/-- The tenant requires a registration's address to be verified. -/
def Request.verifiesAddresses : Request → Prop
  | .register deps _ | .requestVerification deps _ => deps.verifyEmailEnabled = true
  | .requestPasswordReset .. => True

end Requests

/-! ### What is told depends on the usernames taken -/

section Told

variable {Budgets : Type} (platform : Platform Budgets)

/-- A user row has the username. -/
def UsernameTaken (users : List UserRow) (username : String) : Bool :=
  users.any fun row ↦ row.username == username

/-- The statements about a username and an address can be made. -/
def storable (username email : String) : Bool := !containsNul username && !containsNul email

theorem findTaken_eq (users : List UserRow) (username email : String) :
    (∃ owner, storable username email = true ∧
        findTaken platform users username email =
          .ok { username := UsernameTaken users username, emailOwner := owner }) ∨
      (storable username email = false ∧
        findTaken platform users username email = .error .invalidByteSequence) := by
  unfold findTaken storable byUsername holderOfEmail
  cases containsNul username with
  | true => exact .inr ⟨rfl, rfl⟩
  | false =>
    cases containsNul email with
    | true => exact .inr ⟨rfl, rfl⟩
    | false =>
      have hfind : (users.find? fun row ↦ row.username == username).isSome =
          UsernameTaken users username := List.isSome_find?
      let holders :=
        users.filter fun row ↦ row.email.map platform.lower == some (platform.lower email)
      refine .inl ⟨(holders.map UserRow.subjectId).min?, rfl, ?_⟩
      rw [← hfind]
      rfl

/-- A registration that waits for its link is answered from the usernames taken. -/
def verificationOutcome (deps : RegisterDeps) (input : NewAccountInput) (taken : Bool) :
    RegisterOutcome :=
  if deps.issuerBase.isNone then .misconfigured
  else if !storable input.username input.email then .failed .invalidByteSequence
  else if taken then .usernameTaken
  else .verificationSent

theorem requestVerification_outcome (deps : RegisterDeps) (input : NewAccountInput)
    (s : State Budgets) :
    (requestVerification platform deps input s).1 =
      verificationOutcome deps input (UsernameTaken s.users input.username) := by
  unfold requestVerification verificationOutcome
  cases deps.issuerBase with
  | none => rfl
  | some =>
    obtain ⟨owner, hstorable, htaken⟩ | ⟨hstorable, htaken⟩ :=
      findTaken_eq platform s.users input.username input.email
    · simp only [htaken, hstorable, Option.isNone_some, Bool.not_true, Bool.false_eq_true, if_false]
      split
      · rfl
      · cases owner with
        | some => rfl
        | none => dsimp only; split <;> rfl
    · simp [htaken, hstorable]

/-- It writes no user row. -/
theorem requestVerification_users (deps : RegisterDeps) (input : NewAccountInput)
    (s : State Budgets) : (requestVerification platform deps input s).2.users = s.users := by
  unfold requestVerification
  cases deps.issuerBase with
  | none => rfl
  | some =>
    dsimp only
    split
    · rfl
    · split
      · rfl
      · split
        · rfl
        · split <;> rfl

theorem findByEmail_storable (users : List UserRow) (email : String) :
    (containsNul email = false ∧ ∃ found, findByEmail platform users email = .ok found) ∨
      (containsNul email = true ∧
        findByEmail platform users email = .error .invalidByteSequence) := by
  unfold findByEmail holderOfEmail
  cases containsNul email with
  | true => exact .inr ⟨rfl, rfl⟩
  | false => exact .inl ⟨rfl, _, rfl⟩

/-- A reset is answered from what was sent. -/
def resetOutcome (deps : RequestPasswordResetDeps) (email : String) : RequestPasswordResetOutcome :=
  if deps.issuerBase.isNone then .misconfigured
  else if containsNul email then .failed .invalidByteSequence
  else .requested

theorem requestPasswordReset_spec (deps : RequestPasswordResetDeps) (email : String)
    (s : State Budgets) :
    (requestPasswordReset platform deps email s).1 = resetOutcome deps email ∧
      (requestPasswordReset platform deps email s).2.users = s.users := by
  unfold requestPasswordReset resetOutcome
  cases deps.issuerBase with
  | none => exact ⟨rfl, rfl⟩
  | some =>
    obtain ⟨hnul, found, hfound⟩ | ⟨hnul, hfound⟩ :=
      findByEmail_storable platform s.users email
    · simp only [hfound, hnul, Option.isNone_some, Bool.false_eq_true, if_false]
      cases found with
      | none => exact ⟨rfl, rfl⟩
      | some => dsimp only; split <;> exact ⟨rfl, rfl⟩
    · simp [hfound, hnul]

/-- With verification required, a registration is refused for what was sent, or waits for its
link. -/
theorem register_cases {deps : RegisterDeps} (input : NewAccountInput)
    (hverify : deps.verifyEmailEnabled = true) :
    (∃ outcome, ∀ s : State Budgets, register platform deps input s = (outcome, s)) ∨
      ∀ s : State Budgets,
        register platform deps input s = requestVerification platform deps input s := by
  unfold register
  simp only [hverify, Bool.true_and, if_true]
  split
  · exact .inl ⟨_, fun _ ↦ rfl⟩
  · split
    · exact .inl ⟨_, fun _ ↦ rfl⟩
    · split
      · exact .inl ⟨_, fun _ ↦ rfl⟩
      · split
        · exact .inl ⟨_, fun _ ↦ rfl⟩
        · exact .inr fun _ ↦ rfl

variable {request : Request}

/-- No anonymous request writes a user row where addresses are verified. -/
theorem serve_users (hverify : request.verifiesAddresses) (s : State Budgets) :
    (serve platform request s).2.users = s.users := by
  cases request with
  | register _ input =>
    obtain ⟨outcome, hrefused⟩ | hwaits := register_cases platform input hverify
    · simp [serve, hrefused]
    · simp [serve, hwaits, requestVerification_users]
  | requestVerification deps input => exact requestVerification_users platform deps input s
  | requestPasswordReset deps email => exact (requestPasswordReset_spec platform deps email s).2

/-- The same usernames are taken; any subject may hold any address in either. -/
def SameUsernames (s t : State Budgets) : Prop :=
  ∀ username, UsernameTaken s.users username = UsernameTaken t.users username

theorem serve_told (hverify : request.verifiesAddresses) {s t : State Budgets}
    (h : SameUsernames s t) : (serve platform request s).1 = (serve platform request t).1 := by
  have hwait : ∀ deps input, (requestVerification platform deps input s).1 =
      (requestVerification platform deps input t).1 := by
    intro deps input
    rw [requestVerification_outcome, requestVerification_outcome, h input.username]
  cases request with
  | register _ input =>
    obtain ⟨outcome, hrefused⟩ | hwaits := register_cases platform input hverify
    · simp [serve, hrefused]
    · simp [serve, hwaits, hwait]
  | requestVerification => simp [serve, hwait]
  | requestPasswordReset deps email =>
    simp [serve, (requestPasswordReset_spec platform deps email _).1]

theorem serve_unwinds :
    Runs.Unwinds (serve platform) Request.verifiesAddresses SameUsernames where
  answer hverify h := serve_told platform hverify h
  keeps hverify h := by
    intro username
    rw [serve_users platform hverify, serve_users platform hverify]
    exact h username

/-- Two states with the same usernames taken, whoever holds which address in them and whatever
waits, is queued or is left of the mail budgets in them, answer every sequence of anonymous
requests alike. -/
theorem requests_tell_no_holder {requests : List Request}
    (hverify : ∀ request ∈ requests, request.verifiesAddresses) {s t : State Budgets}
    (h : SameUsernames s t) :
    Runs.answers (serve platform) requests s = Runs.answers (serve platform) requests t :=
  (serve_unwinds platform).answers_eq hverify h

end Told

/-! ### A tenant whose first user holds the address asked about, or holds none -/

namespace Sample

def platform : Platform Unit where
  hasher :=
    { lexicon :=
        { normalisePassword := id, toLowerCase := id, fold := id, common := fun _ ↦ false }
      hashPassword := fun _ plain ↦ plain
      verifyPassword := fun stored plain ↦ stored == plain }
  lower := id
  sha256Hex := id
  mailGate := fun _ _ budgets ↦ (true, budgets)

def policy : PasswordPolicy where
  tenantName := "acme"
  minLength := 4
  requireDigit := false
  requireUppercase := false
  requireLowercase := false
  requireSpecial := false
  notUsername := true
  notEmail := true
  historyDepth := 0

def deps (key : String) : RegisterDeps where
  issuerBase := some "https://id.test"
  addressUnder := id
  verifyEmailEnabled := true
  resetPasswordAllowed := true
  authenticationSessionId := none
  now := 0
  verifyEmailTtlSeconds := 3600
  passwordPolicy := policy
  key := key
  salt := 0
  subjectId := 9

def tenant (email : Option String) : State Unit where
  users := [{ subjectId := 1, username := "ada", email := email
              locale := none, selfRegistered := false }]
  passwords := []
  pendingRegistrations := []
  actionTokens := []
  emailOutbox := []
  auditEvents := []
  budgets := ()

def requests : List Request :=
  [.register (deps "k1") ⟨"eve", "a@b.io", "correct horse"⟩,
    .register (deps "k2") ⟨"ada", "a@b.io", "correct horse"⟩,
    .requestVerification (deps "k3") ⟨"mal", "a@b.io", "correct horse"⟩,
    .requestPasswordReset
      { issuerBase := some "https://id.test", addressUnder := id, authenticationSessionId := none
        now := 0, resetPasswordTtlSeconds := 600, key := "k4" } "a@b.io"]

end Sample

/-- The outbox tells the two tenants apart; the answers do not. -/
theorem requests_tell_no_holder_sample :
    Runs.answers (serve Sample.platform) Sample.requests (Sample.tenant (some "a@b.io")) =
        Runs.answers (serve Sample.platform) Sample.requests (Sample.tenant none) ∧
      (Runs.after (serve Sample.platform) Sample.requests
          (Sample.tenant (some "a@b.io"))).emailOutbox ≠
        (Runs.after (serve Sample.platform) Sample.requests (Sample.tenant none)).emailOutbox := by
  constructor
  · refine requests_tell_no_holder Sample.platform ?_ fun username ↦ rfl
    intro request hrequest
    simp only [Sample.requests, List.mem_cons, List.not_mem_nil, or_false] at hrequest
    rcases hrequest with rfl | rfl | rfl | rfl
    · rfl
    · rfl
    · rfl
    · trivial
  · decide +kernel

end Odudu.Account.AnonymousRequests
