import Mathlib.Data.Nat.Notation

/-!
# Rows of the sign-in and token tables

The records of `authentication_sessions`, `sessions`, `authorization_codes`,
`token_grants` and `refresh_tokens`, with the columns the modelled code reads or writes.
Identifiers and hashes are numbers: nothing depends on their text.  Instants are numbers
too.  A scope or an audience is the list of its members.

Not here: `tenant_id` (row level security shows one tenant), `created_at` and `issued_at`
where no modelled function reads them, and the columns of display and audit.
-/

set_option autoImplicit false

namespace Odudu.ProtocolOidc

/-- An instant or a length of time, in milliseconds: a `Date` that is read has no finer part.
What the source gives in seconds is counted so too. -/
abbrev Time := ℕ

abbrev SubjectId := ℕ

abbrev ClientId := ℕ

abbrev SessionId := ℕ

abbrev AuthSessionId := ℕ

abbrev GrantId := ℕ

/-- A hash of a code or of a refresh token, which is what the tables are keyed on. -/
abbrev TokenHash := ℕ

/-- The registered authenticators (`service/authenticators/names.ts`). -/
inductive AuthenticatorName where
  | password
  | passkey
  | otp
  | recoveryCode
  deriving DecidableEq

/-- A member of the `prompt` request parameter (OIDC Core §3.1.2.1). -/
inductive Prompt where
  | none
  | login
  | consent
  | selectAccount
  | create
  deriving DecidableEq

/-- The request parked while its sign-in runs, in the members the doors read. -/
structure PendingRequest where
  clientId : ClientId
  redirectUri : String
  scope : List String
  codeChallenge : String
  idTokenHintSubject : Option SubjectId
  claimsSubject : Option SubjectId
  prompt : List Prompt
  maxAge : Option Time
  reuseSessionId : Option SessionId
  reuseAuthTime : Option Time
  resource : List String
  /-- The names in the `userinfo` member of `claims`. -/
  userinfoClaims : List String

/-- A row of `authentication_sessions`: one sign-in attempt. -/
structure AuthenticationSession where
  pendingRequest : PendingRequest
  expiresAt : Time
  consumedAt : Option Time
  satisfied : List AuthenticatorName
  subjectId : Option SubjectId
  authenticatedAt : Option Time
  webauthnChallenge : Option ℕ

/-- A row of `sessions`: one SSO session. -/
structure Session where
  subjectId : SubjectId
  createdAt : Time
  expiresAt : Time
  lastActiveAt : Time
  authenticators : List AuthenticatorName
  remembered : Bool
  secretHash : Option ℕ
  deriving DecidableEq

/-- A row of `authorization_codes`. -/
structure AuthorizationCode where
  clientId : ClientId
  subjectId : SubjectId
  redirectUri : String
  scope : List String
  codeChallenge : String
  authTime : Time
  expiresAt : Time
  consumedAt : Option Time
  grantId : Option GrantId
  sessionId : Option SessionId
  resource : List String
  userinfoClaims : List String

/-- The delegation chain of RFC 8693 §4.4. -/
inductive ActClaim where
  | mk (sub : String) (act : Option ActClaim)

mutual

def ActClaim.decEq : (a b : ActClaim) → Decidable (a = b)
  | .mk sub act, .mk sub' act' =>
    if hsub : sub = sub' then
      match ActClaim.decEqOption act act' with
      | isTrue hact => isTrue (by rw [hsub, hact])
      | isFalse hact => isFalse fun h ↦ hact (ActClaim.mk.inj h).2
    else isFalse fun h ↦ hsub (ActClaim.mk.inj h).1

def ActClaim.decEqOption : (a b : Option ActClaim) → Decidable (a = b)
  | none, none => isTrue rfl
  | none, some _ => isFalse nofun
  | some _, none => isFalse nofun
  | some act, some act' =>
    match ActClaim.decEq act act' with
    | isTrue h => isTrue (congrArg some h)
    | isFalse h => isFalse fun hsome ↦ h (Option.some.inj hsome)

end

instance : DecidableEq ActClaim := ActClaim.decEq

/-- A row of `token_grants`. -/
structure TokenGrant where
  clientId : ClientId
  subjectId : SubjectId
  scope : List String
  audience : List String
  revokedAt : Option Time
  sessionId : Option SessionId
  actorSubjectId : Option SubjectId
  exchangedFromGrantId : Option GrantId
  actChain : Option ActClaim
  expCeiling : Option Time
  requestedUserinfoClaims : Option (List String)

/-- A row of `refresh_tokens`. -/
structure RefreshToken where
  grantId : GrantId
  expiresAt : Time
  usedAt : Option Time
  replacedBy : Option TokenHash

/-- The idle and absolute lifespans of a tenant (`service/session-lifespan.ts`). -/
structure SessionLifespans where
  ssoSessionIdleSeconds : Time
  ssoSessionMaxSeconds : Time
  rememberMeIdleSeconds : Time
  rememberMeMaxSeconds : Time
  deriving DecidableEq

/-- Which idle window a session is measured against. -/
def lifespanFor (tenant : SessionLifespans) (remembered : Bool) : Time × Time :=
  if remembered then (tenant.rememberMeIdleSeconds, tenant.rememberMeMaxSeconds)
  else (tenant.ssoSessionIdleSeconds, tenant.ssoSessionMaxSeconds)

/-- `isSessionLive`: both boundaries are exclusive. -/
def isSessionLive (session : Session) (idleSeconds now : Time) : Bool :=
  if session.expiresAt ≤ now then false else now < session.lastActiveAt + idleSeconds

/-- `stillLive`: a row with no secret hash is never live. -/
def stillLive (row : Session) (tenant : SessionLifespans) (now : Time) : Bool :=
  match row.secretHash with
  | none => false
  | some _ => isSessionLive row (lifespanFor tenant row.remembered).1 now

/-- A cookie's claim to a session: its id, with the hash of the secret presented. -/
structure SessionEntry where
  id : SessionId
  secretHash : ℕ
  deriving DecidableEq

theorem lt_expiresAt_of_stillLive {row : Session} {tenant : SessionLifespans} {now : Time}
    (h : stillLive row tenant now = true) : now < row.expiresAt := by
  unfold stillLive at h
  cases hsecret : row.secretHash with
  | none => simp [hsecret] at h
  | some =>
    simp only [hsecret, isSessionLive] at h
    by_cases hdead : row.expiresAt ≤ now
    · simp [hdead] at h
    · exact Nat.lt_of_not_le hdead

end Odudu.ProtocolOidc
