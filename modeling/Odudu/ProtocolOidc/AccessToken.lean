import Odudu.ProtocolOidc.Schema
import Mathlib.Data.List.Basic

/-!
# Scopes, audiences and the access token they are signed into

`resolveScope` narrows a request to what a client is assigned, `resolveAudience` narrows
an audience to what was resolved before, and `mintAccessToken` signs what is left.  An
MCP scope (`mcp:read`, `mcp:write`) marks a token as an agent's; so does an `act` claim.
`Token.Unmarked` is what the admin API takes for the person's own.

The claims of `mintAccessToken` are those that decide who a token is for and who holds
it: subject, client, audience, scope, `act`, session, grant and expiry.  Mapped claims,
`iss` and `jti` are left out, and so is the signature.  A mapper cannot set a
claim that is present here: registered claims win.
-/

set_option autoImplicit false

namespace Odudu.ProtocolOidc

/-- The resource identifier an admin token names in `aud`. -/
def ADMIN_API_AUDIENCE : String := "urn:odudu:params:admin-api"

def MCP_READ_SCOPE : String := "mcp:read"

def MCP_WRITE_SCOPE : String := "mcp:write"

def MCP_SCOPES : List String := [MCP_READ_SCOPE, MCP_WRITE_SCOPE]

def isMcpScope (scope : String) : Bool := MCP_SCOPES.contains scope

def holdsMcpScope (scopes : List String) : Bool := scopes.any isMcpScope

/-- A grant holding `mcp:write` is never refreshable. -/
def refreshAllowedForScope (scope : List String) : Bool := !scope.contains MCP_WRITE_SCOPE

def MCP_WRITE_MAX_TTL_SECONDS : Time := 600

/-- A token holding `mcp:write` lives ten minutes at most. -/
def capLifetimeForScope (ttlSeconds : Time) (scope : List String) : Time :=
  if scope.contains MCP_WRITE_SCOPE then min ttlSeconds MCP_WRITE_MAX_TTL_SECONDS
  else ttlSeconds

/-- An MCP scope means something only at the MCP endpoint and at the admin API. -/
def scopeAllowedAt (scope audience mcpAudience adminAudience : String) : Bool :=
  if isMcpScope scope then audience == mcpAudience || audience == adminAudience else true

/-- Every scope is allowed at every audience of the token, and an MCP scope has one. -/
def scopesCoherentWithAudience (scopes audiences : List String)
    (mcpAudience adminAudience : String) : Bool :=
  scopes.all fun scope ↦
    if isMcpScope scope then
      !audiences.isEmpty &&
        audiences.all fun audience ↦ scopeAllowedAt scope audience mcpAudience adminAudience
    else true

/-- `requested ∩ client-allowed`, narrowed by consent and by delegation where either
applies. -/
def resolveScope (requested clientAllowed : List String)
    (consented delegated : Option (List String)) : List String :=
  let scope := requested.filter clientAllowed.contains
  let scope := match consented with
    | none => scope
    | some consented => scope.filter consented.contains
  match delegated with
  | none => scope
  | some delegated => scope.filter delegated.contains

/-- What a request's repeatable field may hold. -/
inductive Field where
  | absent
  | one (raw : String)
  | many (raws : List String)

/-- What the code reads of the deployment rather than of the request. -/
structure Deployment where
  issuer : String
  mcpAudience : String
  /-- `new URL(raw)` succeeds and finds no fragment. -/
  isUrlWithoutFragment : String → Bool
  /-- The path of an address is that of an MCP endpoint. -/
  isMcpUrl : String → Bool
  /-- `createHash('sha256')` of a verifier, in base64url. -/
  s256 : String → String
  /-- The pattern of RFC 7636 §4.1. -/
  isWellFormedPkceString : String → Bool

/-- A deployment in which a verifier is its own challenge. -/
def plainDeployment : Deployment where
  issuer := "https://id.example"
  mcpAudience := "https://id.example/mcp"
  isUrlWithoutFragment := fun _ ↦ true
  isMcpUrl := fun audience ↦ audience == "https://id.example/mcp"
  s256 := id
  isWellFormedPkceString := fun _ ↦ true

/-- The audience a `resource` parameter resolves to against a registered list (RFC 8707
§2); nothing where the target is invalid. -/
def parseResource (env : Deployment) (raw : Field) (registered : List String) :
    Option (List String) :=
  match raw with
  | .absent => some registered
  | .many _ => none
  | .one raw =>
    if env.isUrlWithoutFragment raw then
      if registered.contains raw then some [raw] else none
    else none

/-- What a request's `resource` narrows a resolved audience to. -/
def resolveAudience (env : Deployment) (base : List String) (requestedResource : Field) :
    Option (List String) :=
  parseResource env requestedResource base

/-- The claims of an access token that say who it is for and who holds it. -/
structure AccessToken where
  sub : SubjectId
  clientId : ClientId
  aud : List String
  scope : List String
  iat : Time
  exp : Time
  sid : Option SessionId
  grantId : GrantId
  requestedUserinfoClaims : Option (List String)
  act : Option ActClaim
  /-- `via: mcp`. -/
  via : Bool
  deriving DecidableEq

/-- The claims of an ID token that an exchange reads. -/
structure IdToken where
  sub : SubjectId
  aud : ClientId
  exp : Time
  sid : Option SessionId
  act : Option ActClaim
  deriving DecidableEq

/-- What a token is minted from. -/
structure MintInput where
  subjectId : SubjectId
  clientId : ClientId
  scope : List String
  accessTokenTtlSeconds : Time
  audience : List String
  sessionId : Option SessionId
  grantId : GrantId
  requestedUserinfoClaims : Option (List String)
  act : Option ActClaim
  /-- Set for the token that the MCP endpoint mints for a call it serves, and no other. -/
  endpointMinted : Bool
  expCeiling : Option Time

/-- The issuer is never dropped from an audience. -/
def withIssuer (env : Deployment) (audience : List String) : List String :=
  if audience.contains env.issuer then audience else audience ++ [env.issuer]

/-- Signs an access token: refused where an MCP scope would be signed for a resource that
does not define it.  The issuer is always in the audience. -/
def mintAccessToken (env : Deployment) (input : MintInput) (now : Time) : Option AccessToken :=
  if scopesCoherentWithAudience input.scope (input.audience.filter (· != env.issuer))
      env.mcpAudience ADMIN_API_AUDIENCE then
    let ttlExp := now + capLifetimeForScope input.accessTokenTtlSeconds input.scope
    let ceiling := input.expCeiling.getD ttlExp
    some {
      sub := input.subjectId
      clientId := input.clientId
      aud := withIssuer env input.audience
      scope := input.scope
      iat := now
      exp := min ttlExp ceiling
      sid := input.sessionId
      grantId := input.grantId
      requestedUserinfoClaims := input.requestedUserinfoClaims.filter fun names ↦ !names.isEmpty
      act := input.act
      via := input.endpointMinted }
  else none

/-- What the admin API takes for the person's own token: no `act` and no MCP scope. -/
def AccessToken.Unmarked (token : AccessToken) : Prop :=
  token.act = none ∧ holdsMcpScope token.scope = false

@[simp] theorem isMcpScope_iff {scope : String} :
    isMcpScope scope = true ↔ scope = MCP_READ_SCOPE ∨ scope = MCP_WRITE_SCOPE := by
  simp [isMcpScope, MCP_SCOPES]

theorem holdsMcpScope_iff {scopes : List String} :
    holdsMcpScope scopes = true ↔ ∃ scope ∈ scopes, isMcpScope scope = true := by
  simp [holdsMcpScope]

theorem holdsMcpScope_mono {scopes scopes' : List String} (hsub : scopes ⊆ scopes')
    (h : holdsMcpScope scopes = true) : holdsMcpScope scopes' = true := by
  obtain ⟨scope, hmem, hmcp⟩ := holdsMcpScope_iff.mp h
  exact holdsMcpScope_iff.mpr ⟨scope, hsub hmem, hmcp⟩

/-- What a minted token says of its input. -/
structure Mints (env : Deployment) (input : MintInput) (token : AccessToken) : Prop where
  sub : token.sub = input.subjectId
  clientId : token.clientId = input.clientId
  scope : token.scope = input.scope
  sid : token.sid = input.sessionId
  grantId : token.grantId = input.grantId
  requestedUserinfoClaims : token.requestedUserinfoClaims =
    input.requestedUserinfoClaims.filter fun names ↦ !names.isEmpty
  act : token.act = input.act
  via : token.via = input.endpointMinted
  mem_aud : ∀ audience, audience ∈ token.aud ↔ audience ∈ input.audience ∨ audience = env.issuer

variable {env : Deployment}

theorem mem_withIssuer {audience : List String} {member : String} :
    member ∈ withIssuer env audience ↔ member ∈ audience ∨ member = env.issuer := by
  unfold withIssuer
  by_cases hissuer : env.issuer ∈ audience
  · simp only [List.contains_eq_mem, hissuer, decide_true, if_true]
    refine ⟨Or.inl, ?_⟩
    rintro (hmem | rfl)
    · exact hmem
    · exact hissuer
  · simp [hissuer]

variable {token : AccessToken} {input : MintInput} {now : Time}

theorem mints_of_mintAccessToken
    (h : mintAccessToken env input now = some token) :
    Mints env input token := by
  unfold mintAccessToken at h
  split at h
  · obtain rfl := Option.some.inj h
    exact ⟨rfl, rfl, rfl, rfl, rfl, rfl, rfl, rfl, fun _ ↦ mem_withIssuer⟩
  · simp at h

/-- The issuer is no resource that a scope is judged at. -/
theorem filter_withIssuer (env : Deployment) (audience : List String) :
    (withIssuer env audience).filter (· != env.issuer) = audience.filter (· != env.issuer) := by
  unfold withIssuer
  split
  · rfl
  · rw [List.filter_append]
    simp

/-- A token whose scope is one for its audience, and which is short-lived where it may
write. -/
structure AccessToken.Coherent (env : Deployment) (token : AccessToken) : Prop where
  scope : scopesCoherentWithAudience token.scope (token.aud.filter (· != env.issuer))
    env.mcpAudience ADMIN_API_AUDIENCE = true
  shortLived : MCP_WRITE_SCOPE ∈ token.scope → token.exp ≤ token.iat + MCP_WRITE_MAX_TTL_SECONDS

theorem capLifetimeForScope_le {scope : List String} (h : MCP_WRITE_SCOPE ∈ scope)
    (ttlSeconds : Time) : capLifetimeForScope ttlSeconds scope ≤ MCP_WRITE_MAX_TTL_SECONDS := by
  rw [capLifetimeForScope, if_pos (List.contains_iff_mem.mpr h)]
  exact Nat.min_le_right _ _

/-- What is signed is coherent. -/
theorem coherent_of_mintAccessToken
    (h : mintAccessToken env input now = some token) :
    token.Coherent env := by
  unfold mintAccessToken at h
  split at h
  case isTrue hcoherent =>
    obtain rfl := Option.some.inj h
    constructor
    · rw [filter_withIssuer]
      exact hcoherent
    · intro hwrite
      exact Nat.le_trans (Nat.min_le_left _ _)
        (Nat.add_le_add_left (capLifetimeForScope_le hwrite _) now)
  case isFalse => simp at h

/-- A token expires within the ceiling it was given. -/
theorem exp_le_of_mintAccessToken
    (h : mintAccessToken env input now = some token) {ceiling : Time}
    (hceiling : input.expCeiling = some ceiling) : token.exp ≤ ceiling := by
  unfold mintAccessToken at h
  split at h
  · obtain rfl := Option.some.inj h
    simp only [hceiling, Option.getD_some]
    exact Nat.min_le_right _ _
  · simp at h

end Odudu.ProtocolOidc
