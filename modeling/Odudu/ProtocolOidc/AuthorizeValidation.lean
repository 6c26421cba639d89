import Odudu.ProtocolOidc.RedirectUri
import Odudu.ProtocolOidc.SessionReuse

/-!
# The boundary of `/authorize`

`service/query-normalization.ts` turns what a body parser produced into one string for each
parameter, and `service/authorize-validation.ts` answers by rendering until the
`redirect_uri` is known to belong to an enabled client, and by redirecting to it from there
on.  `handleAuthorizationRequest`, up to the request it accepts, looks the client up by the
normalized `client_id`.

An answer redirects only to a URI registered for the enabled client
(`validate_redirectsTo`), and one of the four parameters that are answered above the boundary
never redirects when it is sent with two values (`normalizeAuthorizeQuery_repeated`).
-/

set_option autoImplicit false

namespace Odudu.ProtocolOidc.Authorize

open RedirectUri

/-! ### Normalization -/

/-- What a body parser put in one place: a string, or something that is none. -/
inductive Entry where
  | string (text : String)
  | unreadable
  deriving DecidableEq

/-- What is under a key of the raw parameters. -/
inductive RawValue where
  | lone (entry : Entry)
  | array (entries : List Entry)

/-- The raw parameters: an object with its own keys, or no object at all. -/
inductive RawParams where
  | object (entries : List (String × RawValue)) (distinct : (entries.map Prod.fst).Nodup)
  | other

/-- `Array.isArray(raw) ? raw : [raw]` -/
def RawValue.sent : RawValue → List Entry
  | lone entry => [entry]
  | array entries => entries

/-- The values sent, but for the empty ones, which are omitted parameters. -/
def RawValue.present (raw : RawValue) : List Entry := raw.sent.filter (· ≠ .string "")

def Entry.string? : Entry → Option String
  | string text => some text
  | unreadable => none

inductive ParameterValue where
  | absent
  | single (value : String)
  | ambiguous (value : Option String)

def parameterValue (raw : RawValue) : ParameterValue :=
  let value := raw.present.findSome? Entry.string?
  if 1 < raw.present.length then .ambiguous value
  else
    match value with
    | none => .absent
    | some value => .single value

inductive ErrorCode where
  | invalidClient
  | invalidRequest
  | invalidScope
  | requestNotSupported
  | requestUriNotSupported
  | unsupportedResponseType

abbrev Params : Type := String → Option String

inductive QueryNormalization where
  | render (error : ErrorCode) (description : String)
  | ok (params : Params) (repeatedKey : Option String)

def RENDER_ON_REPEAT : List String :=
  ["client_id", "redirect_uri", "response_mode", "response_type"]

/-- The loop over the entries, with the parameters and the repeated key so far. -/
def normalizeEntries : List (String × RawValue) → Params → Option String → QueryNormalization
  | [], params, repeatedKey => .ok params repeatedKey
  | (key, rawValue) :: rest, params, repeatedKey =>
    -- `resource` has its own reader and its own answer to two values
    if key = "resource" then normalizeEntries rest params repeatedKey
    else
      match parameterValue rawValue with
      | .absent => normalizeEntries rest params repeatedKey
      | .single value => normalizeEntries rest (Function.update params key (some value)) repeatedKey
      | .ambiguous value =>
        if key ∈ RENDER_ON_REPEAT then
          .render .invalidRequest ("Repeated " ++ key ++ " parameter")
        else
          normalizeEntries rest
            (if value.isSome then Function.update params key value else params)
            (some (repeatedKey.getD key))

def normalizeAuthorizeQuery : RawParams → QueryNormalization
  | .other => .ok (fun _ ↦ none) none
  | .object entries _ => normalizeEntries entries (fun _ ↦ none) none

/-! ### Validation -/

/-- A row of `clients`, in the members that are read here. -/
structure ClientRecord where
  clientId : String
  enabled : Bool
  type : ClientType
  registrationOrigin : RegistrationOrigin

structure ClientOidcConfig where
  redirectUris : List String

/-- The request as it is parked. -/
structure AcceptedRequest where
  clientId : String
  redirectUri : String
  scope : String
  state : Option String
  nonce : Option String
  codeChallenge : String
  codeChallengeMethod : String

inductive AuthorizeOutcome where
  | ok (request : AcceptedRequest) (prompts : Prompts) (idTokenHint : Option String)
      (maxAge : Option ℕ)
  | render (error : ErrorCode) (description : String)
  | redirect (redirectUri : String) (error : ErrorCode) (state : Option String)
      (description : Option String)

/-- Where the browser is sent, with a code in the end or with an error. -/
def AuthorizeOutcome.redirectsTo : AuthorizeOutcome → Option String
  | ok request _ _ _ => some request.redirectUri
  | render _ _ => none
  | redirect redirectUri _ _ _ => some redirectUri

def SUPPORTED_RESPONSE_MODE : String := "query"

def requestedScopeTokens (scope : Option String) : List String :=
  ((scope.getD "openid").splitOn " ").filter fun token ↦ token != ""

def scopesAreGrantable (scope : Option String) (knownToTenant assignedToClient : List String) :
    Bool :=
  let tokens := requestedScopeTokens scope
  !tokens.isEmpty &&
    tokens.all fun token ↦ knownToTenant.contains token && assignedToClient.contains token

/-- `PKCE_STRING_PATTERN`: 43 to 128 unreserved characters. -/
def isWellFormedPkceString (value : String) : Bool :=
  value.toList.all (fun c ↦ c.isAlphanum || c == '-' || c == '.' || c == '_' || c == '~') &&
    decide (43 ≤ value.length) && decide (value.length ≤ 128)

inductive MaxAgeParse where
  | ok (value : Option ℕ)
  | invalid

/-- `MAX_AGE_PATTERN`: a number without sign, fraction, exponent or leading zero. -/
def isMaxAge (digits : List Char) : Bool :=
  digits.all Char.isDigit && !digits.isEmpty && (digits.head? != some '0' || digits == ['0'])

def parseMaxAge (raw : Option String) : MaxAgeParse :=
  match raw with
  | none => .ok none
  | some raw =>
    if isMaxAge raw.toList then .ok (some (Nat.ofDigitChars 10 raw.toList 0)) else .invalid

def toPendingRequest (client : ClientRecord) (params : Params) (redirectUri : String)
    (state : Option String) (codeChallenge : String) : AcceptedRequest where
  clientId := client.clientId
  redirectUri := redirectUri
  scope := (params "scope").getD "openid"
  state := state
  nonce := params "nonce"
  codeChallenge := codeChallenge
  codeChallengeMethod := "S256"

/-- Below the boundary: every answer goes to the redirect URI. -/
def validateBelowBoundary (params : Params) (client : ClientRecord) (redirectUri : String)
    (knownScopes clientScopes : List String) (repeatedKey : Option String) : AuthorizeOutcome :=
  let state := params "state"
  let reject (error : ErrorCode) (description : Option String) : AuthorizeOutcome :=
    .redirect redirectUri error state description
  if repeatedKey.isSome then reject .invalidRequest (some "A parameter was sent more than once")
  else if (params "request").isSome then reject .requestNotSupported none
  else if (params "request_uri").isSome then reject .requestUriNotSupported none
  else if params "response_type" ≠ some "code" then reject .unsupportedResponseType none
  else
    match params "code_challenge" with
    | none => reject .invalidRequest (some "code_challenge is required")
    | some codeChallenge =>
      if !isWellFormedPkceString codeChallenge then
        reject .invalidRequest (some "code_challenge is not valid")
      else if params "code_challenge_method" ≠ some "S256" then
        reject .invalidRequest (some "code_challenge_method must be S256")
      else if !scopesAreGrantable (params "scope") knownScopes clientScopes then
        reject .invalidScope none
      else
        match parsePrompt (params "prompt") with
        | none => reject .invalidRequest (some "prompt is not valid")
        | some prompts =>
          match parseMaxAge (params "max_age") with
          | .invalid => reject .invalidRequest (some "max_age is not valid")
          | .ok maxAge =>
            .ok (toPendingRequest client params redirectUri state codeChallenge) prompts
              (params "id_token_hint") maxAge

variable (parse : String → Option Url)

def validateAuthorizationRequest (params : Params) (client : Option ClientRecord)
    (config : Option ClientOidcConfig) (knownScopes clientScopes : List String)
    (repeatedKey : Option String) : AuthorizeOutcome :=
  if (params "response_mode").any (· != SUPPORTED_RESPONSE_MODE) then
    .render .invalidRequest
      ("Unsupported response_mode; this server answers in " ++ SUPPORTED_RESPONSE_MODE ++ " only")
  else
    match client, config with
    | some client, some config =>
      if !client.enabled then .render .invalidClient "Unknown or disabled client"
      else
        match params "redirect_uri" with
        | none => .render .invalidRequest "Unregistered redirect URI"
        | some redirectUri =>
          if !isRegisteredRedirectUri parse redirectUri config.redirectUris client.type
              (some client.registrationOrigin) then
            .render .invalidRequest "Unregistered redirect URI"
          else
            validateBelowBoundary params client redirectUri knownScopes clientScopes repeatedKey
    | _, _ => .render .invalidClient "Unknown or disabled client"

/-! ### The endpoint -/

/-- A client as it is looked up. -/
structure ResolvedClient where
  client : Option ClientRecord
  config : Option ClientOidcConfig
  scopes : List String

def NO_CLIENT : ResolvedClient := ⟨none, none, []⟩

/-- What the endpoint asks of its deployment. -/
structure AuthorizeDeps where
  tenantEnabled : Bool
  resolveClient : String → ResolvedClient
  scopesNamed : List String → List String

/-- `requestWithGrantableScope` -/
def requestWithGrantableScope (registrationOrigin : Option RegistrationOrigin) (params : Params) :
    Params :=
  match params "scope", registrationOrigin with
  | some scope, some registrationOrigin =>
    let asked := (scope.splitOn " ").filter fun token ↦ token != ""
    let grantable := grantableScopes registrationOrigin asked
    if grantable.length = asked.length then params
    else Function.update params "scope" (some (" ".intercalate grantable))
  | _, _ => params

/-- `handleAuthorizationRequest`, up to the request that it accepts. -/
def answerAuthorize (deps : AuthorizeDeps) (rawParams : RawParams) : AuthorizeOutcome :=
  match normalizeAuthorizeQuery rawParams with
  | .render error description => .render error description
  | .ok params repeatedKey =>
    if !deps.tenantEnabled then
      validateAuthorizationRequest parse params none none [] [] repeatedKey
    else
      let resolved := ((params "client_id").map deps.resolveClient).getD NO_CLIENT
      let asked := requestWithGrantableScope (resolved.client.map (·.registrationOrigin)) params
      validateAuthorizationRequest parse asked resolved.client resolved.config
        (deps.scopesNamed (requestedScopeTokens (asked "scope"))) resolved.scopes repeatedKey

/-- `validateAuthorizationRequest` after `normalizeAuthorizeQuery`. -/
def authorizeOutcome (rawParams : RawParams) (client : Option ClientRecord)
    (config : Option ClientOidcConfig) (knownScopes clientScopes : List String) :
    AuthorizeOutcome :=
  match normalizeAuthorizeQuery rawParams with
  | .render error description => .render error description
  | .ok params repeatedKey =>
    validateAuthorizationRequest parse params client config knownScopes clientScopes repeatedKey

/-! ### What normalization keeps -/

def RawParams.entries : RawParams → List (String × RawValue)
  | object entries _ => entries
  | other => []

/-- The values sent under a key, but for the empty ones. -/
def RawParams.Sends (rawParams : RawParams) (key : String) (values : List Entry) : Prop :=
  ∃ rawValue, (key, rawValue) ∈ rawParams.entries ∧ rawValue.present = values

variable {entries : List (String × RawValue)} {params params' : Params}
  {repeatedKey repeatedKey' : Option String} {key value : String} {rawValue : RawValue}

theorem parameterValue_eq_single :
    parameterValue rawValue = .single value ↔ rawValue.present = [.string value] := by
  unfold parameterValue
  match hpresent : rawValue.present with
  | [] => simp
  | [.string text] => simp [Entry.string?]
  | [.unreadable] => simp [Entry.string?]
  | _ :: _ :: _ => simp

/-- A parameter that is answered above the boundary is the one value that was sent. -/
theorem normalizeEntries_single (hkey : key ∈ RENDER_ON_REPEAT)
    (hok : normalizeEntries entries params repeatedKey = .ok params' repeatedKey')
    (hvalue : params' key = some value) :
    params key = some value ∨
      ∃ rawValue, (key, rawValue) ∈ entries ∧ rawValue.present = [.string value] := by
  induction entries generalizing params repeatedKey with
  | nil =>
    obtain ⟨rfl, -⟩ : params = params' ∧ repeatedKey = repeatedKey' := by
      simpa [normalizeEntries] using hok
    exact Or.inl hvalue
  | cons entry rest ih =>
    obtain ⟨name, raw⟩ := entry
    have hlater {params : Params} {repeatedKey : Option String}
        (hok : normalizeEntries rest params repeatedKey = .ok params' repeatedKey') :
        params key = some value ∨ ∃ rawValue, (key, rawValue) ∈ (name, raw) :: rest ∧
          rawValue.present = [.string value] := by
      refine (ih hok).imp_right fun ⟨rawValue, hmem, hpresent⟩ ↦ ?_
      exact ⟨rawValue, List.mem_cons_of_mem _ hmem, hpresent⟩
    unfold normalizeEntries at hok
    by_cases hresource : name = "resource"
    · rw [if_pos hresource] at hok
      exact hlater hok
    rw [if_neg hresource] at hok
    cases hraw : parameterValue raw with
    | absent =>
      simp only [hraw] at hok
      exact hlater hok
    | single text =>
      simp only [hraw] at hok
      rcases hlater hok with hupdate | hrest
      · by_cases hname : key = name
        · subst hname
          obtain rfl : text = value := by simpa using hupdate
          exact Or.inr ⟨raw, List.mem_cons_self, parameterValue_eq_single.mp hraw⟩
        · exact Or.inl (by rwa [Function.update_of_ne hname] at hupdate)
      · exact Or.inr hrest
    | ambiguous =>
      simp only [hraw] at hok
      by_cases hrender : name ∈ RENDER_ON_REPEAT
      · simp [hrender] at hok
      rw [if_neg hrender] at hok
      rcases hlater hok with hupdate | hrest
      · have hname : key ≠ name := fun hname ↦ hrender (hname ▸ hkey)
        split_ifs at hupdate
        · exact Or.inl (by rwa [Function.update_of_ne hname] at hupdate)
        · exact Or.inl hupdate
      · exact Or.inr hrest

/-- Two values under one of the four keys are answered by rendering. -/
theorem normalizeEntries_repeated (hkey : key ∈ RENDER_ON_REPEAT)
    (hmem : (key, rawValue) ∈ entries) (htwice : 1 < rawValue.present.length) :
    ∃ description,
      normalizeEntries entries params repeatedKey = .render .invalidRequest description := by
  induction entries generalizing params repeatedKey with
  | nil => exact absurd hmem List.not_mem_nil
  | cons entry _ ih =>
    obtain ⟨name, raw⟩ := entry
    unfold normalizeEntries
    rcases List.mem_cons.mp hmem with heq | hrest
    · obtain ⟨rfl, rfl⟩ : key = name ∧ rawValue = raw := by simpa using heq
      have hresource : key ≠ "resource" := by
        rintro rfl
        exact absurd hkey (by decide)
      have hambiguous : parameterValue rawValue =
          .ambiguous (rawValue.present.findSome? Entry.string?) := if_pos htwice
      exact ⟨_, by rw [if_neg hresource, hambiguous]; exact if_pos hkey⟩
    · have ih {params : Params} {repeatedKey : Option String} :=
        @ih params repeatedKey hrest
      by_cases hresource : name = "resource"
      · simpa only [if_pos hresource] using ih
      rw [if_neg hresource]
      cases parameterValue raw with
      | absent | single => exact ih
      | ambiguous =>
        by_cases hrender : name ∈ RENDER_ON_REPEAT
        · exact ⟨_, if_pos hrender⟩
        · simpa only [if_neg hrender] using ih

theorem normalizeAuthorizeQuery_eq (rawParams : RawParams) :
    normalizeAuthorizeQuery rawParams = normalizeEntries rawParams.entries (fun _ ↦ none) none := by
  cases rawParams <;> rfl

/-! ### Where the browser is sent -/

variable {parse} {rawParams : RawParams} {client : Option ClientRecord}
  {config : Option ClientOidcConfig} {knownScopes clientScopes : List String} {uri : String}

/-- Below the boundary every answer goes to the URI that was vetted. -/
theorem validateBelowBoundary_redirectsTo (params : Params) (client : ClientRecord)
    (redirectUri : String) (knownScopes clientScopes : List String)
    (repeatedKey : Option String) :
    (validateBelowBoundary params client redirectUri knownScopes clientScopes
      repeatedKey).redirectsTo = some redirectUri := by
  unfold validateBelowBoundary
  simp only []
  repeat' split
  all_goals rfl

/-- The URI is registered for the client, which exists and is enabled. -/
structure Vetted (parse : String → Option Url) (client : Option ClientRecord)
    (config : Option ClientOidcConfig) (uri : String) (record : ClientRecord)
    (registered : ClientOidcConfig) : Prop where
  exists_client : client = some record
  enabled : record.enabled = true
  exists_config : config = some registered
  accepted : isRegisteredRedirectUri parse uri registered.redirectUris record.type
    (some record.registrationOrigin) = true

/-- A request is only ever sent to its own `redirect_uri`, once that is vetted. -/
theorem validate_redirectsTo
    (h : (validateAuthorizationRequest parse params client config knownScopes clientScopes
      repeatedKey).redirectsTo = some uri) :
    params "redirect_uri" = some uri ∧
      ∃ record registered, Vetted parse client config uri record registered := by
  unfold validateAuthorizationRequest at h
  by_cases hmode : (params "response_mode").any (· != SUPPORTED_RESPONSE_MODE) = true
  · simp [hmode, AuthorizeOutcome.redirectsTo] at h
  rw [if_neg hmode] at h
  cases client with
  | none => simp [AuthorizeOutcome.redirectsTo] at h
  | some record =>
    cases config with
    | none => simp [AuthorizeOutcome.redirectsTo] at h
    | some registered =>
      simp only [] at h
      by_cases henabled : record.enabled = true
      · rw [if_neg (by simp [henabled])] at h
        cases hparam : params "redirect_uri" with
        | none => simp [hparam, AuthorizeOutcome.redirectsTo] at h
        | some redirectUri =>
          simp only [hparam] at h
          by_cases haccepted : isRegisteredRedirectUri parse redirectUri registered.redirectUris
              record.type (some record.registrationOrigin) = true
          · rw [if_neg (by simp [haccepted]), validateBelowBoundary_redirectsTo] at h
            obtain rfl : redirectUri = uri := by simpa using h
            exact ⟨rfl, record, registered, rfl, henabled, rfl, haccepted⟩
          · simp [haccepted, AuthorizeOutcome.redirectsTo] at h
      · simp [henabled, AuthorizeOutcome.redirectsTo] at h

/-- The `redirect_uri` of the normalized parameters is the one value that was sent. -/
theorem sends_of_normalized {params : Params}
    (hok : normalizeAuthorizeQuery rawParams = .ok params repeatedKey)
    (hkey : key ∈ RENDER_ON_REPEAT) (hvalue : params key = some value) :
    rawParams.Sends key [.string value] := by
  rw [normalizeAuthorizeQuery_eq] at hok
  exact (normalizeEntries_single hkey hok hvalue).resolve_left (by simp)

theorem normalizeAuthorizeQuery_repeated {values : List Entry} (hkey : key ∈ RENDER_ON_REPEAT)
    (hsends : rawParams.Sends key values) (htwice : 1 < values.length) :
    ∃ description, normalizeAuthorizeQuery rawParams = .render .invalidRequest description := by
  obtain ⟨rawValue, hmem, rfl⟩ := hsends
  rw [normalizeAuthorizeQuery_eq]
  exact normalizeEntries_repeated hkey hmem htwice

/-- The error boundary: whatever was sent, and whatever client and configuration it meets,
the browser is sent only to the one `redirect_uri`, vetted for the client; only a registered
string or a loopback twin of one is accepted; and two values under one of the four keys are
never answered by redirecting. -/
theorem authorize_boundary (parse : String → Option Url) (rawParams : RawParams)
    (client : Option ClientRecord) (config : Option ClientOidcConfig)
    (knownScopes clientScopes : List String) :
    (∀ uri, (authorizeOutcome parse rawParams client config knownScopes clientScopes).redirectsTo =
        some uri → rawParams.Sends "redirect_uri" [.string uri] ∧
          ∃ record registered, Vetted parse client config uri record registered) ∧
      (∀ presented registered clientType origin,
        isRegisteredRedirectUri parse presented registered clientType origin = true →
          presented ∈ registered ∨ ∃ uri ∈ registered, ∃ base candidate,
            LoopbackTwin parse (loopbackHosts clientType origin) presented uri base candidate) ∧
      ∀ key ∈ RENDER_ON_REPEAT, ∀ values, rawParams.Sends key values → 1 < values.length →
        (authorizeOutcome parse rawParams client config knownScopes clientScopes).redirectsTo =
          none := by
  refine ⟨?_, fun _ _ _ _ ↦ isRegisteredRedirectUri_iff.mp, ?_⟩
  · intro uri h
    unfold authorizeOutcome at h
    cases hok : normalizeAuthorizeQuery rawParams with
    | render => simp [hok, AuthorizeOutcome.redirectsTo] at h
    | ok =>
      simp only [hok] at h
      obtain ⟨hparam, hvetted⟩ := validate_redirectsTo h
      exact ⟨sends_of_normalized hok (by decide) hparam, hvetted⟩
  · intro key hkey values hsends htwice
    obtain ⟨description, hrender⟩ := normalizeAuthorizeQuery_repeated hkey hsends htwice
    rw [authorizeOutcome, hrender]
    rfl

/-- A `redirect_uri` that is sent twice, once empty, is one that is sent once. -/
theorem authorize_redirects_beside_empty :
    (RawParams.object [("redirect_uri", .array [.string "", .string "https://app.example/cb"])]
        (by simp)).entries.map (fun entry ↦ entry.2.sent.length) = [2] ∧
      (authorizeOutcome (fun _ ↦ none)
        (.object [("redirect_uri", .array [.string "", .string "https://app.example/cb"])]
          (by simp))
        (some ⟨"app", true, .confidential, .operator⟩) (some ⟨["https://app.example/cb"]⟩) []
        []).redirectsTo = some "https://app.example/cb" := by
  decide

end Odudu.ProtocolOidc.Authorize
