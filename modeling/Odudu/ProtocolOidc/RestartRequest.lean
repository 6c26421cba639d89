import Odudu.ProtocolOidc.AuthorizeValidation
import Odudu.ProtocolOidc.ClaimsRequest
import Odudu.Numbers.Doubles
import Odudu.Texts.FormUrlencoded
import Odudu.Texts.Ascii

/-!
# The request that is parked, and the link that asks for it again

`handleAuthorizationRequest` from the query to the request that it parks
(`usecase/authorization-request.ts`, with `service/ui-locales.ts`), and
`restartAuthorizeLocation` (`service/restart-request.ts`), which makes a link of what was
parked.  Which page a request is parked for is not decided here: a request is parked alike for
all of them, but the promotion of a session parks it without its `max_age`.

Numbers are of binary64.  A row lists the values of a set and the members of an object in an
order of its own, and keeps a number above all as null.
-/

set_option autoImplicit false

namespace Odudu.ProtocolOidc.Authorize

open Texts Numbers

/-! ### The parameters that validation does not read -/

def MAX_UI_LOCALES : ℕ := 16

/-- `TAG`: what could be a language tag. -/
def isTag (candidate : String) : Bool :=
  candidate.toList.all (fun c ↦ c.isAlphanum || c == '-') &&
    decide (1 ≤ candidate.toList.length) && decide (candidate.toList.length ≤ 35)

/-- The loop over the candidates, with the tags so far. -/
def collectTags : List String → List String → List String
  | [], tags => tags
  | candidate :: rest, tags =>
    if tags.length = MAX_UI_LOCALES then tags
    else if isTag candidate && !tags.contains candidate then collectTags rest (tags ++ [candidate])
    else collectTags rest tags

def parseUiLocales (raw : Option String) : List String :=
  match raw with
  | none => []
  | some raw => collectTags (words raw) []

/-- `resource` is read from the raw parameters. -/
def resourceParam (rawParams : RawParams) : Field :=
  match rawParams with
  | .other => .absent
  | .object entries _ =>
    match ((entries.lookup "resource").elim [] RawValue.present).filterMap Entry.string? with
    | [] => .absent
    | [raw] => .one raw
    | raws => .many raws

/-! ### The accepted request -/

/-- What is stored of a client beside what validation reads. -/
structure ClientSettings where
  audiences : List String
  defaultMaxAge : Option ℕ

/-- A tenant with its clients, as `/authorize` reads them.  A client is found by its own id. -/
structure AuthorizeSetup where
  parse : String → Option Url
  env : Deployment
  deps : AuthorizeDeps
  policy : RegistrationPolicy
  settings : String → ClientSettings
  /-- Whom an `id_token_hint` names to a client, if it is good. -/
  subjectOfAuthorizeHint : String → String → Option String
  named : ∀ id client, (deps.resolveClient id).client = some client → client.clientId = id

/-- The request as it was validated, with what the pages need of it and its `max_age`. -/
structure Accepted where
  request : AcceptedRequest
  prompts : Prompts
  uiLocales : List String
  hintSubject : Option String
  claimsSubject : Option Utf16
  audience : List String
  claims : ClaimsRequest
  maxAge : Option Double

inductive AuthorizeAnswer where
  | refused (outcome : AuthorizeOutcome)
  | rejected (redirectUri : String) (error : AuthorizationErrorCode) (state : Option String)
      (description : Option String)
  | accepted (request : Accepted)

def AUTH_TIME : Utf16 := ofAscii "auth_time"

def SUB : Utf16 := ofAscii "sub"

/-- `auth_time` is essential. -/
def withAuthTime (member : ClaimsRequestMember) : ClaimsRequestMember :=
  member.put AUTH_TIME (by decide)
    { (member.named? AUTH_TIME).getD ⟨false, none, none⟩ with essential := true }

/-- A request that has a `max_age` asks for `auth_time`. -/
def claimsInEffect (maxAge : Option Double) (claims : ClaimsRequest) : ClaimsRequest :=
  if maxAge.isSome then { claims with idToken := withAuthTime claims.idToken } else claims

section Accept

variable (setup : AuthorizeSetup)

def resolvedClient (params : Params) : ResolvedClient :=
  ((params "client_id").map setup.deps.resolveClient).getD NO_CLIENT

/-- The request without the write scope, where the client can never be given it. -/
def askedParams (params : Params) : Params :=
  requestWithGrantableScope ((resolvedClient setup params).client.map (·.registrationOrigin)) params

/-- What follows the validation, of a request whose `redirect_uri` is trusted. -/
def acceptBelow (rawParams : RawParams) (params : Params) (request : AcceptedRequest)
    (prompts : Prompts) (idTokenHint : Option String) (maxAge : Option ℕ) : AuthorizeAnswer :=
  let reject (error : AuthorizationErrorCode) (description : Option String) : AuthorizeAnswer :=
    .rejected request.redirectUri error request.state description
  -- an origin that is not known needs no approval
  let origin := ((resolvedClient setup params).client.map (·.registrationOrigin)).getD .operator
  let settings := setup.settings request.clientId
  let scopes := requestedScopeTokens (askedParams setup params "scope")
  match parseResource setup.env (resourceParam rawParams)
      (audiencesHeld setup.env origin setup.policy settings.audiences) with
  | none => reject .invalidTarget none
  | some audience =>
    if refusesWriteScope origin scopes ||
        !scopesCoherentWithAudience scopes audience setup.env.mcpAudience ADMIN_API_AUDIENCE then
      reject .invalidScope none
    else
      let maxAge := (maxAge.or settings.defaultMaxAge).map Double.ofNat
      match parseClaimsRequest ((params "claims").map unitsOf) with
      | .invalid _ => reject .invalidRequest (some "claims is not valid")
      | .ok claimsRequest =>
        let claims := claimsInEffect maxAge claimsRequest
        let accepted (hintSubject : Option String) : AuthorizeAnswer :=
          .accepted {
            request, prompts, hintSubject, audience, claims, maxAge
            uiLocales := parseUiLocales (params "ui_locales")
            claimsSubject := (claims.idToken.named? SUB).bind (·.value) }
        match idTokenHint with
        | none => accepted none
        | some hint =>
          match setup.subjectOfAuthorizeHint hint request.clientId with
          | none => reject .invalidRequest (some "id_token_hint is not valid")
          | some subject => accepted (some subject)

/-- `handleAuthorizationRequest`, up to the request that it parks. -/
def acceptAuthorize (rawParams : RawParams) : AuthorizeAnswer :=
  match normalizeAuthorizeQuery rawParams, answerAuthorize setup.parse setup.deps rawParams with
  | .ok params _, .ok request prompts idTokenHint maxAge =>
    acceptBelow setup rawParams params request prompts idTokenHint maxAge
  | _, outcome => .refused outcome

end Accept

/-! ### The parked request -/

structure PendingRequest extends AcceptedRequest where
  idTokenHintSubject : Option String
  claimsSubject : Option Utf16
  prompt : Option (List Prompt)
  maxAge : Option Double
  uiLocales : Option (List String)
  resource : Option (List String)
  claims : Option ClaimsRequest

/-- What a request is parked for: the registration page, the chooser, the login form, or a
session that is promoted to answer it. -/
inductive ParkedFor where
  | registration
  | accountChooser
  | signIn
  | promotion
  deriving DecidableEq

def Accepted.parked (a : Accepted) (page : ParkedFor) : PendingRequest where
  toAcceptedRequest := a.request
  idTokenHintSubject := a.hintSubject
  claimsSubject := a.claimsSubject
  prompt := some a.prompts.values
  -- `promoteToParkedRequest` parks no `max_age`
  maxAge := if page = .promotion then none else a.maxAge
  uiLocales := if a.uiLocales.isEmpty then none else some a.uiLocales
  resource := some a.audience
  claims := some a.claims

/-- The orders in which a row lists what has none. -/
structure Storage where
  order : {α : Type} → List α → List α
  perm : ∀ {α : Type} (items : List α), (order items).Perm items

namespace Storage

variable (storage : Storage)

def member (member : ClaimsRequestMember) : ClaimsRequestMember where
  entries := storage.order member.entries
  nodup := ((storage.perm member.entries).map Prod.fst).nodup_iff.mpr member.nodup
  noProto := fun h ↦ member.noProto (((storage.perm member.entries).map Prod.fst).mem_iff.mp h)

/-- The request as it is read back. -/
def stored (pending : PendingRequest) : PendingRequest :=
  { pending with
    prompt := pending.prompt.map storage.order
    claims := pending.claims.map fun claims ↦
      ⟨storage.member claims.idToken, storage.member claims.userinfo⟩ }

end Storage

/-! ### The link -/

/-- The path that a tenant's pages are under: a name in it is percent-encoded. -/
structure TenantAddress where
  path : String
  noQuery : '?' ∉ path.toList

def promptToken : Prompt → String
  | .none => "none"
  | .login => "login"
  | .consent => "consent"
  | .selectAccount => "select_account"
  | .create => "create"

/-- Registration comes back as a sign-in. -/
def rewritten : Prompt → Prompt
  | .create => .login
  | value => value

/-- `String(maxAge)`; what is above all was stored as null. -/
def maxAgeText : Double → String
  | .finite n => numberText n
  | .infinity => "null"

/-- A parameter that is left out where there is nothing in it. -/
def joined (values : List String) : Option String :=
  if values.isEmpty then none else some (" ".intercalate values)

/-- The one resource; several are the registered list. -/
def singleResource : Option (List String) → Option String
  | some [resource] => some resource
  | _ => none

/-- The parameters in the order in which they are set. -/
def restartParams (pending : PendingRequest) (claims : Utf16) : List (String × Option String) :=
  [("response_type", some "code"),
    ("client_id", some pending.clientId),
    ("redirect_uri", some pending.redirectUri),
    ("scope", some pending.scope),
    ("code_challenge", some pending.codeChallenge),
    ("code_challenge_method", some pending.codeChallengeMethod),
    ("state", pending.state),
    ("nonce", pending.nonce),
    ("prompt", joined ((((pending.prompt.getD []).map rewritten).eraseDups).map promptToken)),
    ("max_age", pending.maxAge.map maxAgeText),
    ("ui_locales", joined (pending.uiLocales.getD [])),
    ("resource", singleResource pending.resource),
    ("claims", if claims = [] then none else some (usvString claims))]

/-- The parameters that are set. -/
def setParams (params : List (String × Option String)) : List (String × String) :=
  params.filterMap fun param ↦ param.2.map fun value ↦ (param.1, value)

/-- `restartAuthorizeLocation`: nothing where the request cannot be rebuilt. -/
def restartAuthorizeLocation (address : TenantAddress) (pending : PendingRequest) :
    Option String :=
  if pending.idTokenHintSubject.isSome || pending.claimsSubject.isSome then none
  else
    ((pending.claims.map claimsParameter).getD (some [])).map fun claims ↦
      String.ofList (address.path.toList ++ ("/protocol/openid-connect/auth".toList ++
        '?' :: serializeForm (setParams (restartParams pending claims))))

/-! ### The query of a link -/

/-- The values under a name, alone where there is one. -/
def rawValueOf (pairs : List (String × String)) (name : String) : RawValue :=
  match pairs.filter (fun pair ↦ pair.1 = name) with
  | [pair] => .lone (.string pair.2)
  | pairs => .array (pairs.map fun pair ↦ .string pair.2)

/-- The object that a query parser makes of the pairs. -/
def RawParams.ofPairs (pairs : List (String × String)) : RawParams :=
  .object ((pairs.map Prod.fst).dedup.map fun name ↦ (name, rawValueOf pairs name)) (by
    rw [List.map_map]
    exact (List.map_id _).symm ▸ List.nodup_dedup _)

/-- The raw parameters of a link that is followed. -/
def readLink (url : String) : RawParams := .ofPairs (parseForm (queryOf url.toList))

end Odudu.ProtocolOidc.Authorize
