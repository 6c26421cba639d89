import Odudu.AuthnFlows.SessionCookies
import Odudu.ProtocolOidc.Schema

/-!
# Logout

The end-session endpoint of a tenant (`usecase/logout.ts`, `view/routes/logout.ts`).  A first contact,
a `GET` or a `POST` without a `session_id`, asks for a confirmation, unless the client of a verified
hint skips it; the confirmation is a `POST` of the form that was shown.

What a call reads of the database is an input of the call, so nothing is said of what else happens
between two calls.  A call that the database fails is not here: it answers with an error.  Neither
is what ending a session writes besides.
-/

set_option autoImplicit false

namespace Odudu.ProtocolOidc.Logout

open Texts AuthnFlows.SessionCookies

/-! ### The sessions of a browser -/

/-- An entry with its secret, as the cookie carries it. -/
abbrev CookieEntry : Type := AuthnFlows.SessionCookies.SessionEntry

/-- A row of `sessions`. -/
structure SessionRow extends Session where
  id : Text
  deriving DecidableEq

/-- A live session, and the entry of the cookie that proves it. -/
structure PresentedSession where
  row : SessionRow
  entry : CookieEntry
  deriving DecidableEq

def toLowerCase (text : Text) : Text := text.map Char.toLower

/-- What the entries resolve to, of rows in any order. -/
def liveByEntries (hashes : Hashes) (entries : List CookieEntry)
    (rows : List SessionRow) (tenant : SessionLifespans) (now : Time) : List PresentedSession :=
  let selected := rows.filter fun row ↦ entries.any fun entry ↦ toLowerCase entry.id == row.id
  selected.filterMap fun row ↦
    let entry := entries.find? fun candidate ↦
      toLowerCase candidate.id == row.id && candidate.matchesHash hashes row.secretHash
    if stillLive row.toSession tenant now then entry.map (PresentedSession.mk row) else none

def mostRecentlyActive (sessions : List PresentedSession) : Option PresentedSession :=
  sessions.foldl (fun current candidate ↦
    match current with
    | none => some candidate
    | some current =>
      if current.row.lastActiveAt < candidate.row.lastActiveAt then some candidate
      else if candidate.row.lastActiveAt < current.row.lastActiveAt then some current
      else if current.row.id < candidate.row.id then some candidate
      else some current) none

/-! ### Hints -/

/-- The header of a token, with nothing for a member that is no string; its `typ` may be
anything. -/
structure ProtectedHeader where
  kid : Option Utf16
  alg : Option Utf16
  typ : Option Parsed

structure SigningKeyRecord where
  kid : Utf16
  alg : Utf16
  publicJwk : Parsed

abbrev JWTPayload : Type := List (Utf16 × Parsed)

/-- The library that reads tokens; nothing is what it throws. -/
structure Jose where
  decodeProtectedHeader : Utf16 → Option ProtectedHeader
  /-- A token, the key and its algorithm, and the issuers: with an `exp` that is required and read at
  the epoch, and for any audience. -/
  jwtVerify : Utf16 → Parsed → Utf16 → List Utf16 → Option JWTPayload

def named (expected : List Utf16) : List Utf16 := expected.filter fun value ↦ !value.isEmpty

/-- `verifyJwt`, with no `typ`, any audience and the expiry unjudged. -/
def verifyJwt (jose : Jose) (token : Utf16) (keys : List SigningKeyRecord)
    (issuers : List Utf16) : Option JWTPayload := do
  let header ← jose.decodeProtectedHeader token
  let kid ← header.kid
  if kid.isEmpty then none
  else
    let record ← keys.find? fun key ↦ key.kid == kid
    if header.alg ≠ some record.alg then none
    else if header.typ.isSome then none
    else jose.jwtVerify token record.publicJwk record.alg (named issuers)

structure IdTokenHintClaims where
  subject : Utf16
  sid : Option Utf16
  audiences : List Utf16

def stringOf : Parsed → Option Utf16
  | .string text => some text
  | _ => none

/-- A claim that is a string, and not an empty one. -/
def filledOf (payload : JWTPayload) (name : String) : Option Utf16 :=
  ((payload.lookup (ofAscii name)).bind stringOf).filter fun text ↦ !text.isEmpty

def audiencesOf : Option Parsed → List Utf16
  | some (.string audience) => [audience]
  | some (.array items) => items.filterMap stringOf
  | _ => []

def subjectOfLogoutHint (jose : Jose) (keys : List SigningKeyRecord) (issuers : List Utf16)
    (hint : Utf16) : Option IdTokenHintClaims := do
  let payload ← verifyJwt jose hint keys issuers
  let subject ← filledOf payload "sub"
  pure {
    subject
    sid := filledOf payload "sid"
    audiences := audiencesOf (payload.lookup (ofAscii "aud")) }

structure ValidHint where
  clientId : Utf16
  sid : Utf16

/-- A hint that names exactly one client, and a session. -/
def toValidHint (hint : Option IdTokenHintClaims) : Option ValidHint :=
  match hint with
  | some { sid := some sid, audiences := [only], .. } => some ⟨only, sid⟩
  | _ => none

/-! ### Clients -/

/-- A row of `clients`, with what is registered of its logout. -/
structure ClientRow where
  clientId : String
  enabled : Bool
  skipLogoutConfirmation : Bool
  postLogoutRedirectUris : List String
  /-- The schema of a client asks for one character at least. -/
  clientId_ne : clientId ≠ ""

structure LogoutClientRecord where
  id : Utf16
  skipsConfirmation : Bool
  postLogoutRedirectUris : List Utf16

/-- A client is looked up by the characters of its id, and a disabled one is none. -/
def logoutClient (clients : List ClientRow) (oauthClientId : Utf16) : Option LogoutClientRecord := do
  let client ← clients.find? fun client ↦ client.clientId == usvString oauthClientId
  if client.enabled then
    some {
      id := unitsOf client.clientId
      skipsConfirmation := client.skipLogoutConfirmation
      postLogoutRedirectUris := client.postLogoutRedirectUris.map unitsOf }
  else none

/-! ### Decisions -/

inductive RedirectDecision where
  | ends (redirectTo : Option Utf16)
  | render (error : String)

def decideRedirect (requested : Option Utf16) (registered : List Utf16) : RedirectDecision :=
  match requested with
  | none => .ends none
  | some requested =>
    if registered.contains requested then .ends (some requested) else .render "invalid_request"

inductive FirstContactDecision where
  | confirm
  /-- The session is ended without asking. -/
  | sessionEnds
  /-- There is none, and the redirect alone is honoured. -/
  | redirects (redirectTo : Utf16)

structure LogoutInput where
  session : Option Text
  hint : Option ValidHint
  client : Option LogoutClientRecord
  redirect : Option Utf16

def decideLogout (input : LogoutInput) : FirstContactDecision :=
  match input.session with
  | none => input.redirect.elim .confirm .redirects
  | some session =>
    match input.hint, input.client with
    | some hint, some client =>
      if client.skipsConfirmation && hint.clientId == client.id && hint.sid == unitsOfText session
      then .sessionEnds
      else .confirm
    | _, _ => .confirm

def registeredRedirectOf (requested : Option Utf16) (registered : List Utf16) : Option Utf16 :=
  requested.filter registered.contains

def clientOfRequest (clientId : Option Utf16) (hint : Option IdTokenHintClaims) : Option Utf16 :=
  match clientId, hint with
  | some clientId, _ => some clientId
  | none, some { audiences := [only], .. } => some only
  | none, _ => none

/-- A `client_id` that a hint does not name. -/
def disagreeing (clientId : Option Utf16) (hint : Option IdTokenHintClaims) : Bool :=
  match clientId, hint with
  | some clientId, some hint => !hint.audiences.contains clientId
  | _, _ => false

/-- Where the two disagree, the hint is not used. -/
def usableHint (clientId : Option Utf16) (hint : Option IdTokenHintClaims) :
    Option IdTokenHintClaims :=
  if disagreeing clientId hint then none else hint

def selectLogoutSession (sessions : List PresentedSession) (hintSid : Option Utf16) :
    Option PresentedSession :=
  let named := hintSid.bind fun sid ↦ sessions.find? fun session ↦ unitsOfText session.row.id == sid
  named.or ((mostRecentlyActive sessions).bind fun recent ↦
    sessions.find? fun session ↦ session.row.id == recent.row.id)

def LOGOUT_CONFIRMATION : String := "logout-confirm"

def LOGOUT_CONFIRMATION_BRANDED : String := "logout-confirm-branded"

def brandedClient (hint : Option IdTokenHintClaims) (clientId : Option Utf16)
    (client : Option LogoutClientRecord) : Option Utf16 :=
  if hint.isSome && client.isSome then clientId else none

/-! ### The two handlers -/

/-- What a confirmation page carries. -/
structure ConfirmationForm where
  sessionId : Option Text
  csrf : Option String
  clientId : Option Utf16
  postLogoutRedirectUri : Option Utf16
  registeredRedirect : Option Utf16
  state : Option Utf16
  brandClientId : Option Utf16

inductive LogoutOutcome where
  | notFound
  | unauthenticated
  | confirm (form : ConfirmationForm)
  | ends (redirectTo state : Option Utf16) (sessionEnded : Bool) (frontChannelLogoutUrls : List String)
      (brandClientId : Option Utf16)
  | render (error : String) (state : Option Utf16) (frontChannelLogoutUrls : List String)
      (brandClientId : Option Utf16)

structure LogoutSession where
  id : Text
  subjectId : SubjectId

/-- A text that is hashed under the secret of an entry. -/
structure Bound where
  entry : CookieEntry
  purpose : String
  values : List Utf16

def Bound.proof (hashes : Hashes) (bound : Bound) : String :=
  bound.entry.proof hashes bound.purpose bound.values

/-- The key and the text. -/
def Bound.hashed (bound : Bound) : Text × String :=
  (bound.entry.secret, bound.entry.hashedText bound.purpose bound.values)

/-- What a call comes to: the outcome, the session it ended, and of what text it shows the hash. -/
structure Handled where
  outcome : LogoutOutcome
  ended : Option LogoutSession
  shown : Option Bound

structure TenantLookup where
  enabled : Bool
  lifespans : SessionLifespans

/-- What a call reads. -/
structure LogoutReads where
  tenant : Option TenantLookup
  sessions : List SessionRow
  now : Time
  publishableKeys : List SigningKeyRecord
  acceptedIssuers : List Utf16
  clients : List ClientRow
  /-- The addresses of the frames for a session that is ended. -/
  frontChannelLogoutUrls : Text → List String

/-- The libraries, and whether the deployment is reached over TLS. -/
structure LogoutDeps where
  hashes : Hashes
  jose : Jose
  tls : Bool

/-- The values that a form is bound to, with nothing for a value that is absent. -/
def signedValues (clientId postLogoutRedirectUri state : Option Utf16) : List Utf16 :=
  [clientId.getD [], postLogoutRedirectUri.getD [], state.getD []]

section Handlers

variable (deps : LogoutDeps) (reads : LogoutReads)

def resolveSessions (tenant : TenantLookup) (tenantName : TenantName) (header : Option Text) :
    List PresentedSession :=
  let entries := readSessionEntries header tenantName deps.tls
  liveByEntries deps.hashes (entries.ephemeral ++ entries.persistent) reads.sessions
    tenant.lifespans reads.now

def logoutClientOf (clientId : Option Utf16) : Option LogoutClientRecord :=
  clientId.bind (logoutClient reads.clients)

/-- What is registered for the client of a request. -/
def registeredOf (client : Option LogoutClientRecord) : List Utf16 :=
  client.elim [] LogoutClientRecord.postLogoutRedirectUris

def endAndAnswer (session : LogoutSession) (requested : Option Utf16) (registered : List Utf16)
    (state brandClientId : Option Utf16) : Handled where
  outcome :=
    match decideRedirect requested registered with
    | .ends redirectTo =>
      .ends redirectTo state true (reads.frontChannelLogoutUrls session.id) brandClientId
    | .render error => .render error state (reads.frontChannelLogoutUrls session.id) brandClientId
  ended := some session
  shown := none

structure LogoutRequestParams where
  idTokenHint : Option Utf16
  clientId : Option Utf16
  postLogoutRedirectUri : Option Utf16
  state : Option Utf16

def hintOf (params : LogoutRequestParams) : Option IdTokenHintClaims :=
  params.idTokenHint.bind
    (subjectOfLogoutHint deps.jose reads.publishableKeys reads.acceptedIssuers)

/-- The redirect that is asked for, which is dropped with a hint that disagrees. -/
def requestedOf (hint : Option IdTokenHintClaims) (params : LogoutRequestParams) : Option Utf16 :=
  if disagreeing params.clientId hint then none else params.postLogoutRedirectUri

/-- `handleLogoutRequest`, once the sessions are resolved and the hint is read. -/
def firstContact (sessions : List PresentedSession) (hint : Option IdTokenHintClaims)
    (params : LogoutRequestParams) : Handled :=
  let clientId := clientOfRequest params.clientId hint
  let client := logoutClientOf reads clientId
  let registered := registeredOf client
  let requested := requestedOf hint params
  let usable := usableHint params.clientId hint
  let selected := selectLogoutSession sessions (usable.bind IdTokenHintClaims.sid)
  let brandClientId := brandedClient usable clientId client
  let decision := decideLogout {
    session := selected.map fun session ↦ session.row.id
    hint := toValidHint usable
    client
    redirect := registeredRedirectOf requested registered }
  let shown := selected.map fun session ↦ {
    entry := session.entry
    purpose :=
      if brandClientId.isNone then LOGOUT_CONFIRMATION else LOGOUT_CONFIRMATION_BRANDED
    values := signedValues clientId requested params.state : Bound }
  match decision, selected with
  | .sessionEnds, some session =>
    endAndAnswer reads ⟨session.row.id, session.row.subjectId⟩ requested registered params.state
      brandClientId
  | .redirects redirectTo, _ =>
    { outcome := .ends (some redirectTo) params.state false [] brandClientId
      ended := none
      shown := none }
  | _, _ =>
    { outcome := .confirm {
        sessionId := selected.map fun session ↦ session.row.id
        csrf := shown.map (Bound.proof deps.hashes)
        clientId
        postLogoutRedirectUri := requested
        registeredRedirect := registeredRedirectOf requested registered
        state := params.state
        brandClientId }
      ended := none
      shown }

def notFound : Handled := ⟨.notFound, none, none⟩

def handleLogoutRequest (tenantName : TenantName) (header : Option Text)
    (params : LogoutRequestParams) : Handled :=
  match reads.tenant with
  | none => notFound
  | some tenant =>
    if !tenant.enabled then notFound
    else firstContact deps reads (resolveSessions deps reads tenant tenantName header)
      (hintOf deps reads params) params

structure LogoutConfirmationParams where
  confirmedSessionId : Utf16
  csrf : Utf16
  clientId : Option Utf16
  postLogoutRedirectUri : Option Utf16
  state : Option Utf16

def LogoutConfirmationParams.signed (params : LogoutConfirmationParams) : List Utf16 :=
  signedValues params.clientId params.postLogoutRedirectUri params.state

def namedSession (sessions : List PresentedSession) (params : LogoutConfirmationParams) :
    Option PresentedSession :=
  sessions.find? fun candidate ↦ unitsOfText candidate.row.id == params.confirmedSessionId

/-- `handleLogoutConfirmation`, once the sessions are resolved. -/
def confirmation (sessions : List PresentedSession) (params : LogoutConfirmationParams) : Handled :=
  match namedSession sessions params with
  | none => ⟨.unauthenticated, none, none⟩
  | some named =>
    let branded := named.entry.proves deps.hashes LOGOUT_CONFIRMATION_BRANDED params.csrf params.signed
    if branded || named.entry.proves deps.hashes LOGOUT_CONFIRMATION params.csrf params.signed then
      let client := logoutClientOf reads params.clientId
      endAndAnswer reads ⟨named.row.id, named.row.subjectId⟩ params.postLogoutRedirectUri
        (registeredOf client) params.state
        (if branded && client.isSome then params.clientId else none)
    else ⟨.unauthenticated, none, none⟩

def handleLogoutConfirmation (tenantName : TenantName) (header : Option Text)
    (params : LogoutConfirmationParams) : Handled :=
  match reads.tenant with
  | none => notFound
  | some tenant =>
    if !tenant.enabled then notFound
    else confirmation deps reads (resolveSessions deps reads tenant tenantName header) params

end Handlers

/-! ### The route -/

/-- A parameter of a query or of a form: one that is sent twice, or that is no string, is the
other one. -/
inductive Field where
  | string (text : Utf16)
  | other

abbrev Fields : Type := String → Option Field

def firstString : Option Field → Option Utf16
  | some (.string text) => some text
  | _ => none

def logoutRequestParams (source : Fields) : LogoutRequestParams where
  idTokenHint := firstString (source "id_token_hint")
  clientId := firstString (source "client_id")
  postLogoutRedirectUri := firstString (source "post_logout_redirect_uri")
  state := firstString (source "state")

/-- A call of the endpoint; a `POST` may come without a body. -/
inductive LogoutCall where
  | get (query : Fields)
  | post (body : Option Fields)

inductive LogoutRequest where
  | firstContact (params : LogoutRequestParams)
  | confirmation (params : LogoutConfirmationParams)

/-- What a call asks for; nothing where the body is missing. -/
def LogoutCall.request : LogoutCall → Option LogoutRequest
  | get query => some (.firstContact (logoutRequestParams query))
  | post none => none
  | post (some body) =>
    match firstString (body "session_id") with
    | none => some (.firstContact (logoutRequestParams body))
    | some confirmedSessionId => some (.confirmation {
        confirmedSessionId
        csrf := (firstString (body "csrf")).getD []
        clientId := firstString (body "client_id")
        postLogoutRedirectUri := firstString (body "post_logout_redirect_uri")
        state := firstString (body "state") })

/-- The language's URLs: what is no URL is not read, and an empty text is none. -/
structure Urls (Url : Type) where
  newUrl : Utf16 → Option Url
  setSearchParam : Url → String → Utf16 → Url
  newUrl_nil : newUrl [] = none

inductive LogoutPage (Url : Type) where
  | unauthenticated
  | noActiveSession
  | confirmation (sessionId : Text) (csrf : String)
      (clientId postLogoutRedirectUri state redirectsTo : Option Utf16)
  | redirectRefused (frames : List String)
  | loggedOut (frames : List String)
  | loggedOutRedirect (frames : List String) (target : Url)

inductive Answer (Url : Type) where
  | notFound
  | page (status : ℕ) (page : LogoutPage Url) (clientId : Option Utf16)
  | redirect (location : Url)
  /-- The error page of the server. -/
  | failed

structure Reply (Url : Type) where
  clearsSessionCookies : Bool
  answer : Answer Url

section Route

variable {Url : Type} (urls : Urls Url)

/-- The address a browser is sent on to. -/
def targetOf (redirectTo : Utf16) (state : Option Utf16) : Option Url :=
  (urls.newUrl redirectTo).map fun target ↦
    match state with
    | none => target
    | some state => urls.setSearchParam target "state" state

def respondToOutcome : LogoutOutcome → Reply Url
  | .notFound => ⟨false, .notFound⟩
  | .unauthenticated => ⟨false, .page 400 .unauthenticated none⟩
  | .confirm form =>
    match form.sessionId, form.csrf with
    | some sessionId, some csrf =>
      ⟨false, .page 200 (.confirmation sessionId csrf form.clientId form.postLogoutRedirectUri
        form.state form.registeredRedirect) form.brandClientId⟩
    | _, _ => ⟨false, .page 200 .noActiveSession form.brandClientId⟩
  | .render _ _ frames brandClientId => ⟨true, .page 400 (.redirectRefused frames) brandClientId⟩
  | .ends none _ sessionEnded frames brandClientId =>
    ⟨sessionEnded, .page 200 (.loggedOut frames) brandClientId⟩
  | .ends (some redirectTo) state sessionEnded frames brandClientId =>
    ⟨sessionEnded, match targetOf urls redirectTo state with
      | none => .failed
      | some target =>
        if frames.isEmpty then .redirect target
        else .page 200 (.loggedOutRedirect frames target) brandClientId⟩

end Route

end Odudu.ProtocolOidc.Logout
