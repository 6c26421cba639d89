import Odudu.ProtocolOidc.Logout

/-!
# Logouts are not forged

Runs of the end-session endpoint: any calls, in any order, each with what it reads.  The keyed hash is
taken to be unforgeable: the server is shown no hash of a text that it has not put on a page before
(`Unforged`).

Then a session is ended for the confirmation of a page that was shown for it, or for the hint of a
client that skips the confirmation; a browser is sent on only to what is registered for the client
the request names; and a page wears the theme of a client whose hint was verified
(`logout_sound`).  What a confirmation is bound to is what the page was, but for surrogates that
stand alone: they are hashed as U+FFFD, and one can be confirmed for the other
(`lone_surrogate_confirmed`).
-/

set_option autoImplicit false

namespace Odudu.ProtocolOidc.Logout

open Texts AuthnFlows.SessionCookies

/-- A call of the endpoint, with the cookies it comes with and what it reads. -/
structure Exchange where
  tenant : TenantName
  cookie : Option Text
  call : LogoutCall
  reads : LogoutReads

/-- The client whose theme a page wears. -/
def Answer.theme {Url : Type} : Answer Url → Option Utf16
  | .page _ _ clientId => clientId
  | _ => none

/-- Where a browser is sent on to. -/
def Answer.target {Url : Type} : Answer Url → Option Url
  | .redirect location => some location
  | .page _ (.loggedOutRedirect _ target) _ => some target
  | _ => none

def LogoutOutcome.brandClientId : LogoutOutcome → Option Utf16
  | .confirm form => form.brandClientId
  | .ends _ _ _ _ brandClientId => brandClientId
  | .render _ _ _ brandClientId => brandClientId
  | _ => none

namespace Exchange

variable {Url : Type} (deps : LogoutDeps) (urls : Urls Url) (e : Exchange)

/-- The entries of the cookies. -/
def entries : List CookieEntry :=
  (readSessionEntries e.cookie e.tenant deps.tls).ephemeral ++
    (readSessionEntries e.cookie e.tenant deps.tls).persistent

def handled : Option Handled :=
  match e.call.request with
  | none => none
  | some (.firstContact params) =>
    some (handleLogoutRequest deps e.reads e.tenant e.cookie params)
  | some (.confirmation params) =>
    some (handleLogoutConfirmation deps e.reads e.tenant e.cookie params)

def ended : Option LogoutSession := (e.handled deps).bind Handled.ended

/-- What a page shows the hash of. -/
def shown : Option Bound := (e.handled deps).bind Handled.shown

/-- The page that asks for a confirmation. -/
def form : Option ConfirmationForm :=
  match e.handled deps with
  | some { outcome := .confirm form, .. } => some form
  | _ => none

def answer : Answer Url :=
  match e.handled deps with
  | none => .failed
  | some handled => (respondToOutcome urls handled.outcome).answer

/-- The hint of a first contact, once it is verified. -/
def hint : Option IdTokenHintClaims :=
  match e.call.request with
  | some (.firstContact params) => hintOf deps e.reads params
  | _ => none

/-- What a token is compared with the hash of. -/
def compared (params : LogoutConfirmationParams) : List Bound :=
  match e.reads.tenant with
  | none => []
  | some tenant =>
    (namedSession (resolveSessions deps e.reads tenant e.tenant e.cookie) params).toList.flatMap
      fun named ↦ [⟨named.entry, LOGOUT_CONFIRMATION_BRANDED, params.signed⟩,
        ⟨named.entry, LOGOUT_CONFIRMATION, params.signed⟩]

end Exchange

/-- The keyed hash is unforgeable: a text whose hash the server is presented is one that it has
shown the hash of before, under the same key. -/
def Unforged (deps : LogoutDeps) (run : List Exchange) : Prop :=
  ∀ before e after, run = before ++ e :: after →
    ∀ params, e.call.request = some (.confirmation params) →
      ∀ bound ∈ e.compared deps params, bound.proof deps.hashes = usvString params.csrf →
        ∃ earlier ∈ before, ∃ shown ∈ earlier.shown deps, shown.hashed = bound.hashed

/-! ### What is promised of a call -/

section Promises

variable {Url : Type} (deps : LogoutDeps) (urls : Urls Url) (same : Utf16 → Utf16 → Prop)

/-- The browser presents the entry of the session with this id. -/
structure Presents (e : Exchange) (entry : CookieEntry) (id : Text) :
    Prop where
  presented : entry ∈ e.entries deps
  names : toLowerCase entry.id = id
  secret : ∃ row ∈ e.reads.sessions, row.id = id ∧
    row.secretHash = some (deps.hashes.sha256 entry.secret)

/-- The call confirms the page that an earlier one showed for an entry: with the token of that page,
and over the same values. -/
structure Confirms (e : Exchange) (params : LogoutConfirmationParams) (earlier : Exchange)
    (form : ConfirmationForm) (entry : CookieEntry) : Prop where
  request : e.call.request = some (.confirmation params)
  page : earlier.form deps = some form
  shownFor : (earlier.shown deps).map Bound.entry = some entry
  token : form.csrf = some (usvString params.csrf)
  clientId : same (params.clientId.getD []) (form.clientId.getD [])
  redirect : same (params.postLogoutRedirectUri.getD []) (form.postLogoutRedirectUri.getD [])
  state : same (params.state.getD []) (form.state.getD [])

/-- A first contact is made for a client, and its hint, if it has one, names that client too. -/
structure Names (e : Exchange) (clientId : Utf16) : Prop where
  request : ∃ params, e.call.request = some (.firstContact params) ∧
    clientOfRequest params.clientId (e.hint deps) = some clientId
  agreeing : ∀ hint ∈ e.hint deps, clientId ∈ hint.audiences

/-- The hint of a first contact names a session and one client, which skips the confirmation. -/
structure Skips (e : Exchange) (id : Text) (hint : IdTokenHintClaims) (clientId : Utf16) : Prop where
  names : Names deps e clientId
  verified : e.hint deps = some hint
  session : hint.sid = some (unitsOfText id)
  client : ∃ client, logoutClient e.reads.clients clientId = some client ∧
    hint.audiences = [client.id] ∧ client.skipsConfirmation = true

/-- A redirect is registered for an enabled client. -/
def Registered (e : Exchange) (clientId redirect : Utf16) : Prop :=
  ∃ client ∈ e.reads.clients, client.clientId = usvString clientId ∧ client.enabled = true ∧
    redirect ∈ client.postLogoutRedirectUris.map unitsOf

/-- **What is promised of a call**, after the calls before it. -/
structure Sound (before : List Exchange) (e : Exchange) : Prop where
  ended : ∀ session ∈ e.ended deps, ∃ entry, Presents deps e entry session.id ∧
    ((∃ earlier ∈ before, ∃ params form, Confirms deps same e params earlier form entry) ∨
      ∃ hint clientId, Skips deps e session.id hint clientId)
  redirected : ∀ target ∈ (e.answer deps urls).target, ∃ redirect state clientId,
    targetOf urls redirect state = some target ∧ Registered e clientId redirect ∧
    (Names deps e clientId ∨
      ∃ earlier ∈ before, ∃ params form entry named, Confirms deps same e params earlier form entry ∧
        params.clientId = some clientId ∧ Names deps earlier named ∧ same clientId named)
  themed : ∀ clientId ∈ (e.answer deps urls).theme,
    (∃ hint ∈ e.hint deps, clientId ∈ hint.audiences) ∨
      ∃ earlier ∈ before, ∃ params form entry, Confirms deps same e params earlier form entry ∧
        ∃ hint ∈ earlier.hint deps, ∃ named ∈ hint.audiences, same clientId named

end Promises

/-- One text but for surrogates that stand alone, which are read as U+FFFD. -/
def SameText (x y : Utf16) : Prop := toWellFormed x = toWellFormed y

/-! ### Sessions -/

section Sessions

variable {deps : LogoutDeps} {reads : LogoutReads} {sessions : List PresentedSession}
  {session : PresentedSession}

theorem mem_liveByEntries {hashes : Hashes} {entries : List CookieEntry}
    {rows : List SessionRow} {tenant : SessionLifespans} {now : Time}
    (h : session ∈ liveByEntries hashes entries rows tenant now) :
    session.row ∈ rows ∧ session.entry ∈ entries ∧ toLowerCase session.entry.id = session.row.id ∧
      session.row.secretHash = some (hashes.sha256 session.entry.secret) := by
  obtain ⟨row, hrow, hsession⟩ := List.mem_filterMap.mp h
  have hlive := hsession
  split at hlive
  case isFalse => cases hlive
  case isTrue =>
    obtain ⟨entry, hentry, rfl⟩ := Option.map_eq_some_iff.mp hlive
    have hmatches := List.find?_some hentry
    rw [Bool.and_eq_true, beq_iff_eq, AuthnFlows.SessionCookies.SessionEntry.matchesHash,
      decide_eq_true_eq] at hmatches
    exact ⟨List.mem_of_mem_filter hrow, List.mem_of_find?_eq_some hentry, hmatches⟩

theorem mem_selectLogoutSession {hintSid : Option Utf16}
    (h : selectLogoutSession sessions hintSid = some session) : session ∈ sessions := by
  rcases Option.or_eq_some_iff.mp h with hnamed | ⟨-, hrecent⟩
  · obtain ⟨sid, -, hfound⟩ := Option.bind_eq_some_iff.mp hnamed
    exact List.mem_of_find?_eq_some hfound
  · obtain ⟨recent, -, hfound⟩ := Option.bind_eq_some_iff.mp hrecent
    exact List.mem_of_find?_eq_some hfound

end Sessions

/-! ### First contacts -/

section FirstContacts

variable {deps : LogoutDeps} {reads : LogoutReads} {sessions : List PresentedSession}
  {clientId : Option Utf16} {hint : Option IdTokenHintClaims} {params : LogoutRequestParams}
  {named : Utf16}

theorem mem_audiences_of_clientOfRequest (h : clientOfRequest clientId hint = some named)
    (hagree : disagreeing clientId hint = false) : ∀ claims ∈ hint, named ∈ claims.audiences := by
  rintro claims rfl
  cases clientId with
  | some =>
    obtain rfl := Option.some.inj h
    simpa [disagreeing] using hagree
  | none =>
    unfold clientOfRequest at h
    split at h
    case h_1 heq => cases heq
    case h_2 only heq =>
      obtain rfl := Option.some.inj heq
      exact List.mem_singleton.mpr (Option.some.inj h).symm
    case h_3 => cases h

theorem usableHint_eq_some {claims : IdTokenHintClaims}
    (h : usableHint clientId hint = some claims) :
    disagreeing clientId hint = false ∧ hint = some claims := by
  unfold usableHint at h
  split at h
  case isTrue => cases h
  case isFalse hagree => exact ⟨Bool.eq_false_iff.mpr hagree, h⟩

theorem requestedOf_eq_some {redirect : Utf16} (h : requestedOf hint params = some redirect) :
    disagreeing params.clientId hint = false ∧ params.postLogoutRedirectUri = some redirect := by
  unfold requestedOf at h
  split at h
  case isTrue => cases h
  case isFalse hagree => exact ⟨Bool.eq_false_iff.mpr hagree, h⟩

theorem brandedClient_eq_some {client : Option LogoutClientRecord}
    (h : brandedClient hint clientId client = some named) :
    (∃ claims, hint = some claims) ∧ clientId = some named := by
  unfold brandedClient at h
  split at h
  case isTrue hboth => exact ⟨Option.isSome_iff_exists.mp (Bool.and_eq_true_iff.mp hboth).1, h⟩
  case isFalse => cases h

variable {input : LogoutInput}

theorem decideLogout_sessionEnds (h : decideLogout input = .sessionEnds) :
    ∃ session hint client, input.session = some session ∧ input.hint = some hint ∧
      input.client = some client ∧ client.skipsConfirmation = true ∧
      hint.clientId = client.id ∧ hint.sid = unitsOfText session := by
  obtain ⟨session, hint, client, redirect⟩ := input
  cases session with
  | none =>
    cases redirect with
    | none | some => cases h
  | some session =>
    cases hint with
    | none => cases h
    | some hint =>
      cases client with
      | none => cases h
      | some client =>
        simp only [decideLogout] at h
        split at h
        case isTrue hskips =>
          simp only [Bool.and_eq_true, beq_iff_eq] at hskips
          exact ⟨session, hint, client, rfl, rfl, rfl, hskips.1.1, hskips.1.2, hskips.2⟩
        case isFalse => cases h

theorem decideLogout_redirects {redirectTo : Utf16}
    (h : decideLogout input = .redirects redirectTo) : input.redirect = some redirectTo := by
  obtain ⟨session, hint, client, redirect⟩ := input
  cases session with
  | none =>
    cases redirect with
    | none => cases h
    | some => exact congrArg some (FirstContactDecision.redirects.inj h)
  | some =>
    simp only [decideLogout] at h
    split at h
    · split at h <;> cases h
    · cases h

theorem toValidHint_eq_some {valid : ValidHint} (h : toValidHint hint = some valid) :
    ∃ claims, hint = some claims ∧ claims.audiences = [valid.clientId] ∧
      claims.sid = some valid.sid := by
  unfold toValidHint at h
  split at h
  case h_1 sid only =>
    obtain rfl := Option.some.inj h
    exact ⟨_, rfl, rfl, rfl⟩
  case h_2 => cases h

/-- The page that a first contact is answered with where it asks. -/
structure AsksForConfirmation (deps : LogoutDeps) (reads : LogoutReads)
    (hint : Option IdTokenHintClaims) (params : LogoutRequestParams) (handled : Handled)
    (form : ConfirmationForm) : Prop where
  outcome : handled.outcome = .confirm form
  ended : handled.ended = none
  clientId : form.clientId = clientOfRequest params.clientId hint
  redirect : form.postLogoutRedirectUri = requestedOf hint params
  brand : form.brandClientId = brandedClient (usableHint params.clientId hint)
    (clientOfRequest params.clientId hint)
    (logoutClientOf reads (clientOfRequest params.clientId hint))
  token : form.csrf = handled.shown.map (Bound.proof deps.hashes)
  purpose : ∀ bound ∈ handled.shown, bound.purpose =
    if form.brandClientId.isNone then LOGOUT_CONFIRMATION else LOGOUT_CONFIRMATION_BRANDED
  values : ∀ bound ∈ handled.shown,
    bound.values = signedValues form.clientId form.postLogoutRedirectUri form.state

variable (deps reads sessions hint params) in
/-- What a first contact comes to. -/
theorem firstContact_cases :
    (∃ session ∈ sessions, ∃ valid client,
      toValidHint (usableHint params.clientId hint) = some valid ∧
      logoutClientOf reads (clientOfRequest params.clientId hint) = some client ∧
      client.skipsConfirmation = true ∧ valid.clientId = client.id ∧
      valid.sid = unitsOfText session.row.id ∧
      firstContact deps reads sessions hint params =
        endAndAnswer reads ⟨session.row.id, session.row.subjectId⟩ (requestedOf hint params)
          (registeredOf (logoutClientOf reads (clientOfRequest params.clientId hint))) params.state
          (brandedClient (usableHint params.clientId hint) (clientOfRequest params.clientId hint)
            (logoutClientOf reads (clientOfRequest params.clientId hint)))) ∨
    (∃ redirectTo, registeredRedirectOf (requestedOf hint params)
        (registeredOf (logoutClientOf reads (clientOfRequest params.clientId hint))) =
          some redirectTo ∧
      firstContact deps reads sessions hint params =
        ⟨.ends (some redirectTo) params.state false []
          (brandedClient (usableHint params.clientId hint) (clientOfRequest params.clientId hint)
            (logoutClientOf reads (clientOfRequest params.clientId hint))), none, none⟩) ∨
    ∃ form, AsksForConfirmation deps reads hint params
      (firstContact deps reads sessions hint params) form := by
  unfold firstContact
  simp only
  split
  case h_1 session hdecision hselected =>
    obtain ⟨id, valid, client, hid, hvalid, hclient, hskips, hsame, hsid⟩ :=
      decideLogout_sessionEnds hdecision
    rw [hselected, Option.map_some] at hid
    obtain rfl := Option.some.inj hid
    exact Or.inl ⟨session, mem_selectLogoutSession hselected, valid, client, hvalid, hclient,
      hskips, hsame, hsid, rfl⟩
  case h_2 redirectTo hdecision =>
    exact Or.inr (Or.inl ⟨redirectTo, decideLogout_redirects hdecision, rfl⟩)
  case h_3 =>
    refine Or.inr (Or.inr ⟨_, rfl, rfl, rfl, rfl, rfl, rfl, fun bound hbound ↦ ?_,
      fun bound hbound ↦ ?_⟩)
    all_goals
      obtain ⟨session, -, rfl⟩ := Option.map_eq_some_iff.mp hbound
      rfl

end FirstContacts

/-! ### Endings -/

section Endings

variable {Url : Type} {urls : Urls Url} {reads : LogoutReads} {session : LogoutSession}
  {requested state brandClientId clientId : Option Utf16} {registered : List Utf16}

theorem brandClientId_endAndAnswer :
    (endAndAnswer reads session requested registered state brandClientId).outcome.brandClientId =
      brandClientId := by
  unfold endAndAnswer
  simp only
  split <;> rfl

variable {redirectTo : Utf16}

theorem registeredRedirectOf_eq_some
    (h : registeredRedirectOf requested registered = some redirectTo) :
    requested = some redirectTo ∧ redirectTo ∈ registered := by
  obtain ⟨hrequested, hcontains⟩ := Option.filter_eq_some_iff.mp h
  exact ⟨hrequested, List.contains_iff_mem.mp hcontains⟩

theorem endAndAnswer_redirects {state' brand : Option Utf16}
    {sessionEnded : Bool} {frames : List String}
    (h : (endAndAnswer reads session requested registered state brandClientId).outcome =
      .ends (some redirectTo) state' sessionEnded frames brand) :
    requested = some redirectTo ∧ redirectTo ∈ registered := by
  unfold endAndAnswer decideRedirect at h
  cases requested with
  | none => cases h
  | some requested =>
    simp only at h
    by_cases hcontains : registered.contains requested = true
    · rw [if_pos hcontains] at h
      obtain ⟨hsame, -⟩ := LogoutOutcome.ends.inj h
      obtain rfl := Option.some.inj hsame
      exact ⟨rfl, List.contains_iff_mem.mp hcontains⟩
    · rw [if_neg hcontains] at h
      cases h

theorem logoutClient_eq_some {clients : List ClientRow} {oauthClientId : Utf16}
    {record : LogoutClientRecord} (h : logoutClient clients oauthClientId = some record) :
    ∃ client ∈ clients, client.clientId = usvString oauthClientId ∧ client.enabled = true ∧
      record.postLogoutRedirectUris = client.postLogoutRedirectUris.map unitsOf := by
  obtain ⟨client, hfound, hrecord⟩ := Option.bind_eq_some_iff.mp h
  split at hrecord
  case isTrue henabled =>
    obtain rfl := Option.some.inj hrecord
    exact ⟨client, List.mem_of_find?_eq_some hfound, by simpa using List.find?_some hfound,
      henabled, rfl⟩
  case isFalse => cases hrecord

/-- Only a client that is named, and not by an empty text, has anything registered. -/
theorem mem_registeredOf
    (h : redirectTo ∈ registeredOf (logoutClientOf reads clientId)) :
    ∃ named, clientId = some named ∧ usvString named ≠ "" ∧
      ∃ client ∈ reads.clients, client.clientId = usvString named ∧ client.enabled = true ∧
        redirectTo ∈ client.postLogoutRedirectUris.map unitsOf := by
  cases hrecord : logoutClientOf reads clientId with
  | none =>
    rw [hrecord] at h
    cases h
  | some =>
    rw [hrecord] at h
    obtain ⟨named, rfl, hclient⟩ := Option.bind_eq_some_iff.mp hrecord
    obtain ⟨client, hmem, hid, henabled, huris⟩ := logoutClient_eq_some hclient
    exact ⟨named, rfl, hid ▸ client.clientId_ne, client, hmem, hid, henabled, huris ▸ h⟩

variable {outcome : LogoutOutcome}

/-- A browser is sent on where the outcome says, and where that is a URL. -/
theorem target_respondToOutcome {target : Url}
    (h : (respondToOutcome urls outcome).answer.target = some target) :
    ∃ redirectTo state sessionEnded frames brand,
      outcome = .ends (some redirectTo) state sessionEnded frames brand ∧
        targetOf urls redirectTo state = some target := by
  cases outcome with
  | notFound | unauthenticated | render => cases h
  | confirm =>
    unfold respondToOutcome at h
    simp only at h
    split at h <;> cases h
  | ends redirectTo state sessionEnded frames brand =>
    cases redirectTo with
    | none => cases h
    | some redirectTo =>
      refine ⟨redirectTo, state, sessionEnded, frames, brand, rfl, ?_⟩
      unfold respondToOutcome at h
      simp only at h
      split at h
      case h_1 => cases h
      case h_2 found hfound =>
        rw [hfound]
        split at h <;> exact h

/-- A page wears no other theme than the outcome says. -/
theorem theme_respondToOutcome {named : Utf16}
    (h : (respondToOutcome urls outcome).answer.theme = some named) :
    outcome.brandClientId = some named := by
  cases outcome with
  | notFound | unauthenticated => cases h
  | confirm =>
    unfold respondToOutcome at h
    simp only at h
    split at h <;> exact h
  | render => exact h
  | ends redirectTo =>
    cases redirectTo with
    | none => exact h
    | some =>
      unfold respondToOutcome at h
      simp only at h
      split at h
      case h_1 => cases h
      case h_2 =>
        split at h
        case isTrue => cases h
        case isFalse => exact h

end Endings

/-! ### Pages that are confirmed -/

section Confirmations

variable {deps : LogoutDeps} {reads : LogoutReads} {sessions : List PresentedSession}
  {params : LogoutConfirmationParams} {e earlier : Exchange}

variable (deps reads sessions params) in
/-- What a confirmation comes to. -/
theorem confirmation_cases :
    confirmation deps reads sessions params = ⟨.unauthenticated, none, none⟩ ∨
    ∃ named, namedSession sessions params = some named ∧ ∃ purpose brand,
      (purpose = LOGOUT_CONFIRMATION_BRANDED ∨ purpose = LOGOUT_CONFIRMATION) ∧
      named.entry.proof deps.hashes purpose params.signed = usvString params.csrf ∧
      (∀ clientId ∈ brand, purpose = LOGOUT_CONFIRMATION_BRANDED ∧
        params.clientId = some clientId) ∧
      confirmation deps reads sessions params =
        endAndAnswer reads ⟨named.row.id, named.row.subjectId⟩ params.postLogoutRedirectUri
          (registeredOf (logoutClientOf reads params.clientId)) params.state brand := by
  unfold confirmation
  split
  case h_1 => exact Or.inl rfl
  case h_2 named hnamed =>
    simp only
    split
    case isFalse => exact Or.inl rfl
    case isTrue hproves =>
      refine Or.inr ⟨named, hnamed, ?_⟩
      by_cases hbranded :
          named.entry.proves deps.hashes LOGOUT_CONFIRMATION_BRANDED params.csrf params.signed = true
      · refine ⟨LOGOUT_CONFIRMATION_BRANDED, _, Or.inl rfl, of_decide_eq_true hbranded,
          fun clientId hclient ↦ ⟨rfl, ?_⟩, rfl⟩
        split at hclient
        case isTrue => exact hclient
        case isFalse => cases hclient
      · rw [Bool.not_eq_true] at hbranded
        rw [hbranded, Bool.false_or] at hproves
        refine ⟨LOGOUT_CONFIRMATION, _, Or.inr rfl, of_decide_eq_true hproves,
          fun clientId hclient ↦ ?_, rfl⟩
        rw [hbranded, Bool.false_and, if_neg Bool.false_ne_true] at hclient
        cases hclient

variable {tenant : TenantLookup}

/-- A session that a call resolves is one whose entry the browser presents. -/
theorem presents_of_mem {session : PresentedSession}
    (h : session ∈ resolveSessions deps e.reads tenant e.tenant e.cookie) :
    Presents deps e session.entry session.row.id := by
  obtain ⟨hrow, hentry, hid, hsecret⟩ := mem_liveByEntries h
  exact ⟨hentry, hid, session.row, hrow, rfl, hsecret⟩

/-- An earlier call showed a page that asks. -/
structure ShowsForm (deps : LogoutDeps) (earlier : Exchange) (params : LogoutRequestParams)
    (handled : Handled) (form : ConfirmationForm) : Prop where
  request : earlier.call.request = some (.firstContact params)
  answered : earlier.handled deps = some handled
  asks : AsksForConfirmation deps earlier.reads (earlier.hint deps) params handled form

variable (deps) in
/-- A first contact finds no tenant, or goes on with the sessions that it resolves. -/
theorem handled_firstContact {params : LogoutRequestParams}
    (h : e.call.request = some (.firstContact params)) :
    e.handled deps = some notFound ∨ ∃ tenant, e.reads.tenant = some tenant ∧
      e.handled deps = some (firstContact deps e.reads
        (resolveSessions deps e.reads tenant e.tenant e.cookie) (e.hint deps) params) := by
  have hhandled : e.handled deps =
      some (handleLogoutRequest deps e.reads e.tenant e.cookie params) := by
    rw [Exchange.handled, h]
  have hhint : e.hint deps = hintOf deps e.reads params := by rw [Exchange.hint, h]
  rw [hhandled, hhint]
  unfold handleLogoutRequest
  cases e.reads.tenant with
  | none => exact Or.inl rfl
  | some tenant =>
    simp only
    split
    case isTrue => exact Or.inl rfl
    case isFalse => exact Or.inr ⟨tenant, rfl, rfl⟩

variable (deps) in
/-- A confirmation finds no tenant, or goes on with the sessions that it resolves. -/
theorem handled_confirmation (h : e.call.request = some (.confirmation params)) :
    e.handled deps = some notFound ∨ ∃ tenant, e.reads.tenant = some tenant ∧
      e.handled deps = some (confirmation deps e.reads
        (resolveSessions deps e.reads tenant e.tenant e.cookie) params) := by
  have hhandled : e.handled deps =
      some (handleLogoutConfirmation deps e.reads e.tenant e.cookie params) := by
    rw [Exchange.handled, h]
  rw [hhandled]
  unfold handleLogoutConfirmation
  cases e.reads.tenant with
  | none => exact Or.inl rfl
  | some tenant =>
    simp only
    split
    case isTrue => exact Or.inl rfl
    case isFalse => exact Or.inr ⟨tenant, rfl, rfl⟩

/-- Hashes are shown on pages that ask. -/
theorem showsForm_of_shown {shown : Bound} (h : earlier.shown deps = some shown) :
    ∃ params handled form, ShowsForm deps earlier params handled form ∧
      handled.shown = some shown := by
  obtain ⟨handled, hhandled, hshown⟩ := Option.bind_eq_some_iff.mp h
  have hnone : ∀ {reads : LogoutReads} {session requested registered state brand},
      (endAndAnswer reads session requested registered state brand).shown ≠ some shown := by
    intro reads session requested registered state brand heq
    cases heq
  cases hrequest : earlier.call.request with
  | none =>
    rw [Exchange.handled, hrequest] at hhandled
    cases hhandled
  | some request =>
    cases request with
    | firstContact params =>
      rcases handled_firstContact deps hrequest with hsame | ⟨tenant, -, hsame⟩
      · obtain rfl := Option.some.inj (hhandled.symm.trans hsame)
        cases hshown
      · obtain rfl := Option.some.inj (hhandled.symm.trans hsame)
        rcases firstContact_cases deps earlier.reads
            (resolveSessions deps earlier.reads tenant earlier.tenant earlier.cookie)
            (earlier.hint deps) params with
          ⟨session, -, valid, client, -, -, -, -, -, hends⟩ | ⟨redirectTo, -, hends⟩ | ⟨form, hasks⟩
        · rw [hends] at hshown
          exact absurd hshown hnone
        · rw [hends] at hshown
          cases hshown
        · exact ⟨params, _, form, ⟨hrequest, hsame, hasks⟩, hshown⟩
    | confirmation params =>
      rcases handled_confirmation deps hrequest with hsame | ⟨tenant, -, hsame⟩
      · obtain rfl := Option.some.inj (hhandled.symm.trans hsame)
        cases hshown
      · obtain rfl := Option.some.inj (hhandled.symm.trans hsame)
        rcases confirmation_cases deps earlier.reads
            (resolveSessions deps earlier.reads tenant earlier.tenant earlier.cookie)
            params with hrefused | ⟨named, -, purpose, brand, -, -, -, hends⟩
        · rw [hrefused] at hshown
          cases hshown
        · rw [hends] at hshown
          exact absurd hshown hnone

theorem ShowsForm.form_eq {params : LogoutRequestParams} {handled : Handled}
    {form : ConfirmationForm} (h : ShowsForm deps earlier params handled form) :
    earlier.form deps = some form := by
  obtain ⟨outcome, ended, shown⟩ := handled
  obtain rfl : outcome = .confirm form := h.asks.outcome
  rw [Exchange.form, h.answered]

theorem isPurpose_confirmation :
    IsPurpose LOGOUT_CONFIRMATION_BRANDED ∧ IsPurpose LOGOUT_CONFIRMATION := by decide

theorem entry_eq {entry entry' : CookieEntry}
    (hid : entry.id = entry'.id) (hsecret : entry.secret = entry'.secret) : entry = entry' := by
  obtain ⟨id, secret, hisUuid, hisSecret⟩ := entry
  obtain ⟨id', secret', hisUuid', hisSecret'⟩ := entry'
  obtain rfl : id = id' := hid
  obtain rfl : secret = secret' := hsecret
  rfl

/-- **What is confirmed was shown.**  A token that the entry of a session proves is that of a page
shown for this entry, and over the same texts. -/
theorem confirms_of_proof {run before after : List Exchange} (hrun : Unforged deps run)
    (hsplit : run = before ++ e :: after) (hrequest : e.call.request = some (.confirmation params))
    (htenant : e.reads.tenant = some tenant) {named : PresentedSession}
    (hnamed : namedSession (resolveSessions deps e.reads tenant e.tenant e.cookie) params =
      some named) {purpose : String}
    (hpurpose : purpose = LOGOUT_CONFIRMATION_BRANDED ∨ purpose = LOGOUT_CONFIRMATION)
    (hproof : named.entry.proof deps.hashes purpose params.signed = usvString params.csrf) :
    ∃ earlier ∈ before, ∃ contact handled form, ShowsForm deps earlier contact handled form ∧
      Confirms deps SameText e params earlier form named.entry ∧
      (purpose = LOGOUT_CONFIRMATION_BRANDED → form.brandClientId.isSome = true) := by
  have hcompared : (⟨named.entry, purpose, params.signed⟩ : Bound) ∈ e.compared deps params := by
    rw [Exchange.compared, htenant]
    refine List.mem_flatMap.mpr ⟨named, by rw [hnamed]; exact List.mem_singleton_self named, ?_⟩
    rcases hpurpose with rfl | rfl
    · exact List.mem_cons_self
    · exact List.mem_cons_of_mem _ List.mem_cons_self
  obtain ⟨earlier, hmem, shown, hshown, hhashed⟩ :=
    hrun before e after hsplit params hrequest _ hcompared hproof
  obtain ⟨contact, handled, form, hform, hsame⟩ := showsForm_of_shown hshown
  obtain ⟨hsecret, htext⟩ := Prod.mk.inj hhashed
  have hshownPurpose := hform.asks.purpose shown hsame
  have hvalid : ∀ purpose : String,
      purpose = LOGOUT_CONFIRMATION_BRANDED ∨ purpose = LOGOUT_CONFIRMATION → IsPurpose purpose := by
    rintro purpose (rfl | rfl)
    · exact isPurpose_confirmation.1
    · exact isPurpose_confirmation.2
  have hshownValid : IsPurpose shown.purpose := by
    refine hvalid _ ?_
    rw [hshownPurpose]
    split
    · exact Or.inr rfl
    · exact Or.inl rfl
  obtain ⟨hsamePurpose, hid, hvalues⟩ := hashedText_inj hshownValid (hvalid _ hpurpose) htext
  have hentry : shown.entry = named.entry := entry_eq hid hsecret
  rw [hform.asks.values shown hsame] at hvalues
  simp only [LogoutConfirmationParams.signed, signedValues, List.map_cons, List.map_nil,
    List.cons.injEq, and_true] at hvalues
  refine ⟨earlier, hmem, contact, handled, form, hform, ?_, fun hbranded ↦ ?_⟩
  · refine ⟨hrequest, hform.form_eq, ?_, ?_, hvalues.1.symm, hvalues.2.1.symm, hvalues.2.2.symm⟩
    · rw [hshown, Option.map_some, hentry]
    · -- The hash is of the same text, and so it is the same.
      rw [hform.asks.token, hsame, Option.map_some, ← hproof]
      refine congrArg some ?_
      change deps.hashes.hmac shown.entry.secret (shown.entry.hashedText shown.purpose shown.values) =
        deps.hashes.hmac named.entry.secret (named.entry.hashedText purpose params.signed)
      exact congrArg₂ deps.hashes.hmac hsecret htext
  · rw [← hsamePurpose, hshownPurpose] at hbranded
    split at hbranded
    case isTrue => exact absurd hbranded (by decide)
    case isFalse hnone =>
      cases hbrand : form.brandClientId with
      | none => exact absurd (by rw [hbrand]; rfl) hnone
      | some => rfl

end Confirmations

/-! ### Every call of a run -/

section Runs

variable {Url : Type} {urls : Urls Url} {deps : LogoutDeps} {e : Exchange} {named : Utf16}
  {params : LogoutRequestParams}

theorem names_of_agreeing
    (hrequest : e.call.request = some (.firstContact params))
    (hnamed : clientOfRequest params.clientId (e.hint deps) = some named)
    (hagree : disagreeing params.clientId (e.hint deps) = false) : Names deps e named :=
  ⟨⟨params, hrequest, hnamed⟩, mem_audiences_of_clientOfRequest hnamed hagree⟩

/-- The client whose theme a first contact gives a page is one its hint names. -/
theorem hint_of_branded
    (h : brandedClient (usableHint params.clientId (e.hint deps))
      (clientOfRequest params.clientId (e.hint deps))
      (logoutClientOf e.reads (clientOfRequest params.clientId (e.hint deps))) = some named) :
    ∃ hint ∈ e.hint deps, named ∈ hint.audiences := by
  obtain ⟨⟨hint, husable⟩, hnamed⟩ := brandedClient_eq_some h
  obtain ⟨hagree, hhint⟩ := usableHint_eq_some husable
  exact ⟨hint, hhint, mem_audiences_of_clientOfRequest hnamed hagree hint hhint⟩

theorem newUrl_of_target {redirect : Utf16} {state : Option Utf16} {target : Url}
    (h : targetOf urls redirect state = some target) : redirect ≠ [] := by
  rintro rfl
  rw [targetOf, urls.newUrl_nil] at h
  cases h

variable {same : Utf16 → Utf16 → Prop} {before : List Exchange}

theorem sound_of_eq
    (h : e.handled deps = none ∨ ∃ outcome, e.handled deps = some ⟨outcome, none, none⟩ ∧
      (outcome = .notFound ∨ outcome = .unauthenticated)) : Sound deps urls same before e := by
  have hended : e.ended deps = none := by
    rcases h with h | ⟨outcome, h, -⟩ <;> rw [Exchange.ended, h] <;> rfl
  have hanswer : (e.answer deps urls).target = none ∧ (e.answer deps urls).theme = none := by
    rcases h with h | ⟨outcome, h, rfl | rfl⟩ <;> rw [Exchange.answer, h] <;> exact ⟨rfl, rfl⟩
  constructor
  · intro session hsession
    rw [hended] at hsession
    cases hsession
  · intro target htarget
    rw [hanswer.1] at htarget
    cases htarget
  · intro clientId hclient
    rw [hanswer.2] at hclient
    cases hclient

/-- A first contact is vouched for by its own hint. -/
theorem sound_firstContact
    (hrequest : e.call.request = some (.firstContact params)) :
    Sound deps urls same before e := by
  rcases handled_firstContact deps hrequest with hnone | ⟨tenant, -, hhandled⟩
  · exact sound_of_eq (Or.inr ⟨_, hnone, Or.inl rfl⟩)
  have hended : e.ended deps = (firstContact deps e.reads
      (resolveSessions deps e.reads tenant e.tenant e.cookie) (e.hint deps) params).ended := by
    rw [Exchange.ended, hhandled, Option.bind_some]
  have hanswer : e.answer deps urls = (respondToOutcome urls (firstContact deps e.reads
      (resolveSessions deps e.reads tenant e.tenant e.cookie) (e.hint deps) params).outcome).answer := by
    rw [Exchange.answer, hhandled]
  have hregistered : ∀ redirect state target, targetOf urls redirect state = some target →
      requestedOf (e.hint deps) params = some redirect →
      redirect ∈ registeredOf (logoutClientOf e.reads
        (clientOfRequest params.clientId (e.hint deps))) →
      ∃ redirect state clientId, targetOf urls redirect state = some target ∧
        Registered e clientId redirect ∧ (Names deps e clientId ∨
          ∃ earlier ∈ before, ∃ params form entry named,
            Confirms deps same e params earlier form entry ∧ params.clientId = some clientId ∧
              Names deps earlier named ∧ same clientId named) := by
    intro redirect state target htarget hrequested hmem
    obtain ⟨clientId, hclient, -, hrow⟩ := mem_registeredOf hmem
    exact ⟨redirect, state, clientId, htarget, hrow, Or.inl (names_of_agreeing hrequest hclient
      (requestedOf_eq_some hrequested).1)⟩
  rcases firstContact_cases deps e.reads
      (resolveSessions deps e.reads tenant e.tenant e.cookie) (e.hint deps) params with
    ⟨session, hsession, valid, client, hvalid, hclient, hskips, hsame, hsid, hends⟩ |
      ⟨redirectTo, hredirect, hends⟩ | ⟨form, hasks⟩
  · rw [hends] at hended hanswer
    constructor
    · -- The client skips the confirmation.
      intro ended hmem
      obtain rfl := Option.some.inj (hended.symm.trans hmem)
      obtain ⟨hint, husable, haudiences, hhintSid⟩ := toValidHint_eq_some hvalid
      obtain ⟨hagree, hhint⟩ := usableHint_eq_some husable
      obtain ⟨clientId, hnamed, hrecord⟩ := Option.bind_eq_some_iff.mp hclient
      refine ⟨session.entry, presents_of_mem hsession, Or.inr ⟨hint, clientId,
        names_of_agreeing hrequest hnamed hagree, hhint, ?_, client, hrecord, ?_, hskips⟩⟩
      · rw [hhintSid, hsid]
      · rw [haudiences, hsame]
    · intro target htarget
      rw [hanswer] at htarget
      obtain ⟨redirectTo, state, sessionEnded, frames, brand, houtcome, htargetOf⟩ :=
        target_respondToOutcome htarget
      obtain ⟨hrequested, hmem⟩ := endAndAnswer_redirects houtcome
      exact hregistered redirectTo state target htargetOf hrequested hmem
    · intro clientId htheme
      rw [hanswer] at htheme
      have hbrand := theme_respondToOutcome htheme
      rw [brandClientId_endAndAnswer] at hbrand
      exact Or.inl (hint_of_branded hbrand)
  · rw [hends] at hended hanswer
    constructor
    · intro ended hmem
      rw [hended] at hmem
      cases hmem
    · intro target htarget
      rw [hanswer] at htarget
      obtain ⟨redirectTo', state, sessionEnded, frames, brand, houtcome, htargetOf⟩ :=
        target_respondToOutcome htarget
      obtain rfl : redirectTo = redirectTo' :=
        Option.some.inj (LogoutOutcome.ends.inj houtcome).1
      obtain ⟨hrequested, hmem⟩ := registeredRedirectOf_eq_some hredirect
      exact hregistered redirectTo state target htargetOf hrequested hmem
    · intro clientId htheme
      rw [hanswer] at htheme
      exact Or.inl (hint_of_branded (theme_respondToOutcome htheme))
  · rw [hasks.outcome] at hanswer
    constructor
    · intro ended hmem
      rw [hended, hasks.ended] at hmem
      cases hmem
    · intro target htarget
      rw [hanswer] at htarget
      obtain ⟨redirectTo, state, sessionEnded, frames, brand, houtcome, -⟩ :=
        target_respondToOutcome htarget
      cases houtcome
    · intro clientId htheme
      rw [hanswer] at htheme
      exact Or.inl (hint_of_branded (hasks.brand.symm.trans (theme_respondToOutcome htheme)))

/-- Where two texts are one but for lone surrogates, and one is filled, so is the other. -/
theorem SameText.ne_nil {x y : Utf16} (h : SameText x y) (hx : x ≠ []) : y ≠ [] := by
  rintro rfl
  have hlength := congrArg List.length h
  rw [length_toWellFormed, length_toWellFormed] at hlength
  exact hx (List.length_eq_zero_iff.mp hlength)

theorem SameText.of_getD {x : Utf16} {value : Option Utf16} (h : SameText x (value.getD []))
    (hx : x ≠ []) : ∃ y, value = some y ∧ SameText x y := by
  cases value with
  | none => exact absurd rfl (h.ne_nil hx)
  | some y => exact ⟨y, rfl, h⟩

/-- A confirmation that is accepted is of a form shown before. -/
theorem sound_confirmation {run before after : List Exchange} (hrun : Unforged deps run)
    (hsplit : run = before ++ e :: after) {params : LogoutConfirmationParams}
    (hrequest : e.call.request = some (.confirmation params)) :
    Sound deps urls SameText before e := by
  rcases handled_confirmation deps hrequest with hnone | ⟨tenant, htenant, hhandled⟩
  · exact sound_of_eq (Or.inr ⟨_, hnone, Or.inl rfl⟩)
  rcases confirmation_cases deps e.reads
      (resolveSessions deps e.reads tenant e.tenant e.cookie) params with
    hrefused | ⟨session, hsession, purpose, brand, hpurpose, hproof, hbrand, hends⟩
  · exact sound_of_eq (Or.inr ⟨_, hhandled.trans (congrArg some hrefused), Or.inr rfl⟩)
  have hended : e.ended deps = some ⟨session.row.id, session.row.subjectId⟩ := by
    rw [Exchange.ended, hhandled, hends]
    rfl
  have hanswer : e.answer deps urls = (respondToOutcome urls (endAndAnswer e.reads
      ⟨session.row.id, session.row.subjectId⟩ params.postLogoutRedirectUri
      (registeredOf (logoutClientOf e.reads params.clientId)) params.state brand).outcome).answer := by
    rw [Exchange.answer, hhandled, hends]
  obtain ⟨earlier, hmem, contact, handled, form, hform, hconfirms, hbranded⟩ :=
    confirms_of_proof hrun hsplit hrequest htenant hsession hpurpose hproof
  constructor
  · intro ended hended'
    obtain rfl := Option.some.inj (hended.symm.trans hended')
    exact ⟨session.entry, presents_of_mem (List.mem_of_find?_eq_some hsession),
      Or.inl ⟨earlier, hmem, params, form, hconfirms⟩⟩
  · intro target htarget
    rw [hanswer] at htarget
    obtain ⟨redirectTo, state, sessionEnded, frames, brand', houtcome, htargetOf⟩ :=
      target_respondToOutcome htarget
    obtain ⟨hrequested, hregistered⟩ := endAndAnswer_redirects houtcome
    obtain ⟨clientId, hclient, hfilled, hrow⟩ := mem_registeredOf hregistered
    have hclientId : clientId ≠ [] := by
      rintro rfl
      exact hfilled rfl
    -- The page was for this client, and asked for this redirect, so its hint agreed.
    obtain ⟨named, hnamed, hsame⟩ := SameText.of_getD (by
      have hsame := hconfirms.clientId
      rwa [hclient] at hsame) hclientId
    obtain ⟨asked, hasked, -⟩ := SameText.of_getD (by
      have hsame := hconfirms.redirect
      rwa [hrequested] at hsame) (newUrl_of_target htargetOf)
    have hagree := (requestedOf_eq_some (hform.asks.redirect.symm.trans hasked)).1
    exact ⟨redirectTo, state, clientId, htargetOf, hrow, Or.inr ⟨earlier, hmem, params, form,
      session.entry, named, hconfirms, hclient,
      names_of_agreeing hform.request (hform.asks.clientId.symm.trans hnamed) hagree, hsame⟩⟩
  · intro clientId htheme
    rw [hanswer] at htheme
    have hworn := theme_respondToOutcome htheme
    rw [brandClientId_endAndAnswer] at hworn
    obtain ⟨hpurpose', hclient⟩ := hbrand clientId hworn
    obtain ⟨named, hnamed⟩ := Option.isSome_iff_exists.mp (hbranded hpurpose')
    have hbrandOf := hform.asks.brand.symm.trans hnamed
    have hsame := hconfirms.clientId
    rw [hclient, hform.asks.clientId, (brandedClient_eq_some hbrandOf).2] at hsame
    obtain ⟨hint, hhint, haudience⟩ := hint_of_branded hbrandOf
    exact Or.inr ⟨earlier, hmem, params, form, session.entry, hconfirms, hint, hhint, named,
      haudience, hsame⟩

/-- **Logouts.**  In every run in which no hash is forged, every call keeps what is promised:
a session is ended only where the browser presents its entry and confirms a page that was shown for
this entry over the same values, but for surrogates that stand alone, or has a hint of a client that
skips this; it is sent on only to what is registered for the client it names in agreement with its
hint; and no page wears the theme of a client whose hint was not verified. -/
theorem logout_sound {run before after : List Exchange} (hrun : Unforged deps run)
    (hsplit : run = before ++ e :: after) : Sound deps urls SameText before e := by
  cases hrequest : e.call.request with
  | none => exact sound_of_eq (Or.inl (by rw [Exchange.handled, hrequest]))
  | some request =>
    cases request with
    | firstContact => exact sound_firstContact hrequest
    | confirmation => exact sound_confirmation hrun hsplit hrequest

end Runs

/-! ### A surrogate that stands alone -/

theorem ended_confirmation {deps : LogoutDeps} {reads : LogoutReads}
    {sessions : List PresentedSession} {params : LogoutConfirmationParams} {named : PresentedSession}
    (hnamed : namedSession sessions params = some named)
    (hproof : named.entry.proof deps.hashes LOGOUT_CONFIRMATION params.signed =
      usvString params.csrf) :
    (confirmation deps reads sessions params).ended = some ⟨named.row.id, named.row.subjectId⟩ := by
  have hproves : named.entry.proves deps.hashes LOGOUT_CONFIRMATION params.csrf params.signed =
      true := decide_eq_true hproof
  unfold confirmation
  rw [hnamed]
  simp only
  rw [hproves, Bool.or_true, if_pos rfl]
  rfl

/-- A run of a first contact and a confirmation, in which no hash is forged. -/
theorem unforged_pair {deps : LogoutDeps} {contact confirmed : Exchange}
    {asked : LogoutRequestParams} {params : LogoutConfirmationParams}
    (hcontact : contact.call.request = some (.firstContact asked))
    (hconfirmed : confirmed.call.request = some (.confirmation params))
    (hshown : ∀ bound ∈ confirmed.compared deps params,
      bound.proof deps.hashes = usvString params.csrf →
        ∃ shown ∈ contact.shown deps, shown.hashed = bound.hashed) :
    Unforged deps [contact, confirmed] := by
  intro before e after hsplit params' hrequest bound hbound hproof
  cases before with
  | nil =>
    obtain rfl := (List.cons.inj hsplit).1
    rw [hcontact] at hrequest
    cases hrequest
  | cons _ before =>
    obtain ⟨rfl, hrest⟩ := List.cons.inj hsplit
    cases before with
    | nil =>
      obtain rfl := (List.cons.inj hrest).1
      obtain rfl := LogoutRequest.confirmation.inj (Option.some.inj (hconfirmed.symm.trans hrequest))
      obtain ⟨shown, hmem, hhashed⟩ := hshown bound hbound hproof
      exact ⟨contact, List.mem_cons_self, shown, hmem, hhashed⟩
    | cons _ before =>
      obtain ⟨-, hnone⟩ := List.cons.inj hrest
      cases before <;> cases hnone

theorem handleLogoutRequest_of_enabled {deps : LogoutDeps} {reads : LogoutReads}
    {tenant : TenantLookup} {tenantName : TenantName} {header : Option Text}
    {params : LogoutRequestParams} (htenant : reads.tenant = some tenant)
    (henabled : tenant.enabled = true) :
    handleLogoutRequest deps reads tenantName header params = firstContact deps reads
      (resolveSessions deps reads tenant tenantName header) (hintOf deps reads params) params := by
  simp only [handleLogoutRequest, htenant, henabled, Bool.not_true, Bool.false_eq_true, if_false]

theorem handleLogoutConfirmation_of_enabled {deps : LogoutDeps} {reads : LogoutReads}
    {tenant : TenantLookup} {tenantName : TenantName} {header : Option Text}
    {params : LogoutConfirmationParams} (htenant : reads.tenant = some tenant)
    (henabled : tenant.enabled = true) :
    handleLogoutConfirmation deps reads tenantName header params =
      confirmation deps reads (resolveSessions deps reads tenant tenantName header) params := by
  simp only [handleLogoutConfirmation, htenant, henabled, Bool.not_true, Bool.false_eq_true,
    if_false]

def plainEntry : CookieEntry where
  id := "018f6d2e-0000-7000-8000-000000000001".toList
  secret := "dBjftJeZ4CVP-mB92K27uhbUJU1p1r_wW1gFWFOEjXk".toList
  isUuid := by decide
  isSecret := by decide

def plainRow : SessionRow where
  id := plainEntry.id
  subjectId := 1
  createdAt := 0
  expiresAt := 36000
  lastActiveAt := 0
  authenticators := [.password]
  remembered := false
  secretHash := some 0x13d31e961a1ad8ec2f16b10c4c982e0876a878ad6df144566ee1894acb70f9c3

/-- The two digests that are taken; the second is of the page whose `state` is U+FFFD. -/
def plainHashes : Hashes where
  sha256 _ := 0x13d31e961a1ad8ec2f16b10c4c982e0876a878ad6df144566ee1894acb70f9c3
  hmac _ text :=
    if text = plainEntry.hashedText LOGOUT_CONFIRMATION [[], [], [0xFFFD]] then
      "R5lTGXfCkjOlVYVrpecHFrhUGAeLtcnKbV8qNxo0NcQ"
    else ""

theorem hmac_plain (secret : Text) (text : String) :
    plainHashes.hmac secret text =
      if text = plainEntry.hashedText LOGOUT_CONFIRMATION [[], [], [0xFFFD]] then
        "R5lTGXfCkjOlVYVrpecHFrhUGAeLtcnKbV8qNxo0NcQ"
      else "" := rfl

def plainDeps : LogoutDeps where
  hashes := plainHashes
  jose := ⟨fun _ ↦ none, fun _ _ _ _ ↦ none⟩
  tls := false

def plainReads : LogoutReads where
  tenant := some ⟨true, ⟨1800, 36000, 86400, 86400⟩⟩
  sessions := [plainRow]
  now := 60
  publishableKeys := []
  acceptedIssuers := []
  clients := []
  frontChannelLogoutUrls _ := []

def plainCookie : Text := "acme-session=".toList ++ plainEntry.cookieValue

/-- A first contact with U+FFFD for its `state`. -/
def replacementContact : Exchange where
  tenant := ⟨"acme".toList, by decide⟩
  cookie := some plainCookie
  call := .get fun name ↦ if name = "state" then some (.string [0xFFFD]) else none
  reads := plainReads

def surrogateParams : LogoutConfirmationParams where
  confirmedSessionId := unitsOfText plainEntry.id
  csrf := unitsOf "R5lTGXfCkjOlVYVrpecHFrhUGAeLtcnKbV8qNxo0NcQ"
  clientId := none
  postLogoutRedirectUri := none
  state := some [0xD800]

/-- The confirmation of its page, with half of a pair in the place of the `state`. -/
def surrogateConfirmation : Exchange where
  tenant := ⟨"acme".toList, by decide⟩
  cookie := some plainCookie
  call := .post (some fun name ↦
    if name = "session_id" then some (.string surrogateParams.confirmedSessionId)
    else if name = "csrf" then some (.string surrogateParams.csrf)
    else if name = "state" then some (.string [0xD800])
    else none)
  reads := plainReads

theorem request_surrogateConfirmation :
    surrogateConfirmation.call.request = some (.confirmation surrogateParams) := rfl

theorem sessions_plain :
    resolveSessions plainDeps plainReads ⟨true, ⟨1800, 36000, 86400, 86400⟩⟩
      ⟨"acme".toList, by decide⟩ (some plainCookie) = [⟨plainRow, plainEntry⟩] := by
  decide +kernel

theorem named_surrogateConfirmation :
    namedSession [⟨plainRow, plainEntry⟩] surrogateParams = some ⟨plainRow, plainEntry⟩ := by
  rw [namedSession, List.find?_cons_of_pos]
  exact beq_self_eq_true _

theorem handled_replacementContact :
    replacementContact.shown plainDeps =
        some ⟨plainEntry, LOGOUT_CONFIRMATION, [[], [], [0xFFFD]]⟩ ∧
      (replacementContact.form plainDeps).map ConfirmationForm.state = some (some [0xFFFD]) := by
  have hhandled : replacementContact.handled plainDeps = some (firstContact plainDeps plainReads
      [⟨plainRow, plainEntry⟩] none (logoutRequestParams fun name ↦
        if name = "state" then some (.string [0xFFFD]) else none)) := by
    rw [← sessions_plain]
    exact congrArg some (handleLogoutRequest_of_enabled rfl rfl)
  rw [Exchange.shown, Exchange.form, hhandled]
  exact ⟨rfl, rfl⟩

/-- What the two texts are hashed as is one text. -/
theorem hashedText_surrogate :
    plainEntry.hashedText LOGOUT_CONFIRMATION surrogateParams.signed =
      plainEntry.hashedText LOGOUT_CONFIRMATION [[], [], [0xFFFD]] := by
  have hsame : surrogateParams.signed.map toWellFormed =
      [[], [], [0xFFFD]].map toWellFormed := by decide
  refine usvString_eq_iff.mpr ?_
  rw [AuthnFlows.SessionCookies.SessionEntry.message,
    AuthnFlows.SessionCookies.SessionEntry.message, toWellFormed_bound, toWellFormed_bound, hsame]

theorem proof_surrogate :
    plainEntry.proof plainDeps.hashes LOGOUT_CONFIRMATION surrogateParams.signed =
      usvString surrogateParams.csrf := by
  rw [AuthnFlows.SessionCookies.SessionEntry.proof, plainDeps, hmac_plain,
    if_pos hashedText_surrogate, surrogateParams, usvString_unitsOf]

theorem unforged_surrogate : Unforged plainDeps [replacementContact, surrogateConfirmation] := by
  refine unforged_pair rfl request_surrogateConfirmation
    fun bound hbound hproof ↦ ⟨_, handled_replacementContact.1, ?_⟩
  have hcompared : surrogateConfirmation.compared plainDeps surrogateParams =
      [⟨plainEntry, LOGOUT_CONFIRMATION_BRANDED, surrogateParams.signed⟩,
        ⟨plainEntry, LOGOUT_CONFIRMATION, surrogateParams.signed⟩] := by
    have hsessions : surrogateConfirmation.compared plainDeps surrogateParams =
        (namedSession (resolveSessions plainDeps plainReads ⟨true, ⟨1800, 36000, 86400, 86400⟩⟩
          ⟨"acme".toList, by decide⟩ (some plainCookie)) surrogateParams).toList.flatMap
            fun named ↦ [⟨named.entry, LOGOUT_CONFIRMATION_BRANDED, surrogateParams.signed⟩,
              ⟨named.entry, LOGOUT_CONFIRMATION, surrogateParams.signed⟩] := rfl
    rw [hsessions, sessions_plain, named_surrogateConfirmation]
    rfl
  rw [hcompared] at hbound
  rcases List.mem_cons.mp hbound with rfl | hbound
  · -- Nothing is hashed for the other purpose.
    have hother : plainEntry.hashedText LOGOUT_CONFIRMATION_BRANDED surrogateParams.signed ≠
        plainEntry.hashedText LOGOUT_CONFIRMATION [[], [], [0xFFFD]] := fun hsame ↦
      absurd (hashedText_inj isPurpose_confirmation.1 isPurpose_confirmation.2 hsame).1 (by decide)
    rw [Bound.proof, AuthnFlows.SessionCookies.SessionEntry.proof, plainDeps, hmac_plain,
      if_neg hother, surrogateParams, usvString_unitsOf] at hproof
    exact absurd hproof (by decide)
  · obtain rfl := List.mem_singleton.mp hbound
    exact congrArg (Prod.mk plainEntry.secret) hashedText_surrogate.symm

/-- **A lone surrogate is confirmed for its replacement.**  No hash is forged, and yet a session is
ended for a confirmation over another `state` than the page was shown for. -/
theorem lone_surrogate_confirmed :
    Unforged plainDeps [replacementContact, surrogateConfirmation] ∧
      ∀ (Url : Type) (urls : Urls Url),
        ¬Sound plainDeps urls Eq [replacementContact] surrogateConfirmation := by
  refine ⟨unforged_surrogate, fun Url urls hsound ↦ ?_⟩
  have hended : surrogateConfirmation.ended plainDeps = some ⟨plainRow.id, 1⟩ := by
    have hhandled : surrogateConfirmation.handled plainDeps = some (confirmation plainDeps
        plainReads [⟨plainRow, plainEntry⟩] surrogateParams) := by
      rw [← sessions_plain, Exchange.handled, request_surrogateConfirmation]
      exact congrArg some (handleLogoutConfirmation_of_enabled rfl rfl)
    rw [Exchange.ended, hhandled]
    exact ended_confirmation named_surrogateConfirmation proof_surrogate
  obtain ⟨entry, -, ⟨earlier, hmem, params, form, hconfirms⟩ | ⟨hint, clientId, hskips⟩⟩ :=
    hsound.ended _ hended
  · obtain rfl := List.mem_singleton.mp hmem
    obtain rfl := LogoutRequest.confirmation.inj
      (Option.some.inj (request_surrogateConfirmation.symm.trans hconfirms.request))
    have hstate := handled_replacementContact.2
    rw [hconfirms.page, Option.map_some] at hstate
    have hsame := hconfirms.state
    rw [Option.some.inj hstate] at hsame
    exact absurd hsame (by decide)
  · obtain ⟨params, hrequest, -⟩ := hskips.names.request
    rw [request_surrogateConfirmation] at hrequest
    cases hrequest

/-- The run of that page and its confirmation, whose texts are one for the hash. -/
theorem logout_sound_surrogate :
    Sound plainDeps (⟨fun text ↦ if text = [] then none else some text,
        fun url name value ↦ url ++ ofAscii "?" ++ ofAscii name ++ ofAscii "=" ++ value, rfl⟩ :
          Urls Utf16) SameText [replacementContact] surrogateConfirmation :=
  logout_sound unforged_surrogate rfl

end Odudu.ProtocolOidc.Logout
