import Odudu.ProtocolOidc.ClientAuthentication

/-!
# The registered way to authenticate

Which method a request is taken up by (`route`), and which clients some answer of the world
outside lets in by it (`exists_authenticated_iff`).  Authentication is by the registered
method, the only one presented, and not for a metadata-document client that is switched off,
except for the slips that `authenticated_by_registered_method_iff` names.
-/

set_option autoImplicit false

namespace Odudu.ProtocolOidc.ClientAuthentication

open ClientAssertion (FieldValue AssertionOutcome TakenAssertion Json CertificateSubject
  ClientAssertionBody parseClientAssertion tokenEndpointOf Runtime Date CLIENT_ASSERTION_TYPE)

/-! ### Presentations -/

def sent : Option FieldValue → List String
  | none => []
  | some (.string value) => [value]
  | some (.strings values) => values

/-- What a request presents, each value of a field counted. -/
def Presents (platform : Platform) (request : ClientRequest) : AuthMethod → Prop
  | .clientSecretBasic => parseBasicAuth platform request.authorizationHeader ≠ .ok none
  | .clientSecretPost => ∃ value ∈ sent request.body.client_secret, value ≠ ""
  | .privateKeyJwt => CLIENT_ASSERTION_TYPE ∈ sent request.body.client_assertion_type
  | .tlsClientAuth => tlsClientSubject request ≠ .absent
  | .none => parseBasicAuth platform request.authorizationHeader = .ok none ∧
      (∀ value ∈ sent request.body.client_secret, value = "") ∧
      CLIENT_ASSERTION_TYPE ∉ sent request.body.client_assertion_type ∧
      tlsClientSubject request = .absent

/-- A presentation in a field that was sent more than once, which is read as none. -/
def Dropped (request : ClientRequest) : Prop :=
  (∃ values, request.body.client_secret = some (.strings values) ∧ ∃ value ∈ values, value ≠ "") ∨
    ∃ values, request.body.client_assertion_type = some (.strings values) ∧
      CLIENT_ASSERTION_TYPE ∈ values

/-- How a request is taken up. -/
inductive Route where
  | assertion (taken : TakenAssertion)
  | certificate (subject : String) (clientId : Option String)
  | basic (credentials : BasicCredentials)
  | post (clientId secret : String)
  | nothing (clientId : String)

def Route.method : Route → AuthMethod
  | assertion _ => .privateKeyJwt
  | certificate _ _ => .tlsClientAuth
  | basic _ => .clientSecretBasic
  | post _ _ => .clientSecretPost
  | nothing _ => .none

variable (platform : Platform) (env : Environment) (rows : TenantRows)

/-- How a request that reads so is taken up, or nothing where it is refused at once. -/
def routeOf (basic : Option BasicCredentials) (certificate : CertificateSubject)
    (assertion : AssertionOutcome) (clientId secret : Option String) : Option Route :=
  match certificate, assertion, basic, secret with
  | .present subject, .unsupported, none, none => some (.certificate subject clientId)
  | .absent, .ok taken, none, none =>
    if clientId.any (· ≠ taken.claimedClientId) then none else some (.assertion taken)
  | .absent, .unsupported, some credentials, none => some (.basic credentials)
  | .absent, .unsupported, none, some secret => clientId.map (Route.post · secret)
  | .absent, .unsupported, none, none => clientId.map Route.nothing
  | _, _, _, _ => none

def route (request : ClientRequest) (now : Date) : Option Route :=
  match parseBasicAuth platform request.authorizationHeader with
  | .error _ => none
  | .ok basic => routeOf basic (tlsClientSubject request) (request.assertion platform now)
      (readOptionalField request.body.client_id) (readOptionalField request.body.client_secret)

/-- Authentication of a request that is taken up. -/
def authenticateRoute (tokenEndpoints : List String) : Route → Authenticated
  | .assertion taken => authenticatePrivateKeyJwt env rows taken tokenEndpoints
  | .certificate subject clientId => authenticateTlsClientAuth rows subject clientId
  | .basic credentials => authenticateClient env rows (some credentials) none none
  | .post clientId secret => authenticateClient env rows none (some clientId) (some secret)
  | .nothing clientId => authenticateClient env rows none (some clientId) none

variable {platform env rows} {request : ClientRequest} {now : Date} {client : ClientRecord}
  {config : ClientOidcConfig}

/-- Authentication is that of the route. -/
theorem authenticateEndpointClient_eq_ok :
    authenticateEndpointClient platform env rows request now = .ok (client, config) ↔
      ∃ way, route platform request now = some way ∧
        authenticateRoute env rows (request.acceptedIssuers.map tokenEndpointOf) way =
          .ok (client, config) := by
  unfold authenticateEndpointClient route
  simp only []
  cases parseBasicAuth platform request.authorizationHeader with
  | error => simp
  | ok basic =>
    simp only []
    generalize readOptionalField request.body.client_secret = secret
    generalize readOptionalField request.body.client_id = clientId
    cases tlsClientSubject request with
    | duplicated => simp [routeOf]
    | present =>
      cases request.assertion platform now <;> cases basic <;> cases secret <;>
        simp [routeOf, authenticateRoute]
    | absent =>
      cases request.assertion platform now with
      | invalid => simp [routeOf]
      | ok taken =>
        by_cases hclient : clientId.any (· ≠ taken.claimedClientId) = true <;>
          cases basic <;> cases secret <;> simp_all [routeOf, authenticateRoute]
      | unsupported =>
        cases basic <;> cases secret <;> cases clientId <;>
          simp [routeOf, authenticateRoute, authenticateClient]

/-! ### Clients that may be let in -/

variable (rows) in
/-- A metadata-document client of a tenant that does not allow them. -/
def SwitchedOff (client : ClientRecord) : Prop :=
  client.registrationOrigin = .cimd ∧ rows.cimdEnabled = false

variable (rows) in
/-- What the rows must say of a client for some answer of the world outside to let it in. -/
def Eligible (client : ClientRecord) (config : ClientOidcConfig) : Route → Prop
  | .assertion taken => rows.clientByClientId taken.claimedClientId = some client ∧
      rows.configByClientId client.id = some config ∧ client.enabled = true ∧
      config.tokenEndpointAuthMethod = .privateKeyJwt ∧
      (config.jwks.isSome ∨ config.jwksUri.isSome)
  | .certificate subject clientId => clientId.bind rows.clientByClientId = some client ∧
      rows.configByClientId client.id = some config ∧ client.enabled = true ∧
      client.type = .confidential ∧ config.tokenEndpointAuthMethod = .tlsClientAuth ∧
      config.tlsClientAuthSubjectDn.any (tlsClientAuthSubjectMatches subject) = true
  | .basic credentials => rows.clientByClientId credentials.clientId = some client ∧
      rows.configByClientId client.id = some config ∧ client.enabled = true ∧
      ¬SwitchedOff rows client ∧ client.type = .confidential ∧ client.secretHash.isSome ∧
      config.tokenEndpointAuthMethod = .clientSecretBasic
  | .post clientId _ => rows.clientByClientId clientId = some client ∧
      rows.configByClientId client.id = some config ∧ client.enabled = true ∧
      ¬SwitchedOff rows client ∧ client.type = .confidential ∧ client.secretHash.isSome ∧
      config.tokenEndpointAuthMethod = .clientSecretPost
  | .nothing clientId => rows.clientByClientId clientId = some client ∧
      rows.configByClientId client.id = some config ∧ client.enabled = true ∧
      ¬SwitchedOff rows client ∧ client.type = .isPublic

/-- An environment in which every check of it succeeds. -/
def obliging : Environment where
  now := 0
  verifyPassword _ _ := true
  clientSecretLimiter _ := none
  fetchKeys _ _ := .ok .null
  verifyJwtAgainstJwkSet _ _ _ _ := true
  tryLock _ _ := true
  spentWithin _ _ := false

variable {basic : Option BasicCredentials} {clientId secret : Option String}
  {oauthClientId : String} {method : AuthMethod}

theorem mapError_eq_ok {f : AuthenticationError → AuthenticationError} {answer : Authenticated} :
    answer.mapError f = .ok (client, config) ↔ answer = .ok (client, config) := by
  cases answer <;> simp [Except.mapError]

/-- With a secret, a confidential client is let in; without one, a public client. -/
theorem type_of_verifyClientSecret {presented : Option String}
    (h : verifyClientSecret env client presented = true) :
    client.enabled = true ∧ (client.type = .isPublic ∧ presented = none ∨
      client.type = .confidential ∧ presented.isSome ∧ client.secretHash.isSome) := by
  unfold verifyClientSecret at h
  by_cases henabled : client.enabled = true
  · rw [if_neg (by simp [henabled])] at h
    refine ⟨henabled, ?_⟩
    cases htype : client.type with
    | isPublic => exact Or.inl ⟨rfl, by simpa [htype] using h⟩
    | confidential =>
      rw [htype, if_neg (by decide)] at h
      cases presented with
      | none => simp at h
      | some =>
        cases hhash : client.secretHash with
        | none => simp [hhash] at h
        | some => exact Or.inr ⟨rfl, rfl, rfl⟩
  · simp [henabled] at h

/-- What the check of a password method finds when it succeeds. -/
theorem verifyClientCredentials_eq_ok :
    verifyClientCredentials env rows oauthClientId basic secret method = .ok (client, config) ↔
      rows.clientByClientId oauthClientId = some client ∧ ¬SwitchedOff rows client ∧
        rows.configByClientId client.id = some config ∧
        (basic.isSome → config.tokenEndpointAuthMethod = .clientSecretBasic) ∧
        (basic = none → secret.isSome → config.tokenEndpointAuthMethod = .clientSecretPost) ∧
        verifyClientSecret env client ((basic.map (·.secret)).or secret) = true := by
  unfold verifyClientCredentials
  cases hclient : rows.clientByClientId oauthClientId with
  | none => simp
  | some found =>
    simp only []
    by_cases hoff : found.registrationOrigin = .cimd ∧ rows.cimdEnabled = false
    · rw [if_pos hoff]
      constructor
      · exact fun h ↦ nomatch h
      · rintro ⟨hfound, hon, -⟩
        obtain rfl : found = client := Option.some.inj hfound
        exact absurd hoff hon
    · rw [if_neg hoff]
      cases hconfig : rows.configByClientId found.id with
      | none =>
        constructor
        · exact fun h ↦ nomatch h
        · rintro ⟨hfound, -, hsome, -⟩
          obtain rfl : found = client := Option.some.inj hfound
          exact absurd (hconfig.symm.trans hsome) (by simp)
      | some row =>
        constructor
        · intro h
          have hdone : found = client ∧ row = config ∧
              (basic.isSome → row.tokenEndpointAuthMethod = .clientSecretBasic) ∧
              (basic = none → secret.isSome → row.tokenEndpointAuthMethod = .clientSecretPost) ∧
              verifyClientSecret env found ((basic.map (·.secret)).or secret) = true := by
            cases basic <;> cases secret <;> simp only [] at h <;> split_ifs at h <;>
              simp_all
          obtain ⟨rfl, rfl, hbasic, hpost, hsecret⟩ := hdone
          exact ⟨rfl, hoff, hconfig, hbasic, hpost, hsecret⟩
        · rintro ⟨hfound, -, hsome, hbasic, hpost, hsecret⟩
          obtain rfl : found = client := Option.some.inj hfound
          obtain rfl : row = config := Option.some.inj (hconfig.symm.trans hsome)
          cases basic with
          | some => simpa [hbasic rfl] using hsecret
          | none =>
            cases secret with
            | some => simpa [hpost rfl rfl] using hsecret
            | none => simpa using hsecret

variable {tokenEndpoints : List String}

theorem authenticatePrivateKeyJwt_eligible {taken : TakenAssertion}
    (h : authenticatePrivateKeyJwt env rows taken tokenEndpoints = .ok (client, config)) :
    Eligible rows client config (.assertion taken) := by
  unfold authenticatePrivateKeyJwt at h
  cases hclient : rows.clientByClientId taken.claimedClientId with
  | none => simp [hclient] at h
  | some found =>
    simp only [hclient] at h
    by_cases henabled : found.enabled = true
    · rw [if_neg (by simp [henabled])] at h
      cases hconfig : rows.configByClientId found.id with
      | none => simp [hconfig] at h
      | some row =>
        simp only [hconfig] at h
        by_cases hmethod : row.tokenEndpointAuthMethod = .privateKeyJwt
        · rw [if_neg (by simp [hmethod])] at h
          have hdone : found = client ∧ row = config ∧ (row.jwks.isSome ∨ row.jwksUri.isSome) := by
            split at h
            · split_ifs at h
              simp_all
            · split at h
              · split_ifs at h
                simp_all
              · exact nomatch h
            · exact nomatch h
          obtain ⟨rfl, rfl, hkeys⟩ := hdone
          exact ⟨hclient, hconfig, henabled, hmethod, hkeys⟩
        · simp [hmethod] at h
    · simp [henabled] at h

theorem authenticateTlsClientAuth_eq_ok {subject : String} :
    authenticateTlsClientAuth rows subject clientId = .ok (client, config) ↔
      Eligible rows client config (.certificate subject clientId) := by
  unfold authenticateTlsClientAuth Eligible
  cases hclient : clientId.bind rows.clientByClientId with
  | none => simp [hclient]
  | some found =>
    constructor
    · intro h
      simp only [] at h
      by_cases henabled : found.enabled = true
      · rw [if_neg (by simp [henabled])] at h
        by_cases htype : found.type = .confidential
        · rw [if_neg (by simp [htype])] at h
          cases hconfig : rows.configByClientId found.id with
          | none => simp [hconfig] at h
          | some row =>
            simp only [hconfig] at h
            by_cases hmethod : row.tokenEndpointAuthMethod = .tlsClientAuth
            · rw [if_neg (by simp [hmethod])] at h
              cases hsubject : row.tlsClientAuthSubjectDn with
              | none => simp [hsubject] at h
              | some registered =>
                simp only [hsubject] at h
                by_cases hmatches : tlsClientAuthSubjectMatches subject registered = true
                · rw [if_neg (by simp [hmatches])] at h
                  obtain ⟨rfl, rfl⟩ : found = client ∧ row = config := by simpa using h
                  exact ⟨hclient, hconfig, henabled, htype, hmethod, by simpa [hsubject] using hmatches⟩
                · simp [hmatches] at h
            · simp [hmethod] at h
        · simp [htype] at h
      · simp [henabled] at h
    · rintro ⟨hfound, hconfig, henabled, htype, hmethod, hmatches⟩
      obtain rfl : found = client := Option.some.inj (hclient.symm.trans hfound)
      cases hsubject : config.tlsClientAuthSubjectDn with
      | none => simp [hsubject] at hmatches
      | some registered =>
        have hmatches : tlsClientAuthSubjectMatches subject registered = true := by
          simpa [hsubject] using hmatches
        simp [henabled, htype, hconfig, hmethod, hsubject, hmatches]

theorem authenticateRoute_nothing :
    authenticateRoute env rows tokenEndpoints (.nothing oauthClientId) =
      verifyClientCredentials env rows oauthClientId none none .none := by
  simp [authenticateRoute, authenticateClient]

variable {way : Route}

/-- Who is let in is eligible. -/
theorem eligible_of_authenticated
    (h : authenticateRoute env rows tokenEndpoints way = .ok (client, config)) :
    Eligible rows client config way := by
  cases way with
  | assertion => exact authenticatePrivateKeyJwt_eligible h
  | certificate => exact authenticateTlsClientAuth_eq_ok.mp h
  | basic =>
    obtain ⟨hfound, hon, hconfig, hmethod, -, hsecret⟩ :=
      verifyClientCredentials_eq_ok.mp (mapError_eq_ok.mp h)
    obtain ⟨henabled, hpublic | ⟨htype, -, hhash⟩⟩ := type_of_verifyClientSecret hsecret
    · simp at hpublic
    · exact ⟨hfound, hconfig, henabled, hon, htype, hhash, hmethod rfl⟩
  | post =>
    obtain ⟨hfound, hon, hconfig, -, hmethod, hsecret⟩ :=
      verifyClientCredentials_eq_ok.mp (mapError_eq_ok.mp h)
    obtain ⟨henabled, hpublic | ⟨htype, -, hhash⟩⟩ := type_of_verifyClientSecret hsecret
    · simp at hpublic
    · exact ⟨hfound, hconfig, henabled, hon, htype, hhash, hmethod rfl rfl⟩
  | nothing =>
    rw [authenticateRoute_nothing] at h
    obtain ⟨hfound, hon, hconfig, -, -, hsecret⟩ := verifyClientCredentials_eq_ok.mp h
    obtain ⟨henabled, ⟨htype, -⟩ | ⟨-, hsome, -⟩⟩ := type_of_verifyClientSecret hsecret
    · exact ⟨hfound, hconfig, henabled, hon, htype⟩
    · simp at hsome

/-- Where every check of the world outside succeeds, who is eligible is let in. -/
theorem authenticated_of_eligible (tokenEndpoints : List String)
    (h : Eligible rows client config way) :
    authenticateRoute obliging rows tokenEndpoints way = .ok (client, config) := by
  cases way with
  | assertion =>
    obtain ⟨hfound, hconfig, henabled, hmethod, hkeys⟩ := h
    simp only [authenticateRoute, authenticatePrivateKeyJwt, hfound, hconfig, henabled, hmethod]
    cases hjwks : config.jwks with
    | some => simp [obliging]
    | none =>
      cases huri : config.jwksUri with
      | some => simp [obliging]
      | none => simp [hjwks, huri] at hkeys
  | certificate => exact authenticateTlsClientAuth_eq_ok.mpr h
  | basic credentials =>
    obtain ⟨hfound, hconfig, henabled, hon, htype, hhash, hmethod⟩ := h
    obtain ⟨hash, hhash⟩ := Option.isSome_iff_exists.mp hhash
    have hsecret : verifyClientSecret obliging client (some credentials.secret) = true := by
      simp [verifyClientSecret, henabled, htype, hhash, obliging]
    exact mapError_eq_ok.mpr (verifyClientCredentials_eq_ok.mpr
      ⟨hfound, hon, hconfig, fun _ ↦ hmethod, by simp, hsecret⟩)
  | post _ secret =>
    obtain ⟨hfound, hconfig, henabled, hon, htype, hhash, hmethod⟩ := h
    obtain ⟨hash, hhash⟩ := Option.isSome_iff_exists.mp hhash
    have hsecret : verifyClientSecret obliging client (some secret) = true := by
      simp [verifyClientSecret, henabled, htype, hhash, obliging]
    exact mapError_eq_ok.mpr (verifyClientCredentials_eq_ok.mpr
      ⟨hfound, hon, hconfig, by simp, fun _ _ ↦ hmethod, hsecret⟩)
  | nothing =>
    obtain ⟨hfound, hconfig, henabled, hon, htype⟩ := h
    have hsecret : verifyClientSecret obliging client none = true := by
      simp [verifyClientSecret, henabled, htype]
    rw [authenticateRoute_nothing]
    exact verifyClientCredentials_eq_ok.mpr ⟨hfound, hon, hconfig, by simp, by simp, hsecret⟩

/-- Some answer of the world outside lets a client in exactly when it is eligible by the way
the request is taken up. -/
theorem exists_authenticated_iff :
    (∃ env, authenticateEndpointClient platform env rows request now = .ok (client, config)) ↔
      ∃ way, route platform request now = some way ∧ Eligible rows client config way := by
  constructor
  · rintro ⟨env, h⟩
    obtain ⟨way, hroute, hdone⟩ := authenticateEndpointClient_eq_ok.mp h
    exact ⟨way, hroute, eligible_of_authenticated hdone⟩
  · rintro ⟨way, hroute, heligible⟩
    exact ⟨obliging, authenticateEndpointClient_eq_ok.mpr
      ⟨way, hroute, authenticated_of_eligible _ heligible⟩⟩

/-! ### One method -/

theorem forall_authMethod {P : AuthMethod → Prop} :
    (∀ method, P method) ↔ P .clientSecretBasic ∧ P .clientSecretPost ∧ P .none ∧
      P .privateKeyJwt ∧ P .tlsClientAuth := by
  constructor
  · exact fun h ↦ ⟨h _, h _, h _, h _, h _⟩
  · rintro ⟨hbasic, hpost, hnone, hassertion, hcertificate⟩ method
    cases method <;> assumption

/-- A value is sent when one is read, or dropped. -/
theorem exists_sent_iff (field : Option FieldValue) :
    (∃ value ∈ sent field, value ≠ "") ↔ (readOptionalField field).isSome ∨
      ∃ values, field = some (.strings values) ∧ ∃ value ∈ values, value ≠ "" := by
  match field with
  | none => simp [sent, readOptionalField]
  | some (.strings values) => simp [sent, readOptionalField]
  | some (.string value) =>
    by_cases hvalue : value = "" <;> simp [sent, readOptionalField, hvalue]

theorem not_dropped_of_read {field : Option FieldValue} {value : String}
    (h : readOptionalField field = some value) (values : List String) :
    field ≠ some (.strings values) := by
  rintro rfl
  simp [readOptionalField] at h

/-- An assertion is presented when one is taken or refused by its shape, or dropped. -/
theorem type_mem_sent_iff :
    CLIENT_ASSERTION_TYPE ∈ sent request.body.client_assertion_type ↔
      request.assertion platform now ≠ .unsupported ∨
        ∃ values, request.body.client_assertion_type = some (.strings values) ∧
          CLIENT_ASSERTION_TYPE ∈ values := by
  have hunsupported : request.assertion platform now ≠ .unsupported ↔
      request.body.client_assertion_type = some (.string CLIENT_ASSERTION_TYPE) := by
    unfold ClientRequest.assertion parseClientAssertion
    by_cases htype : request.body.client_assertion_type = some (.string CLIENT_ASSERTION_TYPE)
    · simp only [htype, ne_eq, not_true_eq_false, if_false, iff_true]
      split
      · split
        · simp
        · split_ifs <;> simp
      · simp
    · simp [htype]
  rw [hunsupported]
  match request.body.client_assertion_type with
  | none => simp [sent]
  | some (.string value) => simp [sent, eq_comm]
  | some (.strings values) => simp [sent]

theorem not_dropped_of_assertion (h : request.assertion platform now ≠ .unsupported)
    (values : List String) : request.body.client_assertion_type ≠ some (.strings values) := by
  intro htype
  exact h (by simp [ClientRequest.assertion, parseClientAssertion, htype])

/-- A request that is taken up presents the method of its route and no other, unless it
presents one in a field that is dropped. -/
theorem presents_iff_of_route (h : route platform request now = some way) :
    (∀ method, Presents platform request method ↔ method = way.method) ↔ ¬Dropped request := by
  unfold route at h
  cases hparse : parseBasicAuth platform request.authorizationHeader with
  | error => simp [hparse] at h
  | ok basic =>
    simp only [hparse] at h
    have hnone : (∀ value ∈ sent request.body.client_secret, value = "") ↔
        ¬∃ value ∈ sent request.body.client_secret, value ≠ "" := by simp
    simp only [forall_authMethod, Presents, Dropped, hparse, hnone, exists_sent_iff,
      @type_mem_sent_iff platform request now]
    have hpost : (readOptionalField request.body.client_secret).isSome →
        ¬∃ values, request.body.client_secret = some (.strings values) ∧
          ∃ value ∈ values, value ≠ "" := by
      rintro hread ⟨values, heq, -⟩
      obtain ⟨value, hvalue⟩ := Option.isSome_iff_exists.mp hread
      exact not_dropped_of_read hvalue values heq
    have hjwt : request.assertion platform now ≠ .unsupported →
        ¬∃ values, request.body.client_assertion_type = some (.strings values) ∧
          CLIENT_ASSERTION_TYPE ∈ values :=
      fun hread ⟨values, heq, _⟩ ↦ @not_dropped_of_assertion platform request now hread values heq
    generalize (∃ values, request.body.client_secret = some (.strings values) ∧
      ∃ value ∈ values, value ≠ "") = droppedPost at hpost ⊢
    generalize (∃ values, request.body.client_assertion_type = some (.strings values) ∧
      CLIENT_ASSERTION_TYPE ∈ values) = droppedJwt at hjwt ⊢
    generalize readOptionalField request.body.client_secret = secret at h hpost ⊢
    generalize request.assertion platform now = assertion at h hjwt ⊢
    generalize tlsClientSubject request = certificate at h ⊢
    cases certificate with
    | duplicated => simp [routeOf] at h
    | present =>
      cases assertion <;> cases basic <;> cases secret <;> simp [routeOf] at h
      subst h
      simp [Route.method]
    | absent =>
      cases assertion with
      | invalid => simp [routeOf] at h
      | ok =>
        have hdropped : ¬droppedJwt := hjwt (by simp)
        cases basic <;> cases secret <;> simp [routeOf] at h
        obtain ⟨-, rfl⟩ := h
        simp [Route.method, hdropped]
      | unsupported =>
        cases basic <;> cases secret <;> simp [routeOf] at h
        · obtain ⟨_, -, rfl⟩ := h
          simp [Route.method]
        · have hdropped : ¬droppedPost := hpost rfl
          obtain ⟨_, -, rfl⟩ := h
          simp [Route.method, hdropped]
        · subst h
          simp [Route.method]

variable (platform rows request now) in
/-- What is asked of authentication, whatever the world outside answers. -/
structure Lawful : Prop where
  registered : ∀ env client config,
    authenticateEndpointClient platform env rows request now = .ok (client, config) →
      (route platform request now).map Route.method = some config.tokenEndpointAuthMethod ∧
        ∀ method, Presents platform request method ↔ method = config.tokenEndpointAuthMethod
  alone : ∀ method method', Presents platform request method →
    Presents platform request method' → method ≠ method' → ∀ env, ∃ error,
      authenticateEndpointClient platform env rows request now = .error error
  switchedOff : ∀ env client config,
    authenticateEndpointClient platform env rows request now = .ok (client, config) →
      ¬SwitchedOff rows client

variable (rows request) in
/-- The slips: the assertion and the certificate are not asked about the switch, a public
client is not asked for its method, and a field that was sent more than once is passed over. -/
def Slips (client : ClientRecord) (config : ClientOidcConfig) : Route → Prop
  | .assertion _ | .certificate _ _ => SwitchedOff rows client ∨ Dropped request
  | .nothing _ => config.tokenEndpointAuthMethod ≠ .none ∨ Dropped request
  | .basic _ | .post _ _ => Dropped request

/-- Apart from the slips an eligible client has registered the method of the route. -/
theorem not_slips_iff (heligible : Eligible rows client config way) :
    ¬Slips rows request client config way ↔
      config.tokenEndpointAuthMethod = way.method ∧ ¬Dropped request ∧
        ¬SwitchedOff rows client := by
  cases way with
  | assertion =>
    obtain ⟨-, -, -, hmethod, -⟩ := heligible
    simp only [Slips, Route.method, hmethod, true_and, not_or]
    exact and_comm
  | certificate =>
    obtain ⟨-, -, -, -, hmethod, -⟩ := heligible
    simp only [Slips, Route.method, hmethod, true_and, not_or]
    exact and_comm
  | basic | post =>
    obtain ⟨-, -, -, hon, -, -, hmethod⟩ := heligible
    simp [Slips, Route.method, hmethod, hon]
  | nothing =>
    obtain ⟨-, -, -, hon, -⟩ := heligible
    simp [Slips, Route.method, hon]

/-- Authentication is by the registered method, the only one presented, and never for a
client that is switched off, exactly when no eligible client meets a slip. -/
theorem authenticated_by_registered_method_iff (platform : Platform) (rows : TenantRows)
    (request : ClientRequest) (now : Date) :
    Lawful platform rows request now ↔ ∀ way client config, route platform request now = some way →
      Eligible rows client config way → ¬Slips rows request client config way := by
  constructor
  · intro hlawful way client config hroute heligible
    have hdone := authenticateEndpointClient_eq_ok.mpr
      ⟨way, hroute, authenticated_of_eligible _ heligible⟩
    obtain ⟨hway, hregistered⟩ := hlawful.registered _ _ _ hdone
    have hmethod : config.tokenEndpointAuthMethod = way.method := by
      simpa [hroute] using hway.symm
    refine (not_slips_iff heligible).mpr ⟨hmethod, ?_, hlawful.switchedOff _ _ _ hdone⟩
    rw [← presents_iff_of_route hroute, ← hmethod]
    exact hregistered
  · intro hslips
    have hcase {env client config}
        (h : authenticateEndpointClient platform env rows request now = .ok (client, config)) :
        ((route platform request now).map Route.method = some config.tokenEndpointAuthMethod ∧
          ∀ method, Presents platform request method ↔
            method = config.tokenEndpointAuthMethod) ∧ ¬SwitchedOff rows client := by
      obtain ⟨way, hroute, hdone⟩ := authenticateEndpointClient_eq_ok.mp h
      have heligible := eligible_of_authenticated hdone
      obtain ⟨hmethod, hdropped, hon⟩ :=
        (not_slips_iff heligible).mp (hslips way client config hroute heligible)
      refine ⟨⟨by rw [hroute, hmethod]; rfl, ?_⟩, hon⟩
      rw [hmethod]
      exact (presents_iff_of_route hroute).mpr hdropped
    refine ⟨fun _ _ _ h ↦ (hcase h).1, ?_, fun _ _ _ h ↦ (hcase h).2⟩
    intro method method' hpresents hpresents' hne env
    cases hdone : authenticateEndpointClient platform env rows request now with
    | error error => exact ⟨error, rfl⟩
    | ok authenticated =>
      obtain ⟨client, config⟩ := authenticated
      obtain ⟨⟨-, hregistered⟩, -⟩ := hcase hdone
      exact absurd (((hregistered _).mp hpresents).trans ((hregistered _).mp hpresents').symm) hne

/-! ### A client that is switched off -/

/-- A client of a metadata document that signs its assertions, while the tenant allows none. -/
def switchedOffRows : TenantRows where
  tenantId := "acme"
  clientByClientId clientId :=
    if clientId = "https://app.example/client.json" then
      some ⟨"c1", true, .confidential, none, none, none, .cimd⟩
    else none
  configByClientId _ := some ⟨.privateKeyJwt, some (.object [("keys", .array [])]), none, none⟩
  cimdEnabled := false

/-- One payload, of the client above. -/
def onePayload : Platform where
  runtime := {
    numbers := Numbers.exactly
    decode := fun payload ↦ if payload = ['p'] then
        some (.object [("iss", .string "https://app.example/client.json"),
          ("sub", .string "https://app.example/client.json"),
          ("aud", .string (tokenEndpointOf "https://issuer")), ("exp", .number 100),
          ("jti", .string "j1")])
      else none }
  fromBase64 := id
  decodeURIComponent := some

def switchedOffRequest : ClientRequest where
  body := {
    client_id := none
    client_secret := none
    client_assertion := some (.string "h.p.s")
    client_assertion_type := some (.string CLIENT_ASSERTION_TYPE) }
  authorizationHeader := none
  headers := fun _ ↦ none
  rawHeaders := []
  acceptedIssuers := ["https://issuer"]
  trustProxy := false
  tlsClientCertHeader := "x-ssl-client-s-dn"

/-- A signed assertion lets a client in that is switched off. -/
theorem switchedOff_authenticates :
    ∃ client config, authenticateEndpointClient onePayload obliging switchedOffRows
        switchedOffRequest ClientAssertion.epoch = .ok (client, config) ∧
      SwitchedOff switchedOffRows client ∧
      ¬Lawful onePayload switchedOffRows switchedOffRequest ClientAssertion.epoch := by
  have hassertion : switchedOffRequest.assertion onePayload ClientAssertion.epoch = .ok {
      claimedClientId := "https://app.example/client.json"
      jti := "j1"
      expiresAt := 130000
      assertion := "h.p.s" } := by decide +kernel
  have hdone : authenticateEndpointClient onePayload obliging switchedOffRows switchedOffRequest
      ClientAssertion.epoch = .ok (⟨"c1", true, .confidential, none, none, none, .cimd⟩,
        ⟨.privateKeyJwt, some (.object [("keys", .array [])]), none, none⟩) := by
    rw [authenticateEndpointClient, hassertion]
    rfl
  exact ⟨_, _, hdone, ⟨rfl, rfl⟩, fun hlawful ↦ hlawful.switchedOff _ _ _ hdone ⟨rfl, rfl⟩⟩

end Odudu.ProtocolOidc.ClientAuthentication
