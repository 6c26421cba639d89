import Odudu.ProtocolOidc.ConsentRecord
import Odudu.ProtocolOidc.NamedSubject
import Odudu.ProtocolOidc.TokenLineage

/-!
# The gates of the doors

Every authorization code of a run was there when it began, or was issued past the gates of a
door: whoever it is for owes no action, has verified the address where the tenant wants it, and
was asked for consent where that is needed (`codes_pass_gates`).  `/authorize` itself gives a
code to a request without a `prompt` other than `none`, and shows no page under `none`
(`authorize_silent`).

The codes are under a law (`codeLaw`), which every statement but the creation of a code keeps; of
a door it is then left to say which codes it creates (`CreatesOnly`).
-/

set_option autoImplicit false

namespace Odudu.ProtocolOidc

open ReadCommitted Program AuthnFlows

/-- The user is shown something to do. -/
def DoorOutcome.asksUser : DoorOutcome → Bool
  | .unauthenticated | .errorRedirect _ | .redirect .. | .failed => false
  | _ => true

/-- A request at a door, or statements that create no code. -/
inductive DoorCall where
  | authorize (d : Door) (id : AuthSessionId) (request : AuthorizationRequest)
  | login (d : Door) (id : AuthSessionId) (input : AdvanceInput) (seen : Seen)
  | selectAccount (d : Door) (id : AuthSessionId) (answer : Option SessionId)
  | consent (d : Door) (id : AuthSessionId) (allow : Bool) (ticked : List String)
  | requiredAction (d : Door) (id : AuthSessionId) (submission : ActionSubmission)
      (seenAfter : DoorLookups) (seen : Seen)
  | other (ops : List Op) (hops : ∀ op ∈ ops, ∀ hash row, op ≠ .authorizationCodeCreate hash row)

/-- A code of the door's own is for a client that there is, and a subject who is not held up. -/
structure Door.Clears (d : Door) (hash : TokenHash) (clientId : ClientId) (u : SubjectId) :
    Prop where
  own : hash = d.codeHash
  owesNothing : d.owes u = none
  verified : d.refusesUnverified u = false
  registered : d.seen.registrationOrigin clientId ≠ none

/-- Nothing needs to be asked: of the client's scopes the write scope is not among those, a client
that needs it was approved, and the scopes of one that asks for consent are on record. -/
def Door.Consented (d : Door) (clientId : ClientId) (u : SubjectId) (scope : List String) : Prop :=
  let context := d.seen.consentContext clientId
  let granted := d.seen.grantedScopeIds u clientId
  let asked := (context.defaultScopes ++ context.optionalScopes).filter scope.contains
  MCP_WRITE_SCOPE ∉ asked ∧ (context.approvalRequired = true → granted ≠ []) ∧
    (context.consentRequired = true →
      ∀ name ∈ asked, ∃ id, (name, id) ∈ context.scopeIdByName ∧ id ∈ granted)

/-- What is past the gates of a door. -/
abbrev Door.PastGates (d : Door) (hash : TokenHash) (code : AuthorizationCode) : Prop :=
  d.Clears hash code.clientId code.subjectId ∧ d.Consented code.clientId code.subjectId code.scope

namespace DoorCall

def body (V : Primitives) (env : Deployment) : DoorCall → Tx (Option DoorOutcome)
  | authorize d id request => some <$> d.handleAuthorizationRequest V env id request
  | login d id input seen => (some ·.outcome) <$> d.handleLoginSubmission V id input seen
  | selectAccount d id answer => some <$> d.handleSelectAccountSubmission V id answer
  | consent d id allow ticked => some <$> d.handleConsentSubmission id allow ticked
  | requiredAction d id submission seenAfter seen =>
    (some ·.outcome) <$> d.handleRequiredActionSubmission V id submission seenAfter seen
  | other ops _ => (fun _ ↦ none) <$> runAll ops

/-- The codes that a call may issue. -/
def Issues (hash : TokenHash) (code : AuthorizationCode) : DoorCall → Prop
  | authorize d _ request => d.PastGates hash code ∧
      code.clientId = request.clientId ∧ code.redirectUri = request.redirectUri ∧
      code.codeChallenge = request.codeChallenge ∧
      request.hintSubject.all (fun hinted ↦ decide (code.subjectId = hinted)) = true ∧
      request.claimsSubject.all (fun claimed ↦ decide (code.subjectId = claimed)) = true ∧
      ∀ prompt ∈ request.prompts.values, prompt = .none
  | login d .. | selectAccount d .. => d.PastGates hash code
  | consent d _ allow ticked => d.Clears hash code.clientId code.subjectId ∧ allow = true ∧
      ∀ scope ∈ code.scope,
        scope ∈ (d.seen.consentContext code.clientId).optionalScopes → scope ∈ ticked
  | requiredAction d _ _ seenAfter _ => { d with seen := seenAfter }.PastGates hash code
  | other .. => False

end DoorCall

/-- The doors, and what runs beside them: any calls of those that are made. -/
abbrev doors (V : Primitives) (env : Deployment) (made : DoorCall → Prop) : System where
  db := database
  Call := { call : DoorCall // made call }
  Outcome := Option DoorOutcome
  Failure := Failure
  body := fun call ↦ call.1.body V env

section Law

/-- What a cell may hold: a code is as every code is to be. -/
def CodesFit (P : TokenHash → AuthorizationCode → Prop) :
    (k : layout.Key) → Option (layout.Row k.1) → Prop
  | ⟨.authorizationCodes, hash⟩, cell => ∀ row, cell = some row → P hash row
  | _, _ => True

def codeLaw (P : TokenHash → AuthorizationCode → Prop) : Law lineage where
  holds := fun k cell _ ↦ CodesFit P k cell
  ages := fun h _ ↦ h

/-- The statement creates a code. -/
def Op.createsCode : Op → Bool
  | .authorizationCodeCreate .. => true
  | _ => false

/-- A statement that creates no codes but such. -/
def CreatesOnly (P : TokenHash → AuthorizationCode → Prop) (op : Op) : Prop :=
  ∀ hash row, op = .authorizationCodeCreate hash row → P hash row

variable {P : TokenHash → AuthorizationCode → Prop} {s : Rows}

/-- A statement that creates no codes but such keeps them so, where it tells nothing whether a
code is spent. -/
theorem CreatesOnly.keeps
    (hP : ∀ hash row consumedAt grantId, P hash row → P hash { row with consumedAt, grantId })
    {op : Op} (hop : CreatesOnly P op) (hs : (codeLaw P).Lawful s) : (codeLaw P).Keeps op s := by
  refine ⟨op.keeps_effect s, ?_⟩
  rintro ⟨table, hash⟩ v hv
  cases table with
  | authorizationCodes =>
    rintro row rfl
    have hupdated : ∀ {wanted : ℕ → AuthorizationCode → Bool}
        {set : AuthorizationCode → AuthorizationCode},
        Layout.update (L := layout) .authorizationCodes wanted set s
          ⟨.authorizationCodes, hash⟩ = some (some row) →
        (∀ row', P hash row' → P hash (set row')) → P hash row := by
      intro wanted set hupdate hset
      obtain ⟨row', hrow', -, hset'⟩ := Layout.update_eq_some (L := layout) hupdate
      obtain rfl := Option.some.inj hset'
      exact hset row' (hs ⟨.authorizationCodes, hash⟩ row' hrow')
    cases op with
    | authorizationCodeCreate =>
      dsimp only [database, Op.effect] at hv
      obtain ⟨rfl, hrow⟩ := Layout.insert_eq_some (L := layout) hv
      obtain rfl := Option.some.inj hrow
      exact hop _ _ rfl
    | authorizationCodeConsume | authorizationCodeAttachGrant =>
      dsimp only [database, Op.effect] at hv
      exact hupdated hv fun row' h ↦ hP hash row' _ _ h
    | _ => exact nomatch hv
  | _ => trivial

theorem SignsIn.creates {op : Op} (h : SignsIn op) : CreatesOnly P op := by
  rintro _ _ rfl
  exact nomatch h

end Law

section Doors

variable {P : TokenHash → AuthorizationCode → Prop} {V : Primitives} {env : Deployment}
  {d : Door} {id : AuthSessionId} {u : SubjectId} {pending : PendingRequest}
  {authenticators : List AuthenticatorName}

theorem only_issueAuthorizationCode {input : IssueAuthorizationCodeInput} {authTime now : Time}
    {sessionId : SessionId}
    (h : P input.codeHash (authorizationCode input authTime now sessionId)) :
    (issueAuthorizationCode input authTime now sessionId).Only (CreatesOnly P) := by
  refine only_bind (only_ask ?_) fun created ↦ by cases created <;> trivial
  rintro _ _ ⟨⟩
  exact h

theorem only_other {op : Op} (hop : op.createsCode = false) :
    (ask op : Tx _).Only (CreatesOnly P) := by
  refine only_ask ?_
  rintro hash row rfl
  cases hop

theorem only_resolveSessions {entries : List SessionEntry} {lifespans : SessionLifespans} :
    (resolveSessions entries lifespans).Only (CreatesOnly P) :=
  only_bind (only_other rfl) fun _ ↦ only_other rfl

/-- Whatever the session and the instants, the code is such. -/
abbrev Door.MayIssue (d : Door) (P : TokenHash → AuthorizationCode → Prop)
    (pending : PendingRequest) (u : SubjectId) : Prop :=
  ∀ authTime now sessionId,
    P d.codeHash (authorizationCode (d.codeInput pending u) authTime now sessionId)

theorem only_completeAuthorizedLogin (h : d.MayIssue P pending u) :
    (d.completeAuthorizedLogin id pending u authenticators).Only (CreatesOnly P) := by
  refine only_bind only_resolveSessions fun before ↦ only_bind trivial fun _ ↦
    only_bind (only_transaction ?_) fun completed ↦ by split <;> trivial
  rw [completeLogin]
  refine only_bind (only_other rfl) fun now ↦ only_bind (only_other rfl) fun subject ↦ ?_
  split
  · trivial
  refine only_bind (only_other rfl) fun consumedAt ↦ only_bind (only_other rfl) fun consumed ↦ ?_
  split
  · trivial
  split
  · exact only_bind (only_other rfl) fun _ ↦
      only_bind (only_issueAuthorizationCode (h _ _ _)) fun _ ↦ trivial
  · exact only_bind (only_mono (fun _ ↦ SignsIn.creates) only_admitSession) fun _ ↦
      only_bind (only_issueAuthorizationCode (h _ _ _)) fun _ ↦ trivial

variable {session : ReusableSession}

theorem only_reuse (h : d.MayIssue P pending session.subjectId) :
    (d.reuse pending session).Only (CreatesOnly P) := by
  refine only_bind (only_transaction ?_) fun completed ↦ by split <;> trivial
  exact only_bind (only_other rfl) fun _ ↦ only_bind (only_other rfl) fun _ ↦
    only_issueAuthorizationCode (h _ _ _)

variable {prompt : List Prompt} {clientId : ClientId}

theorem consented_of_gate {scope : List String}
    (h : d.consentGate clientId u scope prompt = .notRequired) :
    d.Consented clientId u scope ∧ .consent ∉ prompt := by
  obtain ⟨hprompt, hwrite, happroved, hgranted⟩ := decideConsent_eq_notRequired_iff.mp h
  have hasked {name : String} (hname : name ∈ List.filter scope.contains
      ((d.seen.consentContext clientId).defaultScopes ++
        (d.seen.consentContext clientId).optionalScopes)) :=
    (List.mem_filter.mp hname).imp_right List.contains_iff_mem.mp
  refine ⟨⟨fun hname ↦ hwrite (hasked hname), fun happroval hnone ↦ happroved ⟨happroval, ?_⟩,
    fun hrequired name hname ↦ ?_⟩, hprompt⟩
  · simp [hnone]
  · simpa using hgranted hrequired name (hasked hname).1 (hasked hname).2

/-- Under `none` nobody is asked. -/
theorem not_ask {scope askDefault askOptional alreadyGranted : List String}
    (hnone : .none ∈ prompt) (hconsent : .consent ∉ prompt) :
    d.consentGate clientId u scope prompt ≠ .ask askDefault askOptional alreadyGranted := by
  simp only [Door.consentGate, decideConsentGate, decideConsent]
  split_ifs <;> simp_all

/-- A scope with a box is kept where the box is ticked. -/
theorem ticked_of_consented {context : ConsentContext} {ticked requested : List String}
    {scope : String} (h : scope ∈ consentedScope context ticked requested)
    (hbox : scope ∈ context.optionalScopes) : scope ∈ ticked := by
  have hkept := (List.mem_filter.mp h).2
  simpa [hbox] using hkept

variable {outcome : DoorOutcome}

theorem only_resetAnd : (Door.resetAnd id outcome).Only (CreatesOnly P) :=
  only_bind (only_other rfl) fun _ ↦ trivial

theorem clears_of_gates (howes : d.owes u = none) (hverified : ¬d.refusesUnverified u = true)
    (horigin : ¬(d.seen.registrationOrigin clientId).isNone = true) :
    d.Clears d.codeHash clientId u :=
  ⟨rfl, howes, Bool.eq_false_iff.mpr hverified, mt Option.isNone_iff_eq_none.mpr horigin⟩

/-- A verified subject's code is past the other gates as well. -/
theorem only_gatedCompletion (hverified : ¬d.refusesUnverified u = true) :
    (d.gatedCompletion id pending u authenticators).Only (CreatesOnly d.PastGates) := by
  rw [Door.gatedCompletion]
  cases howes : d.owes u with
  | some action => trivial
  | none =>
    dsimp only
    split_ifs with horigin
    · trivial
    cases hgate : d.consentGate pending.clientId u pending.scope pending.prompt with
    | refuse | ask => trivial
    | notRequired =>
      refine only_bind (only_completeAuthorizedLogin fun _ _ _ ↦ ?_) fun completed ↦ by
        split <;> first | exact only_resetAnd | trivial
      exact ⟨clears_of_gates howes hverified horigin, (consented_of_gate hgate).1⟩

theorem only_afterFactors :
    (d.afterFactors id u authenticators).Only (CreatesOnly d.PastGates) := by
  refine only_bind (only_other rfl) fun subject ↦ only_bind trivial fun _ ↦ ?_
  split_ifs with henabled hverified
  · exact only_resetAnd
  · trivial
  refine only_bind (only_bind (only_other rfl) fun _ ↦ trivial) fun pending ↦
    only_bind trivial fun _ ↦ ?_
  cases pending with
  | none => trivial
  | some pending =>
    dsimp only
    split_ifs with hhint hclaim
    · exact only_resetAnd
    · exact only_resetAnd
    · exact only_gatedCompletion hverified

theorem only_handleLoginSubmission {input : AdvanceInput} {seen : Seen} :
    (d.handleLoginSubmission V id input seen).Only (CreatesOnly d.PastGates) := by
  rw [Door.handleLoginSubmission]
  split
  · trivial
  refine only_bind (only_mono (fun _ ↦ SignsIn.creates) only_advance) fun r ↦
    only_bind trivial fun _ ↦ ?_
  split
  · trivial
  · trivial
  · trivial
  · exact only_bind only_afterFactors fun _ ↦ trivial

theorem only_authenticatedSession {seen : Lookups} :
    (authenticatedSession seen id).Only (CreatesOnly P) := by
  refine only_bind (only_other rfl) fun found ↦ only_bind (only_other rfl) fun now ↦ ?_
  split
  · trivial
  split
  · trivial
  split <;> trivial

theorem only_handleConsentSubmission {allow : Bool} {ticked : List String} :
    (d.handleConsentSubmission id allow ticked).Only (CreatesOnly fun hash code ↦
      (DoorCall.consent d id allow ticked).Issues hash code) := by
  rw [Door.handleConsentSubmission]
  split
  · trivial
  refine only_bind only_authenticatedSession fun authenticated ↦ only_bind trivial fun _ ↦ ?_
  cases authenticated with
  | none => trivial
  | some authenticated =>
  dsimp only
  split
  next => trivial
  next hverified =>
  refine only_bind (only_bind (only_other rfl) fun _ ↦ trivial) fun pending ↦
    only_bind trivial fun _ ↦ ?_
  cases pending with
  | none => trivial
  | some pending =>
  cases howes : d.owes authenticated.1 with
  | some action => trivial
  | none =>
  dsimp only
  split_ifs with horigin hallow
  · trivial
  · trivial
  have hclears := clears_of_gates howes hverified horigin
  exact only_bind (only_completeAuthorizedLogin fun _ _ _ ↦ ⟨hclears, by simpa using hallow,
    fun _ hscope ↦ ticked_of_consented hscope⟩) fun completed ↦ by split <;> trivial

theorem only_initialChallenge {seen : Lookups} :
    (initialChallenge V seen).Only (CreatesOnly P) := by
  refine only_bind (only_other rfl) fun now ↦
    only_bind (only_mono (fun _ ↦ SignsIn.creates) only_dispatchNext) fun dispatched ↦ ?_
  split <;> trivial

theorem only_startedLogin : (d.startedLogin V).Only (CreatesOnly P) :=
  only_bind only_initialChallenge fun initial ↦ by split <;> trivial

theorem only_startAuthentication {ttlSeconds : Time} :
    (startAuthentication id ttlSeconds pending).Only (CreatesOnly P) := by
  refine only_bind (only_other rfl) fun now ↦ only_bind (only_other rfl) fun created ↦ ?_
  cases created <;> trivial

theorem only_marked {α : Type} {a : α} : (do
    markSessionAuthenticated id u authenticators
    endTransaction
    pure a : Tx α).Only (CreatesOnly P) := by
  refine only_bind (only_bind (only_other rfl) fun _ ↦ only_bind ?_ fun _ ↦
    only_bind (only_other rfl) fun _ ↦ only_other rfl) fun _ ↦ trivial
  induction authenticators with
  | nil => trivial
  | cons _ _ ih => exact only_bind (only_other rfl) fun _ ↦ ih

/-- A session gone on with is used for a code only where nothing is left to ask. -/
theorem only_continueAs (session : ReusableSession) (hverified : ¬d.refusesUnverified session.subjectId = true)
    (horigin : ¬(d.seen.registrationOrigin pending.clientId).isNone = true) :
    (d.continueAs id pending session).Only (CreatesOnly d.PastGates) := by
  rw [Door.continueAs]
  cases howes : d.owes session.subjectId with
  | some action => exact only_marked
  | none =>
    dsimp only
    cases hgate : d.consentGate pending.clientId session.subjectId pending.scope
        pending.prompt with
    | refuse => trivial
    | ask => exact only_marked
    | notRequired =>
      exact only_reuse fun _ _ _ ↦ ⟨clears_of_gates howes hverified horigin,
        (consented_of_gate hgate).1⟩

theorem only_handleSelectAccountSubmission {answer : Option SessionId} :
    (d.handleSelectAccountSubmission V id answer).Only (CreatesOnly d.PastGates) := by
  rw [Door.handleSelectAccountSubmission]
  split_ifs with htenant
  · trivial
  refine only_bind (only_bind (only_other rfl) fun _ ↦ only_bind (only_other rfl) fun _ ↦ trivial)
    fun pending ↦ only_bind trivial fun _ ↦ ?_
  cases pending with
  | none => trivial
  | some pending =>
  cases answer with
  | none => exact only_startedLogin
  | some sessionId =>
  refine only_bind only_resolveSessions fun sessions ↦ only_bind trivial fun _ ↦
    only_bind (only_other rfl) fun now ↦ ?_
  cases chosenAmong sessions sessionId with
  | none => trivial
  | some chosen =>
  dsimp only
  -- A choice too old, of no client, of somebody else than was named, or held up, is refused.
  split_ifs with hage horigin hhint hclaim hverified hfactors
  · trivial
  · trivial
  · trivial
  · trivial
  · trivial
  · refine only_bind (only_other rfl) fun subject ↦ only_bind trivial fun _ ↦ ?_
    split_ifs with henabled
    · exact only_startedLogin
    · exact only_startedLogin
  · refine only_bind (only_other rfl) fun subject ↦ only_bind trivial fun _ ↦ ?_
    split_ifs with henabled
    · exact only_startedLogin
    · exact only_continueAs (toReusableSession (sessionId, chosen)) hverified horigin

theorem only_handleRequiredActionSubmission {submission : ActionSubmission}
    {seenAfter : DoorLookups} {seen : Seen} :
    (d.handleRequiredActionSubmission V id submission seenAfter seen).Only
      (CreatesOnly { d with seen := seenAfter }.PastGates) := by
  rw [Door.handleRequiredActionSubmission]
  split
  · trivial
  refine only_bind only_authenticatedSession fun authenticated ↦ only_bind trivial fun _ ↦ ?_
  split
  · trivial
  split
  · trivial
  refine only_bind ?_ fun done ↦ only_bind trivial fun _ ↦ ?_
  · cases submission with
    | updatePassword | generateRecoveryCodes => trivial
    | configureTotp =>
      refine only_bind ?_ fun outcome ↦ by split <;> trivial
      rw [completeTotpEnrolment]
      split_ifs <;> try trivial
      refine only_bind (only_other rfl) fun now ↦ ?_
      split
      · trivial
      exact only_bind (only_other rfl) fun _ ↦ trivial
    | configurePasskey =>
      rw [completeAction]
      split
      · trivial
      exact only_bind (only_other rfl) fun _ ↦ trivial
  · split
    · trivial
    exact only_bind only_handleLoginSubmission fun _ ↦ trivial

theorem only_enabledSessions (sessions : List (SessionId × Session)) :
    (enabledSessions sessions).Only (CreatesOnly P) := by
  induction sessions with
  | nil => trivial
  | cons _ _ ih => exact only_bind (only_other rfl) fun _ ↦ only_bind ih fun _ ↦ trivial

/-- Where `none` is asked for, nothing else is. -/
theorem Prompts.none_alone (prompts : Prompts) (hnone : .none ∈ prompts.values) {prompt : Prompt}
    (hprompt : prompt ∈ prompts.values) : prompt = .none := by
  obtain ⟨value, hvalue⟩ := List.length_eq_one_iff.mp
    (le_antisymm (prompts.noneAlone hnone) (List.length_pos_of_mem hnone))
  simp_all

/-- What `/authorize` may do with a request. -/
structure Door.Answers (d : Door) (request : AuthorizationRequest) (p : Tx DoorOutcome) : Prop where
  creates : p.Only (CreatesOnly fun hash code ↦
    (DoorCall.authorize d 0 request).Issues hash code)
  quiet : p.Yields fun outcome ↦ .none ∈ request.prompts.values → outcome.asksUser = false

variable {request : AuthorizationRequest}

theorem answers_pure
    (h : .none ∈ request.prompts.values → outcome.asksUser = false) :
    d.Answers request (pure outcome) :=
  ⟨trivial, h⟩

theorem answers_bind {α : Type} {p : Tx α} {f : α → Tx DoorOutcome}
    (hp : ∀ P, p.Only (CreatesOnly P)) (hf : ∀ a, d.Answers request (f a)) :
    d.Answers request (p >>= f) :=
  ⟨only_bind (hp _) fun a ↦ (hf a).creates, yields_of_next fun a ↦ (hf a).quiet⟩

theorem answers_park
    (h : .none ∈ request.prompts.values → outcome.asksUser = false) :
    d.Answers request (d.park id pending outcome) := by
  refine answers_bind (fun _ ↦ only_transaction only_startAuthentication) fun parked ↦ ?_
  split
  · exact answers_pure fun _ ↦ rfl
  · exact answers_pure h

theorem answers_authenticate : .none ∉ request.prompts.values →
    d.Answers request (d.authenticate V id pending) := by
  intro hnone
  refine answers_bind (fun _ ↦ only_initialChallenge) fun initial ↦
    answers_bind (fun _ ↦ trivial) fun _ ↦ ?_
  split
  · exact answers_park fun h ↦ absurd h hnone
  · exact answers_pure fun _ ↦ rfl
  · exact answers_pure fun _ ↦ rfl

theorem answers_promote
    (h : .none ∉ request.prompts.values) :
    d.Answers request (d.promote id pending session outcome) := by
  refine answers_bind (fun _ ↦ only_bind (only_transaction only_startAuthentication)
    fun parked ↦ ?_) fun parked ↦ answers_pure fun hnone ↦ absurd hnone h
  split
  · trivial
  · exact only_marked

variable {scope audience : List String}

/-- A session answers past the gates, and shows nothing under `none`. -/
theorem answers_answerFrom
    (hcreate : .create ∉ request.prompts.values)
    (hlogin : .login ∉ request.prompts.values) (hselect : .selectAccount ∉ request.prompts.values)
    (horigin : d.seen.registrationOrigin request.clientId ≠ none)
    (hhint : request.hintSubject.all (fun hinted ↦ decide (session.subjectId = hinted)) = true)
    (hclaim : request.claimsSubject.all
      (fun claimed ↦ decide (session.subjectId = claimed)) = true) :
    d.Answers request (d.answerFrom id (request.parked scope audience) session) := by
  rw [Door.answerFrom]
  split
  · exact answers_pure fun _ ↦ rfl
  rename_i hverified
  split
  · split
    · exact answers_pure fun _ ↦ rfl
    · rename_i hnone
      exact answers_promote fun h ↦ hnone (List.contains_iff_mem.mpr h)
  · rename_i howes
    split
    · exact answers_pure fun _ ↦ rfl
    · rename_i _ _ _ hask
      exact answers_promote fun hnone ↦ not_ask hnone
        (fun h ↦ nomatch request.prompts.none_alone hnone h) hask
    · rename_i hgate
      have hconsented := consented_of_gate hgate
      refine ⟨only_reuse fun _ _ _ ↦ ⟨⟨⟨rfl, howes, Bool.eq_false_iff.mpr hverified, horigin⟩,
        hconsented.1⟩, rfl, rfl, rfl, hhint, hclaim, fun prompt hprompt ↦ ?_⟩,
        yields_of_next fun completed ↦ by split <;> exact fun _ ↦ rfl⟩
      cases prompt with
      | none => rfl
      | login => exact absurd hprompt hlogin
      | consent => exact absurd hprompt hconsented.2
      | selectAccount => exact absurd hprompt hselect
      | create => exact absurd hprompt hcreate

theorem answers_answerParked
    (horigin : d.seen.registrationOrigin request.clientId ≠ none) :
    d.Answers request (d.answerParked V id (request.parked scope audience) request.maxAge) := by
  have hrefused (error : AuthorizationErrorCode) :
      d.Answers request (pure (.errorRedirect error)) := answers_pure fun _ ↦ rfl
  rw [Door.answerParked]
  split
  · rename_i hcreate
    split
    · exact hrefused _
    split
    · exact hrefused _
    exact answers_park fun hnone ↦
      nomatch request.prompts.none_alone hnone (List.contains_iff_mem.mp hcreate)
  rename_i hcreate
  refine answers_bind (fun _ ↦ only_resolveSessions) fun sessions ↦
    answers_bind (fun _ ↦ trivial) fun _ ↦ answers_bind (fun _ ↦ only_enabledSessions _)
    fun enabled ↦ answers_bind (fun _ ↦ trivial) fun _ ↦ ?_
  extract_lets candidates
  refine answers_bind (fun _ ↦ only_ask nofun) fun now ↦ ?_
  have hspec := decideReuse_spec candidates (request.parked scope audience).prompt request.maxAge
    now
  split
  · exact hrefused _
  · rename_i session hreuse
    simp only [hreuse] at hspec
    split
    · obtain ⟨hcandidate, -, hlogin, hselect⟩ := hspec
      have hmatch := (List.mem_filter.mp hcandidate).2
      rw [Bool.and_eq_true] at hmatch
      exact answers_answerFrom (fun h ↦ hcreate (List.contains_iff_mem.mpr h)) hlogin hselect
        horigin hmatch.1 hmatch.2
    split
    · exact hrefused _
    · rename_i hnone
      exact answers_authenticate fun h ↦ hnone (List.contains_iff_mem.mpr h)
  · rename_i hreuse
    simp only [hreuse] at hspec
    exact answers_park fun hnone ↦ absurd hnone hspec
  · rename_i hreuse
    simp only [hreuse] at hspec
    exact answers_authenticate hspec

theorem answers_handleAuthorizationRequest :
    d.Answers request (d.handleAuthorizationRequest V env id request) := by
  rw [Door.handleAuthorizationRequest]
  split
  · exact answers_pure fun _ ↦ rfl
  rename_i horigin
  dsimp only
  split
  · exact answers_pure fun _ ↦ rfl
  split
  · exact answers_pure fun _ ↦ rfl
  exact answers_answerParked (by simp [horigin])

theorem DoorCall.only_body (call : DoorCall) :
    (call.body V env).Only (CreatesOnly fun hash code ↦ call.Issues hash code) := by
  cases call with
  | authorize => exact only_bind answers_handleAuthorizationRequest.creates fun _ ↦ trivial
  | login => exact only_bind only_handleLoginSubmission fun _ ↦ trivial
  | selectAccount => exact only_bind only_handleSelectAccountSubmission fun _ ↦ trivial
  | consent => exact only_bind only_handleConsentSubmission fun _ ↦ trivial
  | requiredAction => exact only_bind only_handleRequiredActionSubmission fun _ ↦ trivial
  | other _ hops =>
    exact only_bind (only_runAll fun op hop hash row h ↦ absurd h (hops op hop hash row))
      fun _ ↦ trivial

/-- A request to `/authorize` with `prompt=none` is never shown anything to do. -/
theorem authorize_silent (V : Primitives) (env : Deployment) (d : Door) (id : AuthSessionId)
    (request : AuthorizationRequest) :
    (d.handleAuthorizationRequest V env id request).Yields fun outcome ↦
      .none ∈ request.prompts.values → outcome.asksUser = false :=
  answers_handleAuthorizationRequest.quiet

end Doors

/-- In every interleaving, a code was there from the beginning or was issued past the gates of a
door, by a call that was made. -/
theorem codes_pass_gates (V : Primitives) (env : Deployment) (made : DoorCall → Prop)
    {rows : Rows} {c : Config (doors V env made)} (hc : Reaches .free (.start rows) c)
    {hash : TokenHash} {code : AuthorizationCode} (hcode : Rows.code c.rows hash = some code) :
    (∃ first, Rows.code rows hash = some first ∧
      code = { first with consumedAt := code.consumedAt, grantId := code.grantId }) ∨
      ∃ call, made call ∧ call.Issues hash code := by
  let P : TokenHash → AuthorizationCode → Prop := fun hash code ↦
    (∃ first, Rows.code rows hash = some first ∧
      code = { first with consumedAt := code.consumedAt, grantId := code.grantId }) ∨
      ∃ call, made call ∧ call.Issues hash code
  have hP : ∀ hash row consumedAt grantId,
      P hash row → P hash { row with consumedAt, grantId } := by
    rintro hash row consumedAt grantId (⟨first, hfirst, hrow⟩ | ⟨call, hmade, hissues⟩)
    · exact Or.inl ⟨first, hfirst, by rw [hrow]⟩
    · refine Or.inr ⟨call, hmade, ?_⟩
      cases call <;> exact hissues
  have hstart : (codeLaw P).Lawful rows := by
    rintro ⟨table, hash⟩
    cases table with
    | authorizationCodes => exact fun row hrow ↦ Or.inl ⟨row, hrow, rfl⟩
    | _ => trivial
  have hlawful := (Law.promises_of_reaches (Q := codeLaw P)
    (fun _ _ ↦ Law.kept_true) (fun R (call : {call // made call}) s hR hs ↦
      hR.wp_only (only_mono (fun op hop s hs ↦ CreatesOnly.keeps hP
        (fun hash row h ↦ Or.inr ⟨call.1, call.2, hop hash row h⟩) hs) call.1.only_body)
        (Law.Carries.start hs trivial)) hstart hc).1
  exact hlawful ⟨.authorizationCodes, hash⟩ code hcode

/-- The door of `consentingDoor`, of a client that no consent is asked for. -/
def trustingDoor : Door :=
  { consentingDoor with
    seen := { consentingDoor.seen with consentContext := fun _ ↦ ⟨false, false, [], [], []⟩ } }

/-- Subject 1 signs in with a passkey, and is redirected with code 70. -/
theorem codes_pass_gates_login :
    ∃ (c : Config (doors plainPrimitives plainDeployment fun _ ↦ True)) (code : AuthorizationCode),
      Rows.code c.rows 70 = some code ∧ ∃ call : DoorCall, call.Issues 70 code := by
  have hend : ((Schedule.performAll .free oracle (Schedule.start (hintedAttempt 1))
      (.begin ⟨.login trustingDoor 1 presentPasskey (.steady twoSubjects), trivial⟩ ::
        Schedule.runs (doors plainPrimitives plainDeployment fun _ ↦ True) 0 9 ++ .finish 0 ::
        Schedule.runs _ 0 1 ++ .finish 0 :: Schedule.runs _ 0 1 ++ .finish 0 ::
        Schedule.runs _ 0 2 ++ .finish 0 :: Schedule.runs _ 0 10 ++ [.finish 0, .finish 0])).map
      fun m ↦ (Rows.code m.config.rows 70).isSome) = some true := by decide
  obtain ⟨m, hm, hcode⟩ := Option.map_eq_some_iff.mp hend
  obtain ⟨code, hcode⟩ := Option.isSome_iff_exists.mp hcode
  rcases codes_pass_gates _ _ _ (Schedule.reaches hm) hcode with
    ⟨first, hfirst, -⟩ | ⟨call, -, hcall⟩
  · exact nomatch hfirst
  · exact ⟨m.config, code, hcode, call, hcall⟩

/-- A request of client 1 with `prompt=none`, in a browser with these entries. -/
def silentRequest (entries : List SessionEntry) : Tx DoorOutcome :=
  { trustingDoor with entries }.handleAuthorizationRequest plainPrimitives plainDeployment 1 {
    clientId := 1
    redirectUri := "https://app.example/cb"
    scope := ["openid"]
    codeChallenge := "challenge"
    prompts := ⟨[.none], by decide, by decide⟩
    maxAge := none
    hintSubject := none
    claimsSubject := none
    userinfoClaims := []
    resource := .absent }

/-- Subject 1 has session 3, by password. -/
def signedInAlready : Rows
  | ⟨.subjects, 1⟩ => some ⟨none⟩
  | ⟨.sessions, 3⟩ => some ⟨1, 0, 600, 0, [.password], false, some 30⟩
  | _ => none

/-- With the session a code is given, and without it an error: neither shows a page. -/
theorem authorize_silent_signedIn :
    (∃ s', Ends (silentRequest [⟨3, 30⟩]) Writes.nothing signedInAlready (.ok (.redirect 3 70)) s' ∧
      (DoorOutcome.redirect 3 70).asksUser = false) ∧
    ∃ s', Ends (silentRequest []) Writes.nothing signedInAlready
        (.ok (.errorRedirect .loginRequired)) s' ∧
      (DoorOutcome.errorRedirect .loginRequired).asksUser = false := by
  have hends {entries : List SessionEntry} {outcome : DoorOutcome}
      (h : ((silentRequest entries).perform oracle Writes.nothing signedInAlready).map (·.1) =
        some (.ok outcome)) :
      ∃ s', Ends (silentRequest entries) Writes.nothing signedInAlready (.ok outcome) s' ∧
        outcome.asksUser = false := by
    obtain ⟨⟨result, s'⟩, hperform, rfl⟩ := Option.map_eq_some_iff.mp h
    have hrun := ends_of_perform hperform
    exact ⟨s', hrun, hrun.yields (authorize_silent _ _ _ _ _) _ rfl (by decide)⟩
  exact ⟨hends (by decide +kernel), hends (by decide +kernel)⟩

end Odudu.ProtocolOidc
