import Odudu.AuthnFlows.SubjectBinding
import Odudu.ProtocolOidc.Doors

/-!
# The subject a relying party named

Login and consent submissions as a system, with any other transaction that only ages the
rows.  A request names a subject by an `id_token_hint` or by a `sub` of its `claims`.  A
login submission compares the subject it authenticated with the one named before it
issues anything, and puts the attempt back where they differ; a consent submission compares
nothing, and takes the attempt for put back.  Between the transaction that marks the attempt
authenticated and the one that puts it back, a consent submission finds the wrong subject
there (`code_for_another_subject`).

Over every run in which no consent submission finds the attempt authenticated for another
subject, a code issued from a parked request is for the subject it names
(`code_for_named_subject`).
-/

set_option autoImplicit false

namespace Odudu.ProtocolOidc

open ReadCommitted Program AuthnFlows

/-- The request names no other subject than this one. -/
def PendingRequest.names (request : PendingRequest) (u : SubjectId) : Bool :=
  request.idTokenHintSubject.all (fun hinted ↦ decide (hinted = u)) &&
    request.claimsSubject.all fun claimed ↦ decide (claimed = u)

/-- A call of the server. -/
inductive SubmissionCall where
  | login (d : Door) (id : AuthSessionId) (input : AdvanceInput) (seen : Seen)
  | consent (d : Door) (id : AuthSessionId) (allow : Bool) (ticked : List String)
  /-- Any other transaction whose statements age the rows. -/
  | other (ops : List Op) (hops : ∀ op ∈ ops, op.AgesRows = true)

inductive SubmissionOutcome where
  | answered (outcome : DoorOutcome)
  | finished

namespace SubmissionCall

def body (V : Primitives) : SubmissionCall → Tx SubmissionOutcome
  | login d id input seen => do
    let answer ← d.handleLoginSubmission V id input seen
    pure (.answered answer.outcome)
  | consent d id allow ticked => do
    let outcome ← d.handleConsentSubmission id allow ticked
    pure (.answered outcome)
  | other ops _ => do
    runAll ops
    pure .finished

/-- The parked request a call is about. -/
def attempt : SubmissionCall → Option AuthSessionId
  | login _ id _ _ | consent _ id _ _ => some id
  | other .. => none

end SubmissionCall

/-- Login and consent submissions, and what runs beside them. -/
abbrev submissions (V : Primitives) : System where
  db := database
  Call := SubmissionCall
  Outcome := SubmissionOutcome
  Failure := Failure
  body := SubmissionCall.body V

/-- Whom consent would be taken from: the subject the attempt stands authenticated for,
where nothing else is in the way. -/
def Door.takesUp (d : Door) (allow : Bool) (attempt : AuthenticationSession) (now : Time) :
    Option SubjectId :=
  attempt.subjectId.filter fun u ↦
    d.seen.tenantEnabled && allow && sessionIsLive attempt now && attempt.authenticatedAt.isSome &&
      authenticatorsSatisfyFlow d.seen.flow u attempt.satisfied && !d.refusesUnverified u &&
      (d.owes u).isNone && (d.seen.registrationOrigin attempt.pendingRequest.clientId).isSome

/-- A consent submission may read an attempt that it would complete for the subject the
request names. -/
def mayTakeUp (call : SubmissionCall) (op : Op) (s : Rows) : Prop :=
  match call, op with
  | .consent d _ allow _, .authenticationSessionById id =>
    ∀ attempt ∈ s.authenticationSession id, ∀ u ∈ d.takesUp allow attempt s.clock,
      attempt.pendingRequest.names u = true
  | _, _ => True

instance (call : SubmissionCall) (op : Op) (s : Rows) : Decidable (mayTakeUp call op s) := by
  unfold mayTakeUp
  split <;> infer_instance

/-- The runs in which consent is taken from nobody but the subject named. -/
def takesUpNamed (V : Primitives) : Discipline (submissions V) where
  mayRun := mayTakeUp
  mayCommit := fun _ _ _ _ ↦ True

instance (V : Primitives) : (takesUpNamed V).Checked where
  mayRun := fun call op s ↦ inferInstanceAs (Decidable (mayTakeUp call op s))
  mayCommit := fun _ _ _ _ ↦ instDecidableTrue

/-- The code is for no other subject than the parked request names. -/
def Rows.IssuedToNamed (s : Rows) (id : AuthSessionId) (codeHash : TokenHash) : Prop :=
  ∃ attempt code, s.authenticationSession id = some attempt ∧ s.code codeHash = some code ∧
    attempt.pendingRequest.names code.subjectId = true

/-- The code is for this subject. -/
def Rows.IssuedTo (s : Rows) (codeHash : TokenHash) (u : SubjectId) : Prop :=
  ∃ code, s.code codeHash = some code ∧ code.subjectId = u

/-- The parked request names no other subject than this one. -/
def Rows.ParkedFor (s : Rows) (id : AuthSessionId) (u : SubjectId) : Prop :=
  ∃ attempt, s.authenticationSession id = some attempt ∧ attempt.pendingRequest.names u = true

section Ageing

variable {s s' : Rows} {id : AuthSessionId} {codeHash : TokenHash} {u : SubjectId}

theorem AuthorizationCode.Older.subjectId {a b : AuthorizationCode} (h : a.Older b) :
    b.subjectId = a.subjectId := by
  rw [h.rest]

theorem Rows.IssuedTo.ages (h : s.IssuedTo codeHash u) (hages : s.Ages s') :
    s'.IssuedTo codeHash u := by
  obtain ⟨code, hcode, hsubject⟩ := h
  obtain ⟨code', hcode', hage⟩ := hages.code hcode
  exact ⟨code', hcode', hage.subjectId.trans hsubject⟩

theorem Rows.ParkedFor.ages (h : s.ParkedFor id u) (hages : s.Ages s') : s'.ParkedFor id u := by
  obtain ⟨attempt, hattempt, hnames⟩ := h
  obtain ⟨attempt', hattempt', hage⟩ := hages.authenticationSession hattempt
  exact ⟨attempt', hattempt', hage.pendingRequest ▸ hnames⟩

theorem Rows.ParkedFor.issuedToNamed (h : s.ParkedFor id u) (hcode : s.IssuedTo codeHash u) :
    s.IssuedToNamed id codeHash := by
  obtain ⟨attempt, hattempt, hnames⟩ := h
  obtain ⟨code, hcode, rfl⟩ := hcode
  exact ⟨attempt, code, hattempt, hcode, hnames⟩

theorem Rows.IssuedToNamed.ages (h : s.IssuedToNamed id codeHash) (hages : s.Ages s') :
    s'.IssuedToNamed id codeHash := by
  obtain ⟨attempt, code, hattempt, hcode, hnames⟩ := h
  exact (Rows.ParkedFor.ages ⟨attempt, hattempt, hnames⟩ hages).issuedToNamed
    (Rows.IssuedTo.ages ⟨code, hcode, rfl⟩ hages)

variable {attempt : AuthenticationSession}

theorem sessionIsLive_earlier {now now' : Time}
    (hearlier : now ≤ now') (h : sessionIsLive attempt now' = true) :
    sessionIsLive attempt now = true := by
  simp only [sessionIsLive, Bool.and_eq_true, decide_eq_true_eq] at h ⊢
  exact ⟨Nat.lt_of_le_of_lt hearlier h.1, h.2⟩

theorem Door.mem_takesUp {d : Door} {allow : Bool}
    {now : Time} : u ∈ d.takesUp allow attempt now ↔ attempt.subjectId = some u ∧
      d.seen.tenantEnabled = true ∧ allow = true ∧ sessionIsLive attempt now = true ∧
      attempt.authenticatedAt.isSome = true ∧
      authenticatorsSatisfyFlow d.seen.flow u attempt.satisfied = true ∧
      d.refusesUnverified u = false ∧ d.owes u = none ∧
      (d.seen.registrationOrigin attempt.pendingRequest.clientId).isSome = true := by
  rw [Door.takesUp, Option.mem_def, Option.filter_eq_some_iff]
  simp only [Bool.and_eq_true, Bool.not_eq_true', Option.isNone_iff_eq_none, and_assoc]

end Ageing

section Submissions

variable {R : Rules database Failure} {s₀ s : Rows} {w : Writes database} {id : AuthSessionId}
  {u : SubjectId}

/-- The rules of a submission: the others only age the rows, and so does every commit. -/
abbrev Gentle (R : Rules database Failure) : Prop := ageing.Lenient (fun _ ↦ True) R

/-- A statement that ages the rows it finds. -/
abbrev AgesWhatItFinds (op : Op) : Prop := ∀ s : Rows, s.Ages (s.after (op.effect s))

variable {op : Op}

theorem Gentle.wp_query (hR : Gentle R) (h₀ : ageing.Since s₀ w s)
    (hop : op.AgesRows = true) {α : Type} {f : op.Answer → Tx α}
    {post : α → Writes database → Rows → Prop}
    (h : ∀ (s' : Rows) a w', ageing.Rely w s s' → R.mayRun op (s'.after w) →
      op.Answers (s'.after w) a →
      s'.after w' = (s'.after w).after (op.effect (s'.after w)) → ageing.Since s₀ w' s' →
      (f a).wp R w' s' post) :
    (query op >>= f).wp R w s post :=
  hR.wp_ask h₀ (fun s ↦ Op.ages_effect hop s) fun s' a hrely _ hrun ha h₁ ↦
    h s' a _ hrely hrun ha (Writes.andThen_laidOver _ _ _) h₁

theorem Gentle.wp_read (hR : Gentle R) (h₀ : ageing.Since s₀ Writes.nothing s)
    (hop : op.effect = fun _ _ ↦ none) {α : Type} {f : op.Answer → Tx α}
    {post : α → Writes database → Rows → Prop}
    (h : ∀ (s' : Rows) a, s.Ages s' → R.mayRun op s' → op.Answers s' a →
      ageing.Since s₀ Writes.nothing s' → (f a).wp R Writes.nothing s' post) :
    (query op >>= f).wp R Writes.nothing s post := by
  refine hR.governs.wp_ask fun s' a hrely _ _ hrun ha ↦ ?_
  rw [show database.effect op = _ from hop]
  exact h s' a hrely.ages hrun ha (h₀.of_rely hrely)

/-- What is known of a code just issued. -/
theorem Gentle.wp_issueAuthorizationCode (hR : Gentle R) (hthrow : ∀ e s, R.owesThrow e s)
    {input : IssueAuthorizationCodeInput} {authTime now : Time} {sessionId : SessionId}
    (h₀ : ageing.Since s₀ w s) :
    (issueAuthorizationCode input authTime now sessionId).wp R w s fun _ w (s' : Rows) ↦
      ageing.Since s₀ w s' ∧ (s'.after w).IssuedTo input.codeHash input.subjectId := by
  refine hR.wp_query h₀ rfl fun s' created w' _ _ hcreated hw' h₁ ↦ ?_
  cases created with
  | false => exact fun s'' _ ↦ hthrow _ s''
  | true =>
    have hfree : (s'.after w).code input.codeHash = none := by
      simpa [Op.Answers, Op.answer] using hcreated
    have hrow := Rows.after_insert (s := s'.after w) (authorizationCode input authTime now sessionId) hfree
    exact ⟨h₁, _, hw' ▸ hrow, rfl⟩

/-- The methods that a sign-in runs before it comes to a code: they age the rows whatever they
find. -/
def Op.signsIn : Op → Bool
  | .authorizationCodeCreate .. => false
  | op => op.AgesRows

abbrev SignsIn (op : Op) : Prop := op.signsIn = true

theorem SignsIn.ages (hop : SignsIn op) : AgesWhatItFinds op := by
  refine Op.ages_effect ?_
  cases op <;> first | exact hop | exact nomatch hop

theorem only_admitSession {input : AdmitSessionInput} {transactionStart : Time} :
    (admitSession input transactionStart).Only SignsIn := by
  refine only_bind (only_ask rfl) fun now ↦ only_bind (only_ask rfl) fun live ↦
    only_bind (only_ask rfl) fun _ ↦ only_bind (only_ask rfl) fun now' ↦
    only_bind (only_ask rfl) fun created ↦ ?_
  cases created <;> trivial

/-- A completed login issues its code to the subject it was given. -/
theorem Gentle.wp_completeLogin (hR : Gentle R) (hthrow : ∀ e s, R.owesThrow e s)
    (input : CompleteLoginInput) (h₀ : ageing.Since s₀ Writes.nothing s) :
    (completeLogin input).wp R Writes.nothing s fun outcome w (s' : Rows) ↦
      ageing.Since s₀ w s' ∧ ∀ sessionId codeHash, outcome = .issued sessionId codeHash →
        (s'.after w).IssuedTo codeHash input.code.subjectId := by
  rw [completeLogin]
  refine hR.wp_query h₀ rfl fun s₁ now w₁ _ _ _ _ h₁ ↦ ?_
  refine hR.wp_query h₁ rfl fun s₂ subject w₂ _ _ _ _ h₂ ↦ ?_
  split
  case isTrue => exact ⟨h₂, by simp⟩
  case isFalse =>
    refine hR.wp_query h₂ rfl fun s₃ consumedAt w₃ _ _ _ _ h₃ ↦ ?_
    refine hR.wp_query h₃ rfl fun s₄ consumed w₄ _ _ _ _ h₄ ↦ ?_
    split
    case isTrue => exact ⟨h₄, by simp⟩
    case isFalse =>
      split
      case h_1 sessionId authTime _ =>
        refine hR.wp_query h₄ rfl fun s₅ _ w₅ _ _ _ _ h₅ ↦ ?_
        refine (wp_bind _ _ _).mpr (wp_mono ?_ (hR.wp_issueAuthorizationCode hthrow h₅))
        rintro _ w₆ s₆ ⟨h₆, hissued⟩
        exact ⟨h₆, by rintro _ _ ⟨⟩; exact hissued⟩
      case h_2 =>
        refine (wp_bind _ _ _).mpr (wp_mono ?_ (hR.wp_only hthrow
          (only_mono (fun _ ↦ SignsIn.ages) only_admitSession) h₄))
        rintro _ w₅ s₅ h₅
        refine (wp_bind _ _ _).mpr (wp_mono ?_ (hR.wp_issueAuthorizationCode hthrow h₅))
        rintro _ w₆ s₆ ⟨h₆, hissued⟩
        exact ⟨h₆, by rintro _ _ ⟨⟩; exact hissued⟩

/-- What a door ends with: writes that age the rows, and with a code one that is for the
subject named. -/
abbrev NamedPost (id : AuthSessionId) : DoorOutcome → Writes database → Rows → Prop :=
  fun outcome w s ↦ s.Ages (s.after w) ∧ ∀ sessionId codeHash,
    outcome = .redirect sessionId codeHash → (s.after w).IssuedToNamed id codeHash

variable {outcome : DoorOutcome}

theorem namedPost_of_ne (hages : s.Ages (s.after w))
    (hne : ∀ sessionId codeHash, outcome ≠ .redirect sessionId codeHash) :
    NamedPost id outcome w s :=
  ⟨hages, fun sessionId codeHash h ↦ absurd h (hne sessionId codeHash)⟩

variable {d : Door}

theorem Gentle.wp_resolveSessions (hR : Gentle R) {entries : List SessionEntry}
    {lifespans : SessionLifespans} (h₀ : ageing.Since s₀ Writes.nothing s) :
    (resolveSessions entries lifespans).wp R Writes.nothing s fun _ w s' ↦
      ageing.Since s₀ w s' :=
  hR.wp_read h₀ rfl fun _ _ _ _ _ h₁ ↦ hR.wp_query h₁ rfl fun _ _ _ _ _ _ _ h₂ ↦ h₂

variable {authenticators : List AuthenticatorName} {pending : PendingRequest}

/-- A sign-in completed for a subject that its request does not exclude. -/
theorem Gentle.wp_completeAuthorizedLogin (hR : Gentle R)
    (hparked : s.ParkedFor id u) :
    (d.completeAuthorizedLogin id pending u authenticators).wp R Writes.nothing s
      (NamedPost id) := by
  have h₀ : ageing.Since s Writes.nothing s := Ageing.Since.start (A := ageing) s
  rw [Door.completeAuthorizedLogin, wp_bind]
  refine wp_mono ?_ (hR.wp_resolveSessions h₀)
  intro before w s₂ h₂
  refine hR.wp_endTransaction h₂ fun s₃ _ _ h₃ ↦ ?_
  rw [wp_bind]
  refine @Ageing.Lenient.wp_transaction database ageing _ _ _ _ _ R s hR _ _ (fun e s' ↦ ?_)
    (wp_mono ?_ (Gentle.wp_completeLogin hR.forgiving (fun _ _ ↦ trivial) _ h₃))
  · exact namedPost_of_ne (Ageing.Ages.refl (A := ageing) _) (by simp)
  · rintro outcome w s₄ ⟨h₄, hissued⟩
    refine ⟨h₄, fun (s₅ : Rows) hrely h₅ ↦ ?_⟩
    cases outcome with
    | alreadyConsumed | subjectDisabled =>
      exact namedPost_of_ne (Ageing.Ages.refl (A := ageing) _) (by simp)
    | issued sessionId codeHash =>
      refine ⟨Ageing.Ages.refl (A := ageing) _, ?_⟩
      rintro _ _ ⟨⟩
      have hcode := (hissued sessionId codeHash rfl).ages hrely.seen
      exact (hparked.ages h₅.seen).issuedToNamed hcode

theorem Gentle.wp_loadPendingRequest (hR : Gentle R) (h₀ : ageing.Since s₀ Writes.nothing s) :
    (loadPendingRequest id).wp R Writes.nothing s fun pending w (s' : Rows) ↦
      ageing.Since s₀ w s' ∧ ∀ request, pending = some request →
        ∃ attempt, s'.authenticationSession id = some attempt ∧
          attempt.pendingRequest = request := by
  refine hR.wp_read h₀ rfl fun s₁ found _ _ hfound h₁ ↦ ⟨h₁, ?_⟩
  obtain rfl := Option.some.inj hfound
  intro request hrequest
  cases hrow : s₁.authenticationSession id with
  | none => simp [hrow] at hrequest
  | some attempt => exact ⟨attempt, rfl, by simpa [hrow] using hrequest⟩

theorem Gentle.wp_resetAnd (hR : Gentle R)
    (hne : ∀ sessionId codeHash, outcome ≠ .redirect sessionId codeHash)
    (h₀ : ageing.Since s₀ w s) : (Door.resetAnd id outcome).wp R w s (NamedPost id) := by
  refine hR.wp_query h₀ rfl fun s₁ _ w₁ _ _ _ _ h₁ ↦ ?_
  refine hR.wp_endTransaction h₁ fun s₂ _ _ h₂ ↦ ?_
  exact namedPost_of_ne h₂.writes hne

theorem Gentle.wp_gatedCompletion (hR : Gentle R)
    (hparked : s.ParkedFor id u) :
    (d.gatedCompletion id pending u authenticators).wp R Writes.nothing s (NamedPost id) := by
  have hstill : ∀ {outcome : DoorOutcome}, (∀ sessionId codeHash,
      outcome ≠ .redirect sessionId codeHash) → NamedPost id outcome Writes.nothing s :=
    fun hne ↦ namedPost_of_ne (Ageing.Ages.refl (A := ageing) s) hne
  rw [Door.gatedCompletion]
  split
  case h_1 => exact hstill (by simp)
  case h_2 =>
    split
    case isTrue => exact hstill (by simp)
    case isFalse =>
      split
      case h_1 => exact hstill (by simp)
      case h_2 => exact hstill (by simp)
      case h_3 =>
        refine (wp_bind _ _ _).mpr (wp_mono ?_ (hR.wp_completeAuthorizedLogin hparked))
        intro outcome w s₁ hpost
        split
        case h_1 =>
          have h₁ : ageing.Since s₁ w s₁ := ⟨Ageing.Ages.refl (A := ageing) s₁, hpost.1⟩
          exact hR.wp_resetAnd (by simp) h₁
        case h_2 => exact hpost

/-- A login whose factors have run: the subject is compared with the one named. -/
theorem Gentle.wp_afterFactors (hR : Gentle R) :
    (d.afterFactors id u authenticators).wp R Writes.nothing s (NamedPost id) := by
  have h₀ : ageing.Since s Writes.nothing s := Ageing.Since.start (A := ageing) s
  rw [Door.afterFactors]
  refine hR.wp_read h₀ rfl fun s₁ subject _ _ _ h₁ ↦ ?_
  refine hR.wp_endTransaction h₁ fun s₂ _ _ h₂ ↦ ?_
  split
  case isTrue => exact hR.wp_resetAnd (by simp) h₂
  case isFalse =>
    split
    case isTrue => exact namedPost_of_ne h₂.writes (by simp)
    case isFalse =>
      refine (wp_bind _ _ _).mpr (wp_mono ?_ (hR.wp_loadPendingRequest h₂))
      rintro pending w₃ s₃ ⟨h₃, hpending⟩
      refine hR.wp_endTransaction h₃ fun s₄ hrely _ h₄ ↦ ?_
      split
      case h_1 => exact namedPost_of_ne h₄.writes (by simp)
      case h_2 request =>
        split
        case isTrue => exact hR.wp_resetAnd (by simp) h₄
        case isFalse hhinted =>
          split
          case isTrue => exact hR.wp_resetAnd (by simp) h₄
          case isFalse hclaimed =>
            obtain ⟨attempt, hattempt, rfl⟩ := hpending request rfl
            have hnames : attempt.pendingRequest.names u = true := by
              simp only [PendingRequest.names, Bool.and_eq_true, Option.all_eq_true]
              simp only [Option.any_eq_true, decide_eq_true_eq, not_exists, not_and,
                not_not] at hhinted hclaimed
              exact ⟨fun a ha ↦ decide_eq_true (hhinted a ha),
                fun a ha ↦ decide_eq_true (hclaimed a ha)⟩
            refine hR.wp_gatedCompletion (Rows.ParkedFor.ages ⟨attempt, hattempt, hnames⟩ ?_)
            exact Ageing.Ages.trans (A := ageing) hrely.ages (h₃.of_rely hrely).writes

section Flow

variable {V : Primitives} {input : AdvanceInput} {context : StepContext}

theorem only_runAuthenticator {seen : Lookups}
    (authenticator : AuthenticatorName) :
    (runAuthenticator V seen input context authenticator).Only SignsIn := by
  cases authenticator with
  | password | otp | recoveryCode => trivial
  | passkey =>
    rw [runAuthenticator, runPasskeyStep]
    split
    case isTrue => trivial
    case isFalse =>
      dsimp only
      split
      · refine only_bind trivial fun expected ↦ ?_
        split <;> trivial
      · refine only_bind (only_ask rfl) fun expected ↦ ?_
        split <;> trivial

variable {satisfied : List AuthenticatorName}

theorem only_dispatchNext {seen : Lookups} {steps : List Step} :
    (dispatchNext V seen input context steps satisfied).Only SignsIn := by
  rw [dispatchNext]
  split
  · trivial
  · trivial
  · exact only_bind (only_runAuthenticator _) fun _ ↦ trivial

theorem only_recordOutcome {outcome : AdvanceOutcome} :
    (recordOutcome id outcome).Only SignsIn := by
  cases outcome with
  | success =>
    exact only_bind (only_ask rfl) fun _ ↦ only_ask rfl
  | challenge | failure => exact only_ask rfl

variable {seen : Seen}

theorem only_advanceBound
    {authenticator : AuthenticatorName} :
    (advanceBound V seen id input satisfied authenticator u).Only SignsIn := by
  rw [advanceBound]
  refine only_bind (only_ask rfl) fun _ ↦
    only_bind (only_ask rfl) fun _ ↦
    only_bind (only_ask rfl) fun now ↦
    only_bind only_dispatchNext fun dispatched ↦ ?_
  split
  case h_1 =>
    split
    · exact only_bind (only_ask rfl) fun _ ↦
        only_bind only_recordOutcome fun _ ↦ trivial
    · exact only_bind only_recordOutcome fun _ ↦ trivial
    · exact only_bind only_recordOutcome fun _ ↦ trivial
  case h_2 => exact only_bind only_recordOutcome fun _ ↦ trivial
  case h_3 => exact only_bind only_recordOutcome fun _ ↦ trivial

theorem only_advanceRan {record : AuthenticationSession} {dispatched : Dispatch} :
    (advanceRan V seen id input record dispatched).Only SignsIn := by
  unfold advanceRan
  split
  · exact only_bind (only_ask rfl) fun _ ↦ trivial
  · trivial
  · split
    · trivial
    · split
      · trivial
      · exact only_advanceBound
  · trivial

/-- A submission to the flow ages the rows. -/
theorem only_advance : (advance V seen id input).Only SignsIn := by
  rw [advance]
  refine only_bind (only_ask rfl) fun found ↦
    only_bind (only_ask rfl) fun checkedAt ↦ ?_
  split
  · trivial
  · split
    · trivial
    · refine only_bind (only_ask rfl) fun now ↦
        only_bind only_dispatchNext fun dispatched ↦ ?_
      split
      · split
        · exact only_bind (only_ask rfl) fun _ ↦
            only_bind (only_ask rfl) fun _ ↦ trivial
        · exact only_bind only_dispatchNext fun _ ↦ only_advanceRan
      · exact only_advanceRan

/-- A login submission that is answered with a code is answered for the subject named. -/
theorem Gentle.wp_handleLoginSubmission (hR : Gentle R) (hthrow : ∀ e s, R.owesThrow e s) :
    (d.handleLoginSubmission V id input seen).wp R Writes.nothing s fun answer w s' ↦
      NamedPost id answer.outcome w s' := by
  have h₀ : ageing.Since s Writes.nothing s := Ageing.Since.start (A := ageing) s
  rw [Door.handleLoginSubmission]
  split
  case isTrue => exact namedPost_of_ne h₀.writes (by simp [DoorOutcome.plain])
  case isFalse =>
    refine (wp_bind _ _ _).mpr (wp_mono ?_ (hR.wp_only hthrow
      (only_mono (fun _ ↦ SignsIn.ages) only_advance) h₀))
    intro r w₁ s₁ h₁
    refine hR.wp_endTransaction h₁ fun s₂ _ _ h₂ ↦ ?_
    split
    case h_1 => exact namedPost_of_ne h₂.writes (by simp)
    case h_2 => exact namedPost_of_ne h₂.writes (by simp)
    case h_3 => exact namedPost_of_ne h₂.writes (by simp)
    case h_4 u authenticators _ =>
      exact (wp_bind _ _ _).mpr (wp_mono (fun _ _ _ hpost ↦ hpost) hR.wp_afterFactors)

end Flow

/-- An attempt as it was read when it stood authenticated for this subject. -/
structure FoundAuthenticated (R : Rules database Failure) (seen : Lookups) (id : AuthSessionId)
    (u : SubjectId) (record : AuthenticationSession) (s : Rows) : Prop where
  mayRun : R.mayRun (.authenticationSessionById id) s
  row : s.authenticationSession id = some record
  bound : record.subjectId = some u
  live : sessionIsLive record s.clock = true
  authenticated : record.authenticatedAt.isSome = true
  satisfied : authenticatorsSatisfyFlow seen u record.satisfied = true

theorem Gentle.wp_authenticatedSession (hR : Gentle R) {seen : Lookups}
    (h₀ : ageing.Since s₀ Writes.nothing s) :
    (authenticatedSession seen id).wp R Writes.nothing s fun found w s' ↦
      ageing.Since s₀ w s' ∧ ∀ u authenticators, found = some (u, authenticators) →
        ∃ s₁ record, s₁.Ages s' ∧ FoundAuthenticated R seen id u record s₁ := by
  refine hR.wp_read h₀ rfl fun s₁ found _ hrun hfound h₁ ↦ ?_
  refine hR.wp_read h₁ rfl fun s₂ now hages _ hnow h₂ ↦ ?_
  obtain rfl := Option.some.inj hfound
  obtain rfl := Option.some.inj hnow
  split
  case h_1 => exact ⟨h₂, by simp⟩
  case h_2 record hrecord =>
    split
    case h_1 => exact ⟨h₂, by simp⟩
    case h_2 subjectId hbound =>
      split
      case isFalse => exact ⟨h₂, by simp⟩
      case isTrue hstands =>
        refine ⟨h₂, ?_⟩
        rintro _ _ ⟨⟩
        simp only [Bool.and_eq_true] at hstands
        exact ⟨s₁, record, hages, hrun, hrecord, hbound,
          sessionIsLive_earlier hages.clock_le hstands.1.1, hstands.1.2, hstands.2⟩

/-- A consent submission that is answered with a code is answered for the subject named, when
it takes the attempt up from nobody else. -/
theorem Gentle.wp_handleConsentSubmission (hR : Gentle R) {allow : Bool} {ticked : List String}
    (hmay : ∀ s : Rows, R.mayRun (.authenticationSessionById id) s →
      mayTakeUp (.consent d id allow ticked) (.authenticationSessionById id) s) :
    (d.handleConsentSubmission id allow ticked).wp R Writes.nothing s (NamedPost id) := by
  have h₀ : ageing.Since s Writes.nothing s := Ageing.Since.start (A := ageing) s
  rw [Door.handleConsentSubmission]
  split
  case isTrue => exact namedPost_of_ne h₀.writes (by simp)
  case isFalse htenant =>
    refine (wp_bind _ _ _).mpr (wp_mono ?_ (hR.wp_authenticatedSession h₀))
    rintro authenticated w₁ s₁ ⟨h₁, hfound⟩
    refine hR.wp_endTransaction h₁ fun (s₂ : Rows) hrely₂ _ h₂ ↦ ?_
    split
    case h_1 => exact namedPost_of_ne h₂.writes (by simp)
    case h_2 u authenticators =>
      obtain ⟨s', record, hages, hrecord⟩ := hfound u authenticators rfl
      have hages₂ : s'.Ages (s₂.after w₁) := Ageing.Ages.trans (A := ageing) hages
        (Ageing.Ages.trans (A := ageing) hrely₂.ages (h₁.of_rely hrely₂).writes)
      split
      case isTrue => exact namedPost_of_ne h₂.writes (by simp)
      case isFalse hverified =>
        have h₂' : ageing.Since s' Writes.nothing (s₂.after w₁) := ⟨hages₂, h₂.writes⟩
        refine (wp_bind _ _ _).mpr (wp_mono ?_ (hR.wp_loadPendingRequest h₂'))
        rintro pending w₃ s₃ ⟨h₃, hpending⟩
        refine hR.wp_endTransaction h₃ fun s₄ hrely₄ _ h₄ ↦ ?_
        split
        case h_1 => exact namedPost_of_ne h₄.writes (by simp)
        case h_2 request =>
          split
          case h_1 => exact namedPost_of_ne h₄.writes (by simp)
          case h_2 howes =>
            split
            case isTrue => exact namedPost_of_ne h₄.writes (by simp)
            case isFalse horigin =>
              split
              case isTrue => exact namedPost_of_ne h₄.writes (by simp)
              case isFalse hallow =>
                have hparked' : s'.ParkedFor id u := by
                  obtain ⟨attempt, hattempt, rfl⟩ := hpending request rfl
                  obtain ⟨attempt', hattempt', hold⟩ :=
                    Rows.Ages.authenticationSession h₃.rows hrecord.row
                  obtain rfl := Option.some.inj (hattempt.symm.trans hattempt')
                  rw [hold.pendingRequest] at horigin
                  refine ⟨record, hrecord.row, hmay s' hrecord.mayRun record hrecord.row u ?_⟩
                  refine Door.mem_takesUp.mpr ⟨hrecord.bound, by simpa using htenant,
                    by simpa using hallow, hrecord.live, hrecord.authenticated,
                    hrecord.satisfied, by simpa using hverified, howes, ?_⟩
                  rw [Option.isSome_iff_ne_none, ne_eq, ← Option.isNone_iff_eq_none]
                  exact horigin
                refine (wp_bind _ _ _).mpr (wp_mono ?_
                  (hR.wp_completeAuthorizedLogin (hparked'.ages h₄.rows)))
                intro outcome w₅ s₅ hpost
                split
                case h_1 => exact namedPost_of_ne hpost.1 (by simp)
                case h_2 => exact hpost

end Submissions

section Contract

variable {V : Primitives}

/-- What every call guarantees: it ages the rows, and a code it answers with is for the
subject the parked request names. -/
def issuingToNamed (V : Primitives) : Contract (submissions V) where
  Inv := fun _ ↦ True
  Guar := fun _ call s w outcome ↦ Rows.Ages s (Rows.after s w) ∧
    ∀ id sessionId codeHash, call.attempt = some id →
      outcome = some (.answered (.redirect sessionId codeHash)) →
      (Rows.after s w).IssuedToNamed id codeHash
  Thrown := fun _ _ _ _ ↦ True
  kept := fun _ _ ↦ trivial

theorem issuingToNamed_gentle (t : ℕ) (call : SubmissionCall) :
    Gentle ((issuingToNamed V).rules (takesUpNamed V) t call) where
  governs := fun _ _ _ hrely ↦ ⟨Ageing.rely_of_contract (K := issuingToNamed V)
    (fun _ _ _ _ _ _ hguar ↦ hguar.1) hrely, trivial⟩
  commits := fun _ _ hages ↦ ⟨hages, fun _ _ _ _ h ↦ nomatch h⟩

variable {s s' : Rows} {w : Writes database}

theorem issuingToNamed_rely
    (hrely : (issuingToNamed V).Rely w s s') : ageing.Rely w s s' :=
  Ageing.rely_of_contract (K := issuingToNamed V) (fun _ _ _ _ _ _ hguar ↦ hguar.1) hrely

theorem guaranteed_of_namedPost {t : ℕ} {call : SubmissionCall} {id : AuthSessionId}
    (hcall : call.attempt = some id) {outcome : DoorOutcome}
    (hpost : NamedPost id outcome w s) (hrely : (issuingToNamed V).Rely w s s') :
    (issuingToNamed V).Guar t call s' w (some (.answered outcome)) := by
  have hage := issuingToNamed_rely hrely
  refine ⟨hage.laidOver hpost.1, fun id' sessionId codeHash hcall' houtcome ↦ ?_⟩
  obtain rfl := Option.some.inj (hcall.symm.trans hcall')
  obtain rfl := SubmissionOutcome.answered.inj (Option.some.inj houtcome)
  exact (hpost.2 sessionId codeHash rfl).ages hage.seen

/-- Every call keeps its guarantee. -/
theorem issuingToNamed_safe (t : ℕ) (call : SubmissionCall) (s : Rows) :
    (issuingToNamed V).Safe (takesUpNamed V) t call (call.body V) Writes.nothing s := by
  have hR := issuingToNamed_gentle (V := V) t call
  cases call with
  | login =>
    refine (wp_bind _ _ _).mpr (wp_mono ?_ (hR.wp_handleLoginSubmission fun _ _ ↦ trivial))
    exact fun answer w s hpost s' hrely _ ↦ guaranteed_of_namedPost rfl hpost hrely
  | consent =>
    refine (wp_bind _ _ _).mpr (wp_mono ?_ (hR.wp_handleConsentSubmission fun s hmay ↦ hmay))
    exact fun outcome w s hpost s' hrely _ ↦ guaranteed_of_namedPost rfl hpost hrely
  | other _ hops =>
    refine (wp_bind _ _ _).mpr (wp_mono ?_ (hR.wp_only (fun _ _ ↦ trivial)
      (only_runAll fun op hop ↦ Op.ages_effect (hops op hop)) (Ageing.Since.start (A := ageing) s)))
    intro _ w s h₁ s' hrely _
    exact ⟨(issuingToNamed_rely hrely).laidOver h₁.writes, fun _ _ _ h ↦ nomatch h⟩

/-- The codes answered so far are for the subjects that their parked requests name. -/
def CodesForNamed (s : Rows) (history : List (Answered (submissions V))) : Prop :=
  ∀ a ∈ history, ∀ id sessionId codeHash, a.call.attempt = some id →
    a.result = .ok (.answered (.redirect sessionId codeHash)) → s.IssuedToNamed id codeHash

theorem CodesForNamed.ages {history : List (Answered (submissions V))}
    (h : CodesForNamed s history) (hages : s.Ages s') : CodesForNamed s' history :=
  fun a ha id sessionId codeHash hcall hresult ↦
    (h a ha id sessionId codeHash hcall hresult).ages hages

/-- Every effect keeps the codes to the subjects named. -/
theorem codesForNamed_effect {history history' : List (Answered (submissions V))}
    (heffect : (issuingToNamed V).Effect (s, history) (s', history'))
    (h : CodesForNamed s history) : CodesForNamed s' history' := by
  cases heffect with
  | part _ hguar => exact h.ages hguar.1
  | refuse =>
    intro a ha id sessionId codeHash hcall hresult
    rcases List.mem_cons.mp ha with rfl | hold
    · exact nomatch hresult
    · exact h a hold id sessionId codeHash hcall hresult
  | commit _ hguar =>
    intro a ha id sessionId codeHash hcall hresult
    rcases List.mem_cons.mp ha with rfl | hold
    · exact hguar.2 id sessionId codeHash hcall (congrArg some (Except.ok.inj hresult))
    · exact (h a hold id sessionId codeHash hcall hresult).ages hguar.1

end Contract

/-- In every interleaving of login and consent submissions in which no consent submission
finds its attempt authenticated for another subject than the parked request names, the codes
issued from a parked request are for the subject it names. -/
theorem code_for_named_subject (V : Primitives) {rows : Rows} {c : Config (submissions V)}
    (hc : Reaches (takesUpNamed V) (.start rows) c) : CodesForNamed c.rows c.history :=
  Contract.invariant (P := CodesForNamed) (fun t call s _ _ ↦ issuingToNamed_safe t call s)
    (fun _ _ _ _ heffect h ↦ codesForNamed_effect heffect h)
    (Contract.sound_start (K := issuingToNamed V) trivial) hc (by simp [CodesForNamed, Config.start])

/-- A door of a tenant that asks for consent, over the flow of `twoSubjects`. -/
def consentingDoor : Door where
  seen := {
    tenantEnabled := true
    verifyEmail := false
    registrationAllowed := false
    lifespans := ⟨300, 600, 300, 600⟩
    maxSessionsPerBrowser := 4
    loginTtlSeconds := 600
    authorizationCodeTtlSeconds := 60
    registrationPolicy := .other
    registrationOrigin := fun _ ↦ some .operator
    registeredAudiences := fun _ ↦ []
    emailVerified := fun _ ↦ true
    pendingActions := fun _ ↦ []
    consentContext := fun _ ↦ ⟨true, false, ["openid"], [], []⟩
    grantedScopeIds := fun _ _ ↦ []
    flow := twoSubjects }
  entries := []
  remembered := false
  codeHash := 70
  newSessionId := 6
  newSecretHash := 8

/-- The attempt of `oneAttempt`, with a hint that names this subject. -/
def hintedAttempt (hinted : SubjectId) : Rows
  | ⟨.subjects, _⟩ => some ⟨none⟩
  | ⟨.authenticationSessions, 1⟩ => (oneAttempt ⟨.authenticationSessions, 1⟩).map fun attempt ↦
      { attempt with
        pendingRequest := { attempt.pendingRequest with idTokenHintSubject := some hinted } }
  | _ => none

/-- Subject 1 signs in with a passkey as far as is said, and consent is then given. -/
def loginThenConsent (login : List (Event (submissions plainPrimitives))) :
    List (Event (submissions plainPrimitives)) :=
  .begin (SubmissionCall.login consentingDoor 1 presentPasskey (.steady twoSubjects)) :: login ++
  .begin (SubmissionCall.consent consentingDoor 1 true []) ::
  Schedule.runs _ 1 2 ++ .finish 1 :: Schedule.runs _ 1 1 ++ .finish 1 ::
  Schedule.runs _ 1 2 ++ .finish 1 :: Schedule.runs _ 1 10 ++ [.finish 1, .finish 1]

/-- As far as the commit of `advance`, and no further. -/
def advanced : List (Event (submissions plainPrimitives)) := Schedule.runs _ 0 9 ++ [.finish 0]

/-- As far as the consent page. -/
def asked : List (Event (submissions plainPrimitives)) :=
  advanced ++ Schedule.runs _ 0 1 ++ .finish 0 :: Schedule.runs _ 0 1 ++ [.finish 0, .finish 0]

/-- The attempt a call was about, and the session and the code it was answered with. -/
def codeOf (a : Answered (submissions plainPrimitives)) :
    Option (AuthSessionId × SessionId × TokenHash) :=
  match a.call.attempt, a.result with
  | some id, .ok (.answered (.redirect sessionId codeHash)) => some (id, sessionId, codeHash)
  | _, _ => none

theorem eq_of_codeOf {a : Answered (submissions plainPrimitives)} {id : AuthSessionId}
    {sessionId : SessionId} {codeHash : TokenHash} (h : codeOf a = some (id, sessionId, codeHash)) :
    a.call.attempt = some id ∧ a.result = .ok (.answered (.redirect sessionId codeHash)) := by
  unfold codeOf at h
  split at h
  case h_1 hcall hresult =>
    obtain ⟨rfl, rfl, rfl⟩ := Option.some.inj h
    exact ⟨hcall, hresult⟩
  case h_2 => simp at h

/-- What was answered with a code, whom code 70 is for, and whether the request names them. -/
structure IssuedCode where
  answered : List (Option (AuthSessionId × SessionId × TokenHash))
  subjectId : Option SubjectId
  named : Option Bool
  deriving DecidableEq

def issuedCode (c : Config (submissions plainPrimitives)) : IssuedCode where
  answered := c.history.map codeOf
  subjectId := (Rows.code c.rows 70).map fun code ↦ code.subjectId
  named := (Rows.code c.rows 70).bind fun code ↦ (Rows.authenticationSession c.rows 1).map
    fun attempt ↦ attempt.pendingRequest.names code.subjectId

theorem named_of_issuedTo {c : Config (submissions plainPrimitives)}
    (h : Rows.IssuedToNamed c.rows 1 70) : (issuedCode c).named = some true := by
  obtain ⟨attempt, code, hattempt, hcode, hnames⟩ := h
  simp [issuedCode, hattempt, hcode, hnames]

/-- The consent of a login for the subject named. -/
theorem code_for_named_subject_consent : ∃ c : Config (submissions plainPrimitives),
    issuedCode c = ⟨[some (1, 6, 70), none], some 1, some true⟩ ∧
      CodesForNamed c.rows c.history := by
  have hend : (Schedule.performAll (takesUpNamed _) oracle (Schedule.start (hintedAttempt 1))
      (loginThenConsent asked)).map (fun m ↦ issuedCode m.config) =
        some ⟨[some (1, 6, 70), none], some 1, some true⟩ := by decide
  obtain ⟨m, hm, hend⟩ := Option.map_eq_some_iff.mp hend
  exact ⟨m.config, hend, code_for_named_subject plainPrimitives (Schedule.reaches hm)⟩

/-- Consent is given between the two transactions of a login for another subject. -/
theorem code_for_another_subject : ¬∀ (V : Primitives) (rows : Rows)
    (c : Config (submissions V)), Reaches .free (.start rows) c →
      CodesForNamed c.rows c.history := by
  intro hall
  have hend : (Schedule.performAll .free oracle (Schedule.start (hintedAttempt 2))
      (loginThenConsent advanced)).map (fun m ↦ issuedCode m.config) =
        some ⟨[some (1, 6, 70)], some 1, some false⟩ := by decide
  obtain ⟨m, hm, hend⟩ := Option.map_eq_some_iff.mp hend
  have hanswered : m.config.history.map codeOf = [some (1, 6, 70)] :=
    congrArg IssuedCode.answered hend
  have hnamed : (issuedCode m.config).named = some false := congrArg IssuedCode.named hend
  obtain ⟨a, ha, hcode⟩ := List.mem_map.mp (hanswered ▸ List.mem_singleton_self _)
  obtain ⟨hcall, hresult⟩ := eq_of_codeOf hcode
  have hissued := hall _ _ m.config (Schedule.reaches hm) a ha 1 6 70 hcall hresult
  exact absurd ((named_of_issuedTo hissued).symm.trans hnamed) (by simp)

end Odudu.ProtocolOidc
