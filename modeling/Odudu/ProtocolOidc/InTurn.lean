import Odudu.AuthnFlows.AdvanceProgress
import Odudu.ProtocolOidc.Doors

/-!
# What the parts of a sign-in do by themselves

The weakest preconditions of the transactions that the doors are made of, under rules by
which nobody else commits: each leaves attempts to progress by the factors it is given,
and a login that is completed issues its code on a session established with them.
-/

set_option autoImplicit false

namespace Odudu.ProtocolOidc

open ReadCommitted Program AuthnFlows

section Statements

variable {owes : Failure → Rows → Prop} {s s₁ s' : Rows} {w : Writes database}
  {passed : Passes} {α : Type}
  {post : α → Writes database → Rows → Prop} {F : Rows → Prop}

/-- The rules of what runs by itself, over rows in which an attempt bound to nobody lists
nothing. -/
abbrev inTurn (owes : Failure → Rows → Prop) : Rules database Failure := .alone Unclaimed owes

/-- A fact about the rows that progress keeps. -/
def KeptByProgress (F : Rows → Prop) : Prop :=
  ∀ passed (s s' : Rows), Progresses passed s s' → F s → F s'

/-- The attempts have progressed, and the fact holds of what is seen. -/
structure Keeps (passed : Passes) (F : Rows → Prop) (s₁ s : Rows) : Prop where
  progresses : Progresses passed s₁ s
  fact : F s

theorem Keeps.refl (hF : F s) : Keeps passed F s s :=
  ⟨Ageing.Ages.refl (A := progress passed) s, hF⟩

theorem Keeps.trans (h : Keeps passed F s₁ s) (hF : KeptByProgress F)
    (hmore : Progresses passed s s') : Keeps passed F s₁ s' :=
  ⟨Ageing.Ages.trans (A := progress passed) h.progresses hmore, hF _ _ _ hmore h.fact⟩

theorem kept_true : KeptByProgress fun _ ↦ True := fun _ _ _ _ _ ↦ trivial

theorem wp_inTurn {op : Op} {f : op.Answer → Tx α}
    (h : ∀ a w', op.Answers (s.after w) a →
      s.after w' = (s.after w).after (op.effect (s.after w)) → (f a).wp (inTurn owes) w' s post) :
    (query op >>= f).wp (inTurn owes) w s post :=
  wp_query_alone h

theorem wp_read_inTurn {op : Op} (hop : op.reads = true) {f : op.Answer → Tx α}
    (h : ∀ a, op.Answers (s.after w) a → (f a).wp (inTurn owes) w s post) :
    (query op >>= f).wp (inTurn owes) w s post :=
  wp_reading_alone hop h

theorem Keeps.wp_query (h : Keeps passed F s₁ (s.after w)) (hF : KeptByProgress F) {op : Op}
    (hop : keepsAttempts op = true) {f : op.Answer → Tx α}
    (hnext : ∀ a w', op.Answers (s.after w) a →
      s.after w' = (s.after w).after (op.effect (s.after w)) →
      Keeps passed F s₁ (s.after w') → (f a).wp (inTurn owes) w' s post) :
    (query op >>= f).wp (inTurn owes) w s post :=
  wp_inTurn fun a w' ha hw' ↦
    hnext a w' ha hw' (hw' ▸ h.trans hF (progresses_effect hop _))

theorem wp_endTransaction_inTurn (hs : Unclaimed (s.after w)) {f : Unit → Tx α}
    (h : (f ()).wp (inTurn owes) Writes.nothing (s.after w) post) :
    (endTransaction >>= f).wp (inTurn owes) w s post :=
  wp_endTransaction_alone hs h

theorem wp_endReading_inTurn (hs : Unclaimed s) {f : Unit → Tx α}
    (h : (f ()).wp (inTurn owes) Writes.nothing s post) :
    (endTransaction >>= f).wp (inTurn owes) Writes.nothing s post :=
  wp_endTransaction_inTurn (w := Writes.nothing) hs h

theorem wp_throw_inTurn {e : Failure} (howes : ∀ e, owes e s) :
    (Program.throw e : Tx α).wp (inTurn owes) w s post :=
  wp_throw_alone (howes e)

theorem wp_transaction_inTurn {p : Tx α} {result : Except Failure α → Writes database → Rows → Prop}
    (h : p.wp (inTurn fun e s' ↦ result (.error e) Writes.nothing s') Writes.nothing s
      fun a w (s : Rows) ↦ Unclaimed (s.after w) ∧ result (.ok a) Writes.nothing (s.after w)) :
    p.transaction.wp (inTurn owes) Writes.nothing s result :=
  wp_transaction h

end Statements

section CompleteLogin

variable {owes : Failure → Rows → Prop} {s : Rows} {w : Writes database} {passed : Passes}
  {F : Rows → Prop}

/-- An SSO session that was established for this subject, with these factors. -/
def Established (sessionId : SessionId) (subjectId : SubjectId)
    (authenticators : List AuthenticatorName) (s : Rows) : Prop :=
  ∃ row, s.session sessionId = some row ∧ row.subjectId = subjectId ∧
    row.authenticators = authenticators

theorem kept_established (sessionId : SessionId) (subjectId : SubjectId)
    (authenticators : List AuthenticatorName) :
    KeptByProgress (Established sessionId subjectId authenticators) := by
  rintro passed s s' hprogress ⟨row, hrow, hsubject, hauthenticators⟩
  obtain ⟨row', hrow', hage⟩ := hprogress.session hrow
  exact ⟨row', hrow', hage.subjectId.trans hsubject, hage.authenticators.trans hauthenticators⟩

/-- A code for this subject, on this session. -/
def CodeOn (codeHash : TokenHash) (subjectId : SubjectId) (sessionId : SessionId)
    (s : Rows) : Prop :=
  ∃ code, s.code codeHash = some code ∧ code.subjectId = subjectId ∧
    code.sessionId = some sessionId

theorem wp_issueAuthorizationCode_inTurn (howes : ∀ e, owes e s) (hF : KeptByProgress F)
    {input : IssueAuthorizationCodeInput} {authTime now : Time} {sessionId : SessionId}
    (h : Keeps passed F s (s.after w)) :
    (issueAuthorizationCode input authTime now sessionId).wp (inTurn owes) w s
      fun _ w (s' : Rows) ↦ s' = s ∧ Keeps passed F s (s'.after w) ∧
        CodeOn input.codeHash input.subjectId sessionId (s'.after w) := by
  refine h.wp_query hF rfl fun created w₁ hcreated hw₁ h₁ ↦ ?_
  cases created with
  | true =>
    have hfree : (s.after w).code input.codeHash = none := by
      simpa [Op.Answers, Op.answer] using hcreated
    have hrow := Rows.after_insert (s := s.after w) (authorizationCode input authTime now sessionId) hfree
    exact ⟨rfl, h₁, _, hw₁ ▸ hrow, rfl, rfl⟩
  | false => exact wp_throw_inTurn howes

/-- A session that was not there before is admitted for the subject, with the factors it
was given. -/
theorem wp_admitSession_inTurn (howes : ∀ e, owes e s) {input : AdmitSessionInput}
    {transactionStart : Time} (h : Keeps passed (fun _ ↦ True) s (s.after w)) :
    (admitSession input transactionStart).wp (inTurn owes) w s fun _ w (s' : Rows) ↦ s' = s ∧
      s.session input.newSessionId = none ∧
      Keeps passed (Established input.newSessionId input.subjectId input.authenticators) s
        (s'.after w) := by
  refine h.wp_query kept_true rfl fun now w₁ _ _ h₁ ↦ ?_
  refine h₁.wp_query kept_true rfl fun live w₂ _ _ h₂ ↦ ?_
  refine h₂.wp_query kept_true rfl fun _ w₃ _ _ h₃ ↦ ?_
  refine h₃.wp_query kept_true rfl fun now' w₄ _ _ h₄ ↦ ?_
  refine h₄.wp_query kept_true rfl fun created w₅ hcreated hw₅ h₅ ↦ ?_
  cases created with
  | false => exact wp_throw_inTurn howes
  | true =>
    have hfree : (s.after w₄).session input.newSessionId = none := by
      simpa [Op.Answers, Op.answer] using hcreated
    have hbefore : s.session input.newSessionId = none := by
      cases hrow : s.session input.newSessionId with
      | none => rfl
      | some =>
        obtain ⟨row', hrow', -⟩ := h₄.progresses.session hrow
        simp [hrow'] at hfree
    have hrow := Rows.after_insert (s := s.after w₄) (establishedSession input transactionStart now') hfree
    exact ⟨rfl, hbefore, h₅.progresses, _, hw₅ ▸ hrow, rfl, rfl⟩

/-- The session a login is completed into, where it is not one it goes on with. -/
structure EstablishedAnew (input : CompleteLoginInput) (sessionId : SessionId) (s s' : Rows) :
    Prop where
  free : s.session sessionId = none
  established : Established sessionId input.session.subjectId input.session.authenticators s'

/-- A completed login leaves attempts to progress by nothing; the code it issues is on a
session established with what it was given, unless on one it goes on with. -/
theorem wp_completeLogin_inTurn (howes : ∀ e, owes e s) (input : CompleteLoginInput) :
    (completeLogin input).wp (inTurn owes) Writes.nothing s fun outcome w (s' : Rows) ↦ s' = s ∧
      Progresses passed s (s'.after w) ∧
      ∀ sessionId codeHash, outcome = .issued sessionId codeHash →
        CodeOn codeHash input.code.subjectId sessionId (s'.after w) ∧
        (input.reuseSession = none → EstablishedAnew input sessionId s (s'.after w)) := by
  have h : Keeps passed (fun _ ↦ True) s (s.after Writes.nothing) := .refl trivial
  rw [completeLogin]
  refine h.wp_query kept_true rfl fun now w₁ _ _ h₁ ↦ ?_
  refine h₁.wp_query kept_true rfl fun subject w₂ _ _ h₂ ↦ ?_
  split
  case isTrue => exact ⟨rfl, h₂.progresses, by simp⟩
  case isFalse =>
    refine h₂.wp_query kept_true rfl fun consumedAt w₃ _ _ h₃ ↦ ?_
    refine h₃.wp_query kept_true rfl fun consumed w₄ _ _ h₄ ↦ ?_
    split
    case isTrue => exact ⟨rfl, h₄.progresses, by simp⟩
    case isFalse =>
      split
      case h_1 sessionId authTime hreuse =>
        refine h₄.wp_query kept_true rfl fun _ w₅ _ _ h₅ ↦ ?_
        rw [wp_bind]
        refine wp_mono ?_ (wp_issueAuthorizationCode_inTurn howes kept_true h₅)
        rintro _ w₆ _ ⟨rfl, h₆, hcode⟩
        refine ⟨rfl, h₆.progresses, ?_⟩
        rintro _ _ ⟨rfl, rfl⟩
        exact ⟨hcode, by simp [hreuse]⟩
      case h_2 =>
        rw [wp_bind]
        refine wp_mono ?_ (wp_admitSession_inTurn howes h₄)
        rintro _ w₅ _ ⟨rfl, hfree, h₅⟩
        rw [wp_bind]
        refine wp_mono ?_ (wp_issueAuthorizationCode_inTurn howes (kept_established _ _ _) h₅)
        rintro _ w₆ _ ⟨rfl, h₆, hcode⟩
        refine ⟨rfl, h₆.progresses, ?_⟩
        rintro _ _ ⟨rfl, rfl⟩
        exact ⟨hcode, fun _ ↦ ⟨hfree, h₆.fact⟩⟩

end CompleteLogin

section Marking

variable {owes : Failure → Rows → Prop} {s s₁ : Rows} {w : Writes database} {passed : Passes}
  {id : AuthSessionId}  {u : SubjectId} {sessionId : SessionId}

theorem kept_boundTo (id : AuthSessionId) (u : SubjectId) :
    KeptByProgress fun s ↦ boundTo s id = some u :=
  fun _ _ _ hprogress hbound ↦ hprogress.bound hbound

theorem wp_recordAllSatisfied_inTurn {authenticators : List AuthenticatorName}
    (hpassed : ∀ a ∈ authenticators, passed id a u)
    (h : Keeps passed (fun s ↦ boundTo s id = some u) s₁ (s.after w)) :
    (recordAllSatisfied id authenticators).wp (inTurn owes) w s fun _ w (s' : Rows) ↦ s' = s ∧
      Keeps passed (fun s ↦ boundTo s id = some u) s₁ (s'.after w) := by
  induction authenticators generalizing w with
  | nil => exact ⟨rfl, h⟩
  | cons _ _ ih =>
    refine wp_inTurn fun _ w₁ _ hw₁ ↦ ih (fun a ha ↦ hpassed a (List.mem_cons_of_mem _ ha)) ?_
    rw [hw₁]
    refine h.trans (kept_boundTo id u) (progresses_recordSatisfied (fun row hrow ↦ ?_)
      (hpassed _ List.mem_cons_self))
    exact (boundTo_of_some hrow).symm.trans h.fact

/-- A session marks an attempt that is there, bound to nobody or to its subject. -/
theorem wp_markSessionAuthenticated_inTurn {authenticators : List AuthenticatorName}
    (hpassed : ∀ a ∈ authenticators, passed id a u)
    (hthere : ((s.after w).authenticationSession id).isSome)
    (hfree : boundTo (s.after w) id = none ∨ boundTo (s.after w) id = some u)
    (h : Keeps passed (fun _ ↦ True) s₁ (s.after w)) :
    (markSessionAuthenticated id u authenticators).wp (inTurn owes) w s fun _ w (s' : Rows) ↦
      s' = s ∧ Progresses passed s₁ (s'.after w) := by
  refine wp_inTurn fun _ w₁ _ hw₁ ↦ ?_
  obtain ⟨row, hrow⟩ := Option.isSome_iff_exists.mp hthere
  have h₁ : Keeps passed (fun s ↦ boundTo s id = some u) s₁ (s.after w₁) := by
    rw [hw₁]
    exact ⟨(h.trans kept_true (progresses_bindSubject hfree)).progresses,
      boundTo_bindSubject hrow⟩
  rw [wp_bind]
  refine wp_mono ?_ (wp_recordAllSatisfied_inTurn hpassed h₁)
  rintro _ w₂ _ ⟨rfl, h₂⟩
  refine h₂.wp_query (kept_boundTo id u) rfl fun now w₃ _ _ h₃ ↦ ?_
  rintro (s' : Rows) _ ⟨rfl, -⟩ - -
  have hlast : Progresses passed (s'.after w₃) ((s'.after w₃).after (Op.effect
      (.authenticationSessionRecordAuthenticated id (some now)) (s'.after w₃))) :=
    progresses_effect rfl _
  refine ⟨rfl, ?_⟩
  rw [after_andThen]
  exact (h₃.trans (kept_boundTo id u) hlast).progresses

theorem wp_resolveSessions_inTurn {entries : List SessionEntry} {lifespans : SessionLifespans} :
    (resolveSessions entries lifespans).wp (inTurn owes) w s fun sessions w' (s' : Rows) ↦
      s' = s ∧ w' = w ∧
        ∀ sessionId row, (sessionId, row) ∈ sessions → (s.after w).session sessionId = some row := by
  refine wp_read_inTurn rfl fun now _ ↦ ?_
  rintro s' sessions ⟨rfl, -⟩ - hsessions
  refine ⟨rfl, Writes.andThen_nothing w, fun sessionId row hmem ↦ ?_⟩
  exact Op.mem_liveByEntries (hsessions.mem_iff.mp hmem)

theorem mem_of_chosenAmong {sessions : List (SessionId × Session)} {row : Session}
    (h : chosenAmong sessions sessionId = some row) : (sessionId, row) ∈ sessions := by
  obtain ⟨⟨id, found⟩, hfound, rfl⟩ := Option.map_eq_some_iff.mp h
  obtain rfl : id = sessionId := by simpa using List.find?_some hfound
  exact List.mem_of_find?_eq_some hfound

theorem wp_pendingSession_inTurn :
    (pendingSession id).wp (inTurn owes) w s fun pending w' (s' : Rows) ↦
      s' = s ∧ w' = w ∧ ∀ request, pending = some request →
        ∃ row, (s.after w).authenticationSession id = some row ∧ row.pendingRequest = request := by
  refine wp_read_inTurn rfl fun found hfound ↦ wp_read_inTurn rfl fun now _ ↦ ⟨rfl, rfl, ?_⟩
  obtain rfl := Option.some.inj hfound
  intro request hrequest
  obtain ⟨row, hrow, rfl⟩ := Option.map_eq_some_iff.mp hrequest
  exact ⟨row, (Option.filter_eq_some_iff.mp hrow).1, rfl⟩

theorem wp_authenticatedSession_inTurn {seen : Lookups} :
    (authenticatedSession seen id).wp (inTurn owes) w s fun authenticated w' (s' : Rows) ↦
      s' = s ∧ w' = w ∧ ∀ u authenticators, authenticated = some (u, authenticators) →
        authenticatorsSatisfyFlow seen u authenticators = true ∧
          ∃ row, (s.after w).authenticationSession id = some row ∧ row.subjectId = some u ∧
            row.satisfied = authenticators := by
  refine wp_read_inTurn rfl fun found hfound ↦ wp_read_inTurn rfl fun now _ ↦ ?_
  obtain rfl := Option.some.inj hfound
  cases hrow : (s.after w).authenticationSession id with
  | none => exact ⟨rfl, rfl, by simp⟩
  | some row =>
    cases hsubject : row.subjectId with
    | none =>
      simp only [hsubject]
      exact ⟨rfl, rfl, by simp⟩
    | some =>
      simp only [hsubject]
      split
      case isTrue hready =>
        refine ⟨rfl, rfl, ?_⟩
        rintro _ _ ⟨rfl, rfl⟩
        exact ⟨(Bool.and_eq_true _ _ ▸ hready).2, row, rfl, hsubject, rfl⟩
      case isFalse => exact ⟨rfl, rfl, by simp⟩

theorem wp_startAuthentication_inTurn (howes : ∀ e, owes e s) {ttlSeconds : Time} {request : PendingRequest} :
    (startAuthentication id ttlSeconds request).wp (inTurn owes) Writes.nothing s
      fun _ w (s' : Rows) ↦ s' = s ∧ Progresses passed s (s'.after w) ∧
        s.authenticationSession id = none ∧
        ∃ row, (s'.after w).authenticationSession id = some row ∧ row.subjectId = none := by
  refine wp_read_inTurn rfl fun now _ ↦ wp_inTurn fun created w₁ hcreated hw₁ ↦ ?_
  cases created with
  | false => exact wp_throw_inTurn howes
  | true =>
    have hfree : s.authenticationSession id = none := by
      simpa [Op.Answers, Op.answer] using hcreated
    have hprogress : Progresses passed s (s.after (Op.effect (.authenticationSessionCreate id
        (startedSession request (now + ttlSeconds))) s)) := progresses_effect rfl _
    refine ⟨rfl, hw₁ ▸ hprogress, hfree, startedSession request (now + ttlSeconds), ?_, rfl⟩
    rw [hw₁]
    exact Rows.after_insert _ hfree

/-- The factors of a session, on one attempt and for its subject. -/
def carriedOn (id : AuthSessionId) (session : ReusableSession) : Passes :=
  fun id' a u ↦ id' = id ∧ u = session.subjectId ∧ a ∈ session.authenticators

/-- A promotion parks an attempt that was not there before, and marks that one. -/
theorem wp_promoteToParkedRequest_inTurn (hs : Unclaimed s) {ttlSeconds : Time}
    {request : PendingRequest} {session : ReusableSession} :
    (promoteToParkedRequest id ttlSeconds request session).wp (inTurn owes) Writes.nothing s
      fun parked w (s' : Rows) ↦ w = Writes.nothing ∧
        Progresses (fun id' a u ↦ s.authenticationSession id = none ∧ parked = true ∧
          carriedOn id session id' a u) s s' := by
  rw [promoteToParkedRequest, wp_bind]
  refine wp_transaction_inTurn (wp_mono ?_ (@wp_startAuthentication_inTurn _ s
    (carriedOn id session) id (fun e ↦ ⟨rfl, Ageing.Ages.refl (A := progress _) s⟩) _ _))
  rintro _ w (s : Rows) ⟨rfl, hprogress, hfree, row, hrow, hnobody⟩
  have hs' := hs.progress hprogress
  refine ⟨hs', ?_⟩
  have hkeeps : Keeps (carriedOn id session) (fun _ ↦ True) s ((s.after w).after Writes.nothing) :=
    ⟨hprogress, trivial⟩
  dsimp only
  rw [wp_bind]
  refine wp_mono ?_ (wp_markSessionAuthenticated_inTurn (fun a ha ↦ ⟨rfl, rfl, ha⟩)
    (Option.isSome_iff_exists.mpr ⟨row, hrow⟩) (Or.inl ((boundTo_of_some hrow).trans hnobody))
    hkeeps)
  rintro _ w₁ _ ⟨rfl, hmarked⟩
  refine wp_endTransaction_inTurn (hs.progress hmarked) ⟨rfl, hmarked.mono ?_⟩
  exact fun _ _ _ hcarried ↦ ⟨hfree, rfl, hcarried⟩

/-- The factor an enrolment passes. -/
def enrolledBy (id : AuthSessionId) (u : SubjectId) (outcome : TotpEnrolmentOutcome) : Passes :=
  fun id' a u' ↦ outcome = .enrolled ∧ id' = id ∧ a = .otp ∧ u' = u

theorem wp_completeTotpEnrolment_inTurn {V : Primitives} {seen : Lookups}
    {row : AuthenticationSession} (hrow : s.authenticationSession id = some row)
    (hsubject : row.subjectId = some u) {secret code : String} :
    (completeTotpEnrolment V seen id u secret code).wp (inTurn owes) Writes.nothing s
      fun outcome w (s' : Rows) ↦ s' = s ∧ Progresses (enrolledBy id u outcome) s (s'.after w) := by
  have hnothing : ∀ passed, Progresses passed s (s.after Writes.nothing) := fun passed ↦
    Ageing.Ages.refl (A := progress passed) s
  rw [completeTotpEnrolment]
  split
  case isTrue => exact ⟨rfl, hnothing _⟩
  case isFalse =>
    split
    case isTrue => exact ⟨rfl, hnothing _⟩
    case isFalse =>
      refine wp_read_inTurn rfl fun now _ ↦ ?_
      split
      case h_1 => exact ⟨rfl, hnothing _⟩
      case h_2 =>
        refine wp_inTurn fun _ w₁ _ hw₁ ↦ ⟨rfl, ?_⟩
        rw [hw₁]
        refine progresses_recordSatisfied (fun row' hrow' ↦ ?_) ⟨rfl, rfl, rfl, rfl⟩
        obtain rfl := Option.some.inj (hrow.symm.trans hrow')
        exact hsubject

end Marking

end Odudu.ProtocolOidc
