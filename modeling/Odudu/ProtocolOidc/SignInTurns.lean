import Odudu.AuthnFlows.SubjectBinding
import Odudu.ProtocolOidc.InTurn

/-!
# One attempt, one operation after another

The operations on attempts made in turn: a submission, a login that one of them finished
completed, a choice of the account chooser, a session promoted, an authenticator app
enrolled, a reset, and the consent that completes a login.  The chooser's choice binds the
attempt to the subject of the session chosen and adds that session's factors to what the
attempt lists, whoever the attempt was bound to (`halfFinished_run`).

Over every sequence in which a choice meets an attempt bound to nobody or to the chosen
subject, what an attempt lists, and what an SSO session is established with, was passed by
its subject on that attempt or carried from a session of that subject
(`factors_presented_in_turns`).
-/

set_option autoImplicit false

namespace Odudu.ProtocolOidc

open ReadCommitted Program AuthnFlows

/-- An operation on an attempt. -/
inductive SignInCall where
  | advance (id : AuthSessionId) (input : AdvanceInput) (seen : Seen)
  /-- The login that a submission finished, completed. -/
  | complete (id : AuthSessionId) (subjectId : SubjectId)
      (authenticators : List AuthenticatorName) (input : CompleteLoginInput)
  /-- The account chooser posted, with the cookies of its browser. -/
  | select (id : AuthSessionId) (entries : List SessionEntry) (lifespans : SessionLifespans)
      (sessionId : SessionId)
  /-- A request that a live session answers, parked for what is still owed. -/
  | promote (id : AuthSessionId) (ttlSeconds : Time) (request : PendingRequest)
      (entries : List SessionEntry) (lifespans : SessionLifespans) (sessionId : SessionId)
  /-- The `configure-totp` action submitted. -/
  | enrolTotp (id : AuthSessionId) (atGate seen : Lookups) (secret code : String)
  | reset (id : AuthSessionId)
  /-- The consent given, and the login completed. -/
  | consent (id : AuthSessionId) (seen : Lookups) (input : CompleteLoginInput)

inductive SignInOutcome where
  | advanced (r : Advanced)
  | completed (outcome : CompleteLoginOutcome)
  | selected (sessionId : SessionId)
  | enrolment (subjectId : SubjectId) (outcome : TotpEnrolmentOutcome)
  | wasReset
  /-- Nobody to act for. -/
  | unauthenticated

/-- The session of this browser that was chosen. -/
def chosenSession (entries : List SessionEntry) (lifespans : SessionLifespans)
    (sessionId : SessionId) : Tx (Option Session) := do
  let sessions ← resolveSessions entries lifespans
  pure (chosenAmong sessions sessionId)

/-- The chooser's choice, as far as it marks the attempt. -/
def selectAccount (id : AuthSessionId) (entries : List SessionEntry)
    (lifespans : SessionLifespans) (sessionId : SessionId) : Tx SignInOutcome := do
  let pending ← pendingSession id
  endTransaction
  let chosen ← chosenSession entries lifespans sessionId
  endTransaction
  match pending, chosen with
  | some _, some session => do
    markSessionAuthenticated id session.subjectId session.authenticators
    pure (.selected sessionId)
  | _, _ => pure .unauthenticated

/-- A live session promoted to an attempt of its own. -/
def promoteSession (id : AuthSessionId) (ttlSeconds : Time) (request : PendingRequest)
    (entries : List SessionEntry) (lifespans : SessionLifespans) (sessionId : SessionId) :
    Tx SignInOutcome := do
  let chosen ← chosenSession entries lifespans sessionId
  endTransaction
  match chosen with
  | none => pure .unauthenticated
  | some session => do
    let parked ← promoteToParkedRequest id ttlSeconds request
      (toReusableSession (sessionId, session))
    pure (if parked then .selected sessionId else .unauthenticated)

/-- An authenticator app enrolled for whom the attempt answers. -/
def enrolTotp (V : Primitives) (id : AuthSessionId) (atGate seen : Lookups)
    (secret code : String) : Tx SignInOutcome := do
  let authenticated ← authenticatedSession atGate id
  endTransaction
  match authenticated with
  | none => pure .unauthenticated
  | some (subjectId, _) => do
    let outcome ← completeTotpEnrolment V seen id subjectId secret code
    pure (.enrolment subjectId outcome)

/-- The input of a completion, for whom the attempt answers. -/
def CompleteLoginInput.for (input : CompleteLoginInput) (id : AuthSessionId)
    (subjectId : SubjectId) (authenticators : List AuthenticatorName) : CompleteLoginInput where
  authSessionId := id
  reuseSession := input.reuseSession
  code := { input.code with subjectId }
  session := { input.session with subjectId, authenticators }

def completeFor (id : AuthSessionId) (subjectId : SubjectId)
    (authenticators : List AuthenticatorName) (input : CompleteLoginInput) :
    Tx SignInOutcome := do
  let outcome ← completeLogin (input.for id subjectId authenticators)
  pure (.completed outcome)

/-- A login completed for whom the attempt answers. -/
def consent (id : AuthSessionId) (seen : Lookups) (input : CompleteLoginInput) :
    Tx SignInOutcome := do
  let authenticated ← authenticatedSession seen id
  endTransaction
  match authenticated with
  | none => pure .unauthenticated
  | some (subjectId, authenticators) => completeFor id subjectId authenticators input

namespace SignInCall

def body (V : Primitives) : SignInCall → Tx SignInOutcome
  | advance id input seen => do
    let r ← Odudu.AuthnFlows.advance V seen id input
    pure (.advanced r)
  | complete id subjectId authenticators input => completeFor id subjectId authenticators input
  | select id entries lifespans sessionId => selectAccount id entries lifespans sessionId
  | promote id ttlSeconds request entries lifespans sessionId =>
    promoteSession id ttlSeconds request entries lifespans sessionId
  | enrolTotp id atGate seen secret code =>
    Odudu.ProtocolOidc.enrolTotp V id atGate seen secret code
  | reset id => do
    resetAuthenticationProgress id
    pure .wasReset
  | consent id seen input => Odudu.ProtocolOidc.consent id seen input

/-- The attempt a call is made on. -/
def attempt : SignInCall → AuthSessionId
  | advance id _ _ | complete id _ _ _ | select id _ _ _ | promote id _ _ _ _ _
  | enrolTotp id _ _ _ _ | reset id | consent id _ _ => id

/-- The call establishes a session, where it completes a login. -/
def establishes : SignInCall → Bool
  | complete _ _ _ input | consent _ _ input => input.reuseSession.isNone
  | _ => false

end SignInCall

/-- The operations on attempts. -/
abbrev signIns (V : Primitives) : System where
  db := database
  Call := SignInCall
  Outcome := SignInOutcome
  Failure := Failure
  body := SignInCall.body V

variable {V : Primitives}

/-- What a call was answered finished a login for this subject, with these factors. -/
def finishes (id : AuthSessionId) (subjectId : SubjectId) (authenticators : List AuthenticatorName)
    (answer : Answered (signIns V)) : Bool :=
  match answer.call, answer.result with
  | .advance id' _ _, .ok (.advanced r) =>
    decide (id' = id ∧ r.outcome = .success subjectId authenticators)
  | _, _ => false

/-- A login is completed for whom a submission finished it. -/
def mayComplete (call : SignInCall) (history : List (Answered (signIns V))) : Prop :=
  match call with
  | .complete id subjectId authenticators _ =>
    history.any (finishes id subjectId authenticators) = true
  | _ => True

/-- A choice may be made on an attempt bound to nobody or to the subject chosen. -/
def mayChoose (call : SignInCall) (s : Rows) : Prop :=
  match call with
  | .select id _ _ sessionId =>
    boundTo s id = none ∨ boundTo s id = (s.session sessionId).map fun row ↦ row.subjectId
  | _ => True

instance (call : SignInCall) (history : List (Answered (signIns V))) :
    Decidable (mayComplete call history) := by
  unfold mayComplete
  split <;> infer_instance

instance (call : SignInCall) (s : Rows) : Decidable (mayChoose call s) := by
  unfold mayChoose
  split <;> infer_instance

/-- The factors that an answer presents, and for whom. -/
def SignInOutcome.presents (s : Rows) :
    SignInOutcome → AuthenticatorName → SubjectId → Prop
  | advanced r, a, u => (a, u) ∈ r.allowed
  | selected sessionId, a, u =>
    ∃ row, s.session sessionId = some row ∧ row.subjectId = u ∧ a ∈ row.authenticators
  | enrolment subjectId .enrolled, a, u => a = .otp ∧ u = subjectId
  | _, _, _ => False

/-- The factor was passed on the attempt by the subject, or carried to it from a session of
the subject, in what was answered. -/
def Presented (s : Rows) (history : List (Answered (signIns V))) : Passes :=
  fun id a u ↦ ∃ answer ∈ history, ∃ outcome, answer.call.attempt = id ∧
    answer.result = .ok outcome ∧ outcome.presents s a u

/-- What attempts list, what finished logins name, and what sessions were established with
was presented, on that attempt and by that subject. -/
structure FactorsPresented (s : Rows) (history : List (Answered (signIns V))) : Prop where
  listed : ListedBy (Presented s history) s
  finished : ∀ answer ∈ history, ∀ id u authenticators,
    finishes id u authenticators answer = true →
      ∀ a ∈ authenticators, Presented s history id a u
  established : ∀ answer ∈ history, ∀ sessionId codeHash, answer.call.establishes = true →
    answer.result = .ok (.completed (.issued sessionId codeHash)) →
      ∃ row, s.session sessionId = some row ∧
        ∀ a ∈ row.authenticators, Presented s history answer.call.attempt a row.subjectId

section Turn

variable {s s' : Rows} {call : SignInCall} {outcome : SignInOutcome}

/-- The factors an answered call presents on its attempt. -/
def presentedBy (call : SignInCall) (outcome : SignInOutcome) (s : Rows) : Passes :=
  fun id a u ↦ id = call.attempt ∧ outcome.presents s a u

/-- What an answered call made of the rows, and what it reports. -/
structure Turned (call : SignInCall) (outcome : SignInOutcome) (s s' : Rows) : Prop where
  moved : Progresses (presentedBy call outcome s') s s' ∨
    ∃ id, s' = s.after (Op.effect (.authenticationSessionResetProgress id) s)
  finished : ∀ r u authenticators, outcome = .advanced r →
    r.outcome = .success u authenticators → ∀ a ∈ authenticators,
      (a, u) ∈ r.allowed ∨ boundTo s call.attempt = some u ∧ a ∈ satisfiedIn s call.attempt
  established : ∀ sessionId codeHash, outcome = .completed (.issued sessionId codeHash) →
    call.establishes = true →
      ∃ u authenticators, Established sessionId u authenticators s' ∧
        ((∃ input, call = .complete call.attempt u authenticators input) ∨
          boundTo s call.attempt = some u ∧ satisfiedIn s call.attempt = authenticators)

/-- A call that reports neither a finished login nor a completed one. -/
theorem Turned.of_moved (hmoved : Progresses (presentedBy call outcome s') s s')
    (hfinished : ∀ r, outcome ≠ .advanced r) (hcompleted : ∀ c, outcome ≠ .completed c) :
    Turned call outcome s s' where
  moved := Or.inl hmoved
  finished := fun r _ _ h ↦ absurd h (hfinished r)
  established := fun _ _ h ↦ absurd h (hcompleted _)

theorem progresses_nothing {passed : Passes} (s : Rows) :
    Progresses passed s (s.after Writes.nothing) :=
  Ageing.Ages.refl (A := progress passed) s

/-- What throws leaves the rows as they were. -/
abbrev unchanged (s₀ : Rows) : Failure → Rows → Prop := fun _ s' ↦ s' = s₀

/-- The rows a call leaves, as its postcondition. -/
abbrev TurnPost (call : SignInCall) (s₀ : Rows) :
    SignInOutcome → Writes database → Rows → Prop :=
  fun outcome w s ↦ Turned call outcome s₀ (s.after w)

variable {sessionId : SessionId} {lifespans : SessionLifespans} {entries : List SessionEntry}

theorem wp_chosenSession_inTurn {owes : Failure → Rows → Prop} {w : Writes database} :
    (chosenSession entries lifespans sessionId).wp (inTurn owes) w s fun chosen w' (s' : Rows) ↦
      s' = s ∧ w' = w ∧ ∀ row, chosen = some row → (s.after w).session sessionId = some row := by
  rw [chosenSession, wp_bind]
  refine wp_mono ?_ wp_resolveSessions_inTurn
  rintro sessions _ _ ⟨rfl, rfl, hsessions⟩
  exact ⟨rfl, rfl, fun row hchosen ↦ hsessions _ _ (mem_of_chosenAmong hchosen)⟩

theorem wp_unauthenticated_inTurn {s₀ : Rows} (h : s = s₀) :
    (pure .unauthenticated : Tx SignInOutcome).wp (inTurn (unchanged s₀)) Writes.nothing s
      (TurnPost call s₀) := by
  subst h
  exact .of_moved (progresses_nothing s) (by simp) (by simp)

variable {input : CompleteLoginInput}

/-- What a completed login leaves, for whom the attempt or the submission answers. -/
theorem wp_completeFor_inTurn {u : SubjectId} {authenticators : List AuthenticatorName}
    (hcall : call.establishes = true → input.reuseSession = none)
    (hfrom : (∃ input, call = .complete call.attempt u authenticators input) ∨
      boundTo s call.attempt = some u ∧ satisfiedIn s call.attempt = authenticators) :
    (completeFor call.attempt u authenticators input).wp (inTurn (unchanged s)) Writes.nothing
      s (TurnPost call s) := by
  rw [completeFor, wp_bind]
  refine wp_mono ?_ (@wp_completeLogin_inTurn (unchanged s) s (fun _ _ _ ↦ False) (fun _ ↦ rfl) _)
  rintro outcome w _ ⟨rfl, hprogress, hissued⟩
  refine ⟨Or.inl (hprogress.mono fun _ _ _ h ↦ h.elim), by simp, ?_⟩
  rintro sessionId codeHash ⟨rfl⟩ hestablishes
  have hanew := (hissued sessionId codeHash rfl).2 (hcall hestablishes)
  exact ⟨u, authenticators, hanew.established, hfrom⟩

theorem wp_consent_inTurn (hs : Unclaimed s) {id : AuthSessionId} {seen : Lookups} :
    (consent id seen input).wp (inTurn (unchanged s)) Writes.nothing s
      (TurnPost (.consent id seen input) s) := by
  rw [consent, wp_bind]
  refine wp_mono ?_ wp_authenticatedSession_inTurn
  rintro authenticated _ _ ⟨rfl, rfl, hauthenticated⟩
  refine wp_endReading_inTurn hs ?_
  cases authenticated with
  | none => exact wp_unauthenticated_inTurn rfl
  | some found =>
    obtain ⟨u, authenticators⟩ := found
    obtain ⟨-, row, hrow, hsubject, hsatisfied⟩ := hauthenticated u authenticators rfl
    have hcall : (SignInCall.consent id seen input).establishes = true →
        input.reuseSession = none := by
      simp [SignInCall.establishes]
    refine wp_completeFor_inTurn hcall (Or.inr ⟨?_, ?_⟩)
    · exact (boundTo_of_some hrow).trans hsubject
    · exact (satisfiedIn_of_some hrow).trans hsatisfied

/-- The factors of a session that was chosen are presented for its subject. -/
theorem presents_selected {session : Session}
    (hsession : s.session sessionId = some session) {passed : Passes}
    (hprogress : Progresses passed s s') {a : AuthenticatorName}
    (ha : a ∈ session.authenticators) :
    (SignInOutcome.selected sessionId).presents s' a session.subjectId := by
  obtain ⟨row, hrow, hage⟩ := hprogress.session hsession
  exact ⟨row, hrow, hage.subjectId, hage.authenticators ▸ ha⟩

theorem wp_selectAccount_inTurn (hs : Unclaimed s) {id : AuthSessionId}
    (hmay : mayChoose (.select id entries lifespans sessionId) s) :
    (selectAccount id entries lifespans sessionId).wp (inTurn (unchanged s)) Writes.nothing s
      (TurnPost (.select id entries lifespans sessionId) s) := by
  rw [selectAccount, wp_bind]
  refine wp_mono ?_ wp_pendingSession_inTurn
  rintro pending _ _ ⟨rfl, rfl, hpending⟩
  refine wp_endReading_inTurn hs ?_
  rw [wp_bind]
  refine wp_mono ?_ wp_chosenSession_inTurn
  rintro chosen _ (s : Rows) ⟨rfl, rfl, hchosen⟩
  refine wp_endReading_inTurn hs ?_
  cases pending with
  | none => exact wp_unauthenticated_inTurn rfl
  | some request =>
    cases chosen with
    | none => exact wp_unauthenticated_inTurn rfl
    | some session =>
      obtain ⟨row, hrow, -⟩ := hpending request rfl
      have hsession : s.session sessionId = some session := hchosen session rfl
      rw [mayChoose, hsession] at hmay
      have hkeeps : Keeps (carriedOn id (toReusableSession (sessionId, session))) (fun _ ↦ True) s
          (s.after Writes.nothing) := .refl trivial
      dsimp only
      rw [wp_bind]
      refine wp_mono ?_ (wp_markSessionAuthenticated_inTurn (fun a ha ↦ ⟨rfl, rfl, ha⟩)
        (Option.isSome_iff_exists.mpr ⟨row, hrow⟩) hmay hkeeps)
      rintro _ w _ ⟨rfl, hprogress⟩
      refine .of_moved (hprogress.mono ?_) (by simp) (by simp)
      rintro _ a _ ⟨rfl, rfl, ha⟩
      exact ⟨rfl, presents_selected hsession hprogress ha⟩

theorem wp_promoteSession_inTurn (hs : Unclaimed s) {id : AuthSessionId} {ttlSeconds : Time}
    {request : PendingRequest} :
    (promoteSession id ttlSeconds request entries lifespans sessionId).wp (inTurn (unchanged s))
      Writes.nothing s
      (TurnPost (.promote id ttlSeconds request entries lifespans sessionId) s) := by
  rw [promoteSession, wp_bind]
  refine wp_mono ?_ wp_chosenSession_inTurn
  rintro chosen _ (s : Rows) ⟨rfl, rfl, hchosen⟩
  refine wp_endReading_inTurn hs ?_
  cases chosen with
  | none => exact wp_unauthenticated_inTurn rfl
  | some session =>
    have hsession : s.session sessionId = some session := hchosen session rfl
    dsimp only
    rw [wp_bind]
    refine wp_mono ?_ (wp_promoteToParkedRequest_inTurn hs)
    rintro parked _ (s' : Rows) ⟨rfl, hprogress⟩
    cases parked with
    | false =>
      refine .of_moved (hprogress.mono ?_) (by simp) (by simp)
      exact fun _ _ _ hcarried ↦ absurd hcarried.2.1 (by simp)
    | true =>
      refine .of_moved (hprogress.mono ?_) (by simp) (by simp)
      rintro _ a _ ⟨-, -, rfl, rfl, ha⟩
      exact ⟨rfl, presents_selected hsession hprogress ha⟩

theorem wp_enrolTotp_inTurn (hs : Unclaimed s) {id : AuthSessionId} {atGate seen : Lookups}
    {secret code : String} :
    (enrolTotp V id atGate seen secret code).wp (inTurn (unchanged s)) Writes.nothing s
      (TurnPost (.enrolTotp id atGate seen secret code) s) := by
  rw [enrolTotp, wp_bind]
  refine wp_mono ?_ wp_authenticatedSession_inTurn
  rintro authenticated _ _ ⟨rfl, rfl, hauthenticated⟩
  refine wp_endReading_inTurn hs ?_
  cases authenticated with
  | none => exact wp_unauthenticated_inTurn rfl
  | some found =>
    obtain ⟨u, authenticators⟩ := found
    obtain ⟨-, row, hrow, hsubject, -⟩ := hauthenticated u authenticators rfl
    dsimp only
    rw [wp_bind]
    refine wp_mono ?_ (wp_completeTotpEnrolment_inTurn hrow hsubject)
    rintro outcome w _ ⟨rfl, hprogress⟩
    refine .of_moved (hprogress.mono ?_) (by simp) (by simp)
    rintro _ a _ ⟨rfl, rfl, rfl, rfl⟩
    exact ⟨rfl, rfl, rfl⟩

/-- A call that does not submit to the flow moves attempts by what it presents. -/
theorem wp_body_inTurn (hs : Unclaimed s) (hmay : mayChoose call s)
    (hadvance : ∀ id input seen, call ≠ .advance id input seen) :
    (call.body V).wp (inTurn (unchanged s)) Writes.nothing s (TurnPost call s) := by
  cases call with
  | advance id input seen => exact absurd rfl (hadvance id input seen)
  | complete id subjectId authenticators input =>
    have hcall : (SignInCall.complete id subjectId authenticators input).establishes = true →
        input.reuseSession = none := by
      simp [SignInCall.establishes]
    exact wp_completeFor_inTurn hcall (Or.inl ⟨input, rfl⟩)
  | select => exact wp_selectAccount_inTurn hs hmay
  | promote => exact wp_promoteSession_inTurn hs
  | enrolTotp => exact wp_enrolTotp_inTurn hs
  | reset id =>
    refine wp_inTurn fun _ w _ hw ↦ ?_
    refine ⟨Or.inr ⟨id, hw⟩, by simp, by simp⟩
  | consent => exact wp_consent_inTurn hs

/-- What a call that is made by itself made of the rows. -/
theorem turned_of_ends {result : Except Failure SignInOutcome} (hs : Unclaimed s)
    (hmay : mayChoose call s) (h : (call.body V).Ends Writes.nothing s result s') :
    (∀ outcome, result = .ok outcome → Turned call outcome s s') ∧
      ∀ failure, result = .error failure → s' = s := by
  by_cases hadvance : ∃ id input seen, call = .advance id input seen
  · obtain ⟨id, input, seen, rfl⟩ := hadvance
    have hwp : (SignInCall.body V (.advance id input seen)).wp
        (.alone (fun s₁ ↦ s₁ = s ∧ Unclaimed s₁) fun _ _ ↦ True) Writes.nothing s
        fun outcome w s₁ ↦ ∃ r, outcome = .advanced r ∧ Went id r w s₁ := by
      rw [SignInCall.body, wp_bind]
      refine wp_mono ?_ (guarded_alone (fun _ h ↦ h.2) _).wp_advance
      exact fun r w s₁ hwent ↦ ⟨r, rfl, hwent⟩
    have hpromised := ends_of_wp h ⟨rfl, hs⟩ hwp
    cases result with
    | error => exact ⟨by simp, fun _ _ ↦ hpromised.1.1⟩
    | ok =>
      obtain ⟨w, s₁, ⟨rfl, -⟩, ⟨r, rfl, hwent⟩, rfl⟩ := hpromised
      refine ⟨?_, by simp⟩
      rintro _ ⟨rfl⟩
      refine ⟨Or.inl (hwent.progresses.mono fun id a u hpassed ↦ hpassed), ?_, by simp⟩
      rintro _ u authenticators ⟨rfl⟩ hsuccess
      exact hwent.accounted u authenticators hsuccess
  · have hpromised := ends_of_wp h hs (wp_body_inTurn (V := V) hs hmay fun id input seen heq ↦
      hadvance ⟨id, input, seen, heq⟩)
    cases result with
    | error => exact ⟨by simp, fun _ _ ↦ hpromised.2⟩
    | ok =>
      obtain ⟨w, s₁, -, hturned, rfl⟩ := hpromised
      refine ⟨?_, by simp⟩
      rintro _ ⟨rfl⟩
      exact hturned

theorem Turned.session (h : Turned call outcome s s') {row : Session}
    (hrow : s.session sessionId = some row) :
    ∃ row', s'.session sessionId = some row' ∧ row.Older row' := by
  rcases h.moved with hprogress | ⟨id, rfl⟩
  · exact hprogress.session hrow
  · refine ⟨row, ?_, .refl row⟩
    exact (Rows.after_of_none (Layout.update_of_ne (L := layout) (by simp) sessionId)).trans hrow

theorem Turned.unclaimed (h : Turned call outcome s s') (hs : Unclaimed s) : Unclaimed s' := by
  rcases h.moved with hprogress | ⟨id, rfl⟩
  · exact hs.progress hprogress
  · exact hs.resetProgress

end Turn

section Runs

variable {s s' : Rows} {history : List (Answered (signIns V))} {answer : Answered (signIns V)}
  {call : SignInCall} {outcome : SignInOutcome}

theorem Presented.later (hsession : ∀ sessionId row, s.session sessionId = some row →
      ∃ row', s'.session sessionId = some row' ∧ row.Older row')
    {id : AuthSessionId} {a : AuthenticatorName} {u : SubjectId} (h : Presented s history id a u) :
    Presented s' (answer :: history) id a u := by
  obtain ⟨before, hmem, outcome, hattempt, hresult, hpresents⟩ := h
  refine ⟨before, List.mem_cons_of_mem _ hmem, outcome, hattempt, hresult, ?_⟩
  cases outcome with
  | selected sessionId =>
    obtain ⟨row, hrow, hsubject, ha⟩ := hpresents
    obtain ⟨row', hrow', hage⟩ := hsession sessionId row hrow
    exact ⟨row', hrow', hage.subjectId.trans hsubject, hage.authenticators ▸ ha⟩
  | enrolment _ result => cases result <;> exact hpresents
  | _ => exact hpresents

/-- An answer that presents what the rows now list, and accounts for what it reports, keeps
the factors presented. -/
theorem FactorsPresented.turn (h : FactorsPresented s history) {t : ℕ}
    (hturned : Turned call outcome s s') (hcomplete : mayComplete call history) :
    FactorsPresented s' (⟨t, call, .ok outcome⟩ :: history) := by
  have hlater : ∀ id a u, Presented s history id a u →
      Presented s' (⟨t, call, .ok outcome⟩ :: history) id a u :=
    fun _ _ _ ↦ Presented.later fun _ _ ↦ hturned.session
  have hnew : ∀ id a u, presentedBy call outcome s' id a u →
      Presented s' (⟨t, call, .ok outcome⟩ :: history) id a u :=
    fun id a u ⟨hid, hpresents⟩ ↦
      ⟨_, List.mem_cons_self, outcome, hid.symm, rfl, hpresents⟩
  refine ⟨?_, ?_, ?_⟩
  · rcases hturned.moved with hprogress | ⟨id, rfl⟩
    · exact h.listed.progress hprogress hlater hnew
    · exact h.listed.resetProgress.weaken hlater
  · intro answer hanswer id u authenticators hfinishes a ha
    rcases List.mem_cons.mp hanswer with rfl | hbefore
    · rw [finishes] at hfinishes
      split at hfinishes
      case h_2 => simp at hfinishes
      case h_1 id' input seen r hcall hresult =>
        obtain ⟨rfl, hsuccess⟩ := of_decide_eq_true hfinishes
        obtain rfl : call = .advance id' input seen := hcall
        obtain rfl : outcome = .advanced r := Except.ok.inj hresult
        rcases hturned.finished r u authenticators rfl hsuccess a ha with hallowed | ⟨hbound, hin⟩
        · exact hnew _ a u ⟨rfl, hallowed⟩
        · exact hlater _ a u (h.listed.known hbound hin)
    · exact hlater id a u (h.finished answer hbefore id u authenticators hfinishes a ha)
  · intro answer hanswer sessionId codeHash hestablishes hresult
    rcases List.mem_cons.mp hanswer with rfl | hbefore
    · obtain rfl : outcome = .completed (.issued sessionId codeHash) := Except.ok.inj hresult
      obtain ⟨u, authenticators, ⟨row, hrow, rfl, rfl⟩, hfrom⟩ :=
        hturned.established sessionId codeHash rfl hestablishes
      refine ⟨row, hrow, fun a ha ↦ hlater _ a _ ?_⟩
      rcases hfrom with ⟨input, hcall⟩ | ⟨hbound, hlisted⟩
      · rw [show call = _ from hcall, mayComplete] at hcomplete
        obtain ⟨before, hmem, hfinishes⟩ := List.any_eq_true.mp hcomplete
        exact h.finished before hmem _ _ _ hfinishes a ha
      · exact h.listed.known hbound (hlisted ▸ ha)
    · obtain ⟨row, hrow, hpresented⟩ := h.established answer hbefore sessionId codeHash
        hestablishes hresult
      obtain ⟨row', hrow', hage⟩ := hturned.session hrow
      refine ⟨row', hrow', fun a ha ↦ ?_⟩
      rw [hage.subjectId]
      exact hlater _ a _ (hpresented a (hage.authenticators ▸ ha))

/-- An answer with a failure says nothing. -/
theorem FactorsPresented.failed (h : FactorsPresented s history) {t : ℕ} {failure : Failure} :
    FactorsPresented s (⟨t, call, .error failure⟩ :: history) := by
  have hlater : ∀ id a u, Presented s history id a u →
      Presented s (⟨t, call, .error failure⟩ :: history) id a u :=
    fun _ _ _ ↦ Presented.later fun _ row hrow ↦ ⟨row, hrow, .refl row⟩
  refine ⟨h.listed.weaken hlater, ?_, ?_⟩
  · intro answer hanswer id u authenticators hfinishes a ha
    rcases List.mem_cons.mp hanswer with rfl | hbefore
    · simp [finishes] at hfinishes
    · exact hlater id a u (h.finished answer hbefore id u authenticators hfinishes a ha)
  · intro answer hanswer sessionId codeHash hestablishes hresult
    rcases List.mem_cons.mp hanswer with rfl | hbefore
    · simp at hresult
    · obtain ⟨row, hrow, hpresented⟩ := h.established answer hbefore sessionId codeHash
        hestablishes hresult
      exact ⟨row, hrow, fun a ha ↦ hlater _ a _ (hpresented a ha)⟩

end Runs

/-- Over every sequence of operations in which each choice of the chooser meets an attempt
bound to nobody or to the subject chosen: what attempts list, what finished logins name and
what sessions were established with was presented on that attempt by that subject. -/
theorem factors_presented_in_turns {rows : Rows} (hrows : Parked rows) {s : Rows}
    {history : List (Answered (signIns V))}
    (h : Turns (signIns V) (fun call s history ↦ mayComplete call history ∧ mayChoose call s)
      rows s history) :
    FactorsPresented s history := by
  suffices Unclaimed s ∧ FactorsPresented s history from this.2
  refine h.invariant (P := fun s history ↦ Unclaimed s ∧ FactorsPresented s history)
    ⟨hrows.unclaimed, hrows.listedBy _, by simp, by simp⟩ ?_
  rintro s s' history call result ⟨hcomplete, hchoose⟩ ⟨hs, hpresented⟩ hends
  obtain ⟨hok, herror⟩ := turned_of_ends hs hchoose hends
  cases result with
  | error failure =>
    obtain rfl : s' = s := herror failure rfl
    exact ⟨hs, hpresented.failed⟩
  | ok outcome =>
    have hturned := hok outcome rfl
    exact ⟨hturned.unclaimed hs, hpresented.turn hturned hcomplete⟩

/-- The attempt of `oneAttempt`, in a browser that is signed in as subject 1. -/
def oneAttemptSignedIn : Rows
  | ⟨.subjects, _⟩ => some ⟨none⟩
  | ⟨.sessions, 5⟩ => some {
      subjectId := 1
      createdAt := 0
      expiresAt := 600
      lastActiveAt := 0
      authenticators := [.passkey]
      remembered := false
      secretHash := some 7 }
  | k => oneAttempt k

theorem oneAttemptSignedIn_parked : Parked oneAttemptSignedIn := oneAttempt_parked

def lifespans : SessionLifespans := ⟨300, 600, 300, 600⟩

/-- The completion of a login into session 6. -/
def intoSession : CompleteLoginInput where
  authSessionId := 1
  reuseSession := none
  code := ⟨70, 60, 1, 0, "https://app.example/cb", ["openid"], "challenge", [], []⟩
  session := ⟨0, [], false, [], 4, lifespans, 6, 8⟩

/-- Subject 2 types a password and is asked for a code; the chooser is then answered with
the session of subject 1, and consent given. -/
def halfFinished : List SignInCall :=
  [.advance 1 presentPassword (.steady twoSubjects),
    .select 1 [⟨5, 7⟩] lifespans 5,
    .consent 1 twoSubjects intoSession]

/-- Subject 2 types a password and then the code it is asked for. -/
def finishedLogin : List SignInCall :=
  [.advance 1 presentPassword (.steady twoSubjects),
    .advance 1 { AdvanceInput.nothing with code := some "123456" } (.steady twoSubjects),
    .complete 1 2 [.password, .otp] intoSession]

/-- Every factor presented in the calls answered. -/
def presentedIn (s : Rows) (history : List (Answered (signIns V))) : List Allowed :=
  history.flatMap fun answer ↦
    match answer.result with
    | .ok (.advanced r) => r.allowed
    | .ok (.selected sessionId) =>
      match s.session sessionId with
      | none => []
      | some row => row.authenticators.map fun a ↦ (a, row.subjectId)
    | .ok (.enrolment subjectId .enrolled) => [(.otp, subjectId)]
    | _ => []

theorem Presented.mem_presentedIn {s : Rows} {history : List (Answered (signIns V))}
    {id : AuthSessionId} {a : AuthenticatorName} {u : SubjectId}
    (h : Presented s history id a u) : (a, u) ∈ presentedIn s history := by
  obtain ⟨answer, hmem, outcome, -, hresult, hpresents⟩ := h
  refine List.mem_flatMap.mpr ⟨answer, hmem, ?_⟩
  rw [hresult]
  cases outcome with
  | advanced => exact hpresents
  | selected =>
    obtain ⟨row, hrow, rfl, ha⟩ := hpresents
    simpa [hrow] using ha
  | enrolment _ result =>
    cases result with
    | enrolled =>
      obtain ⟨rfl, rfl⟩ := hpresents
      exact List.mem_singleton_self _
    | _ => exact hpresents.elim
  | _ => exact hpresents.elim

/-- What a session was established with, and for whom. -/
def establishedWith (s : Rows) (sessionId : SessionId) :
    Option (SubjectId × List AuthenticatorName) :=
  (s.session sessionId).map fun row ↦ (row.subjectId, row.authenticators)

/-- What a sequence comes to. -/
structure Came where
  /-- Whom attempt 1 is bound to, and what it lists. -/
  bound : Option SubjectId
  listed : List AuthenticatorName
  /-- What session 6 was established with. -/
  established : Option (SubjectId × List AuthenticatorName)
  presented : List Allowed
  deriving DecidableEq

def came (m : Rows × List (Answered (signIns V))) : Came :=
  ⟨boundTo m.1 1, satisfiedIn m.1 1, establishedWith m.1 6, presentedIn m.1 m.2⟩

/-- What the half-finished login comes to: a session of subject 1 with the password of
subject 2. -/
theorem halfFinished_run : ∃ m : Rows × List (Answered (signIns plainPrimitives)),
    Turns (signIns plainPrimitives) (fun call _ history ↦ mayComplete call history)
      oneAttemptSignedIn m.1 m.2 ∧
    came m = ⟨some 1, [.password, .passkey], some (1, [.password, .passkey]),
      [(.passkey, 1), (.password, 2)]⟩ := by
  have hend : (Turns.perform (fun call _ history ↦ mayComplete call history) oracle halfFinished
      oneAttemptSignedIn []).map (came (V := plainPrimitives)) =
        some ⟨some 1, [.password, .passkey], some (1, [.password, .passkey]),
          [(.passkey, 1), (.password, 2)]⟩ := by decide
  obtain ⟨m, hperform, hend⟩ := Option.map_eq_some_iff.mp hend
  exact ⟨m, turns_of_perform .start hperform, hend⟩

/-- A login finished by one subject. -/
theorem factors_presented_in_turns_own :
    ∃ m : Rows × List (Answered (signIns plainPrimitives)),
      came m = ⟨some 2, [.password, .otp], some (2, [.password, .otp]),
        [(.otp, 2), (.password, 2)]⟩ ∧ FactorsPresented m.1 m.2 := by
  have hend : (Turns.perform
      (fun call s history ↦ mayComplete call history ∧ mayChoose call s) oracle finishedLogin
      oneAttemptSignedIn []).map (came (V := plainPrimitives)) =
        some ⟨some 2, [.password, .otp], some (2, [.password, .otp]),
          [(.otp, 2), (.password, 2)]⟩ := by decide
  obtain ⟨m, hperform, hend⟩ := Option.map_eq_some_iff.mp hend
  exact ⟨m, hend,
    factors_presented_in_turns oneAttemptSignedIn_parked (turns_of_perform .start hperform)⟩

/-- With no condition on the choices, a factor of one subject may stand for another. -/
theorem factors_not_presented_in_turns : ¬∀ (V : Primitives) (rows s : Rows)
    (history : List (Answered (signIns V))), Parked rows →
      Turns (signIns V) (fun call _ history ↦ mayComplete call history) rows s history →
      FactorsPresented s history := by
  intro hall
  obtain ⟨⟨s, history⟩, hturns, hcame⟩ := halfFinished_run
  obtain ⟨hbound, hlisted, -, hpresented⟩ := Came.mk.inj hcame
  have hknown := (hall _ _ s history oneAttemptSignedIn_parked hturns).listed.known hbound
    (a := .password) (by simp [hlisted])
  have hmem := Presented.mem_presentedIn hknown
  simp [hpresented] at hmem

end Odudu.ProtocolOidc
