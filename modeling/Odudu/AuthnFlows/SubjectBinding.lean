import Odudu.AuthnFlows.AdvanceProgress

/-!
# One subject to an attempt, under interleaving

Calls of `advance` as a system, with any other transaction whose statements leave
the subject and the factors of an attempt alone.  Each call reads the row once and binds
it later without looking again, so of two calls that both read an unbound attempt the
later binds what the earlier bound already, and the factors of the one stand for the
subject of the other (`mixedFactors_run`).

Over every run in which a binding lands only on an attempt bound to nobody or to the same
subject, the factors an attempt lists were passed on it by the subject it is bound to
(`factors_of_bound_subject`).
-/

set_option autoImplicit false

namespace Odudu.AuthnFlows

open ReadCommitted Program ProtocolOidc

/-- A call of the server. -/
inductive AttemptCall where
  | advance (id : AuthSessionId) (input : AdvanceInput) (seen : Seen)
  /-- Any transaction that leaves the subject and the factors of attempts alone. -/
  | other (ops : List Op) (hops : ∀ op ∈ ops, keepsAttempts op = true)

inductive AttemptOutcome where
  | advanced (r : Advanced)
  | finished

def AttemptCall.body (V : Primitives) : AttemptCall → Tx AttemptOutcome
  | advance id input seen => do
    let r ← Odudu.AuthnFlows.advance V seen id input
    pure (.advanced r)
  | other ops _ => do
    runAll ops
    pure .finished

/-- Sign-in attempts, and what runs beside them. -/
abbrev attempts (V : Primitives) : System where
  db := database
  Call := AttemptCall
  Outcome := AttemptOutcome
  Failure := Failure
  body := AttemptCall.body V

/-- A binding may run on an attempt that is bound to nobody, or to the same subject. -/
def mayBind (op : Op) (s : Rows) : Prop :=
  match op with
  | .authenticationSessionBindSubject id u => boundTo s id = none ∨ boundTo s id = some u
  | _ => True

instance (op : Op) (s : Rows) : Decidable (mayBind op s) := by
  unfold mayBind
  split <;> infer_instance

/-- The runs in which no binding takes an attempt from another subject. -/
def bindsOneSubject (V : Primitives) : Discipline (attempts V) where
  mayRun := fun _ op s ↦ mayBind op s
  mayCommit := fun _ _ _ _ ↦ True

instance (V : Primitives) : (bindsOneSubject V).Checked where
  mayRun := fun _ op s ↦ inferInstanceAs (Decidable (mayBind op s))
  mayCommit := fun _ _ _ _ ↦ instDecidableTrue

variable {V : Primitives}

/-- The factor was passed on the attempt by the subject, in a call answered so far. -/
def Passed (history : List (Answered (attempts V))) (id : AuthSessionId)
    (authenticator : AuthenticatorName) (u : SubjectId) : Prop :=
  ∃ a ∈ history, ∃ input seen r, a.call = .advance id input seen ∧
    a.result = .ok (.advanced r) ∧ (authenticator, u) ∈ r.allowed

/-- The factors an attempt lists, and the factors a call answers a success with, were
passed on that attempt by the subject it is bound to, or answered for. -/
def FactorsOfBoundSubject (s : Rows) (history : List (Answered (attempts V))) : Prop :=
  ListedBy (Passed history) s ∧
  ∀ answer ∈ history, ∀ id input seen r u authenticators,
    answer.call = .advance id input seen → answer.result = .ok (.advanced r) →
    r.outcome = .success u authenticators → ∀ a ∈ authenticators, Passed history id a u

section Contract

/-- What each call commits. -/
inductive AttemptCommitted : AttemptCall → Rows → Writes database → Option AttemptOutcome → Prop
  | advance {id : AuthSessionId} {input : AdvanceInput} {seen : Seen} {s : Rows}
      {w : Writes database} {r : Advanced} (h : Went id r w s) :
      AttemptCommitted (.advance id input seen) s w (some (.advanced r))
  | other {ops : List Op} {hops : ∀ op ∈ ops, keepsAttempts op = true} {s : Rows}
      {w : Writes database} (h : Progresses (fun _ _ _ ↦ False) s (s.after w)) :
      AttemptCommitted (.other ops hops) s w (some .finished)

variable {call : AttemptCall} {s s' : Rows} {w : Writes database} {outcome : Option AttemptOutcome}

theorem AttemptCommitted.progresses (h : AttemptCommitted call s w outcome) :
    Progresses anything s (s.after w) := by
  cases h with
  | advance h => exact h.progresses.anything
  | other h => exact h.anything

theorem Went.of_rely {id : AuthSessionId} {r : Advanced} (h : Went id r w s)
    (hrely : (progress anything).Rely w s s') : Went id r w s' where
  progresses := h.progresses.of_locked hrely.locked
  accounted := fun u authenticators hsuccess a ha ↦
    (h.accounted u authenticators hsuccess a ha).imp_right fun ⟨hbound, hlisted⟩ ↦
      ⟨Progresses.bound hrely.ages hbound, (Progresses.at hrely.ages id).kept a hlisted⟩

variable (V) in
/-- What every call guarantees. -/
def progressing : Contract (attempts V) where
  Inv := Unclaimed
  Guar := fun _ call s w outcome ↦ AttemptCommitted call s w outcome
  Thrown := fun _ _ _ _ ↦ True
  kept := fun hinv hguar ↦ hinv.progress hguar.progresses

theorem progressing_rely {w : Writes database} {s s' : Rows}
    (hrely : (progressing V).Rely w s s') : (progress anything).Rely w s s' ∧ Unclaimed s' :=
  ⟨Ageing.rely_of_contract (K := progressing V) (fun _ _ _ _ _ _ hguar ↦ hguar.progresses) hrely,
    hrely.2⟩

theorem progressing_guarded (t : ℕ) (call : AttemptCall) :
    Guarded ((progressing V).rules (bindsOneSubject V) t call) where
  governs := fun _ _ _ ↦ progressing_rely
  binds := Or.inr fun _ _ _ hmay ↦ hmay

theorem Guarded.wp_runAll {R : Rules database Failure} (hR : Guarded R) {passed : Passes}
    {ops : List Op} (hops : ∀ op ∈ ops, keepsAttempts op = true) {w : Writes database} {s : Rows}
    (h : Progresses passed s (s.after w)) :
    (runAll ops).wp R w s fun _ w (s : Rows) ↦ Progresses passed s (s.after w) := by
  induction ops generalizing w s with
  | nil => exact h
  | cons op _ ih =>
    refine hR.governs.wp_ask fun (s' : Rows) _ hage _ _ _ _ ↦ ?_
    refine ih (fun op' hop' ↦ hops op' (List.mem_cons_of_mem _ hop')) ?_
    exact Ageing.Ages.andThen (A := progress passed) (h.of_locked hage.locked)
      (progresses_effect (hops op List.mem_cons_self) _)

theorem progressing_safe (t : ℕ) (call : AttemptCall) (s : Rows) :
    (progressing V).Safe (bindsOneSubject V) t call (call.body V) Writes.nothing s := by
  have hguarded := progressing_guarded (V := V) t call
  cases call with
  | advance =>
    refine (wp_bind _ _ _).mpr (wp_mono ?_ hguarded.wp_advance)
    exact fun r w s h s' hrely _ ↦ .advance (h.of_rely (progressing_rely hrely).1)
  | other _ hops =>
    refine (wp_bind _ _ _).mpr (wp_mono ?_ (hguarded.wp_runAll hops
      (Ageing.Ages.refl (A := progress fun _ _ _ ↦ False) s)))
    exact fun _ w s h s' hrely _ ↦ .other (h.of_locked (progressing_rely hrely).1.locked)

end Contract

section Runs

variable {s s' : Rows} {history history' : List (Answered (attempts V))}

theorem Passed.cons {id : AuthSessionId} {a : AuthenticatorName} {u : SubjectId}
    (h : Passed history id a u) (answer : Answered (attempts V)) :
    Passed (answer :: history) id a u := by
  obtain ⟨answer', hmem, hrest⟩ := h
  exact ⟨answer', List.mem_cons_of_mem _ hmem, hrest⟩

/-- Progress by factors that were passed keeps the factors those of the bound subject. -/
theorem FactorsOfBoundSubject.progress {passed : Passes}
    (h : FactorsOfBoundSubject s history) (hprogress : Progresses passed s s')
    (answer : Answered (attempts V))
    (hpassed : ∀ id a u, passed id a u → Passed (answer :: history) id a u)
    (hanswer : ∀ id input seen r u authenticators, answer.call = .advance id input seen →
      answer.result = .ok (.advanced r) → r.outcome = .success u authenticators →
      ∀ a ∈ authenticators, Passed (answer :: history) id a u) :
    FactorsOfBoundSubject s' (answer :: history) := by
  constructor
  · exact h.1.progress hprogress (fun _ _ _ hold ↦ hold.cons answer) hpassed
  · intro answer' hmem id input seen r u authenticators hcall hresult hsuccess a ha
    rcases List.mem_cons.mp hmem with rfl | hold
    · exact hanswer id input seen r u authenticators hcall hresult hsuccess a ha
    · exact (h.2 answer' hold id input seen r u authenticators hcall hresult hsuccess a ha).cons
        answer

/-- Every effect keeps the factors those of the bound subject. -/
theorem factorsOfBoundSubject_effect
    (heffect : (progressing V).Effect (s, history) (s', history'))
    (h : FactorsOfBoundSubject s history) : FactorsOfBoundSubject s' history' := by
  cases heffect with
  | part _ hguar => nomatch hguar
  | @refuse t call _ failure =>
    exact h.progress (Ageing.Ages.refl (A := Odudu.AuthnFlows.progress fun _ _ _ ↦ False) s) _
      (fun _ _ _ hnever ↦ hnever.elim) (by simp)
  | @commit t call _ w outcome _ _ hguar =>
    cases hguar with
    | other hother => exact h.progress hother _ (fun _ _ _ hnever ↦ hnever.elim) (by simp)
    | @advance id input seen _ _ r hwent =>
      have hnew : ∀ a u, (a, u) ∈ r.allowed →
          Passed (⟨t, .advance id input seen, .ok (.advanced r)⟩ :: history) id a u :=
        fun a u hmem ↦ ⟨_, List.mem_cons_self, input, seen, r, rfl, rfl, hmem⟩
      refine h.progress hwent.progresses _ ?_ ?_
      · rintro id' a u ⟨rfl, hmem⟩
        exact hnew a u hmem
      · rintro id' input' seen' r' u authenticators ⟨⟩ ⟨⟩ hsuccess a ha
        rcases hwent.accounted u authenticators hsuccess a ha with hallowed | ⟨hbound, hlisted⟩
        · exact hnew a u hallowed
        · exact (h.1.known hbound hlisted).cons _

end Runs

/-- Primitives under which a hash is its password and a key its signature. -/
def plainPrimitives : Primitives where
  verifyPassword := fun hash plain ↦ hash == plain
  normalisePassword := id
  totpCode := fun secret _ ↦ secret
  verifyAssertion := fun _ _ signed publicKey ↦ if signed = publicKey then some 0 else none
  toUpperCase := id

/-- Subject 1 holds a passkey; subject 2 a password and an authenticator app. -/
def twoSubjects : Lookups where
  executions := browserFlowDefault
  otpRequired := false
  loginWithEmail := false
  byUsername := fun login ↦ if login = "second" then some 2 else none
  byVerifiedEmail := fun _ ↦ none
  passwordCredentialFor := fun subjectId ↦ if subjectId = 2 then some ⟨"word", true⟩ else none
  lockedUntil := fun _ ↦ none
  storedTotpFor := fun subjectId ↦ if subjectId = 2 then some ⟨20, ⟨"123456", none⟩⟩ else none
  storedRecoveryCodesFor := fun _ ↦ []
  byLookupKey := fun id ↦ if id = "key" then some ⟨10, 1, "public", 0, some "id.example"⟩ else none
  relyingPartyOfTenant := some ⟨"id.example", "https://id.example"⟩
  recordTotpUse := fun _ _ ↦ true
  advanceWebauthnCounter := fun _ _ ↦ true
  spendRecoveryCode := fun _ ↦ true

/-- The tables do not change while a call runs. -/
def Seen.steady (seen : Lookups) : Seen := ⟨seen, seen, seen, seen⟩

/-- One attempt, parked, with a challenge offered. -/
def oneAttempt : Rows
  | ⟨.authenticationSessions, 1⟩ => some {
      pendingRequest := ⟨1, "https://app.example/cb", ["openid"], "challenge", none, none, [],
        none, none, none, [], []⟩
      expiresAt := 600
      consumedAt := none
      satisfied := []
      subjectId := none
      authenticatedAt := none
      webauthnChallenge := some 99 }
  | _ => none

/-- The passkey of subject 1 answers. -/
def presentPasskey : AdvanceInput :=
  { AdvanceInput.nothing with assertion := some (.response "key" "public") }

/-- The password of subject 2 is typed. -/
def presentPassword : AdvanceInput :=
  { AdvanceInput.nothing with username := some "second", password := some "word" }

def submit (input : AdvanceInput) : AttemptCall := .advance 1 input (.steady twoSubjects)

/-- Both read the attempt before either binds it; then it is resumed with nothing
submitted. -/
def mixedFactors : List (Event (attempts plainPrimitives)) :=
  .begin (submit presentPasskey) :: .begin (submit presentPassword) ::
  Schedule.runs _ 1 3 ++ Schedule.runs _ 0 9 ++ .finish 0 ::
  Schedule.runs _ 1 4 ++ .finish 1 ::
  .begin (submit .nothing) :: Schedule.runs _ 2 5 ++ [.finish 2]

/-- The password of subject 2 alone, and the one-time code that it is then asked for. -/
def ownFactors : List (Event (attempts plainPrimitives)) :=
  .begin (submit presentPassword) :: Schedule.runs _ 0 7 ++ .finish 0 ::
  .begin (submit { AdvanceInput.nothing with code := some "123456" }) ::
  Schedule.runs _ 1 8 ++ [.finish 1]

/-- Every factor seen passed in the calls answered. -/
def allowedIn (history : List (Answered (attempts V))) : List Allowed :=
  history.flatMap fun answer ↦
    match answer.result with
    | .ok (.advanced r) => r.allowed
    | _ => []

theorem Passed.mem_allowedIn {history : List (Answered (attempts V))} {id : AuthSessionId}
    {a : AuthenticatorName} {u : SubjectId} (h : Passed history id a u) :
    (a, u) ∈ allowedIn history := by
  obtain ⟨answer, hmem, input, seen, r, -, hresult, hallowed⟩ := h
  exact List.mem_flatMap.mpr ⟨answer, hmem, by simpa [hresult] using hallowed⟩

/-- What an answered call of `advance` came to. -/
def outcomeOf (answer : Answered (attempts V)) : Option AdvanceOutcome :=
  match answer.result with
  | .ok (.advanced r) => some r.outcome
  | _ => none

/-- What the mixed run comes to: subject 2, who holds an authenticator app, is answered
with the passkey of subject 1 for a second factor. -/
theorem mixedFactors_run : ∃ c : Config (attempts plainPrimitives),
    Reaches .free (.start oneAttempt) c ∧
    (Rows.authenticationSession c.rows 1).map (fun row ↦ (row.subjectId, row.satisfied)) =
      some (some 2, [.passkey, .password]) ∧
    allowedIn c.history = [(.password, 2), (.passkey, 1)] ∧
    c.history.map outcomeOf = [some (.success 2 [.passkey, .password]), some (.challenge .otp),
      some (.success 1 [.passkey])] := by
  have hplay : (Schedule.performAll .free oracle (Schedule.start oneAttempt) mixedFactors).map
      (fun m ↦ ((Rows.authenticationSession m.config.rows 1).map
          fun row ↦ (row.subjectId, row.satisfied),
        allowedIn m.config.history, m.config.history.map outcomeOf)) =
      some (some (some 2, [.passkey, .password]), [(.password, 2), (.passkey, 1)],
        [some (.success 2 [.passkey, .password]), some (.challenge .otp),
          some (.success 1 [.passkey])]) := by decide
  obtain ⟨m, hm, hend⟩ := Option.map_eq_some_iff.mp hplay
  simp only [Prod.mk.injEq] at hend
  exact ⟨m.config, Schedule.reaches hm, hend⟩

theorem oneAttempt_parked : Parked oneAttempt := by
  rintro id row hrow
  by_cases hid : id = 1
  · subst hid
    obtain rfl := Option.some.inj hrow
    exact ⟨rfl, rfl⟩
  · simp [oneAttempt, hid] at hrow

/-- Over every run in which no binding takes an attempt from another subject: what an
attempt lists was passed on it by the subject it is bound to, and so was what a call
answers a success with. -/
theorem factors_of_bound_subject {rows : Rows} (hrows : Parked rows) {c : Config (attempts V)}
    (hc : Reaches (bindsOneSubject V) (.start rows) c) :
    FactorsOfBoundSubject c.rows c.history := by
  exact Contract.invariant (K := progressing V) (P := FactorsOfBoundSubject)
    (fun t call s _ _ ↦ progressing_safe t call s) (fun _ _ _ _ ↦ factorsOfBoundSubject_effect)
    (Contract.sound_start hrows.unclaimed) hc ⟨hrows.listedBy _, by simp [Config.start]⟩

/-- A subject signs in with a password and then a code. -/
theorem factors_of_bound_subject_own : ∃ c : Config (attempts plainPrimitives),
    allowedIn c.history = [(.otp, 2), (.password, 2)] ∧
      FactorsOfBoundSubject c.rows c.history := by
  have hplay : (Schedule.performAll (bindsOneSubject plainPrimitives) oracle
      (Schedule.start oneAttempt) ownFactors).map (fun m ↦ allowedIn m.config.history) =
      some [(.otp, 2), (.password, 2)] := by decide
  obtain ⟨m, hm, hend⟩ := Option.map_eq_some_iff.mp hplay
  exact ⟨m.config, hend,
    factors_of_bound_subject oneAttempt_parked (Schedule.reaches hm)⟩

/-- Under no condition on the bindings, the factors of one subject may stand for another. -/
theorem factors_of_another_subject : ¬∀ (V : Primitives) (rows : Rows) (c : Config (attempts V)),
    Parked rows → Reaches .free (.start rows) c → FactorsOfBoundSubject c.rows c.history := by
  intro hall
  obtain ⟨c, hc, hrow, hallowed, -⟩ := mixedFactors_run
  obtain ⟨row, hrow, hsubject⟩ := Option.map_eq_some_iff.mp hrow
  obtain ⟨hsubject, hsatisfied⟩ := Prod.mk.inj hsubject
  obtain ⟨u, hu, hpassed⟩ :=
    (hall _ _ c oneAttempt_parked hc).1 1 row hrow .passkey (by simp [hsatisfied])
  obtain rfl : 2 = u := Option.some.inj (hsubject.symm.trans hu)
  have hmem := hpassed.mem_allowedIn
  rw [hallowed] at hmem
  simp at hmem

end Odudu.AuthnFlows
