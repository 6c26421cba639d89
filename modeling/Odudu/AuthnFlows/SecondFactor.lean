import Odudu.AuthnFlows.SubjectBinding

/-!
# The second factor of a subject who has one

`isApplicable` lets the OTP step of a flow stand down after a passkey, and for a recovery
code.  What a success then rests on depends on the groups the flow falls into: a run of
alternatives is satisfied by any of its members, so the OTP step is no second factor in a
run that the password is in (`passwordOrOtp_run`), and neither is the recovery step it
stands down for.

In every flow in which the password shares a run with neither of the two, `advance`
reports a success for a subject who holds a TOTP credential on a passkey, a one-time code
or a recovery code (`second_factor_presented`).
-/

set_option autoImplicit false

namespace Odudu.ProtocolAdmin

open AuthnFlows ProtocolOidc

/-! ### Which flows an administrator may set -/

/-- One step of a `ReplaceExecutionsRequest`. -/
structure FlowStep where
  authenticator : String
  requirement : Requirement

inductive ValidateFlowOutcome where
  | ok
  | empty
  | unresolvableAuthenticator (name : String) (known : List String)
  | duplicateAuthenticator (name : String)
  | noEnabledStep
  deriving DecidableEq

/-- The first name that was seen before. -/
def firstRepeated (seen : List String) : List FlowStep → Option String
  | [] => none
  | step :: steps =>
    if seen.contains step.authenticator then some step.authenticator
    else firstRepeated (step.authenticator :: seen) steps

def validateFlowSteps (steps : List FlowStep) (knownAuthenticators : List String) :
    ValidateFlowOutcome :=
  if steps.isEmpty then .empty
  else
    match steps.find? fun step ↦ !knownAuthenticators.contains step.authenticator with
    | some step => .unresolvableAuthenticator step.authenticator knownAuthenticators
    | none =>
      match firstRepeated [] steps with
      | some name => .duplicateAuthenticator name
      | none =>
        if steps.all fun step ↦ decide (step.requirement = .disabled) then .noEnabledStep
        else .ok

/-- The registry key of an authenticator (`service/authenticators/names.ts`). -/
def authenticatorKey : AuthenticatorName → String
  | .password => "password"
  | .passkey => "passkey"
  | .otp => "otp"
  | .recoveryCode => "recovery-code"

def registeredAuthenticatorNames : List String :=
  [AuthenticatorName.password, .passkey, .otp, .recoveryCode].map authenticatorKey

/-- An execution as a step of a request. -/
def flowStepOf (execution : Execution) : FlowStep :=
  ⟨authenticatorKey execution.authenticator, execution.requirement⟩

/-- The executions of a flow that was accepted. -/
def Accepted (executions : List Execution) : Prop :=
  validateFlowSteps (executions.map flowStepOf) registeredAuthenticatorNames = .ok

instance (executions : List Execution) : Decidable (Accepted executions) :=
  inferInstanceAs (Decidable (_ = _))

end Odudu.ProtocolAdmin

namespace Odudu.AuthnFlows

open ReadCommitted Program ProtocolOidc ProtocolAdmin

section Flow

/-- The groups that a flow falls into. -/
def flowGroups (executions : List Execution) : List StepGroup :=
  groupSteps (executions.map fun execution ↦ ⟨execution.authenticator, execution.requirement, true⟩)

/-- An authenticator is in the group. -/
def StepGroup.has (group : StepGroup) (authenticator : AuthenticatorName) : Prop :=
  ∃ m ∈ group.members, m.authenticator = authenticator

instance (group : StepGroup) (authenticator : AuthenticatorName) :
    Decidable (group.has authenticator) :=
  inferInstanceAs (Decidable (∃ m ∈ group.members, m.authenticator = authenticator))

/-- The OTP step is listed, and not disabled. -/
def OtpEnabled (executions : List Execution) : Prop :=
  ∃ execution ∈ executions, execution.authenticator = .otp ∧ execution.requirement ≠ .disabled

instance (executions : List Execution) : Decidable (OtpEnabled executions) :=
  inferInstanceAs (Decidable (∃ execution ∈ executions,
    execution.authenticator = .otp ∧ execution.requirement ≠ .disabled))

/-- The password is in no group with the OTP step or the recovery step. -/
def PasswordApart (executions : List Execution) : Prop :=
  ∀ group ∈ flowGroups executions, group.has .password →
    ¬group.has .otp ∧ ¬group.has .recoveryCode

instance (executions : List Execution) : Decidable (PasswordApart executions) :=
  inferInstanceAs (Decidable (∀ group ∈ flowGroups executions, group.has .password →
    ¬group.has .otp ∧ ¬group.has .recoveryCode))

variable {seen : Lookups} {request : FactsRequest}

/-- The recovery step will run for the request. -/
def recoveryCarries (seen : Lookups) (request : FactsRequest) : Bool :=
  (seen.executions.any fun execution ↦
    decide (execution.authenticator = .recoveryCode ∧ execution.requirement ≠ .disabled)) &&
    isApplicable (flowFacts seen request) false .recoveryCode

/-- A step as it is judged for the request. -/
def judgedStep (seen : Lookups) (request : FactsRequest) (s : Step) : Step :=
  ⟨s.authenticator, s.requirement,
    isApplicable (flowFacts seen request) (recoveryCarries seen request) s.authenticator⟩

theorem loadSteps_groups (seen : Lookups) (request : FactsRequest) :
    groupSteps (loadSteps seen request) =
      (flowGroups seen.executions).map (StepGroup.mapMembers (judgedStep seen request)) := by
  have hrequirement : ∀ s, (judgedStep seen request s).requirement = s.requirement := fun _ ↦ rfl
  rw [flowGroups, ← groupSteps_map hrequirement, List.map_map]
  rfl

theorem has_mapMembers {f : Step → Step} (hf : ∀ s, (f s).authenticator = s.authenticator)
    {group : StepGroup} {m : Step} (hm : m ∈ (group.mapMembers f).members) :
    group.has m.authenticator := by
  obtain ⟨s, hs, rfl⟩ := List.mem_map.mp hm
  exact ⟨s, hs, (hf s).symm⟩

/-- A step that the request lets apply has a satisfied member of its group beside it. -/
theorem group_satisfied {satisfied : List AuthenticatorName}
    (hcomplete : nextStep (loadSteps seen request) satisfied = .complete) {s : Step}
    (hs : s ∈ loadSteps seen request) (henabled : s.requirement ≠ .disabled)
    (happlicable : s.applicable = true) :
    ∃ group ∈ flowGroups seen.executions, group.has s.authenticator ∧
      ∃ authenticator ∈ satisfied, group.has authenticator := by
  have hf : ∀ s, (judgedStep seen request s).authenticator = s.authenticator := fun _ ↦ rfl
  obtain ⟨group, hgroup, hmember, m, hm, hin⟩ :=
    satisfied_of_complete hcomplete hs henabled happlicable
  rw [loadSteps_groups] at hgroup
  obtain ⟨bare, hbare, rfl⟩ := List.mem_map.mp hgroup
  exact ⟨bare, hbare, has_mapMembers hf hmember, _, hin, has_mapMembers hf hm⟩

/-- A flow that is complete for a subject with a TOTP credential has a passkey, a one-time
code or a recovery code among what is satisfied. -/
theorem secondFactor_of_complete (hotp : OtpEnabled seen.executions)
    (hapart : PasswordApart seen.executions) {u : SubjectId}
    (hsubject : request.subjectId = some u) (htotp : (seen.storedTotpFor u).isSome = true)
    (hcomplete : nextStep (loadSteps seen request) request.satisfied = .complete) :
    .passkey ∈ request.satisfied ∨ .otp ∈ request.satisfied ∨
      .recoveryCode ∈ request.satisfied := by
  have hother : ∀ group ∈ flowGroups seen.executions,
      group.has .otp ∨ group.has .recoveryCode →
      ∀ authenticator ∈ request.satisfied, group.has authenticator →
        .passkey ∈ request.satisfied ∨ .otp ∈ request.satisfied ∨
          .recoveryCode ∈ request.satisfied := by
    intro group hgroup hin authenticator hsatisfied hhas
    cases authenticator with
    | password =>
      obtain ⟨hnotOtp, hnotRecovery⟩ := hapart group hgroup hhas
      exact hin.elim (fun h ↦ absurd h hnotOtp) fun h ↦ absurd h hnotRecovery
    | passkey => exact Or.inl hsatisfied
    | otp => exact Or.inr (Or.inl hsatisfied)
    | recoveryCode => exact Or.inr (Or.inr hsatisfied)
  by_contra hnone
  have hpasskey : .passkey ∉ request.satisfied := fun h ↦ hnone (Or.inl h)
  have hrecovery : .recoveryCode ∉ request.satisfied := fun h ↦ hnone (Or.inr (Or.inr h))
  have hholds : (flowFacts seen request).hasTotp = true := by
    simp [flowFacts, hsubject, htotp]
  have happlies : otpApplies (flowFacts seen request) = true := by
    have hsatisfied : (flowFacts seen request).satisfied = request.satisfied := rfl
    simp [otpApplies, otpApplicable, hholds, hsatisfied, hpasskey]
  obtain ⟨execution, hexecution, hname, henabled⟩ := hotp
  cases hcarries : recoveryCarries seen request with
  | false =>
    -- Nothing stands in for the OTP step, so it applies.
    have hstep : (⟨.otp, execution.requirement, true⟩ : Step) ∈ loadSteps seen request := by
      refine List.mem_map.mpr ⟨execution, hexecution, ?_⟩
      have hjudged : isApplicable (flowFacts seen request) (recoveryCarries seen request) .otp =
          true := by
        have hnot : .recoveryCode ∉ (flowFacts seen request).satisfied := hrecovery
        simp [isApplicable, hcarries, hnot, hholds, happlies]
      rw [hname]
      exact congrArg _ hjudged
    obtain ⟨group, hgroup, hhas, authenticator, hin, hmember⟩ :=
      group_satisfied hcomplete hstep henabled rfl
    exact hnone (hother group hgroup (Or.inl hhas) authenticator hin hmember)
  | true =>
    -- The recovery step stands in for it, so that one applies.
    obtain ⟨hlisted, hrecoveryApplies⟩ := Bool.and_eq_true_iff.mp hcarries
    obtain ⟨recovery, hmem, hkind⟩ := List.any_eq_true.mp hlisted
    obtain ⟨hkey, hon⟩ := of_decide_eq_true hkind
    have hstep : (⟨.recoveryCode, recovery.requirement, true⟩ : Step) ∈
        loadSteps seen request := by
      refine List.mem_map.mpr ⟨recovery, hmem, ?_⟩
      rw [hkey]
      exact congrArg _ hrecoveryApplies
    obtain ⟨group, hgroup, hhas, authenticator, hin, hmember⟩ :=
      group_satisfied hcomplete hstep hon rfl
    exact hnone (hother group hgroup (Or.inr hhas) authenticator hin hmember)

end Flow

section Reports

variable {V : Primitives} {seen : Seen} {id : AuthSessionId} {input : AdvanceInput}

/-- What a call reports a success on: a flow that is complete for the subject. -/
def Reported (seen : Seen) (r : Advanced) : Prop :=
  ∀ u authenticators, r.outcome = .success u authenticators →
    ∃ lookups satisfied offered recovery, (lookups = seen.atStart ∨ lookups = seen.afterFactor) ∧
      (∀ a, a ∈ satisfied → a ∈ authenticators) ∧
      nextStep (loadSteps lookups ⟨some u, satisfied, offered, recovery⟩) satisfied = .complete

variable {satisfied : List AuthenticatorName} {context : StepContext} {lookups : Lookups}
  {steps : List Step}

theorem dispatchNext_yields :
    (dispatchNext V lookups input context steps satisfied).Yields fun dispatched ↦
      dispatched = .complete → nextStep steps satisfied = .complete := by
  rw [dispatchNext]
  split
  case h_1 => exact fun h ↦ by cases h
  case h_2 hcomplete => exact fun _ ↦ hcomplete
  case h_3 => exact yields_of_next fun result h ↦ by cases h

theorem runAuthenticator_nothing
    (authenticator : AuthenticatorName) :
    (runAuthenticator V lookups .nothing context authenticator).Yields fun result ↦
      ∀ u commit, result ≠ .success u commit := by
  cases authenticator with
  | password => simp [runAuthenticator, runPasswordStep, AdvanceInput.nothing]
  | passkey => simp [runAuthenticator, runPasskeyStep, assertionOffered, AdvanceInput.nothing]
  | otp => simp [runAuthenticator, runOtpStep, refusedWhileLocked, totpStep, AdvanceInput.nothing]
  | recoveryCode =>
    simp [runAuthenticator, runRecoveryStep, refusedWhileLocked, recoveryStep,
      recoveryCodeOffered, AdvanceInput.nothing]

theorem dispatchNext_nothing :
    (dispatchNext V lookups .nothing context steps satisfied).Yields fun dispatched ↦
      (dispatched = .complete → nextStep steps satisfied = .complete) ∧
      ∀ authenticator u commit, dispatched ≠ .ran authenticator (.success u commit) := by
  rw [dispatchNext]
  split
  case h_1 =>
    refine ⟨fun h ↦ ?_, fun _ _ _ h ↦ ?_⟩
    · cases h
    · cases h
  case h_2 hcomplete =>
    refine ⟨fun _ ↦ hcomplete, fun _ _ _ h ↦ ?_⟩
    cases h
  case h_3 authenticator _ =>
    refine yields_bind (runAuthenticator_nothing authenticator) fun result hresult ↦ ?_
    refine ⟨fun h ↦ ?_, ?_⟩
    · cases h
    rintro _ u commit ⟨rfl, rfl⟩
    exact hresult u commit rfl

theorem Reported.of_not_success {r : Advanced}
    (h : ∀ u authenticators, r.outcome ≠ .success u authenticators) : Reported seen r :=
  fun u authenticators hsuccess ↦ absurd hsuccess (h u authenticators)

theorem advanceBound_yields
    {authenticator : AuthenticatorName} {subjectId : SubjectId} :
    (advanceBound V seen id input satisfied authenticator subjectId).Yields (Reported seen) := by
  rw [advanceBound]
  refine yields_ask_bind.mpr fun _ ↦ yields_ask_bind.mpr fun _ ↦ yields_ask_bind.mpr fun now ↦ ?_
  refine yields_bind dispatchNext_nothing fun dispatched hdispatched ↦ ?_
  obtain ⟨hcomplete, hnothing⟩ := hdispatched
  cases dispatched with
  | ran offered result =>
    cases result with
    | success u commit => exact absurd rfl (hnothing offered u commit)
    | challenge | failure => exact yields_of_next fun _ ↦ Reported.of_not_success (by simp)
  | fail => exact yields_of_next fun _ ↦ Reported.of_not_success (by simp)
  | complete =>
    refine yields_of_next fun _ ↦ ?_
    rintro _ _ ⟨rfl, rfl⟩
    exact ⟨seen.afterFactor, _, _, _, Or.inr rfl, fun a ha ↦ List.mem_eraseDups.mpr ha,
      hcomplete rfl⟩

theorem advanceRan_yields {record : AuthenticationSession} (dispatched : Dispatch) :
    (advanceRan V seen id input record dispatched).Yields (Reported seen) := by
  cases dispatched with
  | fail | complete => exact Reported.of_not_success (by simp)
  | ran _ result =>
    cases result with
    | failure => exact Reported.of_not_success (by simp)
    | challenge => exact fun _ ↦ Reported.of_not_success (by simp)
    | success =>
      rw [advanceRan]
      split
      case isTrue => exact Reported.of_not_success (by simp)
      case isFalse =>
        split
        case isTrue => exact Reported.of_not_success (by simp)
        case isFalse => exact advanceBound_yields

/-- Every success is reported on a flow that is complete. -/
theorem advance_yields : (advance V seen id input).Yields (Reported seen) := by
  rw [advance]
  refine yields_ask_bind.mpr fun found ↦ yields_ask_bind.mpr fun checkedAt ↦ ?_
  cases found with
  | none => exact Reported.of_not_success (by simp)
  | some record =>
    dsimp only
    split
    case isTrue => exact Reported.of_not_success (by simp)
    case isFalse =>
      refine yields_ask_bind.mpr fun now ↦ yields_bind dispatchNext_yields fun dispatched hcomplete ↦ ?_
      split
      case h_1 subjectId hsubject =>
        split
        case isTrue =>
          intro authenticatedAt _
          rintro _ _ ⟨rfl, rfl⟩
          exact ⟨seen.atStart, record.satisfied, _, _, Or.inl rfl, fun _ ha ↦ ha,
            hsubject ▸ hcomplete rfl⟩
        case isFalse =>
          exact yields_of_next fun dispatched' ↦ advanceRan_yields dispatched'
      case h_2 => exact advanceRan_yields _

end Reports

section Runs

variable {V : Primitives}

/-- A flow in which the OTP step is a second factor. -/
structure DemandsSecondFactor (executions : List Execution) : Prop where
  accepted : Accepted executions
  otpEnabled : OtpEnabled executions
  passwordApart : PasswordApart executions

/-- The flows that a call reads. -/
def Runs (P : List Execution → Prop) (call : AttemptCall) : Prop :=
  match call with
  | .advance _ _ seen => P seen.atStart.executions ∧ P seen.afterFactor.executions
  | .other .. => True

/-- Submissions are made under such flows. -/
abbrev UnderFlows (V : Primitives) (P : List Execution → Prop) (call : AttemptCall) (_ : Rows)
    (_ : List (Answered (attempts V))) : Prop :=
  Runs P call

/-- The subject holds a confirmed TOTP credential throughout the call. -/
def HoldsTotp (seen : Seen) (u : SubjectId) : Prop :=
  (seen.atStart.storedTotpFor u).isSome = true ∧ (seen.afterFactor.storedTotpFor u).isSome = true

instance (seen : Seen) (u : SubjectId) : Decidable (HoldsTotp seen u) :=
  inferInstanceAs (Decidable (_ ∧ _))

/-- Every success of a subject who holds a TOTP credential, on an attempt on which no passkey
was asserted, names a one-time code or a recovery code that the subject passed on it. -/
def SecondFactorPresented (history : List (Answered (attempts V))) : Prop :=
  ∀ answer ∈ history, ∀ id input seen r u authenticators,
    answer.call = .advance id input seen → answer.result = .ok (.advanced r) →
    r.outcome = .success u authenticators → HoldsTotp seen u →
    (∀ u', ¬Passed history id .passkey u') →
    ∃ a ∈ authenticators, (a = .otp ∨ a = .recoveryCode) ∧ Passed history id a u

/-- What an answered call reported its success on. -/
def AttemptReported : AttemptCall → AttemptOutcome → Prop
  | .advance _ _ seen, .advanced r => Reported seen r
  | _, _ => True

theorem body_yields (call : AttemptCall) : (call.body V).Yields (AttemptReported call) := by
  cases call with
  | advance => exact yields_bind advance_yields fun r hr ↦ hr
  | other => exact yields_of_next fun _ ↦ trivial

/-- Submissions made in turn keep the factors those of the bound subject. -/
theorem FactorsOfBoundSubject.turn {s s' : Rows} {history : List (Answered (attempts V))}
    {call : AttemptCall} {result : Except Failure AttemptOutcome} (hs : Unclaimed s)
    (h : FactorsOfBoundSubject s history)
    (hends : (call.body V).Ends Writes.nothing s result s') :
    Unclaimed s' ∧
      FactorsOfBoundSubject s' (⟨history.length, call, result⟩ :: history) := by
  have hguarded : Guarded (.alone (fun s₁ ↦ s₁ = s ∧ Unclaimed s₁) fun (_ : Failure) _ ↦ True) :=
    guarded_alone (fun _ h ↦ h.2) _
  have hwp : (call.body V).wp (.alone (fun s₁ ↦ s₁ = s ∧ Unclaimed s₁) fun _ _ ↦ True)
      Writes.nothing s fun outcome w s₁ ↦ AttemptCommitted call s₁ w (some outcome) := by
    cases call with
    | advance =>
      rw [AttemptCall.body, wp_bind]
      exact wp_mono (fun r w s₁ hwent ↦ .advance hwent) hguarded.wp_advance
    | other _ hops =>
      rw [AttemptCall.body, wp_bind]
      exact wp_mono (fun _ w s₁ hprogress ↦ .other hprogress) (hguarded.wp_runAll hops
        (Ageing.Ages.refl (A := Odudu.AuthnFlows.progress fun _ _ _ ↦ False) s))
  have hpromised := ends_of_wp hends ⟨rfl, hs⟩ hwp
  cases result with
  | error =>
    obtain ⟨⟨rfl, -⟩, -⟩ := hpromised
    exact ⟨hs, factorsOfBoundSubject_effect (.refuse hs trivial) h⟩
  | ok =>
    obtain ⟨w, (s₁ : Rows), ⟨rfl, -⟩, hcommitted, rfl⟩ := hpromised
    exact ⟨hs.progress hcommitted.progresses, factorsOfBoundSubject_effect (.commit hs hcommitted) h⟩

end Runs

section Demos

variable {V : Primitives}

/-- What subject 2 holds, and a recovery code beside it, in a tenant of the given flow. -/
def underFlow (executions : List Execution) : Lookups :=
  { twoSubjects with
    executions
    storedRecoveryCodesFor := fun subjectId ↦ if subjectId = 2 then [⟨30, "0", none⟩] else [] }

/-- Accepted, with an OTP step that is an alternative to the password. -/
def passwordOrOtp : List Execution := [⟨.password, .alternative⟩, ⟨.otp, .alternative⟩]

def submitUnder (executions : List Execution) (input : AdvanceInput) : AttemptCall :=
  .advance 1 input (.steady (underFlow executions))

/-- What a submission was answered, on which attempt, and whether subject 2 holds a TOTP
credential. -/
structure Summary where
  attempt : AuthSessionId
  holdsTotp : Bool
  outcome : AdvanceOutcome
  deriving DecidableEq

def summary (answer : Answered (attempts V)) : Option Summary :=
  match answer.call, answer.result with
  | .advance id _ seen, .ok (.advanced r) => some ⟨id, decide (HoldsTotp seen 2), r.outcome⟩
  | _, _ => none

/-- What submissions made in turn come to, with every factor seen passed in them. -/
structure Answers where
  summaries : List (Option Summary)
  allowed : List Allowed
  deriving DecidableEq

def answers (m : Rows × List (Answered (attempts V))) : Answers :=
  ⟨m.2.map summary, allowedIn m.2⟩

/-- Accepted, the OTP step not disabled. -/
def AcceptedWithOtp (executions : List Execution) : Prop :=
  Accepted executions ∧ OtpEnabled executions

instance (executions : List Execution) : Decidable (AcceptedWithOtp executions) :=
  inferInstanceAs (Decidable (_ ∧ _))

instance (P : List Execution → Prop) [DecidablePred P] (call : AttemptCall) :
    Decidable (Runs P call) := by
  unfold Runs
  split <;> infer_instance

instance (executions : List Execution) : Decidable (DemandsSecondFactor executions) :=
  decidable_of_iff (Accepted executions ∧ OtpEnabled executions ∧ PasswordApart executions)
    ⟨fun h ↦ ⟨h.1, h.2.1, h.2.2⟩, fun h ↦ ⟨h.accepted, h.otpEnabled, h.passwordApart⟩⟩

/-- Submissions made in turn on one attempt, computed. -/
def performUnder (P : List Execution → Prop) [DecidablePred P] (calls : List AttemptCall) :
    Option (Rows × List (Answered (attempts plainPrimitives))) :=
  @Turns.perform (attempts plainPrimitives) (UnderFlows plainPrimitives P) _ oracle calls
    oneAttempt []

/-- In a run of alternatives with the OTP step, the password is enough by itself. -/
theorem passwordOrOtp_run : ∃ m : Rows × List (Answered (attempts plainPrimitives)),
    Turns (attempts plainPrimitives) (UnderFlows _ AcceptedWithOtp) oneAttempt
      m.1 m.2 ∧
    answers m = ⟨[some ⟨1, true, .success 2 [.password]⟩], [(.password, 2)]⟩ := by
  have hend : (performUnder AcceptedWithOtp
      [submitUnder passwordOrOtp presentPassword]).map answers =
        some ⟨[some ⟨1, true, .success 2 [.password]⟩], [(.password, 2)]⟩ := by decide
  obtain ⟨m, hperform, hend⟩ := Option.map_eq_some_iff.mp hend
  exact ⟨m, turns_of_perform .start hperform, hend⟩

end Demos

/-- Over every sequence of submissions under flows in which the OTP step is a second factor:
a success of a subject who holds a TOTP credential, on an attempt on which no passkey was
asserted, names a one-time code or a recovery code that the subject passed on it. -/
theorem second_factor_presented {V : Primitives} {rows : Rows} (hrows : Parked rows) {s : Rows}
    {history : List (Answered (attempts V))}
    (h : Turns (attempts V) (UnderFlows V DemandsSecondFactor) rows s history) :
    SecondFactorPresented history := by
  have hrun : Unclaimed s ∧ FactorsOfBoundSubject s history ∧ ∀ answer ∈ history,
      Runs DemandsSecondFactor answer.call ∧
        ∀ outcome, answer.result = .ok outcome → AttemptReported answer.call outcome := by
    refine h.invariant (P := fun s history ↦ Unclaimed s ∧ FactorsOfBoundSubject s history ∧
      ∀ answer ∈ history, Runs DemandsSecondFactor answer.call ∧
        ∀ outcome, answer.result = .ok outcome → AttemptReported answer.call outcome)
      ⟨hrows.unclaimed, ⟨hrows.listedBy _, by simp⟩, by simp⟩ ?_
    rintro s s' history call result hmay ⟨hs, hfactors, hreported⟩ hends
    obtain ⟨hs', hfactors'⟩ := hfactors.turn hs hends
    refine ⟨hs', hfactors', fun answer hanswer ↦ ?_⟩
    rcases List.mem_cons.mp hanswer with rfl | hbefore
    · exact ⟨hmay, hends.yields (body_yields call)⟩
    · exact hreported answer hbefore
  obtain ⟨-, hfactors, hreported⟩ := hrun
  intro answer hanswer id input seen r u authenticators hcall hresult hsuccess htotp hnone
  have hpassed := hfactors.2 answer hanswer id input seen r u authenticators hcall hresult hsuccess
  obtain ⟨hflow, hreport⟩ := hreported answer hanswer
  rw [hcall] at hflow hreport
  obtain ⟨lookups, satisfied, offered, recovery, hfrom, hlisted, hcomplete⟩ :=
    hreport _ hresult u authenticators hsuccess
  have hat : DemandsSecondFactor lookups.executions ∧ (lookups.storedTotpFor u).isSome = true := by
    rcases hfrom with rfl | rfl
    · exact ⟨hflow.1, htotp.1⟩
    · exact ⟨hflow.2, htotp.2⟩
  rcases secondFactor_of_complete hat.1.otpEnabled hat.1.passwordApart (u := u) rfl hat.2
    hcomplete with hpasskey | hotp | hrecovery
  · exact absurd (hpassed _ (hlisted _ hpasskey)) (hnone u)
  · exact ⟨_, hlisted _ hotp, Or.inl rfl, hpassed _ (hlisted _ hotp)⟩
  · exact ⟨_, hlisted _ hrecovery, Or.inr rfl, hpassed _ (hlisted _ hrecovery)⟩

/-- A subject signs in with a password and then a code, under the flow a tenant is
provisioned with. -/
theorem second_factor_presented_code :
    ∃ m : Rows × List (Answered (attempts plainPrimitives)),
      answers m = ⟨[some ⟨1, true, .success 2 [.password, .otp]⟩, some ⟨1, true, .challenge .otp⟩],
        [(.otp, 2), (.password, 2)]⟩ ∧ SecondFactorPresented m.2 := by
  have hend : (performUnder DemandsSecondFactor
      [submitUnder browserFlowDefault presentPassword,
        submitUnder browserFlowDefault { AdvanceInput.nothing with code := some "123456" }]).map
        answers =
      some ⟨[some ⟨1, true, .success 2 [.password, .otp]⟩, some ⟨1, true, .challenge .otp⟩],
        [(.otp, 2), (.password, 2)]⟩ := by decide
  obtain ⟨m, hperform, hend⟩ := Option.map_eq_some_iff.mp hend
  exact ⟨m, hend, second_factor_presented oneAttempt_parked (turns_of_perform .start hperform)⟩

/-- With no condition on the groups, a subject who holds a TOTP credential may be signed in
on a password alone. -/
theorem second_factor_not_presented : ¬∀ (V : Primitives) (rows s : Rows)
    (history : List (Answered (attempts V))), Parked rows →
      Turns (attempts V) (UnderFlows V AcceptedWithOtp) rows s history →
      SecondFactorPresented history := by
  intro hall
  obtain ⟨⟨s, history⟩, hturns, hanswers⟩ := passwordOrOtp_run
  obtain ⟨hsummary, hallowed⟩ := Answers.mk.inj hanswers
  obtain ⟨answer, rfl, hanswer⟩ := List.map_eq_singleton_iff.mp hsummary
  rw [summary] at hanswer
  split at hanswer
  case h_2 => exact nomatch hanswer
  case h_1 id input seen r hcall hresult =>
    simp only [Option.some.injEq, Summary.mk.injEq, decide_eq_true_eq] at hanswer
    obtain ⟨rfl, htotp, hsuccess⟩ := hanswer
    obtain ⟨a, ha, hkind, -⟩ := hall _ _ s _ oneAttempt_parked hturns answer List.mem_cons_self
      1 input seen r 2 _ hcall hresult hsuccess htotp fun u' hpassed ↦ by
        have hmem := hpassed.mem_allowedIn
        simp only [hallowed] at hmem
        simp at hmem
    obtain rfl := List.mem_singleton.mp ha
    simp at hkind

end Odudu.AuthnFlows
