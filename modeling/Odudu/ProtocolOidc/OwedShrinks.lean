import Odudu.ProtocolOidc.OwedActions

/-!
# What is owed shrinks

A submission that completes an action leaves the subject owing less (`Completes.weight_lt`):
the action itself is gone, and the one action that may be new, the recovery codes that a first
TOTP asks for, weighs less than the TOTP that was owed.  Nothing in the middle of a login adds
to the weight, so a login completes as many actions as its subject's weight at most
(`completed_actions_shrink`).

The TOTP action of a subject who already holds one is answered as completed and is left out of
all this.
-/

set_option autoImplicit false

namespace Odudu.ProtocolOidc.OwedActions

open AuthnFlows DomainIdentity

/-! ### Weights -/

/-- What is owed, an action counting once and the TOTP, which asks for codes, twice. -/
def SubjectRows.weight (held : SubjectRows) : ℕ :=
  (held.owed .updatePassword).toNat + 2 * (held.owed .configureTotp).toNat +
    (held.owed .configurePasskey).toNat + (held.owed .generateRecoveryCodes).toNat

/-- No codes stand in for the factor. -/
def SubjectRows.codeless (held : SubjectRows) : Prop := held.recoveryStanding.unspent = 0

/-- One action is completed. -/
structure Completes (action : RequiredAction) (held after : SubjectRows) : Prop where
  wasOwed : held.owed action = true
  completed : after.owed action = false
  others : ∀ other, after.owed other = true → held.owed other = true ∨
    action = .configureTotp ∧ other = .generateRecoveryCodes ∧ held.codeless

section Weights

variable {held after : SubjectRows} {action : RequiredAction}

theorem toNat_le {b b' : Bool} (h : b = true → b' = true) : b.toNat ≤ b'.toNat := by
  cases b with
  | false => exact Nat.zero_le _
  | true => exact Nat.le_of_eq (congrArg Bool.toNat (h rfl).symm)

theorem weight_le (h : ∀ other, after.owed other = true → held.owed other = true) :
    after.weight ≤ held.weight := by
  have hpassword := toNat_le (h .updatePassword)
  have htotp := toNat_le (h .configureTotp)
  have hpasskey := toNat_le (h .configurePasskey)
  have hcodes := toNat_le (h .generateRecoveryCodes)
  unfold SubjectRows.weight
  omega

theorem weight_le_five : held.weight ≤ 5 := by
  have hpassword := Bool.toNat_le (held.owed .updatePassword)
  have htotp := Bool.toNat_le (held.owed .configureTotp)
  have hpasskey := Bool.toNat_le (held.owed .configurePasskey)
  have hcodes := Bool.toNat_le (held.owed .generateRecoveryCodes)
  unfold SubjectRows.weight
  omega

/-- Completing an action leaves less. -/
theorem Completes.weight_lt (h : Completes action held after) : after.weight < held.weight := by
  have hothers : ∀ other, other ≠ .generateRecoveryCodes →
      (after.owed other).toNat ≤ (held.owed other).toNat := by
    intro other hother
    refine toNat_le fun howed ↦ ?_
    rcases h.others other howed with hold | ⟨-, hcodes, -⟩
    · exact hold
    · exact absurd hcodes hother
  have hpassword := hothers .updatePassword nofun
  have htotp := hothers .configureTotp nofun
  have hpasskey := hothers .configurePasskey nofun
  have hdone : (after.owed action).toNat = 0 := by simp [h.completed]
  have hwas : (held.owed action).toNat = 1 := by simp [h.wasOwed]
  have hcodes : action ≠ .configureTotp → (after.owed .generateRecoveryCodes).toNat ≤
      (held.owed .generateRecoveryCodes).toNat := by
    intro haction
    refine toNat_le fun howed ↦ ?_
    rcases h.others _ howed with hold | ⟨htotp, -⟩
    · exact hold
    · exact absurd htotp haction
  have hone := Bool.toNat_le (after.owed .generateRecoveryCodes)
  unfold SubjectRows.weight
  cases action with
  | configureTotp => omega
  | updatePassword | configurePasskey | generateRecoveryCodes =>
    have := hcodes nofun
    omega

theorem Completes.of_shrunk {gated : SubjectRows} (h : Completes action gated after)
    (howed : ∀ other, gated.owed other = true → held.owed other = true)
    (hcodes : gated.recoveryCodes = held.recoveryCodes) : Completes action held after where
  wasOwed := howed _ h.wasOwed
  completed := h.completed
  others := by
    intro other hother
    rcases h.others other hother with hold | ⟨htotp, hnew, hcodeless⟩
    · exact Or.inl (howed other hold)
    · refine Or.inr ⟨htotp, hnew, ?_⟩
      unfold SubjectRows.codeless SubjectRows.recoveryStanding at hcodeless ⊢
      rwa [hcodes] at hcodeless

end Weights

/-! ### One repository call -/

section Calls

variable {rows : Rows} {subjectId other : SubjectId} {held : SubjectRows}
  {action : RequiredAction}

@[simp] theorem amend_self (f : SubjectRows → SubjectRows) :
    (rows.amend subjectId f).subjects subjectId = f (rows.subjects subjectId) :=
  Function.update_self ..

theorem amend_of_ne (h : other ≠ subjectId) (f : SubjectRows → SubjectRows) :
    (rows.amend subjectId f).subjects other = rows.subjects other :=
  Function.update_of_ne h ..

variable {asked : RequiredAction}

theorem owed_complete :
    (held.complete action).owed asked = true ↔ asked ≠ action ∧ held.owed asked = true := by
  unfold SubjectRows.complete
  by_cases hasked : asked = action
  · simp [hasked]
  · simp [hasked]

theorem owed_add :
    (held.add action).owed asked = true ↔ asked = action ∨ held.owed asked = true := by
  unfold SubjectRows.add
  by_cases hasked : asked = action
  · simp [hasked]
  · simp [hasked]

theorem completes_complete (howed : held.owed action = true) :
    Completes action held (held.complete action) where
  wasOwed := howed
  completed := by simp [SubjectRows.complete]
  others := fun other hother ↦ Or.inl (owed_complete.mp hother).2

theorem owed_of_next {owed : List RequiredAction} (h : nextRequiredAction owed = some action) :
    action ∈ owed := by
  have hfound := List.find?_some h
  simpa using hfound

/-- What the gate leaves of a subject. -/
structure Gated (held gated : SubjectRows) : Prop where
  owed : ∀ asked, gated.owed asked = true → held.owed asked = true
  totps : gated.totps = held.totps
  recoveryCodes : gated.recoveryCodes = held.recoveryCodes

theorem gated_refl (held : SubjectRows) : Gated held held := ⟨fun _ howed ↦ howed, rfl, rfl⟩

theorem gated_complete (held : SubjectRows) (action : RequiredAction) :
    Gated held (held.complete action) :=
  ⟨fun _ howed ↦ (owed_complete.mp howed).2, rfl, rfl⟩

/-- The gate reads, or clears the codes on its way. -/
theorem pendingActionsFor_cases (rows : Rows) (subjectId : SubjectId) :
    pendingActionsFor rows subjectId = (pendingFor rows subjectId, rows) ∨
      pendingActionsFor rows subjectId =
        ((pendingFor rows subjectId).filter fun action ↦
            decide (action ≠ RequiredAction.generateRecoveryCodes),
          rows.amend subjectId (.complete .generateRecoveryCodes)) := by
  unfold pendingActionsFor
  simp only
  split
  · exact Or.inl rfl
  · split
    · exact Or.inl rfl
    · exact Or.inr rfl

theorem gated_pendingActionsFor (subject : SubjectId) :
    Gated (rows.subjects subject) ((pendingActionsFor rows subjectId).2.subjects subject) := by
  rcases pendingActionsFor_cases rows subjectId with hread | hcleared
  · rw [hread]
    exact gated_refl _
  · rw [hcleared]
    by_cases hsubject : subject = subjectId
    · subst hsubject
      rw [amend_self]
      exact gated_complete _ _
    · rw [amend_of_ne hsubject]
      exact gated_refl _

theorem pendingActionsFor_of_ne (h : other ≠ subjectId) :
    (pendingActionsFor rows subjectId).2.subjects other = rows.subjects other := by
  rcases pendingActionsFor_cases rows subjectId with hread | hcleared
  · rw [hread]
  · rw [hcleared]
    exact amend_of_ne h _

/-- The page that shows codes asks for nothing. -/
theorem owed_of_beginRecoveryCodes {subject : SubjectId} {codes : List StoredRecoveryCode}
    (h : ((beginRecoveryCodes rows subjectId codes).subjects subject).owed action = true) :
    (rows.subjects subject).owed action = true := by
  by_cases hsubject : subject = subjectId
  · subst hsubject
    unfold beginRecoveryCodes at h
    split at h
    · rw [amend_self] at h
      exact h
    · rw [amend_self] at h
      exact (owed_complete.mp h).2
  · unfold beginRecoveryCodes at h
    split at h
    · rw [amend_of_ne hsubject] at h
      exact h
    · rw [amend_of_ne hsubject] at h
      exact h

theorem mem_pendingFor_iff : action ∈ pendingFor rows subjectId ↔
    (rows.subjects subjectId).owed action = true := by
  have hmem : action ∈ requiredActionOrder := by cases action <;> decide
  simp [pendingFor, hmem]

/-- What the gate reads is owed after it. -/
theorem owed_of_pendingActionsFor (h : action ∈ (pendingActionsFor rows subjectId).1) :
    ((pendingActionsFor rows subjectId).2.subjects subjectId).owed action = true := by
  rcases pendingActionsFor_cases rows subjectId with hread | hcleared
  · rw [hread] at h ⊢
    exact mem_pendingFor_iff.mp h
  · rw [hcleared] at h ⊢
    obtain ⟨hread, hother⟩ := List.mem_filter.mp h
    rw [amend_self]
    exact owed_complete.mpr ⟨of_decide_eq_true hother, mem_pendingFor_iff.mp hread⟩

end Calls

/-! ### Completions -/

section Completions

variable {deps : SubmissionDeps} {rows : Rows} {id : AuthSessionId} {subjectId : SubjectId}
  {submission : RequiredActionSubmission}

/-- What a completion makes of the rows: it answers completed and the action is, or the
subject owes what it owed.  The rows of other subjects are left alone. -/
structure Handles (action : RequiredAction) (subjectId : SubjectId) (rows : Rows)
    (answered : RequiredActionOutcome × Rows) : Prop where
  completed : ∀ id, answered.1 = .completed id →
    Completes action (rows.subjects subjectId) (answered.2.subjects subjectId) ∨
      action = .configureTotp ∧ (rows.subjects subjectId).totps ≠ []
  lighter : (answered.2.subjects subjectId).weight ≤ (rows.subjects subjectId).weight
  others : ∀ other, other ≠ subjectId → answered.2.subjects other = rows.subjects other

variable {action : RequiredAction} {after : Rows}

theorem handles_same {outcome : RequiredActionOutcome}
    (hsubjects : after.subjects = rows.subjects) (hnot : ∀ id, outcome ≠ .completed id) :
    Handles action subjectId rows (outcome, after) where
  completed := fun id hcompleted ↦ absurd hcompleted (hnot id)
  lighter := Nat.le_of_eq (congrArg (fun subjects ↦ (subjects subjectId).weight) hsubjects)
  others := fun other _ ↦ congrFun hsubjects other

theorem handles_completed
    (h : Completes action (rows.subjects subjectId) (after.subjects subjectId))
    (hothers : ∀ other, other ≠ subjectId → after.subjects other = rows.subjects other) :
    Handles action subjectId rows (.completed id, after) where
  completed := fun _ _ ↦ Or.inl h
  lighter := Nat.le_of_lt h.weight_lt
  others := hothers

theorem handles_acknowledgeRecoveryCodes
    (howed : (rows.subjects subjectId).owed .generateRecoveryCodes = true) :
    Handles .generateRecoveryCodes subjectId rows (acknowledgeRecoveryCodes rows id subjectId) := by
  unfold acknowledgeRecoveryCodes completeRecoveryCodes
  split_ifs with hheld
  · exact handles_same rfl nofun
  · refine handles_completed ?_ fun other hother ↦ amend_of_ne hother _
    rw [amend_self]
    exact completes_complete howed

theorem handles_completePasskey
    (howed : (rows.subjects subjectId).owed .configurePasskey = true) :
    Handles .configurePasskey subjectId rows
      (completePasskey deps rows id subjectId submission) := by
  unfold completePasskey
  split
  case h_1 => exact handles_same rfl nofun
  case h_2 relyingParty _ =>
    unfold completePasskeyEnrolment
    simp only
    split
    case h_1 => exact handles_same rfl nofun
    case h_2 challenge _ =>
      split
      case h_1 => exact handles_same rfl nofun
      case h_2 response _ =>
        split
        case h_1 => exact handles_same rfl nofun
        case h_2 verified _ =>
          split
          · exact handles_same rfl nofun
          · refine handles_completed ?_ fun other hother ↦ Function.update_of_ne hother ..
            change Completes _ _ (Function.update rows.subjects subjectId
              ((rows.subjects subjectId).complete .configurePasskey) subjectId)
            rw [Function.update_self]
            exact completes_complete howed

variable {held : SubjectRows}

theorem owed_oweRecoveryCodesIfNoneUnspent {asked : RequiredAction} :
    held.oweRecoveryCodesIfNoneUnspent.owed asked = true ↔
      held.owed asked = true ∨ asked = .generateRecoveryCodes ∧ held.codeless := by
  unfold SubjectRows.oweRecoveryCodesIfNoneUnspent SubjectRows.codeless
  split
  case isTrue hunspent =>
    have hnot : held.recoveryStanding.unspent ≠ 0 := Nat.ne_of_gt hunspent
    simp [hnot]
  case isFalse hnone =>
    have hzero : held.recoveryStanding.unspent = 0 := Nat.eq_zero_of_not_pos hnone
    rw [owed_add, or_comm]
    simp [hzero]

/-- A first TOTP completes its action, and asks for codes where none are left. -/
theorem completes_enrolled (howed : held.owed .configureTotp = true)
    (secret : TotpSecret) :
    Completes .configureTotp held
      (({ held with totps := secret :: held.totps }).complete
        .configureTotp).oweRecoveryCodesIfNoneUnspent where
  wasOwed := howed
  completed := by
    rw [← Bool.not_eq_true, owed_oweRecoveryCodesIfNoneUnspent, owed_complete]
    simp
  others := by
    intro other hother
    rcases owed_oweRecoveryCodesIfNoneUnspent.mp hother with hold | ⟨hcodes, hcodeless⟩
    · exact Or.inl (owed_complete.mp hold).2
    · exact Or.inr ⟨rfl, hcodes, hcodeless⟩

theorem handles_enrolTotp (howed : (rows.subjects subjectId).owed .configureTotp = true) :
    Handles .configureTotp subjectId rows (enrolTotp deps rows id subjectId submission) := by
  unfold enrolTotp completeTotpEnrolment
  simp only
  split
  case isTrue hheld =>
    refine ⟨fun _ _ ↦ Or.inr ⟨rfl, ?_⟩, Nat.le_refl _, fun _ _ ↦ rfl⟩
    exact List.ne_nil_of_length_pos hheld
  case isFalse =>
    split
    case isTrue => exact handles_same rfl nofun
    case isFalse =>
      split
      case h_1 => exact handles_same rfl nofun
      case h_2 step _ =>
        refine handles_completed ?_ fun other hother ↦ Function.update_of_ne hother ..
        change Completes _ _ (Function.update rows.subjects subjectId _ subjectId)
        rw [Function.update_self]
        exact completes_enrolled howed _

/-- A password is rejected, or one has landed and the action is completed. -/
theorem completeUpdatePassword_cases {password : String} {changed : UpdatePasswordOutcome}
    (h : completeUpdatePassword deps rows subjectId password = .ok (changed, after)) :
    (∃ violations, changed = .rejected violations ∧ after = rows) ∨
      ∃ held : SubjectRows, held.owed = (rows.subjects subjectId).owed ∧
        after = rows.amend subjectId fun _ ↦ held.complete .updatePassword := by
  unfold completeUpdatePassword at h
  simp only at h
  split at h
  case h_1 => exact nomatch h
  case h_2 user _ =>
    split at h
    case isTrue =>
      obtain ⟨rfl, rfl⟩ := Prod.mk.inj (Except.ok.inj h)
      exact Or.inl ⟨_, rfl, rfl⟩
    case isFalse =>
      split at h
      case h_1 => exact nomatch h
      case h_2 current _ =>
        split at h
        case isTrue =>
          obtain ⟨rfl, rfl⟩ := Prod.mk.inj (Except.ok.inj h)
          exact Or.inl ⟨_, rfl, rfl⟩
        case isFalse =>
          obtain ⟨-, rfl⟩ := Prod.mk.inj (Except.ok.inj h)
          refine Or.inr ⟨_, ?_, rfl⟩
          unfold SubjectRows.rotatePassword
          split <;> rfl

variable {answered : RequiredActionOutcome × Rows}

/-- A password changed at sign-in is no longer owed. -/
theorem handles_changePassword
    (howed : (rows.subjects subjectId).owed .updatePassword = true)
    (h : changePassword deps rows id subjectId submission = .ok answered) :
    Handles .updatePassword subjectId rows answered := by
  unfold changePassword at h
  cases hupdate : completeUpdatePassword deps rows subjectId (submission.password.getD "") with
  | error =>
    rw [hupdate] at h
    exact nomatch h
  | ok updated =>
    obtain ⟨changed, after⟩ := updated
    rw [hupdate] at h
    rcases completeUpdatePassword_cases hupdate with ⟨violations, rfl, rfl⟩ | ⟨held, hheld, rfl⟩
    · obtain rfl := Except.ok.inj h
      exact handles_same rfl nofun
    · have hcompletes : Completes .updatePassword (rows.subjects subjectId)
          (held.complete .updatePassword) := by
        have hshrunk := @completes_complete held .updatePassword (hheld ▸ howed)
        exact ⟨howed, hshrunk.completed, fun other hother ↦
          Or.inl (hheld ▸ (owed_complete.mp hother).2)⟩
      have hhandles : ∀ outcome, Handles .updatePassword subjectId rows
          (outcome, rows.amend subjectId fun _ ↦ held.complete .updatePassword) := by
        intro outcome
        refine ⟨fun _ _ ↦ Or.inl ?_, Nat.le_of_lt ?_, fun other hother ↦
          amend_of_ne hother fun _ ↦ held.complete .updatePassword⟩
        · rw [amend_self]
          exact hcompletes
        · rw [amend_self]
          exact hcompletes.weight_lt
      cases changed with
      | updated | superseded | rejected =>
        obtain rfl := Except.ok.inj h
        exact hhandles _

theorem handles_completeOwed
    (howed : (rows.subjects subjectId).owed action = true)
    (h : completeOwed deps rows id subjectId submission action = .ok answered) :
    Handles action subjectId rows answered := by
  cases action with
  | updatePassword => exact handles_changePassword howed h
  | configureTotp =>
    obtain rfl := Except.ok.inj h
    exact handles_enrolTotp howed
  | configurePasskey =>
    obtain rfl := Except.ok.inj h
    exact handles_completePasskey howed
  | generateRecoveryCodes =>
    obtain rfl := Except.ok.inj h
    exact handles_acknowledgeRecoveryCodes howed

/-- A submission is stopped at the gate, or completes the action owed next. -/
theorem handleRequiredActionSubmission_cases
    (h : handleRequiredActionSubmission deps rows submission = .ok answered) :
    ((∀ id, answered.1 ≠ .completed id) ∧
      ∀ subject, Gated (rows.subjects subject) (answered.2.subjects subject)) ∨
    ∃ id subjectId action, submission.authSessionId = some id ∧
      deps.authenticatedSubject rows id = some subjectId ∧
      submission.action = some action.name ∧
      ((pendingActionsFor rows subjectId).2.subjects subjectId).owed action = true ∧
      completeOwed deps (pendingActionsFor rows subjectId).2 id subjectId submission action =
        .ok answered := by
  unfold handleRequiredActionSubmission at h
  split at h
  case h_1 =>
    obtain rfl := Except.ok.inj h
    exact Or.inl ⟨nofun, fun _ ↦ gated_refl _⟩
  case h_2 id hid =>
    split at h
    case isTrue =>
      obtain rfl := Except.ok.inj h
      exact Or.inl ⟨nofun, fun _ ↦ gated_refl _⟩
    case isFalse =>
      split at h
      case h_1 =>
        obtain rfl := Except.ok.inj h
        exact Or.inl ⟨nofun, fun _ ↦ gated_refl _⟩
      case h_2 subjectId hsubject =>
        simp only at h
        split at h
        case h_1 =>
          obtain rfl := Except.ok.inj h
          exact Or.inl ⟨nofun, fun _ ↦ gated_pendingActionsFor _⟩
        case h_2 next hnext =>
          split at h
          case isFalse =>
            obtain rfl := Except.ok.inj h
            exact Or.inl ⟨nofun, fun _ ↦ gated_pendingActionsFor _⟩
          case isTrue hnamed =>
            exact Or.inr ⟨id, subjectId, next, hid, hsubject, hnamed,
              owed_of_pendingActionsFor (owed_of_next hnext), h⟩

end Completions

/-! ### Logins -/

/-- The subject for whom a submission completed an action, and the action. -/
def completedBy (rows : Rows) : SignInStep → Option (SubjectId × String)
  | .submits deps submission =>
    match handleRequiredActionSubmission deps rows submission with
    | .ok (.completed _, _) =>
      (submission.authSessionId.bind (deps.authenticatedSubject rows)).bind fun subjectId ↦
        submission.action.map fun action ↦ (subjectId, action)
    | _ => none
  | _ => none

/-- An action was completed for the subject, and not the TOTP of one who holds one. -/
def achieves (subjectId : SubjectId) (rows : Rows) (step : SignInStep) : Bool :=
  match completedBy rows step with
  | none => false
  | some (completedFor, action) =>
    decide (completedFor = subjectId) &&
      !(decide (action = RequiredAction.configureTotp.name) &&
        !(rows.subjects subjectId).totps.isEmpty)

/-- How many actions a login completes for the subject. -/
def achieved (subjectId : SubjectId) : Rows → List SignInStep → ℕ
  | _, [] => 0
  | rows, step :: steps =>
    achieved subjectId (step.after rows) steps + (achieves subjectId rows step).toNat

/-- The rows after the steps. -/
def afterAll : Rows → List SignInStep → Rows
  | rows, [] => rows
  | rows, step :: steps => afterAll (step.after rows) steps

/-- What a submission that completes an action makes of the rows of its subject. -/
structure Completed (deps : SubmissionDeps) (rows : Rows) (submission : RequiredActionSubmission)
    (after : Rows) (subjectId : SubjectId) (action : RequiredAction) : Prop where
  subject : submission.authSessionId.bind (deps.authenticatedSubject rows) = some subjectId
  named : submission.action = some action.name
  owed : (rows.subjects subjectId).owed action = true
  others : ∀ other, other ≠ subjectId → after.subjects other = rows.subjects other
  lighter : (after.subjects subjectId).weight ≤ (rows.subjects subjectId).weight
  completes : ¬ (action = .configureTotp ∧ (rows.subjects subjectId).totps ≠ []) →
    Completes action (rows.subjects subjectId) (after.subjects subjectId)

section Logins

variable {deps : SubmissionDeps} {rows : Rows} {submission : RequiredActionSubmission}
  {subjectId : SubjectId} {answered : RequiredActionOutcome × Rows}

/-- What is completed after the gate is completed. -/
theorem completed_of_completeOwed {id : AuthSessionId} {action : RequiredAction}
    (hid : submission.authSessionId = some id)
    (hsubject : deps.authenticatedSubject rows id = some subjectId)
    (hnamed : submission.action = some action.name)
    (hgated : ((pendingActionsFor rows subjectId).2.subjects subjectId).owed action = true)
    (h : completeOwed deps (pendingActionsFor rows subjectId).2 id subjectId submission action =
      .ok answered) :
    ((answered.2.subjects subjectId).weight ≤ (rows.subjects subjectId).weight ∧
      ∀ other, other ≠ subjectId → answered.2.subjects other = rows.subjects other) ∧
    ∀ answeredId, answered.1 = .completed answeredId →
      Completed deps rows submission answered.2 subjectId action := by
  have hgate : Gated (rows.subjects subjectId)
    ((pendingActionsFor rows subjectId).2.subjects subjectId) := gated_pendingActionsFor subjectId
  have hhandles := handles_completeOwed hgated h
  have hlighter := Nat.le_trans hhandles.lighter (weight_le hgate.owed)
  have hothers : ∀ other, other ≠ subjectId → answered.2.subjects other = rows.subjects other :=
    fun other hother ↦ (hhandles.others other hother).trans (pendingActionsFor_of_ne hother)
  refine ⟨⟨hlighter, hothers⟩, fun answeredId hanswered ↦ ?_⟩
  refine ⟨?_, hnamed, hgate.owed action hgated, hothers, hlighter, fun hnot ↦ ?_⟩
  · rw [hid]
    exact hsubject
  · rcases hhandles.completed answeredId hanswered with hcompletes | ⟨htotp, hheld⟩
    · exact hcompletes.of_shrunk hgate.owed hgate.recoveryCodes
    · exact absurd ⟨htotp, hgate.totps ▸ hheld⟩ hnot

theorem completed_of_handle {id : AuthSessionId} {after : Rows}
    (h : handleRequiredActionSubmission deps rows submission = .ok (.completed id, after)) :
    ∃ subjectId action, Completed deps rows submission after subjectId action := by
  rcases handleRequiredActionSubmission_cases h with
    ⟨hnot, -⟩ | ⟨id', subjectId, action, hid, hsubject, hnamed, hgated, hcompleted⟩
  · exact absurd rfl (hnot id)
  · exact ⟨subjectId, action,
      (completed_of_completeOwed hid hsubject hnamed hgated hcompleted).2 id rfl⟩

theorem after_submits_of_ok
    (h : handleRequiredActionSubmission deps rows submission = .ok answered) :
    SignInStep.after rows (.submits deps submission) = answered.2 := by
  simp only [SignInStep.after, h]

/-- No step of a login adds to what is owed. -/
theorem after_weight_le (step : SignInStep) :
    ((step.after rows).subjects subjectId).weight ≤ (rows.subjects subjectId).weight := by
  cases step with
  | submits deps submission =>
    cases hanswered : handleRequiredActionSubmission deps rows submission with
    | error =>
      simp only [SignInStep.after, hanswered]
      exact Nat.le_refl _
    | ok =>
      rw [after_submits_of_ok hanswered]
      rcases handleRequiredActionSubmission_cases hanswered with
        ⟨-, hgated⟩ | ⟨id, completedFor, action, hid, hsubject, hnamed, hgated, hcompleted⟩
      · exact weight_le (hgated subjectId).owed
      · obtain ⟨⟨hlighter, hothers⟩, -⟩ :=
          completed_of_completeOwed hid hsubject hnamed hgated hcompleted
        by_cases hfor : subjectId = completedFor
        · rw [hfor]
          exact hlighter
        · exact Nat.le_of_eq (congrArg SubjectRows.weight (hothers subjectId hfor))
  | resumes => exact weight_le (gated_pendingActionsFor subjectId).owed
  | showsCodes => exact weight_le fun _ howed ↦ owed_of_beginRecoveryCodes howed
  | offersPasskey => exact Nat.le_refl _

/-- An action that is completed weighs on the subject no more. -/
theorem achieves_weight_lt {step : SignInStep} (h : achieves subjectId rows step = true) :
    ((step.after rows).subjects subjectId).weight < (rows.subjects subjectId).weight := by
  cases step with
  | submits deps submission =>
    unfold achieves completedBy at h
    cases hanswered : handleRequiredActionSubmission deps rows submission with
    | error => simp [hanswered] at h
    | ok answered =>
      obtain ⟨outcome, after⟩ := answered
      cases outcome with
      | completed =>
        obtain ⟨completedFor, action, hcompleted⟩ := completed_of_handle hanswered
        simp only [hanswered, hcompleted.subject, hcompleted.named, Option.bind_some,
          Option.map_some, Bool.and_eq_true, decide_eq_true_eq] at h
        obtain ⟨rfl, hnot⟩ := h
        rw [after_submits_of_ok hanswered]
        refine (hcompleted.completes ?_).weight_lt
        rintro ⟨rfl, hheld⟩
        simp [hheld] at hnot
      | _ => simp [hanswered] at h
  | _ => simp [achieves, completedBy] at h

/-- A login completes as many actions as its subject's weight at most. -/
theorem achieved_add_weight_le (rows : Rows) (steps : List SignInStep) :
    achieved subjectId rows steps + ((afterAll rows steps).subjects subjectId).weight ≤
      (rows.subjects subjectId).weight := by
  induction steps generalizing rows with
  | nil => simp [achieved, afterAll]
  | cons step _ ih =>
    have hrest := ih (step.after rows)
    have hstep : (achieves subjectId rows step).toNat +
        ((step.after rows).subjects subjectId).weight ≤ (rows.subjects subjectId).weight := by
      cases hachieves : achieves subjectId rows step with
      | false => simpa using after_weight_le step
      | true =>
        have hlt := achieves_weight_lt hachieves
        simp only [Bool.toNat_true]
        omega
    simp only [achieved, afterAll]
    omega

/-- The TOTP action of a subject who holds one is answered as completed, and stays. -/
theorem still_owed_of_held {id : AuthSessionId}
    (hheld : (rows.subjects subjectId).totps ≠ []) :
    enrolTotp deps rows id subjectId submission = (.completed id, rows) := by
  have hlength : (rows.subjects subjectId).totps.length > 0 := List.length_pos_iff.mpr hheld
  simp [enrolTotp, completeTotpEnrolment, hlength]

end Logins

/-- A submission that reports an action completed leaves it owed no more and adds none but the
recovery codes of a first TOTP, the TOTP of a subject who holds one apart; so each leaves less,
and a login completes as many actions as its subject's weight, which is five at most. -/
theorem completed_actions_shrink :
    (∀ deps rows submission id after,
      handleRequiredActionSubmission deps rows submission = .ok (.completed id, after) →
        ∃ subjectId action, Completed deps rows submission after subjectId action ∧
          (¬ (action = .configureTotp ∧ (rows.subjects subjectId).totps ≠ []) →
            (after.subjects subjectId).owed action = false ∧
            (∀ other, (after.subjects subjectId).owed other = true →
              (rows.subjects subjectId).owed other = true ∨
                action = .configureTotp ∧ other = .generateRecoveryCodes ∧
                  (rows.subjects subjectId).codeless) ∧
            (after.subjects subjectId).weight < (rows.subjects subjectId).weight)) ∧
    ∀ subjectId rows steps,
      achieved subjectId rows steps + ((afterAll rows steps).subjects subjectId).weight ≤
        (rows.subjects subjectId).weight ∧
      (rows.subjects subjectId).weight ≤ 5 := by
  constructor
  · intro deps rows submission id after h
    obtain ⟨subjectId, action, hcompleted⟩ := completed_of_handle h
    refine ⟨subjectId, action, hcompleted, fun hnot ↦ ?_⟩
    have hcompletes := hcompleted.completes hnot
    exact ⟨hcompletes.completed, hcompletes.others, hcompletes.weight_lt⟩
  · intro subjectId rows steps
    exact ⟨achieved_add_weight_le rows steps, weight_le_five⟩

/-- Every code is six zeroes. -/
def zeroes : Primitives where
  verifyPassword := fun _ _ ↦ false
  normalisePassword := id
  totpCode := fun _ _ ↦ "000000"
  verifyAssertion := fun _ _ _ _ ↦ none
  toUpperCase := id

/-- The first session is of the first subject. -/
def onlyTotp : SubmissionDeps where
  tenantEnabled := true
  authenticatedSubject := fun _ _ ↦ some 1
  V := zeroes
  now := 0
  policy := ⟨"tenant", 8, false, false, false, false, false, false, 0⟩
  hasher := ⟨⟨id, id, id, fun _ ↦ false⟩, fun _ plain ↦ plain, fun hash plain ↦ hash == plain⟩
  salt := 0
  relyingParty := none
  parseRegistrationResponse := fun _ ↦ none
  verifyPasskeyRegistration := fun _ _ _ ↦ none

/-- Asked by an administrator for a TOTP. -/
def askedForTotp : Rows where
  subjects := fun _ ↦ SubjectRows.replaceAll [.configureTotp]
    ⟨some ⟨"ada", none⟩, some "password", [], [], [], fun _ ↦ false⟩
  passkeys := fun _ ↦ none
  challenges := fun _ ↦ none
  satisfied := fun _ ↦ [.password]

def firstCode : RequiredActionSubmission where
  authSessionId := some 1
  action := some "configure-totp"
  secret := some "AAAAAAAAAAAAAAAA"
  code := some "000000"
  password := none
  credential := none

/-- Enrolling a first TOTP asks for recovery codes. -/
theorem enrolment_asks_for_codes : ¬ ∀ deps rows submission id after,
    handleRequiredActionSubmission deps rows submission = .ok (.completed id, after) →
      ∀ subjectId action, deps.authenticatedSubject rows id = some subjectId →
        submission.action = some action.name →
          (after.subjects subjectId).owed action = false ∧
            ∀ other, (after.subjects subjectId).owed other = true →
              (rows.subjects subjectId).owed other = true := by
  intro hclaim
  have hanswered : ∃ after,
      handleRequiredActionSubmission onlyTotp askedForTotp firstCode = .ok (.completed 1, after) ∧
        (after.subjects 1).owed .generateRecoveryCodes = true := ⟨_, rfl, rfl⟩
  obtain ⟨after, hcompleted, hnew⟩ := hanswered
  have hold := (hclaim onlyTotp askedForTotp firstCode 1 after hcompleted 1 .configureTotp rfl
    rfl).2 .generateRecoveryCodes hnew
  exact nomatch hold

end Odudu.ProtocolOidc.OwedActions
