import Odudu.AuthnFlows.Progress

/-!
# What a call of `advance` does to its attempt

`advance` decides on the row as it was read and writes in several statements.  Under
rules by which each binding lands on a row it may bind (`Guarded`), everything it commits
is the progress of the factors it saw passed, and the factors it answers a success with
are those and the ones the row already listed for that subject (`wp_advance`).

Two kinds of rules are guarded: those of a discipline that lets a binding run only on
such a row, and those of a request that runs by itself, for which the row is as it was
read.
-/

set_option autoImplicit false

namespace Odudu.AuthnFlows

open ReadCommitted Program ProtocolOidc

/-- Nobody else commits between the statements. -/
def Alone (R : Rules database Failure) : Prop := ∀ (w : Writes database) (s s' : Rows),
  R.rely w s s' → s' = s

/-- The others only let attempts progress, and a binding lands on a row it may bind. -/
structure Guarded (R : Rules database Failure) : Prop where
  governs : (progress anything).Governs Unclaimed R
  binds : Alone R ∨ ∀ id u (s : Rows), R.mayRun (.authenticationSessionBindSubject id u) s →
    boundTo s id = none ∨ boundTo s id = some u

/-- A call of `advance` that runs by itself, over rows of which more may be known, is
guarded. -/
theorem guarded_alone {P : Rows → Prop} (hP : ∀ s, P s → Unclaimed s)
    (owesThrow : Failure → Rows → Prop) : Guarded (.alone P owesThrow) where
  governs := by
    rintro w s s' ⟨rfl, hs⟩
    exact ⟨.refl w s', hP s' hs⟩
  binds := Or.inl fun _ _ _ h ↦ h.1

/-- What a call has done to the attempt, and what it answers with. -/
structure Went (id : AuthSessionId) (r : Advanced) (w : Writes database) (s : Rows) : Prop where
  progresses : Progresses (passedOn id r.allowed) s (s.after w)
  accounted : ∀ u authenticators, r.outcome = .success u authenticators →
    ∀ a ∈ authenticators, (a, u) ∈ r.allowed ∨ boundTo s id = some u ∧ a ∈ satisfiedIn s id

/-- What is known of an attempt since its row was read. -/
structure Underway (id : AuthSessionId) (record : AuthenticationSession) (passed : Passes)
    (w : Writes database) (s : Rows) : Prop where
  there : (s.authenticationSession id).isSome
  bound : WrittenOnce record.subjectId (boundTo s id)
  listed : ∀ a ∈ record.satisfied, a ∈ satisfiedIn s id
  unclaimed : record.subjectId = none → record.satisfied = []
  progresses : Progresses passed s (s.after w)

variable {R : Rules database Failure} {V : Primitives} {id : AuthSessionId}
  {record : AuthenticationSession} {passed passed' : Passes} {w : Writes database}
  {s s' : Rows} {u : SubjectId}

namespace Underway

theorem of_rely (h : Underway id record passed w s) (hrely : (progress anything).Rely w s s') :
    Underway id record passed w s' where
  there := (Progresses.at hrely.ages id).stays h.there
  bound := h.bound.trans (Progresses.at hrely.ages id).bound
  listed := fun a ha ↦ (Progresses.at hrely.ages id).kept a (h.listed a ha)
  unclaimed := h.unclaimed
  progresses := h.progresses.of_locked hrely.locked

theorem row (h : Underway id record passed w s) :
    ∃ row, (s.after w).authenticationSession id = some row :=
  Option.isSome_iff_exists.mp ((h.progresses.at id).stays h.there)

theorem andThen (h : Underway id record passed w s) {later : Writes database}
    (hmore : ∀ id x u, passed id x u → passed' id x u)
    (hlater : Progresses passed' (s.after w) ((s.after w).after later)) :
    Underway id record passed' (w.andThen later) s :=
  { h with progresses := Ageing.Ages.andThen (A := progress passed') (h.progresses.mono hmore) hlater }

theorem listedFor (h : Underway id record passed w s)
    (hguard : record.subjectId = none ∨ record.subjectId = some u) :
    ∀ a ∈ record.satisfied, boundTo s id = some u ∧ a ∈ satisfiedIn s id := by
  intro a ha
  rcases hguard with hnone | hsome
  · simp [h.unclaimed hnone] at ha
  · exact ⟨h.bound u hsome, h.listed a ha⟩

end Underway

theorem after_andThen (w later : Writes database) (s : Rows) :
    s.after (w.andThen later) = (s.after w).after later :=
  Writes.andThen_laidOver w later s

/-- A fact about the attempt that neither the others nor a cleared challenge undo. -/
structure Steady (R : Rules database Failure) (id : AuthSessionId)
    (I : Writes database → Rows → Prop) : Prop where
  rely : ∀ {w : Writes database} {s s' : Rows}, R.rely w s s' → I w s → I w s'
  claim : ∀ {w : Writes database} {s : Rows}, I w s →
    I (w.andThen (Op.effect (.authenticationSessionClaimWebauthnChallenge id) (s.after w))) s

/-- Before the binding: the row is as it was read, when nobody else runs. -/
abbrev Unbound (R : Rules database Failure) (id : AuthSessionId) (record : AuthenticationSession)
    (w : Writes database) (s : Rows) : Prop :=
  Underway id record (passedOn id []) w s ∧
    (Alone R → boundTo (s.after w) id = record.subjectId)

/-- After the binding: the row is bound to the subject. -/
abbrev Bound (id : AuthSessionId) (record : AuthenticationSession) (u : SubjectId)
    (allowed : List Allowed) (w : Writes database) (s : Rows) : Prop :=
  Underway id record (passedOn id allowed) w s ∧ boundTo (s.after w) id = some u

theorem Guarded.steady_unbound (hR : Guarded R) : Steady R id (Unbound R id record) where
  rely := by
    intro w s s' hrely ⟨h, hread⟩
    refine ⟨h.of_rely (hR.governs w s s' hrely).1, fun halone ↦ ?_⟩
    rw [halone w s s' hrely]
    exact hread halone
  claim := by
    intro w s ⟨h, hread⟩
    refine ⟨h.andThen (fun _ _ _ h ↦ h) (progresses_effect rfl _), fun halone ↦ ?_⟩
    obtain ⟨row, hrow⟩ := h.row
    rw [after_andThen, boundTo_claimWebauthnChallenge hrow]
    exact hread halone

theorem Guarded.steady_bound (hR : Guarded R) {allowed : List Allowed} :
    Steady R id (Bound id record u allowed) where
  rely := by
    intro w s s' hrely ⟨h, hbound⟩
    have hage := (hR.governs w s s' hrely).1
    exact ⟨h.of_rely hage, Progresses.bound hage.seen hbound⟩
  claim := by
    intro w s ⟨h, hbound⟩
    refine ⟨h.andThen (fun _ _ _ h ↦ h) (progresses_effect rfl _), ?_⟩
    obtain ⟨row, hrow⟩ := h.row
    rw [after_andThen, boundTo_claimWebauthnChallenge hrow]
    exact hbound

section Steps

variable {seen : Lookups} {input : AdvanceInput} {context : StepContext} {α : Type}
  {I : Writes database → Rows → Prop} {post : α → Writes database → Rows → Prop}

theorem Steady.wp_readClock (hI : Steady R id I) {f : Time → Tx α} (h : I w s)
    (hnext : ∀ now s', I w s' → (f now).wp R w s' post) :
    (query .readClock >>= f).wp R w s post := by
  rw [wp_bind]
  intro s' now hrely _ _
  exact hnext now s' (hI.rely hrely h)

/-- A step clears the challenge of its attempt, or writes nothing. -/
theorem Steady.wp_runAuthenticator (hI : Steady R id I)
    (hcontext : context.authSessionId = some id) (authenticator : AuthenticatorName)
    (h : I w s) :
    (runAuthenticator V seen input context authenticator).wp R w s fun _ w s ↦ I w s := by
  cases authenticator with
  | password | otp | recoveryCode => exact h
  | passkey =>
    rw [runAuthenticator, runPasskeyStep]
    split
    case isTrue => exact h
    case isFalse =>
      rw [hcontext, wp_bind]
      intro s' a hrely _ _
      have hnext := hI.claim (hI.rely hrely h)
      simp only [wp]
      split <;> exact hnext

theorem Steady.wp_dispatchNext (hI : Steady R id I) (hcontext : context.authSessionId = some id)
    {steps : List Step} {satisfied : List AuthenticatorName} (h : I w s) :
    (dispatchNext V seen input context steps satisfied).wp R w s fun _ w s ↦ I w s := by
  rw [dispatchNext]
  split
  case h_1 => exact h
  case h_2 => exact h
  case h_3 authenticator _ =>
    rw [wp_bind]
    exact hI.wp_runAuthenticator hcontext authenticator h

end Steps

section Advance

variable {seen : Seen} {input : AdvanceInput}

/-- The instant of the outcome is no progress of the attempt. -/
theorem Guarded.wp_recordOutcome (hR : Guarded R) {outcome : AdvanceOutcome}
    (h : Underway id record passed w s) :
    (recordOutcome id outcome).wp R w s fun _ w s ↦ Underway id record passed w s := by
  have hlast : ∀ {w : Writes database} {s s' : Rows} (authenticatedAt : Option Time),
      Underway id record passed w s → R.rely w s s' →
      Underway id record passed (w.andThen (Op.effect
        (.authenticationSessionRecordAuthenticated id authenticatedAt) (s'.after w))) s' := by
    intro w s s' authenticatedAt h hrely
    exact (h.of_rely (hR.governs w s s' hrely).1).andThen (fun _ _ _ h ↦ h)
      (progresses_effect rfl _)
  cases outcome with
  | success =>
    rw [recordOutcome, wp_bind]
    intro s' now hrely _ _
    have h' := h.of_rely (hR.governs w s s' hrely).1
    exact fun s'' _ hrely' _ _ ↦ hlast _ h' hrely'
  | challenge | failure => exact fun s' _ hrely _ _ ↦ hlast _ h hrely

variable {authenticator : AuthenticatorName}

/-- A factor the bound subject passed is recorded. -/
theorem Guarded.wp_recordSatisfied (hR : Guarded R) {α : Type} {f : Unit → Tx α}
    {post : α → Writes database → Rows → Prop} {allowed : List Allowed}
    (h : Bound id record u allowed w s)
    (allowed' : List Allowed) (hmore : ∀ p ∈ allowed, p ∈ allowed') (hmem : (authenticator, u) ∈ allowed')
    (hnext : ∀ w s, Bound id record u allowed' w s → (f ()).wp R w s post) :
    (query (.authenticationSessionRecordSatisfied id authenticator) >>= f).wp R w s post := by
  refine hR.governs.wp_ask fun (s' : Rows) _ hage _ hrely _ _ ↦ ?_
  obtain ⟨h', hbound⟩ := hR.steady_bound.rely hrely h
  have hprogress : Progresses (passedOn id allowed') (s'.after w) ((s'.after w).after (Op.effect
      (.authenticationSessionRecordSatisfied id authenticator) (s'.after w))) :=
    progresses_recordSatisfied (fun _ hrow ↦ (boundTo_of_some hrow).symm.trans hbound)
      ⟨rfl, hmem⟩
  refine hnext _ _ ⟨h'.andThen (fun _ _ _ hp ↦ ⟨hp.1, hmore _ hp.2⟩) hprogress, ?_⟩
  rw [after_andThen]
  exact hprogress.bound hbound

/-- The attempt is bound and carried on for the subject who passed the factor. -/
theorem Guarded.wp_advanceBound (hR : Guarded R)
    (hguard : record.subjectId = none ∨ record.subjectId = some u) (h : Unbound R id record w s) :
    (advanceBound V seen id input record.satisfied authenticator u).wp R w s (Went id) := by
  refine hR.governs.wp_ask fun (s₁ : Rows) _ _ _ hrely₁ hrun _ ↦ ?_
  obtain ⟨h₁, hread⟩ := hR.steady_unbound.rely hrely₁ h
  obtain ⟨row, hrow⟩ := h₁.row
  have hfree : boundTo (s₁.after w) id = none ∨ boundTo (s₁.after w) id = some u := by
    rcases hR.binds with halone | hdiscipline
    · rw [hread halone]
      exact hguard
    · exact hdiscipline id u _ hrun
  have h₂ : Bound id record u [] (w.andThen (Op.effect
      (.authenticationSessionBindSubject id u) (s₁.after w))) s₁ := by
    refine ⟨h₁.andThen (fun _ _ _ h ↦ h) (progresses_bindSubject hfree), ?_⟩
    rw [after_andThen]
    exact boundTo_bindSubject hrow
  refine hR.wp_recordSatisfied h₂ [(authenticator, u)] (by simp) (by simp) fun w₃ s₃ h₃ ↦ ?_
  refine hR.steady_bound.wp_readClock h₃ fun now s₄ h₄ ↦ ?_
  rw [wp_bind]
  refine wp_mono ?_ (hR.steady_bound.wp_dispatchNext rfl h₄)
  intro dispatched w₅ s₅ h₅
  have hlisted : ∀ {w : Writes database} {s : Rows} {allowed : List Allowed},
      Underway id record (passedOn id allowed) w s → ∀ a ∈ record.satisfied,
        (a, u) ∈ allowed ∨ boundTo s id = some u ∧ a ∈ satisfiedIn s id :=
    fun h a ha ↦ Or.inr (h.listedFor hguard a ha)
  cases dispatched with
  | ran offered =>
    simp only
    split
    case h_1 =>
      refine hR.wp_recordSatisfied h₅ [(authenticator, u), (offered, u)] (by simp) (by simp)
        fun w₆ s₆ h₆ ↦ ?_
      rw [wp_bind]
      refine wp_mono ?_ (hR.wp_recordOutcome h₆.1)
      rintro _ w₇ s₇ h₇
      refine ⟨h₇.progresses, ?_⟩
      rintro _ _ ⟨rfl, rfl⟩ a ha
      rw [List.mem_eraseDups] at ha
      rcases List.mem_append.mp ha with hold | hnew
      · exact hlisted h₇ a hold
      · refine Or.inl ?_
        simpa using hnew
    case h_2 reason _ =>
      rw [wp_bind]
      refine wp_mono ?_ (hR.wp_recordOutcome h₅.1)
      exact fun _ w₆ s₆ h₆ ↦ ⟨h₆.progresses, by simp⟩
    case h_3 form _ =>
      rw [wp_bind]
      refine wp_mono ?_ (hR.wp_recordOutcome h₅.1)
      exact fun _ w₆ s₆ h₆ ↦ ⟨h₆.progresses, by simp⟩
  | fail =>
    simp only
    rw [wp_bind]
    refine wp_mono ?_ (hR.wp_recordOutcome h₅.1)
    exact fun _ w₆ s₆ h₆ ↦ ⟨h₆.progresses, by simp⟩
  | complete =>
    simp only
    rw [wp_bind]
    refine wp_mono ?_ (hR.wp_recordOutcome h₅.1)
    rintro _ w₆ s₆ h₆
    refine ⟨h₆.progresses, ?_⟩
    rintro _ _ ⟨rfl, rfl⟩ a ha
    rw [List.mem_eraseDups] at ha
    rcases List.mem_append.mp ha with hold | hnew
    · exact hlisted h₆ a hold
    · obtain rfl := List.mem_singleton.mp hnew
      exact Or.inl (List.mem_singleton_self _)

theorem Unbound.went (h : Unbound R id record w s) (outcome : AdvanceOutcome)
    (houtcome : ∀ u authenticators, outcome ≠ .success u authenticators) :
    Went id ⟨outcome, []⟩ w s :=
  ⟨h.1.progresses, fun u authenticators hsuccess ↦ absurd hsuccess (houtcome u authenticators)⟩

theorem Guarded.wp_advanceRan (hR : Guarded R) (h : Unbound R id record w s)
    (dispatched : Dispatch) :
    (advanceRan V seen id input record dispatched).wp R w s (Went id) := by
  cases dispatched with
  | fail | complete => exact h.went _ (by simp)
  | ran _ result =>
    cases result with
    | failure => exact h.went _ (by simp)
    | challenge =>
      refine hR.governs.wp_ask fun (s₁ : Rows) _ hage _ _ _ _ ↦ ?_
      have h₁ : Underway id record (passedOn id []) (w.andThen (Op.effect
          (.authenticationSessionRecordAuthenticated id none) (s₁.after w))) s₁ :=
        (h.1.of_rely hage).andThen (fun _ _ _ h ↦ h) (progresses_effect rfl _)
      exact ⟨h₁.progresses, by simp⟩
    | success subjectId =>
      rw [advanceRan]
      split
      case isTrue => exact h.went _ (by simp)
      case isFalse hguard =>
        split
        case isTrue => exact h.went _ (by simp)
        case isFalse =>
          refine hR.wp_advanceBound ?_ h
          by_cases hnone : record.subjectId = none
          · exact Or.inl hnone
          · exact Or.inr (not_not.mp fun hne ↦ hguard ⟨hnone, hne⟩)

/-- Everything a call of `advance` commits is the progress of the factors it saw passed. -/
theorem Guarded.wp_advance (hR : Guarded R) {s : Rows} :
    (advance V seen id input).wp R Writes.nothing s (Went id) := by
  refine hR.governs.wp_ask fun (s₁ : Rows) found _ hs₁ _ _ hfound ↦ ?_
  obtain rfl : s₁.authenticationSession id = found := Option.some.inj hfound
  rw [show database.effect _ _ = Writes.nothing from rfl, Writes.andThen_nothing]
  refine hR.governs.wp_ask fun (s₂ : Rows) checkedAt hage₂ _ hrely₂ _ _ ↦ ?_
  rw [show database.effect _ _ = Writes.nothing from rfl, Writes.andThen_nothing]
  have hnothing : ∀ s : Rows, Progresses (passedOn id []) s (s.after Writes.nothing) :=
    Ageing.Ages.refl (A := progress (passedOn id []))
  cases hfound : s₁.authenticationSession id with
  | none => exact ⟨hnothing s₂, by simp⟩
  | some record =>
    simp only
    split
    case isTrue => exact ⟨hnothing s₂, by simp⟩
    case isFalse =>
      have hbound := boundTo_of_some hfound
      have h₁ : Underway id record (passedOn id []) Writes.nothing s₁ :=
        { there := by simp [hfound]
          bound := fun _ hu ↦ hbound.trans hu
          listed := fun a ha ↦ (satisfiedIn_of_some hfound).symm ▸ ha
          unclaimed := fun hnone ↦
            (satisfiedIn_of_some hfound).symm.trans (hs₁ id (hbound.trans hnone))
          progresses := hnothing s₁ }
      have h₂ : Unbound R id record Writes.nothing s₂ :=
        hR.steady_unbound.rely hrely₂ ⟨h₁, fun _ ↦ hbound⟩
      refine hR.steady_unbound.wp_readClock h₂ fun now s₃ h₃ ↦ ?_
      rw [wp_bind]
      refine wp_mono ?_ (hR.steady_unbound.wp_dispatchNext rfl h₃)
      intro dispatched w₄ s₄ h₄
      split
      case h_1 subjectId hsubject =>
        split
        case isTrue =>
          refine hR.steady_unbound.wp_readClock h₄ fun authenticatedAt s₅ h₅ ↦ ?_
          refine hR.governs.wp_ask fun (s₆ : Rows) _ hage₆ _ _ _ _ ↦ ?_
          have h₆ : Underway id record (passedOn id []) (w₄.andThen (Op.effect
              (.authenticationSessionRecordAuthenticated id (some authenticatedAt))
              (s₆.after w₄))) s₆ :=
            (h₅.1.of_rely hage₆).andThen (fun _ _ _ h ↦ h) (progresses_effect rfl _)
          refine ⟨h₆.progresses, ?_⟩
          rintro _ _ ⟨rfl, rfl⟩ a ha
          exact Or.inr (h₆.listedFor (Or.inr hsubject) a ha)
        case isFalse =>
          rw [wp_bind]
          refine wp_mono ?_ (hR.steady_unbound.wp_dispatchNext rfl h₄)
          exact fun dispatched' w₅ s₅ h₅ ↦ hR.wp_advanceRan h₅ dispatched'
      case h_2 => exact hR.wp_advanceRan h₄ _

end Advance

end Odudu.AuthnFlows
