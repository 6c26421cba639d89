import Odudu.AuthnFlows.Executor
import Odudu.ProtocolOidc.RowsAge

/-!
# How an attempt progresses

`Progressed passed` is what the factors passed so far may have made of the row of an
attempt: it is bound to nobody else than it was, it lists what it listed, and what it
lists in addition was passed by the subject it is bound to.  `progress` is the order on
the rows that says so of every attempt, and that an SSO session keeps its subject and its
factors.  Each statement of a sign-in keeps to it, the
binding when the row it lands on is bound to nobody or to the same subject
(`progresses_bindSubject`), and a reset never.
-/

set_option autoImplicit false

namespace Odudu.AuthnFlows

open ReadCommitted ProtocolOidc

/-- Which factors were passed on which attempt, and by whom. -/
abbrev Passes := AuthSessionId → AuthenticatorName → SubjectId → Prop

/-- The factors passed in one call on one attempt. -/
def passedOn (id : AuthSessionId) (allowed : List Allowed) : Passes :=
  fun id' authenticator subjectId ↦ id' = id ∧ (authenticator, subjectId) ∈ allowed

/-- Any factor, by anybody. -/
def anything : Passes := fun _ _ _ ↦ True

section Row

/-- Whom an attempt is bound to. -/
def boundOf (row : Option AuthenticationSession) : Option SubjectId :=
  row.bind fun row ↦ row.subjectId

/-- What an attempt lists as satisfied. -/
def satisfiedOf (row : Option AuthenticationSession) : List AuthenticatorName :=
  (row.map fun row ↦ row.satisfied).getD []

/-- What becomes of the row of an attempt on which these factors are passed. -/
structure Progressed (passed : AuthenticatorName → SubjectId → Prop)
    (a b : Option AuthenticationSession) : Prop where
  stays : a.isSome → b.isSome
  bound : WrittenOnce (boundOf a) (boundOf b)
  kept : ∀ authenticator ∈ satisfiedOf a, authenticator ∈ satisfiedOf b
  added : ∀ authenticator ∈ satisfiedOf b, authenticator ∈ satisfiedOf a ∨
    ∃ subjectId, boundOf b = some subjectId ∧ passed authenticator subjectId

variable {passed passed' : AuthenticatorName → SubjectId → Prop}
  {a b c : Option AuthenticationSession}

theorem Progressed.refl (a : Option AuthenticationSession) : Progressed passed a a :=
  ⟨id, .refl _, fun _ h ↦ h, fun _ h ↦ Or.inl h⟩

theorem Progressed.trans (h : Progressed passed a b) (h' : Progressed passed b c) :
    Progressed passed a c where
  stays := fun ha ↦ h'.stays (h.stays ha)
  bound := h.bound.trans h'.bound
  kept := fun x hx ↦ h'.kept x (h.kept x hx)
  added := by
    intro x hx
    rcases h'.added x hx with hold | hnew
    · rcases h.added x hold with hold' | ⟨u, hu, hpassed⟩
      · exact Or.inl hold'
      · exact Or.inr ⟨u, h'.bound u hu, hpassed⟩
    · exact Or.inr hnew

theorem Progressed.mono (h : Progressed passed a b) (hmore : ∀ x u, passed x u → passed' x u) :
    Progressed passed' a b :=
  ⟨h.stays, h.bound, h.kept, fun x hx ↦
    (h.added x hx).imp_right fun ⟨u, hu, hpassed⟩ ↦ ⟨u, hu, hmore x u hpassed⟩⟩

end Row

/-- Whom an attempt is bound to in the rows. -/
def boundTo (s : Rows) (id : AuthSessionId) : Option SubjectId :=
  boundOf (s.authenticationSession id)

/-- What an attempt lists as satisfied in the rows. -/
def satisfiedIn (s : Rows) (id : AuthSessionId) : List AuthenticatorName :=
  satisfiedOf (s.authenticationSession id)

theorem boundTo_of_some {s : Rows} {id : AuthSessionId} {row : AuthenticationSession}
    (h : s.authenticationSession id = some row) : boundTo s id = row.subjectId := by
  rw [boundTo, h]
  rfl

theorem satisfiedIn_of_some {s : Rows} {id : AuthSessionId} {row : AuthenticationSession}
    (h : s.authenticationSession id = some row) : satisfiedIn s id = row.satisfied := by
  rw [satisfiedIn, h]
  rfl

/-- How the row of a key may change while these factors are passed. -/
def progressedAt (passed : Passes) :
    (k : layout.Key) → Option (layout.Row k.1) → Option (layout.Row k.1) → Prop
  | ⟨.authenticationSessions, id⟩, a, b => Progressed (passed id) a b
  | ⟨.sessions, _⟩, a, b => StaysAnd Session.Older a b
  | _, _, _ => True

/-- The order on the rows. -/
def progress (passed : Passes) : Ageing database where
  older := progressedAt passed
  refl := by
    rintro ⟨table, id⟩ v
    cases table <;>
      first | trivial | exact Progressed.refl v | exact StaysAnd.refl Session.Older.refl v
  trans := by
    rintro ⟨table, id⟩ v v' v'' h h'
    cases table <;>
      first
      | trivial
      | exact Progressed.trans h h'
      | exact StaysAnd.trans Session.Older (fun _ _ _ ↦ Session.Older.trans) h h'

/-- Every attempt has progressed, by these factors alone. -/
abbrev Progresses (passed : Passes) (s s' : Rows) : Prop := (progress passed).Ages s s'

section Rows

variable {passed passed' : Passes} {s s' : Rows}

theorem Progresses.at (h : Progresses passed s s') (id : AuthSessionId) :
    Progressed (passed id) (s.authenticationSession id) (s'.authenticationSession id) :=
  h ⟨.authenticationSessions, id⟩

theorem Progresses.session (h : Progresses passed s s') {id : SessionId} {row : Session}
    (hrow : s.session id = some row) : ∃ row', s'.session id = some row' ∧ row.Older row' :=
  h ⟨.sessions, id⟩ row hrow

theorem Progresses.mono (h : Progresses passed s s')
    (hmore : ∀ id x u, passed id x u → passed' id x u) : Progresses passed' s s' := by
  rintro ⟨table, id⟩
  cases table <;> first | trivial | exact (h.at id).mono (hmore id) | exact h ⟨.sessions, id⟩

theorem Progresses.anything (h : Progresses passed s s') : Progresses anything s s' :=
  h.mono fun _ _ _ _ ↦ trivial

theorem Progresses.bound (h : Progresses passed s s') {id : AuthSessionId} {u : SubjectId}
    (hu : boundTo s id = some u) : boundTo s' id = some u :=
  (h.at id).bound u hu

/-- The rows in which an attempt bound to nobody lists nothing. -/
def Unclaimed (s : Rows) : Prop := ∀ id, boundTo s id = none → satisfiedIn s id = []

theorem Unclaimed.progress (hs : Unclaimed s) (h : Progresses passed s s') : Unclaimed s' := by
  intro id hnone
  refine List.eq_nil_iff_forall_not_mem.mpr fun x hx ↦ ?_
  rcases (h.at id).added x hx with hold | ⟨u, hu, -⟩
  · have hbefore : boundTo s id = none := by
      cases hbound : boundTo s id with
      | none => rfl
      | some => simp [h.bound hbound] at hnone
    rw [show satisfiedOf (s.authenticationSession id) = [] from hs id hbefore] at hold
    simp at hold
  · simp [show boundOf (s'.authenticationSession id) = none from hnone] at hu

/-- What every attempt lists is known of the subject it is bound to. -/
def ListedBy (known : Passes) (s : Rows) : Prop :=
  ∀ id row, s.authenticationSession id = some row → ∀ a ∈ row.satisfied,
    ∃ u, row.subjectId = some u ∧ known id a u

theorem ListedBy.weaken {known known' : Passes} (h : ListedBy known s)
    (hmore : ∀ id a u, known id a u → known' id a u) : ListedBy known' s := by
  intro id row hrow a ha
  obtain ⟨u, hu, hknown⟩ := h id row hrow a ha
  exact ⟨u, hu, hmore id a u hknown⟩

/-- Progress by known factors keeps what is listed known. -/
theorem ListedBy.progress {known known' : Passes} (h : ListedBy known s)
    (hprogress : Progresses passed s s') (hknown : ∀ id a u, known id a u → known' id a u)
    (hpassed : ∀ id a u, passed id a u → known' id a u) : ListedBy known' s' := by
  intro id row hrow a ha
  have hin : a ∈ satisfiedOf (s'.authenticationSession id) :=
    show a ∈ satisfiedIn s' id from (satisfiedIn_of_some hrow).symm ▸ ha
  rcases (hprogress.at id).added a hin with hold | ⟨u, hu, hnew⟩
  · cases hbefore : s.authenticationSession id with
    | none => simp [hbefore, satisfiedOf] at hold
    | some row₀ =>
      obtain ⟨u, hu, hold'⟩ := h id row₀ hbefore a (by simpa [hbefore, satisfiedOf] using hold)
      refine ⟨u, ?_, hknown id a u hold'⟩
      exact (boundTo_of_some hrow).symm.trans
        (hprogress.bound ((boundTo_of_some hbefore).trans hu))
  · exact ⟨u, (boundTo_of_some hrow).symm.trans hu, hpassed id a u hnew⟩

theorem ListedBy.known {known : Passes} (h : ListedBy known s) {id : AuthSessionId}
    {u : SubjectId} {a : AuthenticatorName} (hbound : boundTo s id = some u)
    (hlisted : a ∈ satisfiedIn s id) : known id a u := by
  cases hrow : s.authenticationSession id with
  | none => simp [boundTo, hrow, boundOf] at hbound
  | some row =>
    rw [satisfiedIn_of_some hrow] at hlisted
    rw [boundTo_of_some hrow] at hbound
    obtain ⟨u', hu', hknown⟩ := h id row hrow a hlisted
    obtain rfl : u' = u := Option.some.inj (hu'.symm.trans hbound)
    exact hknown

/-- Attempts as they are parked: bound to nobody, with nothing passed. -/
def Parked (s : Rows) : Prop := ∀ id row, s.authenticationSession id = some row →
  row.subjectId = none ∧ row.satisfied = []

theorem Parked.unclaimed (h : Parked s) : Unclaimed s := by
  intro id _
  cases hrow : s.authenticationSession id with
  | none => simp [satisfiedIn, hrow, satisfiedOf]
  | some row => exact (satisfiedIn_of_some hrow).trans (h id row hrow).2

theorem Parked.listedBy (h : Parked s) (known : Passes) : ListedBy known s := by
  intro id row hrow a ha
  simp [(h id row hrow).2] at ha

end Rows

section Statements

variable {passed : Passes} {s : Rows} {id : AuthSessionId} {u : SubjectId}

/-- The statements that neither bind an attempt nor record a factor nor reset one. -/
def keepsAttempts : Op → Bool
  | .authenticationSessionBindSubject .. | .authenticationSessionRecordSatisfied ..
  | .authenticationSessionResetProgress _ => false
  | .authenticationSessionCreate _ row => row.subjectId.isNone && row.satisfied.isEmpty
  | _ => true

private theorem progressed_of_same {p : AuthenticatorName → SubjectId → Prop}
    {row row' : AuthenticationSession} (hsubject : row'.subjectId = row.subjectId)
    (hsatisfied : row'.satisfied = row.satisfied) : Progressed p (some row) (some row') where
  stays := fun _ ↦ rfl
  bound := by
    rintro u (hu : row.subjectId = some u)
    exact hsubject.trans hu
  kept := by
    rintro x (hx : x ∈ row.satisfied)
    exact show x ∈ row'.satisfied from hsatisfied ▸ hx
  added := by
    rintro x (hx : x ∈ row'.satisfied)
    exact Or.inl (show x ∈ row.satisfied from hsatisfied ▸ hx)

private theorem older_session {row row' : Session} (hsubject : row'.subjectId = row.subjectId)
    (hcreated : row'.createdAt = row.createdAt)
    (hauthenticators : row'.authenticators = row.authenticators) :
    StaysAnd Session.Older (some row) (some row') := by
  rintro _ ⟨rfl⟩
  exact ⟨row', rfl, hsubject, hcreated, hauthenticators⟩

/-- Such a statement lets every attempt be. -/
theorem progresses_effect {op : Op} (hop : keepsAttempts op = true) (s : Rows) :
    Progresses passed s (s.after (op.effect s)) := by
  cases op with
  | authenticationSessionCreate _ row =>
    obtain ⟨hsubject, hsatisfied⟩ : row.subjectId = none ∧ row.satisfied = [] := by
      simpa [keepsAttempts] using hop
    refine ages_insert ⟨by simp, .of_none rfl _, by simp [satisfiedOf], ?_⟩
    rintro x (hx : x ∈ row.satisfied)
    simp [hsatisfied] at hx
  | authenticationSessionConsume | authenticationSessionRecordAuthenticated
  | authenticationSessionSetWebauthnChallenge | authenticationSessionClaimWebauthnChallenge =>
    exact ages_update fun _ _ _ _ ↦ progressed_of_same rfl rfl
  | sessionCreate => exact ages_insert fun _ h ↦ by simp at h
  | sessionTouch => exact ages_update fun _ _ _ _ ↦ older_session rfl rfl rfl
  | sessionEnd => exact ages_update fun _ _ _ _ ↦ older_session rfl rfl rfl
  | sessionEndAll => exact ages_update fun _ _ _ _ ↦ older_session rfl rfl rfl
  | sessionEndMany => exact ages_update fun _ _ _ _ ↦ older_session rfl rfl rfl
  | authenticationSessionBindSubject => simp [keepsAttempts] at hop
  | authenticationSessionRecordSatisfied => simp [keepsAttempts] at hop
  | authenticationSessionResetProgress => simp [keepsAttempts] at hop
  | _ =>
    first
    | exact ages_update fun _ _ _ _ ↦ trivial
    | exact ages_insert trivial
    | exact Ageing.Ages.refl (A := progress passed) s

/-- An attempt bound to nobody, or to the subject already, is bound. -/
theorem progresses_bindSubject (hfree : boundTo s id = none ∨ boundTo s id = some u) :
    Progresses passed s (s.after (Op.effect (.authenticationSessionBindSubject id u) s)) := by
  refine ages_update fun id' row hrow hwanted ↦ ⟨fun _ ↦ rfl, ?_, fun _ hx ↦ hx, fun _ hx ↦ Or.inl hx⟩
  obtain rfl : id' = id := by simpa using hwanted
  rintro v (hv : row.subjectId = some v)
  rw [boundTo_of_some hrow, hv] at hfree
  rcases hfree with hnone | hsame
  · simp at hnone
  · exact hsame.symm

/-- A factor is recorded on the attempt, if it is there, of the subject who passed it. -/
theorem progresses_recordSatisfied {authenticator : AuthenticatorName}
    (hbound : ∀ row, s.authenticationSession id = some row → row.subjectId = some u)
    (hpassed : passed id authenticator u) :
    Progresses passed s
      (s.after (Op.effect (.authenticationSessionRecordSatisfied id authenticator) s)) := by
  refine ages_update fun id' row hrow hwanted ↦ ⟨fun _ ↦ rfl, .refl _, ?_, ?_⟩
  · rintro x (hx : x ∈ row.satisfied)
    exact List.mem_append_left _ hx
  · obtain ⟨rfl, -⟩ : id' = id ∧ _ := by simpa using hwanted
    intro x hx
    rcases List.mem_append.mp (show x ∈ row.satisfied ++ [authenticator] from hx) with hold | hnew
    · exact Or.inl hold
    · obtain rfl := List.mem_singleton.mp hnew
      exact Or.inr ⟨u, hbound row hrow, hpassed⟩

variable {set : AuthenticationSession → AuthenticationSession}
  {wanted : AuthenticationSession → Bool}

/-- What an `UPDATE` of one attempt leaves of each. -/
theorem authenticationSession_update
    (id' : AuthSessionId) :
    (s.after (Op.updateAuthenticationSession id wanted set s)).authenticationSession id' =
      (s.authenticationSession id').map fun row ↦
        if id' = id ∧ wanted row then set row else row := by
  cases hrow : s.authenticationSession id' with
  | none => exact (Rows.after_of_none (Layout.update_of_none (L := layout) hrow)).trans hrow
  | some row =>
    rw [Option.map_some]
    by_cases hwanted : id' = id ∧ wanted row
    · rw [if_pos hwanted]
      exact Rows.after_of_some (Layout.update_of_wanted (L := layout) hrow (by simp [hwanted]))
    · rw [if_neg hwanted]
      refine (Rows.after_of_none ?_).trans hrow
      exact Layout.update_of_unwanted (L := layout) hrow (by simpa using hwanted)

private theorem authenticationSession_resetProgress (id' : AuthSessionId) :
    (s.after (Op.effect (.authenticationSessionResetProgress id) s)).authenticationSession id' =
      (s.authenticationSession id').map fun row ↦
        if id' = id ∧ true then
          { row with
            satisfied := []
            subjectId := none
            authenticatedAt := none
            webauthnChallenge := none }
        else row :=
  authenticationSession_update id'

theorem ListedBy.resetProgress {known : Passes} (h : ListedBy known s) :
    ListedBy known (s.after (Op.effect (.authenticationSessionResetProgress id) s)) := by
  intro id' row hrow a ha
  rw [authenticationSession_resetProgress] at hrow
  obtain ⟨row₀, hrow₀, rfl⟩ := Option.map_eq_some_iff.mp hrow
  split at ha
  case isTrue => simp at ha
  case isFalse hid =>
    rw [if_neg hid]
    exact h id' row₀ hrow₀ a ha

theorem Unclaimed.resetProgress (h : Unclaimed s) :
    Unclaimed (s.after (Op.effect (.authenticationSessionResetProgress id) s)) := by
  intro id'
  rw [boundTo, satisfiedIn, authenticationSession_resetProgress]
  cases hrow : s.authenticationSession id' with
  | none => exact fun _ ↦ rfl
  | some =>
    by_cases hid : id' = id
    · exact fun _ ↦ by simp [satisfiedOf, hid]
    · intro hnone
      have hbefore := h id'
      rw [boundTo, satisfiedIn, hrow] at hbefore
      simp only [Option.map_some, hid, false_and, if_false] at hnone ⊢
      exact hbefore hnone

variable {row : AuthenticationSession}

/-- The statements on an attempt that is there: what they leave of it. -/
theorem authenticationSession_after_update
    (hrow : s.authenticationSession id = some row) :
    (s.after (Op.updateAuthenticationSession id wanted set s)).authenticationSession id =
      some (if wanted row then set row else row) := by
  rw [authenticationSession_update, hrow]
  simp

theorem boundTo_bindSubject
    (hrow : s.authenticationSession id = some row) :
    boundTo (s.after (Op.effect (.authenticationSessionBindSubject id u) s)) id = some u :=
  boundTo_of_some (authenticationSession_after_update hrow)

theorem boundTo_claimWebauthnChallenge
    (hrow : s.authenticationSession id = some row) :
    boundTo (s.after (Op.effect (.authenticationSessionClaimWebauthnChallenge id) s)) id =
      boundTo s id := by
  refine (boundTo_of_some (authenticationSession_after_update hrow)).trans ?_
  rw [boundTo_of_some hrow]
  split <;> rfl

end Statements

end Odudu.AuthnFlows
