import Odudu.ProtocolOidc.CompleteLogin
import Odudu.ProtocolOidc.RefreshRotation
import Odudu.ReadCommitted.Turns

/-!
# Which sessions are live

The operations on SSO sessions made in turn, each a transaction, with the clock moving
between them: a session established, ended alone or with others, touched by a rotation or
by a code issued on it.  A session is dead from its ceiling on, and from the end of its idle
window on; ending one only lowers the ceiling, and a rotation touches a session that it has
read as live.  `completeLogin` and `completeReuse` touch the session they go on with
without reading it, so a session whose idle window is over lives again
(`dead_session_revived`).

Over every sequence in which these two meet a session that is live, a dead session stays
dead, and a code is issued on a live one (`dead_sessions_stay_dead`).
-/

set_option autoImplicit false

namespace Odudu.ProtocolOidc

open ReadCommitted Program AuthnFlows

/-- `isSessionLive` under the tenant's lifespans. -/
def liveUnder (tenant : SessionLifespans) (row : Session) (now : Time) : Bool :=
  isSessionLive row (lifespanFor tenant row.remembered).1 now

/-- A session that is live at the instant the clock shows. -/
def LiveSession (tenant : SessionLifespans) (s : Rows) (id : SessionId) : Prop :=
  ∃ row, s.session id = some row ∧ liveUnder tenant row s.clock = true

/-- A session that is not. -/
def DeadSession (tenant : SessionLifespans) (s : Rows) (id : SessionId) : Prop :=
  ∃ row, s.session id = some row ∧ liveUnder tenant row s.clock = false

/-- The `CHECK` constraints on a tenant's lifespans. -/
structure SessionLifespans.Lasting (tenant : SessionLifespans) : Prop where
  ssoIdle : 60 ≤ tenant.ssoSessionIdleSeconds
  ssoMax : tenant.ssoSessionIdleSeconds ≤ tenant.ssoSessionMaxSeconds
  rememberMeIdle : 60 ≤ tenant.rememberMeIdleSeconds
  rememberMeMax : tenant.rememberMeIdleSeconds ≤ tenant.rememberMeMaxSeconds

section Liveness

variable {tenant : SessionLifespans} {row : Session} {now now' : Time} {s : Rows}
  {id : SessionId}

theorem liveUnder_iff : liveUnder tenant row now = true ↔
    now < row.expiresAt ∧ now < row.lastActiveAt + (lifespanFor tenant row.remembered).1 := by
  unfold liveUnder isSessionLive
  split
  case isTrue hdead =>
    refine ⟨fun h ↦ (nomatch h), fun h ↦ absurd h.1 (Nat.not_lt.mpr hdead)⟩
  case isFalse halive =>
    rw [decide_eq_true_eq]
    exact ⟨fun h ↦ ⟨Nat.lt_of_not_le halive, h⟩, fun h ↦ h.2⟩

theorem liveUnder_later (hlater : now ≤ now') (h : liveUnder tenant row now = false) :
    liveUnder tenant row now' = false := by
  rw [← Bool.not_eq_true, liveUnder_iff] at h ⊢
  exact fun ⟨hceiling, hidle⟩ ↦
    h ⟨Nat.lt_of_le_of_lt hlater hceiling, Nat.lt_of_le_of_lt hlater hidle⟩

theorem lifespanFor_positive (hlasting : tenant.Lasting) (remembered : Bool) :
    0 < (lifespanFor tenant remembered).1 ∧ 0 < (lifespanFor tenant remembered).2 := by
  have hrememberMe := Nat.lt_of_lt_of_le (show 0 < 60 by decide) hlasting.rememberMeIdle
  have hsso := Nat.lt_of_lt_of_le (show 0 < 60 by decide) hlasting.ssoIdle
  unfold lifespanFor
  split
  · exact ⟨hrememberMe, Nat.lt_of_lt_of_le hrememberMe hlasting.rememberMeMax⟩
  · exact ⟨hsso, Nat.lt_of_lt_of_le hsso hlasting.ssoMax⟩

theorem LiveSession.not_dead (h : LiveSession tenant s id) : ¬DeadSession tenant s id := by
  rintro ⟨row, hrow, hdead⟩
  obtain ⟨row', hrow', hlive⟩ := h
  obtain rfl := Option.some.inj (hrow.symm.trans hrow')
  simp [hlive] at hdead

instance : Decidable (LiveSession tenant s id) :=
  match h : s.session id with
  | none => isFalse (by simp [LiveSession, h])
  | some row =>
    decidable_of_iff (liveUnder tenant row s.clock = true) (by simp [LiveSession, h])

end Liveness

/-- An operation on SSO sessions, or the clock's. -/
inductive SessionCall where
  | establish (input : AdmitSessionInput)
  /-- A sign-in completed: into a session of its own, or going on with the session its
  attempt was promoted from. -/
  | completeLogin (input : CompleteLoginInput)
  /-- A request answered by a session of the browser. -/
  | completeReuse (code : IssueAuthorizationCodeInput) (sessionId : SessionId) (authTime : Time)
  | rotate (presentedHash : TokenHash) (refreshTokenTtlSeconds : Time) (nextHash : TokenHash)
  | endOne (id : SessionId)
  | endAll (ids : List SessionId)
  | endMany (ids : List SessionId)
  | tick (seconds : Time)

namespace SessionCall

variable (tenant : SessionLifespans)

/-- What each does, under the tenant's lifespans. -/
def body : SessionCall → Tx Unit
  | establish input => do
    let now ← query .readClock
    admitSession { input with lifespans := tenant } now
  | completeLogin input => do
    let _outcome ← Odudu.ProtocolOidc.completeLogin
      { input with session := { input.session with lifespans := tenant } }
    pure ()
  | completeReuse code sessionId authTime =>
    Odudu.ProtocolOidc.completeReuse code sessionId authTime
  | rotate presentedHash refreshTokenTtlSeconds nextHash => do
    let now ← query .readClock
    let _outcome ← rotateRefreshToken
      ⟨presentedHash, now, refreshTokenTtlSeconds, tenant, nextHash⟩
    pure ()
  | endOne id => do
    let now ← query .readClock
    let _ended ← query (.sessionEnd id now)
    pure ()
  | endAll ids => do
    let now ← query .readClock
    query (.sessionEndAll ids now)
  | endMany ids => do
    let now ← query .readClock
    query (.sessionEndMany ids now)
  | tick seconds => query (.tick seconds)

end SessionCall

/-- The operations on SSO sessions. -/
abbrev sessionOperations (tenant : SessionLifespans) : System where
  db := database
  Call := SessionCall
  Outcome := Unit
  Failure := Failure
  body := SessionCall.body tenant

/-- A completion that goes on with a session, and that nothing refuses, meets it live. -/
def GoesOnWithLive (tenant : SessionLifespans) (call : SessionCall) (s : Rows) : Prop :=
  match call with
  | .completeLogin input =>
    subjectIsEnabled (s.subject input.code.subjectId) = true →
    ((s.authenticationSession input.authSessionId).any fun row ↦ row.consumedAt.isNone) = true →
    ∀ session ∈ input.reuseSession, LiveSession tenant s session.1
  | .completeReuse _ sessionId _ => LiveSession tenant s sessionId
  | _ => True

/-- What one operation may make of the sessions, and of the codes on them. -/
structure LiveOnly (tenant : SessionLifespans) (s s' : Rows) : Prop where
  dead : ∀ id, DeadSession tenant s id → DeadSession tenant s' id
  codes : ∀ hash code id, s.code hash = none → s'.code hash = some code →
    code.sessionId = some id → LiveSession tenant s' id

section Statements

variable {tenant : SessionLifespans} {s s₁ : Rows} {w : Writes database} {α : Type}
  {post : α → Writes database → Rows → Prop}

/-- What statements do that issue no code. -/
structure SessionsKept (tenant : SessionLifespans) (s s' : Rows) : Prop where
  clock : s'.clock = s.clock
  dead : ∀ id, DeadSession tenant s id → DeadSession tenant s' id
  codes : ∀ hash, s'.code hash = s.code hash

theorem SessionsKept.refl (s : Rows) : SessionsKept tenant s s := ⟨rfl, fun _ h ↦ h, fun _ ↦ rfl⟩

theorem SessionsKept.trans {s s' s'' : Rows} (h : SessionsKept tenant s s')
    (h' : SessionsKept tenant s' s'') : SessionsKept tenant s s'' where
  clock := h'.clock.trans h.clock
  dead := fun id hdead ↦ h'.dead id (h.dead id hdead)
  codes := fun hash ↦ (h'.codes hash).trans (h.codes hash)

/-- The statements that write neither the clock, nor a session, nor a code. -/
def keepsSessions : Op → Bool
  | .tick _ | .sessionCreate .. | .sessionTouch .. | .sessionEnd .. | .sessionEndAll ..
  | .sessionEndMany .. | .authorizationCodeCreate .. | .authorizationCodeConsume ..
  | .authorizationCodeAttachGrant .. => false
  | _ => true

variable {op : Op}

theorem session_of_keeps (hop : keepsSessions op = true) (s : Rows) (id : SessionId) :
    (s.after (op.effect s)).session id = s.session id := by
  refine Rows.after_of_none ?_
  cases op <;> first | rfl | exact absurd hop (by simp [keepsSessions])

theorem code_of_keeps (hop : keepsSessions op = true) (s : Rows) (hash : TokenHash) :
    (s.after (op.effect s)).code hash = s.code hash := by
  refine Rows.after_of_none ?_
  cases op <;> first | rfl | exact absurd hop (by simp [keepsSessions])

theorem clock_of_keeps (hop : keepsSessions op = true) (s : Rows) :
    (s.after (op.effect s)).clock = s.clock := by
  have hcell : s.after (op.effect s) ⟨.clock, 0⟩ = s ⟨.clock, 0⟩ := by
    refine Rows.after_of_none ?_
    cases op <;> first | rfl | exact absurd hop (by simp [keepsSessions])
  rw [Rows.clock, hcell]
  rfl

theorem kept_of_keeps (hop : keepsSessions op = true) (s : Rows) :
    SessionsKept tenant s (s.after (op.effect s)) where
  clock := clock_of_keeps hop s
  dead := by
    rintro id ⟨row, hrow, hdead⟩
    exact ⟨row, (session_of_keeps hop s id).trans hrow, (clock_of_keeps hop s).symm ▸ hdead⟩
  codes := code_of_keeps hop s

variable {wanted : SessionId → Session → Bool} {set : Session → Session} {row : Session}

theorem after_update_session
    {s : Rows} {id : SessionId} (hrow : s.session id = some row) :
    (s.after (Layout.update (L := layout) .sessions wanted set s)).session id =
      some (if wanted id row then set row else row) := by
  by_cases hwanted : wanted id row = true
  · rw [if_pos hwanted]
    exact Rows.after_of_some (Layout.update_of_wanted (L := layout) hrow hwanted)
  · rw [if_neg hwanted]
    exact (Rows.after_of_none (Layout.update_of_unwanted (L := layout) hrow
      (by simpa using hwanted))).trans hrow

/-- An `UPDATE` of sessions that leaves the dead ones dead. -/
theorem kept_of_update
    (hset : ∀ id row, s.session id = some row → liveUnder tenant row s.clock = false →
      wanted id row = true → liveUnder tenant (set row) s.clock = false) :
    SessionsKept tenant s (s.after (Layout.update (L := layout) .sessions wanted set s)) where
  clock := rfl
  codes := fun _ ↦ rfl
  dead := by
    rintro id ⟨row, hrow, hdead⟩
    refine ⟨_, after_update_session hrow, ?_⟩
    split
    case isTrue hwanted => exact hset id row hrow hdead hwanted
    case isFalse => exact hdead

theorem liveUnder_ended {now : Time} (h : row.expiresAt ≤ now) :
    liveUnder tenant row now = false := by
  rw [← Bool.not_eq_true, liveUnder_iff]
  exact fun hlive ↦ Nat.not_lt.mpr h hlive.1

theorem kept_sessionCreate {id : SessionId} :
    SessionsKept tenant s (s.after (Op.effect (.sessionCreate id row) s)) where
  clock := rfl
  codes := fun _ ↦ rfl
  dead := by
    rintro id' ⟨row', hrow', hdead⟩
    refine ⟨row', ?_, hdead⟩
    by_cases hid : id' = id
    · subst hid
      exact (Rows.after_of_none (Layout.insert_of_taken (L := layout) hrow')).trans hrow'
    · exact (Rows.after_of_none (Layout.insert_other (L := layout) hid)).trans hrow'

theorem wp_statement {f : op.Answer → Tx α}
    (h : ∀ a w', op.Answers (s.after w) a →
      s.after w' = (s.after w).after (op.effect (s.after w)) →
      (f a).wp (.alone (· = s) fun _ _ ↦ True) w' s post) :
    (query op >>= f).wp (.alone (· = s) fun _ _ ↦ True) w s post := by
  rw [wp_bind]
  rintro s' a ⟨rfl, -⟩ - ha
  exact h a _ ha (Writes.andThen_laidOver w _ s')

end Statements

section Operations

variable {tenant : SessionLifespans} {s : Rows} {w : Writes database}

/-- The rows an operation leaves, as its postcondition. -/
abbrev LivePost (tenant : SessionLifespans) (s : Rows) {α : Type} :
    α → Writes database → Rows → Prop :=
  fun _ w s₁ ↦ LiveOnly tenant s (s₁.after w)

theorem SessionsKept.liveOnly {s' : Rows} (h : SessionsKept tenant s s') :
    LiveOnly tenant s s' where
  dead := h.dead
  codes := by
    intro hash code id hfree hcode
    rw [h.codes hash, hfree] at hcode
    exact nomatch hcode

variable {α : Type} {post : α → Writes database → Rows → Prop}

/-- A statement that leaves the sessions and the codes alone. -/
theorem SessionsKept.wp_keeps
    (hw : SessionsKept tenant s (s.after w)) {op : Op} (hop : keepsSessions op = true)
    {f : op.Answer → Tx α}
    (hnext : ∀ a w', op.Answers (s.after w) a → SessionsKept tenant s (s.after w') →
      (∀ id, (s.after w').session id = (s.after w).session id) →
      (f a).wp (.alone (· = s) fun _ _ ↦ True) w' s post) :
    (query op >>= f).wp (.alone (· = s) fun _ _ ↦ True) w s post := by
  refine wp_statement fun a w' ha hw' ↦ hnext a w' ha ?_ fun id ↦ ?_
  · rw [hw']
    exact hw.trans (kept_of_keeps hop _)
  · rw [hw']
    exact session_of_keeps hop _ id

theorem wp_readingAlone {op : Op}
    (hop : op.reads = true) {f : op.Answer → Tx α}
    (hnext : ∀ a, op.Answers (s.after w) a →
      (f a).wp (.alone (· = s) fun _ _ ↦ True) w s post) :
    (query op >>= f).wp (.alone (· = s) fun _ _ ↦ True) w s post := by
  rw [wp_bind]
  rintro s' a ⟨rfl, -⟩ - ha
  rw [oracle.effect_of_reads op _ hop, Writes.andThen_nothing]
  exact hnext a ha

theorem SessionsKept.wp_readClock
    (hw : SessionsKept tenant s (s.after w)) {f : Time → Tx α}
    (hnext : (f s.clock).wp (.alone (· = s) fun _ _ ↦ True) w s post) :
    (query .readClock >>= f).wp (.alone (· = s) fun _ _ ↦ True) w s post := by
  refine wp_readingAlone rfl fun (a : Time) ha ↦ ?_
  obtain rfl : (s.after w).clock = a := Option.some.inj ha
  rw [hw.clock]
  exact hnext

variable {sessionId : SessionId}

/-- A code issued on a session that is live. -/
theorem SessionsKept.wp_issueAuthorizationCode (hw : SessionsKept tenant s (s.after w))
    {input : IssueAuthorizationCodeInput} {authTime now : Time}
    (hlive : LiveSession tenant (s.after w) sessionId) :
    (issueAuthorizationCode input authTime now sessionId).wp (.alone (· = s) fun _ _ ↦ True) w s
      (LivePost tenant s) := by
  refine wp_statement fun created w' hcreated hw' ↦ ?_
  cases created with
  | false => exact fun _ _ ↦ trivial
  | true =>
    have hfree : (s.after w).code input.codeHash = none := by
      simpa [Op.Answers, Op.answer] using hcreated
    have hsession : ∀ id, (s.after w').session id = (s.after w).session id := by
      intro id
      rw [hw']
      exact Rows.after_of_none rfl
    have hclock : (s.after w').clock = (s.after w).clock := by
      rw [hw']
      rfl
    refine ⟨fun id hdead ↦ ?_, fun hash code id hnone hcode hon ↦ ?_⟩
    · obtain ⟨row, hrow, hdead⟩ := hw.dead id hdead
      exact ⟨row, (hsession id).trans hrow, hclock.symm ▸ hdead⟩
    · obtain ⟨row, hrow, hrowlive⟩ := hlive
      by_cases hhash : hash = input.codeHash
      · subst hhash
        rw [hw'] at hcode
        have hput := Rows.after_insert (s := s.after w) (authorizationCode input authTime now sessionId) hfree
        obtain rfl := Option.some.inj (hput.symm.trans hcode)
        obtain rfl := Option.some.inj hon
        exact ⟨row, (hsession _).trans hrow, hclock.symm ▸ hrowlive⟩
      · rw [hw'] at hcode
        have hnone' : Op.effect (.authorizationCodeCreate input.codeHash
            (authorizationCode input authTime now sessionId)) (s.after w)
            ⟨.authorizationCodes, hash⟩ = none := Layout.insert_other (L := layout) hhash
        have hother := Rows.after_of_none (s := s.after w) hnone'
        rw [Rows.code, hother] at hcode
        exact absurd ((hw.codes hash).symm.trans hcode) (by simp [hnone])

/-- A live session touched at the instant the clock shows is live. -/
theorem wp_touch (hlasting : tenant.Lasting)
    (hw : SessionsKept tenant s (s.after w))
    (hlive : LiveSession tenant (s.after w) sessionId) {f : Unit → Tx α}
    (hnext : ∀ w', SessionsKept tenant s (s.after w') → LiveSession tenant (s.after w') sessionId →
      (f ()).wp (.alone (· = s) fun _ _ ↦ True) w' s post) :
    (query (.sessionTouch sessionId s.clock) >>= f).wp (.alone (· = s) fun _ _ ↦ True) w s post := by
  refine wp_statement fun _ w' _ hw' ↦ hnext w' ?_ ?_
  · rw [hw']
    refine hw.trans (kept_of_update fun id row hrow hdead hwanted ↦ ?_)
    obtain rfl := of_decide_eq_true hwanted
    exact absurd ⟨row, hrow, hdead⟩ hlive.not_dead
  · rw [hw']
    obtain ⟨row, hrow, hrowlive⟩ := hlive
    refine ⟨_, after_update_session hrow, ?_⟩
    rw [if_pos (by simp), liveUnder_iff]
    refine ⟨(liveUnder_iff.mp hrowlive).1, ?_⟩
    change (s.after w).clock < s.clock + (lifespanFor tenant row.remembered).1
    rw [hw.clock]
    exact Nat.lt_add_of_pos_right (lifespanFor_positive hlasting row.remembered).1

theorem kept_of_ending {wanted : SessionId → Session → Bool} (s : Rows) :
    SessionsKept tenant s (s.after (Layout.update (L := layout) .sessions wanted
      (fun row ↦ { row with expiresAt := s.clock }) s)) :=
  kept_of_update fun _ _ _ _ _ ↦ liveUnder_ended (Nat.le_refl s.clock)

theorem wp_admitSession_live (hlasting : tenant.Lasting)
    (hw : SessionsKept tenant s (s.after w)) (input : AdmitSessionInput)
    (htenant : input.lifespans = tenant) :
    (admitSession input s.clock).wp (.alone (· = s) fun _ _ ↦ True) w s fun _ w s₁ ↦ s₁ = s ∧
      SessionsKept tenant s (s.after w) ∧ LiveSession tenant (s.after w) input.newSessionId := by
  rw [admitSession]
  refine hw.wp_readClock (wp_readingAlone rfl fun live _ ↦ wp_statement fun _ w₂ _ hw₂ ↦ ?_)
  have h₂ : SessionsKept tenant s (s.after w₂) := by
    rw [hw₂, ← hw.clock]
    exact hw.trans (kept_of_ending _)
  refine h₂.wp_readClock (wp_statement fun created w₃ hcreated hw₃ ↦ ?_)
  have h₃ : SessionsKept tenant s (s.after w₃) := by
    rw [hw₃]
    exact h₂.trans kept_sessionCreate
  cases created with
  | false => exact fun _ _ ↦ trivial
  | true =>
    have hfree : (s.after w₂).session input.newSessionId = none := by
      simpa [Op.Answers, Op.answer] using hcreated
    have hrow := Rows.after_insert (s := s.after w₂) (establishedSession input s.clock s.clock) hfree
    refine ⟨rfl, h₃, establishedSession input s.clock s.clock, ?_, ?_⟩
    · rw [hw₃]
      exact hrow
    · have hpositive := lifespanFor_positive hlasting input.remembered
      rw [h₃.clock, liveUnder_iff]
      exact ⟨Nat.lt_add_of_pos_right (htenant ▸ hpositive.2), Nat.lt_add_of_pos_right hpositive.1⟩

theorem wp_completeLogin_live (hlasting : tenant.Lasting) {input : CompleteLoginInput}
    (htenant : input.session.lifespans = tenant)
    (hgoes : GoesOnWithLive tenant (.completeLogin input) s) :
    (completeLogin input).wp (.alone (· = s) fun _ _ ↦ True) Writes.nothing s
      (LivePost tenant s) := by
  have h₀ : SessionsKept tenant s (s.after Writes.nothing) := .refl s
  rw [completeLogin]
  refine h₀.wp_readClock ?_
  refine wp_readingAlone rfl fun subject hsubject ↦ ?_
  obtain rfl := Option.some.inj hsubject
  split
  case isTrue => exact h₀.liveOnly
  case isFalse henabled =>
    refine h₀.wp_readClock (h₀.wp_keeps rfl fun consumed w₂ hconsumed h₂ hsessions₂ ↦ ?_)
    obtain rfl := Option.some.inj hconsumed
    split
    case isTrue => exact h₂.liveOnly
    case isFalse hunconsumed =>
      split
      case h_1 sessionId authTime hreuse =>
        have hlive : LiveSession tenant s sessionId := by
          exact hgoes (by simpa using henabled) (by simpa using hunconsumed)
            (sessionId, authTime) (by simp [hreuse])
        have hlive₂ : LiveSession tenant (s.after w₂) sessionId := by
          obtain ⟨row, hrow, hrowlive⟩ := hlive
          exact ⟨row, (hsessions₂ _).trans hrow, h₂.clock.symm ▸ hrowlive⟩
        refine wp_touch hlasting h₂ hlive₂ fun w₃ h₃ hlive₃ ↦ ?_
        rw [wp_bind]
        exact wp_mono (fun _ _ _ h ↦ h) (h₃.wp_issueAuthorizationCode hlive₃)
      case h_2 =>
        rw [wp_bind]
        refine wp_mono ?_ (wp_admitSession_live hlasting h₂ input.session htenant)
        rintro _ w₃ _ ⟨rfl, h₃, hlive₃⟩
        rw [wp_bind]
        exact wp_mono (fun _ _ _ h ↦ h) (h₃.wp_issueAuthorizationCode hlive₃)

theorem wp_completeReuse_live (hlasting : tenant.Lasting) {code : IssueAuthorizationCodeInput}
    {authTime : Time} (hlive : LiveSession tenant s sessionId) :
    (completeReuse code sessionId authTime).wp (.alone (· = s) fun _ _ ↦ True) Writes.nothing s
      (LivePost tenant s) := by
  have h₀ : SessionsKept tenant s (s.after Writes.nothing) := .refl s
  rw [completeReuse]
  exact h₀.wp_readClock (wp_touch hlasting h₀ hlive fun w₁ h₁ hlive₁ ↦
    h₁.wp_issueAuthorizationCode hlive₁)

variable {r : RotationRequest}

theorem wp_detectReuse_live (hw : SessionsKept tenant s (s.after w)) :
    (detectReuse r).wp (.alone (· = s) fun _ _ ↦ True) w s (LivePost tenant s) := by
  refine wp_readingAlone rfl fun existing _ ↦ ?_
  cases existing with
  | none => exact hw.liveOnly
  | some existing =>
    cases hused : existing.usedAt with
    | none =>
      simp only [hused]
      exact hw.liveOnly
    | some =>
      simp only [hused]
      refine wp_readingAlone rfl fun family _ ↦ ?_
      exact hw.wp_keeps rfl fun revoked w₁ _ h₁ _ ↦ h₁.liveOnly

/-- A rotation touches a session that it has read as live. -/
theorem wp_touchSession_live (hlasting : tenant.Lasting) {session : Option SessionId}
    (hw : SessionsKept tenant s (s.after w)) :
    (touchSession session tenant s.clock).wp (.alone (· = s) fun _ _ ↦ True) w s
      fun _ w s₁ ↦ s₁ = s ∧ SessionsKept tenant s (s.after w) := by
  cases session with
  | none => exact ⟨rfl, hw⟩
  | some sessionId =>
    refine wp_readingAlone rfl fun found hfound ↦ ?_
    obtain rfl := Option.some.inj hfound
    cases hrow : ((s.after w).session sessionId).filter fun row ↦ stillLive row tenant s.clock with
    | none => exact ⟨rfl, hw⟩
    | some row =>
      obtain ⟨hthere, hstill⟩ := Option.filter_eq_some_iff.mp hrow
      have hlive : LiveSession tenant (s.after w) sessionId := by
        refine ⟨row, hthere, ?_⟩
        rw [hw.clock]
        unfold stillLive at hstill
        split at hstill
        · simp at hstill
        · exact hstill
      exact wp_touch hlasting hw hlive fun w₁ h₁ _ ↦ ⟨rfl, h₁⟩

theorem wp_rotateRefreshToken_live (hlasting : tenant.Lasting)
    (hnow : r.now = s.clock) (htenant : r.lifespans = tenant) :
    (rotateRefreshToken r).wp (.alone (· = s) fun _ _ ↦ True) Writes.nothing s
      (LivePost tenant s) := by
  have h₀ : SessionsKept tenant s (s.after Writes.nothing) := .refl s
  rw [rotateRefreshToken]
  refine h₀.wp_readClock (h₀.wp_keeps rfl fun consumed w₁ _ h₁ _ ↦ ?_)
  cases consumed with
  | none => exact wp_detectReuse_live h₁
  | some =>
    refine wp_readingAlone rfl fun grant _ ↦ ?_
    cases grant with
    | none => exact fun _ _ ↦ trivial
    | some grant =>
      cases hrevoked : grant.revokedAt with
      | some =>
        simp only [hrevoked]
        exact h₁.liveOnly
      | none =>
        simp only [hrevoked, hnow, htenant]
        rw [wp_bind]
        refine wp_mono ?_ (wp_touchSession_live hlasting h₁)
        rintro alive w₂ _ ⟨rfl, h₂⟩
        split
        case isFalse => exact h₂.liveOnly
        case isTrue =>
          refine h₂.wp_keeps rfl fun created w₃ _ h₃ _ ↦ ?_
          split
          case isFalse => exact fun _ _ ↦ trivial
          case isTrue => exact h₃.wp_keeps rfl fun _ w₄ _ h₄ _ ↦ h₄.liveOnly

theorem clock_le_tick {seconds : Time} (s : Rows) :
    s.clock ≤ (s.after (Op.effect (.tick seconds) s)).clock := by
  unfold Rows.clock
  cases hclock : s ⟨.clock, 0⟩ with
  | none => exact Nat.zero_le _
  | some now =>
    have hnow : s.after (Op.effect (.tick seconds) s) ⟨.clock, 0⟩ = some (now + seconds) :=
      Rows.after_of_some (Layout.update_of_wanted (L := layout) hclock rfl)
    rw [hnow]
    exact Nat.le_add_right now seconds

/-- Every operation that goes on with a session only where it is live. -/
theorem wp_body_live (hlasting : tenant.Lasting) {call : SessionCall}
    (hgoes : GoesOnWithLive tenant call s) :
    (call.body tenant).wp (.alone (· = s) fun _ _ ↦ True) Writes.nothing s
      (LivePost tenant s) := by
  have h₀ : SessionsKept tenant s (s.after Writes.nothing) := .refl s
  cases call with
  | establish =>
    refine h₀.wp_readClock (wp_mono ?_ (wp_admitSession_live hlasting h₀ _ rfl))
    rintro _ w _ ⟨rfl, h, -⟩
    exact h.liveOnly
  | completeLogin =>
    rw [SessionCall.body, wp_bind]
    exact wp_mono (fun _ _ _ h ↦ h) (wp_completeLogin_live hlasting rfl hgoes)
  | completeReuse => exact wp_completeReuse_live hlasting hgoes
  | rotate =>
    rw [SessionCall.body]
    refine h₀.wp_readClock ?_
    rw [wp_bind]
    exact wp_mono (fun _ _ _ h ↦ h) (wp_rotateRefreshToken_live hlasting rfl rfl)
  | endOne =>
    refine h₀.wp_readClock (wp_statement fun _ w _ hw ↦ ?_)
    exact SessionsKept.liveOnly (hw ▸ kept_of_ending s)
  | endAll | endMany =>
    refine h₀.wp_readClock ?_
    rintro s' _ ⟨rfl, -⟩ - -
    refine SessionsKept.liveOnly ?_
    rw [Writes.nothing_andThen]
    exact kept_of_ending s'
  | tick seconds =>
    rintro (s' : Rows) _ ⟨rfl, -⟩ - -
    have hlater : s'.clock ≤ (s'.after (Op.effect (.tick seconds) s')).clock := clock_le_tick s'
    change LiveOnly tenant s' (s'.after (Writes.nothing.andThen (Op.effect (.tick seconds) s')))
    rw [Writes.nothing_andThen]
    refine ⟨?_, fun hash code id hfree hcode ↦ absurd (hfree.symm.trans hcode) (by simp)⟩
    rintro id ⟨row, hrow, hdead⟩
    exact ⟨row, hrow, liveUnder_later hlater hdead⟩

end Operations

/-- Five minutes idle, ten at most. -/
def tenantLifespans : SessionLifespans := ⟨300, 600, 300, 600⟩

/-- Session 5, its idle window over for 100 seconds, and attempt 1, promoted from it when it
was live. -/
def idleSession : Rows
  | ⟨.clock, 0⟩ => some 400
  | ⟨.subjects, 1⟩ => some ⟨none⟩
  | ⟨.sessions, 5⟩ => some {
      subjectId := 1
      createdAt := 0
      expiresAt := 600
      lastActiveAt := 0
      authenticators := [.passkey]
      remembered := false
      secretHash := some 7 }
  | ⟨.authenticationSessions, 1⟩ => some {
      pendingRequest := ⟨1, "https://app.example/cb", ["openid"], "challenge", none, none, [],
        none, some 5, some 0, [], []⟩
      expiresAt := 1800
      consumedAt := none
      satisfied := [.passkey]
      subjectId := some 1
      authenticatedAt := some 10
      webauthnChallenge := none }
  | _ => none

def codeFor (subjectId : SubjectId) (codeHash : TokenHash) : IssueAuthorizationCodeInput :=
  ⟨codeHash, 60, 1, subjectId, "https://app.example/cb", ["openid"], "challenge", [], []⟩

/-- The consent to attempt 1 given: its login goes on with session 5. -/
def consentGiven : CompleteLoginInput where
  authSessionId := 1
  reuseSession := some (5, 0)
  code := codeFor 1 70
  session := ⟨1, [.passkey], false, [], 4, tenantLifespans, 6, 8⟩

/-- A session established, used 200 seconds later, and ended. -/
def sessionUsed : List SessionCall :=
  [.establish ⟨1, [.passkey], false, [], 4, tenantLifespans, 6, 8⟩, .tick 200,
    .completeReuse (codeFor 1 71) 6 400, .endOne 6]

/-- Any operation may be made. -/
abbrev anyOperation (tenant : SessionLifespans) (_ : SessionCall) (_ : Rows)
    (_ : List (Answered (sessionOperations tenant))) : Prop :=
  True

/-- Operations go on with a session only where it is live. -/
abbrev goingOnWithLive (tenant : SessionLifespans) (call : SessionCall) (s : Rows)
    (_ : List (Answered (sessionOperations tenant))) : Prop :=
  GoesOnWithLive tenant call s

/-- Between any two moments of a sequence of operations dead sessions stay dead, and each
operation issues codes on live sessions only. -/
def DeadStayDead (tenant : SessionLifespans) (may : SessionCall → Rows →
    List (Answered (sessionOperations tenant)) → Prop) : Prop :=
  ∀ rows s history, Turns (sessionOperations tenant) may rows s history →
    (∀ id, DeadSession tenant rows id → DeadSession tenant s id) ∧
    ∀ call result s', may call s history →
      (call.body tenant).Ends Writes.nothing s result s' → LiveOnly tenant s s'

instance (tenant : SessionLifespans) (call : SessionCall) (s : Rows) :
    Decidable (GoesOnWithLive tenant call s) := by
  unfold GoesOnWithLive
  split <;> infer_instance

theorem tenantLifespans_lasting : tenantLifespans.Lasting := by
  constructor <;> decide

/-- What a sequence comes to. -/
structure SessionsAfter where
  /-- The session that a code is on. -/
  codeOn : Option SessionId
  fiveLives : Bool
  sixLives : Bool
  deriving DecidableEq

def sessionsAfter (codeHash : TokenHash)
    (m : Rows × List (Answered (sessionOperations tenantLifespans))) : SessionsAfter :=
  ⟨(m.1.code codeHash).bind fun code ↦ code.sessionId,
    decide (LiveSession tenantLifespans m.1 5), decide (LiveSession tenantLifespans m.1 6)⟩

/-- Operations made in turn, computed. -/
def performOperations (may : SessionCall → Rows →
    List (Answered (sessionOperations tenantLifespans)) → Prop)
    [∀ call s history, Decidable (may call s history)] (calls : List SessionCall) :
    Option (Rows × List (Answered (sessionOperations tenantLifespans))) :=
  @Turns.perform (sessionOperations tenantLifespans) may _ oracle calls idleSession []

/-- The consent given on a page left open revives the session it goes on with. -/
theorem idleSession_run : ∃ m : Rows × List (Answered (sessionOperations tenantLifespans)),
    Turns (sessionOperations tenantLifespans) (anyOperation tenantLifespans) idleSession m.1 m.2 ∧
      sessionsAfter 70 m = ⟨some 5, true, false⟩ := by
  have hend : (performOperations (anyOperation tenantLifespans)
      [.completeLogin consentGiven]).map (sessionsAfter 70) = some ⟨some 5, true, false⟩ := by
    decide
  obtain ⟨m, hperform, hend⟩ := Option.map_eq_some_iff.mp hend
  exact ⟨m, turns_of_perform .start hperform, hend⟩

end Odudu.ProtocolOidc
