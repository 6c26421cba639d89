import Odudu.DomainIdentity.LoginFailures
import Odudu.ReadCommitted.Chronicles
import Mathlib.Data.List.Permutation

/-!
# Runs of failures and clears

Any number of failures and clears beside one another, on any rows.  An attempt that is lost
leaves its request holding the row, so that the next one is not.  What is committed
is what the calls make one after another, in the order of their answers but for the clears
that found nothing to delete: `committed_serially`.

That is so in the runs in which an upsert that writes would have been decided in the same way
from the row it finds.  The insert asks nothing of it, and the update its count alone.
-/

set_option autoImplicit false

namespace Odudu.DomainIdentity.LoginFailures

open ReadCommitted Program

/-! ### One call after another -/

/-- What is on record for a subject, the first failure apart. -/
structure Standing where
  failureCount : ℕ
  lastFailureAt : Option Time
  lockedUntil : Option Time
  deriving DecidableEq

def Standing.clean : Standing := ⟨0, none, none⟩

def Standing.failed (standing : Standing) (policy : LockoutPolicy) (now : Time) : Standing :=
  let next := nextLockout ⟨standing.failureCount, standing.lastFailureAt⟩ policy now
  ⟨next.failureCount, some now, next.lockedUntil⟩

def LoginFailureRecord.standing (row : LoginFailureRecord) : Standing :=
  ⟨row.failureCount, row.lastFailureAt, row.lockedUntil⟩

def standing (rows : Failures) (subjectId : SubjectId) : Standing :=
  ((rows subjectId).getD NEVER_FAILED).standing

/-- A call as one step. -/
def LoginCall.alone (known : SubjectId → Bool) (standings : SubjectId → Standing) :
    LoginCall → SubjectId → Standing
  | recordFailure subjectId policy now =>
    if known subjectId then
      Function.update standings subjectId ((standings subjectId).failed policy now)
    else standings
  | clear subjectId => Function.update standings subjectId .clean

/-- The calls one after another. -/
def serially (known : SubjectId → Bool) (standings : SubjectId → Standing)
    (calls : List LoginCall) : SubjectId → Standing :=
  calls.foldl (LoginCall.alone known) standings

variable {known : SubjectId → Bool} {s start : Failures} {subjectId : SubjectId}
  {policy : LockoutPolicy} {now : Time}

theorem serially_concat (standings : SubjectId → Standing) (calls : List LoginCall)
    (call : LoginCall) :
    serially known standings (calls ++ [call]) =
      call.alone known (serially known standings calls) := by
  simp [serially]

theorem alone_clear_clear (standings : SubjectId → Standing) (subjectId : SubjectId) :
    LoginCall.alone known (LoginCall.alone known standings (.clear subjectId)) (.clear subjectId) =
      LoginCall.alone known standings (.clear subjectId) := by
  simp [LoginCall.alone]

theorem alone_clear_of_none (h : s subjectId = none) :
    LoginCall.alone known (standing s) (.clear subjectId) = standing s := by
  refine Function.update_eq_self_iff.mpr ?_
  rw [standing, h]
  rfl

theorem standing_update (cell : Option LoginFailureRecord) :
    standing (Function.update s subjectId cell) =
      Function.update (standing s) subjectId (cell.getD NEVER_FAILED).standing := by
  funext subjectId'
  by_cases hsubject : subjectId' = subjectId
  · subst hsubject
    simp [standing]
  · simp [standing, hsubject]

/-! ### The answers -/

abbrev Answers (known : SubjectId → Bool) : Type := List (Answered (loginFailures known))

/-- Not a clear that found nothing to delete. -/
def acted (answer : Answered (loginFailures known)) : Bool :=
  match answer.result with
  | .ok (.cleared false) => false
  | _ => true

/-- A clear of the subject that deleted its row. -/
def ClearedIn (history : Answers known) (subjectId : SubjectId) : Prop :=
  ∃ answer ∈ history, answer.call = .clear subjectId ∧ answer.result = .ok (.cleared true)

/-- The failures recorded of a subject since its row was last deleted, on top of a first
count. -/
def since (first : ℕ) (subjectId : SubjectId) : Answers known → ℕ
  | [] => first
  | ⟨_, .recordFailure subjectId' _ _, .ok (.recorded _)⟩ :: earlier =>
    since first subjectId earlier + if subjectId' = subjectId then 1 else 0
  | ⟨_, .clear subjectId', .ok (.cleared true)⟩ :: earlier =>
    if subjectId' = subjectId then 0 else since first subjectId earlier
  | _ :: earlier => since first subjectId earlier

/-- A lock that was set was set by as many failures of one run as its policy has. -/
def LocksCounted (start : Failures) : Answers known → Prop
  | [] => True
  | ⟨t, .recordFailure subjectId policy now, .ok (.recorded state)⟩ :: earlier =>
    (state.lockedUntil ≠ none → policy.maxFailures ≤ since (standing start subjectId).failureCount
      subjectId (⟨t, .recordFailure subjectId policy now, .ok (.recorded state)⟩ :: earlier)) ∧
    LocksCounted start earlier
  | _ :: earlier => LocksCounted start earlier

/-- An upsert that writes would have been decided in the same way from the row it finds. -/
def agreeing (known : SubjectId → Bool) : Discipline (loginFailures known) where
  mayRun := fun call op s ↦
    match call, op with
    | .recordFailure _ policy now, .upsert subjectId values observed =>
      upserts s subjectId observed = true →
        nextLockout ((s subjectId).getD NEVER_FAILED).state policy now =
          ⟨values.failureCount, values.lockedUntil⟩
    | _, _ => True
  mayCommit := fun _ _ _ _ ↦ True

/-! ### Where a request is -/

/-- What follows the read of an attempt, with so many attempts left. -/
def afterSelect (known : SubjectId → Bool) (subjectId : SubjectId) (policy : LockoutPolicy)
    (now : Time) (attempts : ℕ) (row : Option LoginFailureRecord) : LoginTx known LoginOutcome :=
  recordObserved known subjectId policy now (recordAttempts known subjectId policy now attempts)
    (row.getD NEVER_FAILED)

/-- What follows the upsert of an attempt. -/
def afterUpsert (known : SubjectId → Bool) (subjectId : SubjectId) (policy : LockoutPolicy)
    (now : Time) (attempts : ℕ) (observed : LoginFailureRecord) (row : RawOutcomeRow) :
    LoginTx known LoginOutcome :=
  if row.targetRows = 0 then pure .noSubject
  else if row.writtenRows > 0 then pure (.recorded (recordOf policy now observed))
  else recordAttempts known subjectId policy now attempts

/-- The row is decided from what is on record. -/
def DecidedFrom (policy : LockoutPolicy) (now : Time) (cell : Option LoginFailureRecord)
    (state : LoginFailureRecord) : Prop :=
  state.standing = (cell.getD NEVER_FAILED).standing.failed policy now

/-- The points of a failure. -/
inductive FailurePoint (known : SubjectId → Bool) (subjectId : SubjectId)
    (policy : LockoutPolicy) (now : Time) :
    LoginTx known LoginOutcome → Writes (failureDatabase known) → Failures → Prop where
  | first {s : Failures} :
      FailurePoint known subjectId policy now
        (.stmt (.select subjectId) (afterSelect known subjectId policy now 4)) .nothing s
  | observed {s : Failures} (observed : LoginFailureRecord) :
      FailurePoint known subjectId policy now
        (.stmt (.upsert subjectId (recordOf policy now observed) observed.failureCount)
          (afterUpsert known subjectId policy now 4 observed)) .nothing s
  /-- The first attempt was lost, and the row is held. -/
  | lost {s : Failures} {row : LoginFailureRecord} (hknown : known subjectId = true)
      (hrow : s subjectId = some row) :
      FailurePoint known subjectId policy now
        (.stmt (.select subjectId) (afterSelect known subjectId policy now 3))
        (oneRow (some (subjectId, some row))) s
  | held {s : Failures} {row : LoginFailureRecord} (hknown : known subjectId = true)
      (hrow : s subjectId = some row) :
      FailurePoint known subjectId policy now
        (.stmt (.upsert subjectId (recordOf policy now row) row.failureCount)
          (afterUpsert known subjectId policy now 3 row))
        (oneRow (some (subjectId, some row))) s
  | recorded {s : Failures} {state : LoginFailureRecord} (hknown : known subjectId = true)
      (hstate : DecidedFrom policy now (s subjectId) state) :
      FailurePoint known subjectId policy now (.done (.recorded state))
        (oneRow (some (subjectId, some state))) s
  | noSubject {s : Failures} (hknown : known subjectId = false) :
      FailurePoint known subjectId policy now (.done .noSubject) .nothing s

/-- The points of a clear. -/
inductive ClearPoint (known : SubjectId → Bool) (start : Failures) (subjectId : SubjectId) :
    LoginTx known LoginOutcome → Writes (failureDatabase known) → Failures → Answers known →
    Prop where
  | first {s : Failures} {history : Answers known} :
      ClearPoint known start subjectId
        (.stmt (.delete subjectId) fun deleted ↦ .done (.cleared (decide (deleted > 0)))) .nothing
        s history
  | deleted {s : Failures} {history : Answers known} (hrow : s subjectId ≠ none) :
      ClearPoint known start subjectId (.done (.cleared true)) (oneRow (some (subjectId, none))) s
        history
  /-- The row was not there, from the start or since a clear. -/
  | absent {s : Failures} {history : Answers known}
      (hidle : start subjectId = none ∨ ClearedIn history subjectId) :
      ClearPoint known start subjectId (.done (.cleared false)) .nothing s history

theorem oneRow_none : oneRow none = (Writes.nothing : Writes (failureDatabase known)) := rfl

theorem laidOver_oneRow (subjectId : SubjectId) (cell : Option LoginFailureRecord)
    (s : Failures) :
    @Writes.laidOver (failureDatabase known) (oneRow (some (subjectId, cell))) s =
      Function.update s subjectId cell := by
  funext subjectId'
  by_cases hsubject : subjectId' = subjectId
  · subst hsubject
    simp [Writes.laidOver, oneRow]
  · simp [Writes.laidOver, oneRow, hsubject]

theorem oneRow_andThen (cell cell' : Option LoginFailureRecord) :
    @Writes.andThen (failureDatabase known) (oneRow (some (subjectId, cell)))
      (oneRow (some (subjectId, cell'))) = oneRow (some (subjectId, cell')) := by
  funext subjectId'
  by_cases hsubject : subjectId' = subjectId <;> simp [Writes.andThen, oneRow, hsubject]

theorem oneRow_self (cell : Option LoginFailureRecord) :
    oneRow (some (subjectId, cell)) subjectId = some cell := by
  simp [oneRow]

theorem decidedFrom_of_next {cell : Option LoginFailureRecord} {observed : LoginFailureRecord}
    (h : nextLockout (cell.getD NEVER_FAILED).state policy now =
      nextLockout observed.state policy now) :
    DecidedFrom policy now cell (recordOf policy now observed) := by
  change (_ : Standing) = _
  rw [Standing.failed]
  change _ = (⟨(nextLockout (cell.getD NEVER_FAILED).state policy now).failureCount, some now,
    (nextLockout (cell.getD NEVER_FAILED).state policy now).lockedUntil⟩ : Standing)
  rw [h]
  rfl

section Points

variable {p : LoginTx known LoginOutcome} {w w' : Writes (failureDatabase known)}
  {op : FailureOp} {next : op.Answer → LoginTx known LoginOutcome} {a : op.Answer}
  {history : Answers known}

/-- The statement that follows keeps a failure where it is said to be. -/
theorem FailurePoint.run (h : FailurePoint known subjectId policy now (.stmt op next) w s)
    (hmay : (agreeing known).mayRun (.recordFailure subjectId policy now) op (w.laidOver s))
    (ha : a = op.answer known (w.laidOver s)) :
    FailurePoint known subjectId policy now (next a)
      (w.andThen (oneRow (op.written known (w.laidOver s)))) s := by
  subst ha
  cases h with
  | first =>
    rw [FailureOp.written, oneRow_none, Writes.andThen_nothing]
    exact .observed _
  | lost hknown hrow =>
    rw [FailureOp.written, oneRow_none, Writes.andThen_nothing]
    simp only [FailureOp.answer, laidOver_oneRow, Function.update_self]
    exact .held hknown hrow
  | observed observed =>
    rw [Writes.nothing_andThen]
    simp only [Writes.nothing_laidOver] at hmay ⊢
    cases hknown : known subjectId with
    | false =>
      simp only [FailureOp.answer, FailureOp.written, hknown]
      exact .noSubject hknown
    | true =>
      cases hupserts : upserts s subjectId observed.failureCount with
      | true =>
        simp only [FailureOp.answer, FailureOp.written, hknown, hupserts, if_true]
        exact .recorded hknown (decidedFrom_of_next (hmay hupserts))
      | false =>
        cases hrow : s subjectId with
        | none => simp [upserts, hrow] at hupserts
        | some =>
          simp only [FailureOp.answer, FailureOp.written, hknown, hupserts, hrow, if_true]
          exact .lost hknown hrow
  | @held _ row hknown hrow =>
    have hupserts : upserts (Function.update s subjectId (some row)) subjectId row.failureCount =
        true := by
      simp [upserts]
    simp only [FailureOp.answer, FailureOp.written, laidOver_oneRow, hknown, hupserts, if_true,
      oneRow_andThen]
    exact .recorded hknown (hrow ▸ decidedFrom_of_next rfl)

theorem FailurePoint.apart (h : FailurePoint known subjectId policy now p w' s)
    (hapart : w.Apart w') : FailurePoint known subjectId policy now p w' (w.laidOver s) := by
  cases h with
  | first => exact .first
  | observed observed => exact .observed observed
  | lost hknown hrow => exact .lost hknown ((hapart.laidOver_eq (oneRow_self _) s).trans hrow)
  | held hknown hrow => exact .held hknown ((hapart.laidOver_eq (oneRow_self _) s).trans hrow)
  | recorded hknown hstate =>
    refine .recorded hknown ?_
    rw [hapart.laidOver_eq (oneRow_self _) s]
    exact hstate
  | noSubject hknown => exact .noSubject hknown

theorem ClearPoint.run (h : ClearPoint known start subjectId (.stmt op next) w s history)
    (hidle : s subjectId = none → start subjectId = none ∨ ClearedIn history subjectId)
    (ha : a = op.answer known (w.laidOver s)) :
    ClearPoint known start subjectId (next a)
      (w.andThen (oneRow (op.written known (w.laidOver s)))) s history := by
  subst ha
  cases h with
  | first =>
    rw [Writes.nothing_andThen, Writes.nothing_laidOver]
    cases hrow : s subjectId with
    | none =>
      simp only [FailureOp.answer, FailureOp.written, hrow]
      exact .absent (hidle hrow)
    | some =>
      simp only [FailureOp.answer, FailureOp.written, hrow]
      exact .deleted (by simp [hrow])

theorem ClearedIn.later (h : ClearedIn history subjectId)
    (answer : Answered (loginFailures known)) :
    ClearedIn (answer :: history) subjectId := by
  obtain ⟨earlier, hmem, hcleared⟩ := h
  exact ⟨earlier, List.mem_cons_of_mem _ hmem, hcleared⟩

theorem ClearPoint.apart (h : ClearPoint known start subjectId p w' s history)
    (hapart : w.Apart w') (answer : Answered (loginFailures known)) :
    ClearPoint known start subjectId p w' (w.laidOver s) (answer :: history) := by
  cases h with
  | first => exact .first
  | deleted hrow =>
    refine .deleted ?_
    rw [hapart.laidOver_eq (oneRow_self _) s]
    exact hrow
  | absent hidle => exact .absent (hidle.imp_right fun hcleared ↦ hcleared.later answer)

end Points

/-! ### What a run has committed -/

theorem nextLockout_failureCount_le (state : LockoutState) (policy : LockoutPolicy) (now : Time) :
    (nextLockout state policy now).failureCount ≤ state.failureCount + 1 := by
  simp only [nextLockout]
  split_ifs <;> simp

/-- A lock is set when as many have failed as the policy has. -/
theorem le_of_lockedUntil {state : LockoutState}
    (h : (nextLockout state policy now).lockedUntil ≠ none) :
    policy.maxFailures ≤ (nextLockout state policy now).failureCount := by
  unfold nextLockout at h ⊢
  by_cases hfew : (if runIsBroken state policy now then 1 else state.failureCount + 1) <
      policy.maxFailures
  · simp only [if_pos hfew] at h
    exact absurd rfl h
  · simp only [if_neg hfew]
    exact Nat.le_of_not_lt hfew

theorem Standing.le_of_failed {standing : Standing} {state : LoginFailureRecord}
    (hstate : state.standing = standing.failed policy now) (hlocked : state.lockedUntil ≠ none) :
    policy.maxFailures ≤ state.failureCount := by
  have hcount : state.failureCount = (standing.failed policy now).failureCount :=
    congrArg Standing.failureCount hstate
  have hlock : state.lockedUntil = (standing.failed policy now).lockedUntil :=
    congrArg Standing.lockedUntil hstate
  rw [hlock] at hlocked
  rw [hcount]
  exact le_of_lockedUntil hlocked

/-- What is on record is what the calls answered make one after another, in the order of
their answers but for the clears that found nothing to delete. -/
structure Settled (known : SubjectId → Bool) (start rows : Failures) (history : Answers known) :
    Prop where
  order : ∃ order : Answers known, order.Perm history ∧
    order.filter acted = (history.filter acted).reverse ∧
    standing rows = serially known (standing start) (order.map Answered.call)
  idle : ∀ subjectId, rows subjectId = none →
    start subjectId = none ∨ ClearedIn history subjectId
  counted : ∀ subjectId, (standing rows subjectId).failureCount ≤
    since (standing start subjectId).failureCount subjectId history
  locks : LocksCounted start history

theorem settled_start : Settled known start start [] where
  order := ⟨[], .refl [], rfl, rfl⟩
  idle := fun _ hrow ↦ Or.inl hrow
  counted := fun _ ↦ Nat.le_refl _
  locks := trivial

namespace Settled

variable {history : Answers known} {t : ℕ} {state : LoginFailureRecord} {rows : Failures}

/-- A call that is last in the order as in the answers. -/
theorem order_last (h : Settled known start s history) (answer : Answered (loginFailures known))
    (hacted : acted answer = true) (hrows : standing rows = answer.call.alone known (standing s)) :
    ∃ order : Answers known, order.Perm (answer :: history) ∧
      order.filter acted = ((answer :: history).filter acted).reverse ∧
      standing rows = serially known (standing start) (order.map Answered.call) := by
  obtain ⟨order, hperm, hfilter, hserial⟩ := h.order
  refine ⟨order ++ [answer], ?_, ?_, ?_⟩
  · exact (List.perm_append_singleton _ _).trans (hperm.cons _)
  · simp [hfilter, hacted]
  · rw [List.map_append, List.map_cons, List.map_nil, serially_concat, ← hserial]
    exact hrows

theorem idle_later (h : Settled known start s history) {subjectId : SubjectId}
    (hrow : s subjectId = none) (answer : Answered (loginFailures known)) :
    start subjectId = none ∨ ClearedIn (answer :: history) subjectId :=
  (h.idle subjectId hrow).imp_right fun hcleared ↦ hcleared.later answer

/-- A failure decided from the row as it was comes next in the order. -/
theorem recorded (h : Settled known start s history) (hknown : known subjectId = true)
    (hstate : DecidedFrom policy now (s subjectId) state) :
    Settled known start (Function.update s subjectId (some state))
      (⟨t, .recordFailure subjectId policy now, .ok (.recorded state)⟩ :: history) := by
  have hcount : state.failureCount ≤
      since (standing start subjectId).failureCount subjectId history + 1 := by
    have hfailed : state.failureCount = ((standing s subjectId).failed policy now).failureCount :=
      congrArg Standing.failureCount hstate
    rw [hfailed]
    exact Nat.le_trans (nextLockout_failureCount_le _ policy now)
      (Nat.add_le_add_right (h.counted subjectId) 1)
  refine ⟨h.order_last _ rfl ?_, fun subjectId' hrow ↦ ?_, fun subjectId' ↦ ?_, ?_, h.locks⟩
  · rw [standing_update, LoginCall.alone, if_pos hknown]
    exact congrArg _ hstate
  · by_cases hsubject : subjectId' = subjectId
    · subst hsubject
      simp at hrow
    · rw [Function.update_of_ne hsubject] at hrow
      exact h.idle_later hrow _
  · rw [standing_update]
    by_cases hsubject : subjectId' = subjectId
    · subst hsubject
      simpa [since, LoginFailureRecord.standing] using hcount
    · simpa [since, hsubject, Ne.symm hsubject] using h.counted subjectId'
  · intro hlocked
    simpa [since] using Nat.le_trans (Standing.le_of_failed hstate hlocked) hcount

theorem noSubject (h : Settled known start s history) (hknown : known subjectId = false) :
    Settled known start s
      (⟨t, .recordFailure subjectId policy now, .ok .noSubject⟩ :: history) where
  order := h.order_last _ rfl (by simp [LoginCall.alone, hknown])
  idle := fun _ hrow ↦ h.idle_later hrow _
  counted := h.counted
  locks := h.locks

theorem deleted (h : Settled known start s history) :
    Settled known start (Function.update s subjectId none)
      (⟨t, .clear subjectId, .ok (.cleared true)⟩ :: history) := by
  refine ⟨h.order_last _ rfl ?_, fun subjectId' hrow ↦ ?_, fun subjectId' ↦ ?_, h.locks⟩
  · rw [standing_update]
    rfl
  · by_cases hsubject : subjectId' = subjectId
    · exact Or.inr ⟨_, List.mem_cons_self, by rw [hsubject], rfl⟩
    · rw [Function.update_of_ne hsubject] at hrow
      exact h.idle_later hrow _
  · rw [standing_update]
    by_cases hsubject : subjectId' = subjectId
    · subst hsubject
      simp [since, LoginFailureRecord.standing, NEVER_FAILED]
    · simpa [since, hsubject, Ne.symm hsubject] using h.counted subjectId'

/-- A clear that found nothing comes first, or after a clear that did. -/
theorem absent (h : Settled known start s history)
    (hidle : start subjectId = none ∨ ClearedIn history subjectId) :
    Settled known start s (⟨t, .clear subjectId, .ok (.cleared false)⟩ :: history) := by
  refine ⟨?_, fun _ hrow ↦ h.idle_later hrow _, h.counted, h.locks⟩
  obtain ⟨order, hperm, hfilter, hserial⟩ := h.order
  rcases hidle with hnone | ⟨answer, hmem, hcall, -⟩
  · refine ⟨⟨t, .clear subjectId, .ok (.cleared false)⟩ :: order, hperm.cons _, hfilter, ?_⟩
    rw [hserial, List.map_cons, serially, serially, List.foldl_cons, alone_clear_of_none hnone]
  · obtain ⟨before, after, rfl⟩ := List.append_of_mem (hperm.mem_iff.mpr hmem)
    refine ⟨before ++ answer :: ⟨t, .clear subjectId, .ok (.cleared false)⟩ :: after, ?_, ?_, ?_⟩
    · have hmoved := @List.perm_middle _ ⟨t, .clear subjectId, .ok (.cleared false)⟩
        (before ++ [answer]) after
      rw [List.append_assoc, List.append_assoc] at hmoved
      exact hmoved.trans (hperm.cons _)
    · have hquiet : @acted known ⟨t, .clear subjectId, .ok (.cleared false)⟩ = false := rfl
      simpa only [List.filter_append, List.filter_cons, hquiet, Bool.false_eq_true, if_false]
        using hfilter
    · rw [hserial]
      simp [serially, hcall, alone_clear_clear]

end Settled

/-- Where a request is, by its call. -/
def Point (known : SubjectId → Bool) (start : Failures) (call : LoginCall)
    (p : LoginTx known LoginOutcome) (w : Writes (failureDatabase known)) (s : Failures)
    (history : Answers known) : Prop :=
  match call with
  | .recordFailure subjectId policy now => FailurePoint known subjectId policy now p w s
  | .clear subjectId => ClearPoint known start subjectId p w s history

/-- An end commits what the calls make one after another. -/
theorem Settled.commit {call : LoginCall} {outcome : LoginOutcome}
    {w : Writes (failureDatabase known)} {history : Answers known} {t : ℕ}
    (h : Settled known start s history)
    (hpoint : Point known start call (.done outcome) w s history) :
    Settled known start (w.laidOver s) (⟨t, call, .ok outcome⟩ :: history) := by
  cases call with
  | recordFailure =>
    cases hpoint with
    | recorded hknown hstate =>
      rw [laidOver_oneRow]
      exact h.recorded hknown hstate
    | noSubject hknown => exact h.noSubject hknown
  | clear =>
    cases hpoint with
    | deleted =>
      rw [laidOver_oneRow]
      exact h.deleted
    | absent hidle => exact h.absent hidle

def failureChronicle (known : SubjectId → Bool) (start : Failures) :
    Chronicle (loginFailures known) (agreeing known) where
  Inv := Settled known start
  Fits := Point known start
  begins := by
    rintro (⟨subjectId, policy, now⟩ | subjectId) s history -
    · exact FailurePoint.first
    · exact ClearPoint.first
  runs := by
    rintro (⟨subjectId, policy, now⟩ | subjectId) op next w s history a hinv hpoint hmay ha
    · exact FailurePoint.run hpoint hmay ha
    · exact ClearPoint.run hpoint (hinv.idle subjectId) ha
  parts := by
    rintro (⟨subjectId, policy, now⟩ | subjectId) _ _ _ _ _ hpoint - <;> cases hpoint
  saves := by
    rintro (⟨subjectId, policy, now⟩ | subjectId) _ _ _ _ hpoint <;> cases hpoint
  restores := by
    rintro (⟨subjectId, policy, now⟩ | subjectId) _ _ _ _ _ hpoint <;> cases hpoint
  commits := fun _ hinv hpoint _ ↦ hinv.commit hpoint
  refuses := fun {_ failure} _ _ _ _ _ ↦ failure.elim
  partsApart := by
    rintro (⟨subjectId, policy, now⟩ | subjectId) _ _ _ _ _ _ _ _ hpoint - - - <;> cases hpoint
  commitsApart := by
    rintro _ _ _ (⟨subjectId, policy, now⟩ | subjectId) _ _ _ _ _ - - - hpoint hapart
    · exact hpoint.apart hapart
    · exact hpoint.apart hapart _
  refusesApart := fun {_ failure} _ _ _ _ _ _ _ _ _ _ ↦ failure.elim

theorem told_start (known : SubjectId → Bool) (start : Failures) :
    (failureChronicle known start).Told (Config.start start) :=
  Chronicle.told_start settled_start

/-- In a run whose upserts decide as they would from the row they find: what is on record is
what the calls make one after another, in the order of their answers but for the clears that
found nothing to delete; and a lock is set by as many failures since the last clear as the
policy has. -/
theorem committed_serially (known : SubjectId → Bool) (start : Failures)
    {c : Config (loginFailures known)}
    (hreaches : Reaches (agreeing known) (Config.start start) c) :
    (∃ order : Answers known, order.Perm c.history ∧
      order.filter acted = (c.history.filter acted).reverse ∧
      standing c.rows = serially known (standing start) (order.map Answered.call)) ∧
    (∀ subjectId, (standing c.rows subjectId).failureCount ≤
      since (standing start subjectId).failureCount subjectId c.history) ∧
    LocksCounted start c.history := by
  have htold := (told_start known start).reaches hreaches
  exact ⟨htold.inv.order, htold.inv.counted, htold.inv.locks⟩

def FailureOp.reads : FailureOp → Bool
  | select _ => true
  | _ => false

def oracle (known : SubjectId → Bool) : Oracle (failureDatabase known) where
  answer := fun op s ↦ some (op.answer known s)
  reads := FailureOp.reads
  right := fun op s a h ↦ (Option.some.inj h).symm
  effect_of_reads := fun op s h ↦ by cases op <;> first | rfl | simp [FailureOp.reads] at h

instance : Discipline.Checked (agreeing known) where
  mayRun := fun call op s ↦
    match call, op with
    | .recordFailure _ policy now, .upsert subjectId values observed =>
      inferInstanceAs (Decidable (upserts s subjectId observed = true →
        nextLockout ((s subjectId).getD NEVER_FAILED).state policy now =
          ⟨values.failureCount, values.lockedUntil⟩))
    | .recordFailure .., .select _ | .recordFailure .., .delete _ | .clear _, _ =>
      instDecidableTrue
  mayCommit := fun _ _ _ _ ↦ instDecidableTrue

/-- Everyone is a subject. -/
def everyone : SubjectId → Bool := fun _ ↦ true

/-- Locked for a minute at the third failure. -/
def third : LockoutPolicy := ⟨3, 60, 900, 43200⟩

/-- Two have failed. -/
def failedTwice : Failures := fun _ ↦ some ⟨2, some 0, some 0, none⟩

/-- Two fail beside one another, and the second finds the row of the first. -/
def besideOneAnother : List (Cue (loginFailures everyone)) :=
  [.begins (.recordFailure 1 third 1000), .begins (.recordFailure 1 third 2000), .reads 1 1,
    .ends 0, .ends 1]

/-- Both are counted, the second after an attempt that is lost. -/
theorem committed_serially_besideOneAnother :
    ∃ c, Reaches (agreeing everyone) (Config.start fun _ ↦ none) c ∧
      c.rows 1 = some ⟨2, some 1000, some 2000, none⟩ ∧
      ∃ order : Answers everyone, order.Perm c.history ∧
        standing c.rows = serially everyone (standing fun _ ↦ none) (order.map Answered.call) := by
  have hplay : ((Scene.playAll (agreeing everyone) (oracle everyone) (.start fun _ ↦ none)
      besideOneAnother).map fun m ↦ m.rows 1) = some (some ⟨2, some 1000, some 2000, none⟩) := by
    decide
  obtain ⟨m, hplayed, hrow⟩ := Option.map_eq_some_iff.mp hplay
  have hreaches := Scene.reaches_of_start hplayed
  obtain ⟨⟨order, hperm, -, hserial⟩, -⟩ := committed_serially everyone (fun _ ↦ none) hreaches
  exact ⟨m.config, hreaches, hrow, order, hperm, hserial⟩

/-- A failure reads the row, a clear deletes it, and the failure inserts. -/
def clearedBetween : List (Cue (loginFailures everyone)) :=
  [.begins (.recordFailure 1 third 1000), .reads 0 1, .begins (.clear 1), .ends 1, .ends 0]

/-- The failures before the clear lock the subject after it, as no order of the calls does. -/
theorem cleared_failures_lock : ¬ ∀ (known : SubjectId → Bool) (start : Failures)
    (c : Config (loginFailures known)), Reaches .free (Config.start start) c →
      ∃ order : List LoginCall, order.Perm (c.history.map Answered.call) ∧
        standing c.rows = serially known (standing start) order := by
  intro hclaim
  have hplay : ((Scene.playAll .free (oracle everyone) (.start failedTwice) clearedBetween).map
      fun m ↦ (m.history.map Answered.call, m.rows 1)) =
        some ([.recordFailure 1 third 1000, .clear 1],
          some ⟨3, some 0, some 1000, some 61000⟩) := by
    decide
  obtain ⟨m, hplayed, hm⟩ := Option.map_eq_some_iff.mp hplay
  obtain ⟨hcalls, hrow⟩ := Prod.mk.inj hm
  obtain ⟨order, hperm, hserial⟩ :=
    hclaim everyone failedTwice m.config (Scene.reaches_of_start hplayed)
  have hcommitted : standing m.config.rows 1 = ⟨3, some 1000, some 61000⟩ := by
    change ((m.rows 1).getD NEVER_FAILED).standing = _
    rw [hrow]
    rfl
  rw [hserial] at hcommitted
  rcases List.perm_pair.mp (hcalls ▸ hperm) with rfl | rfl
  · exact absurd hcommitted (by decide)
  · exact absurd hcommitted (by decide)

end Odudu.DomainIdentity.LoginFailures
