import Odudu.ReadCommitted.Scenes
import Mathlib.Algebra.Group.Nat.Defs

/-!
# The run of login failures

`service/lockout.ts` and `repository/login-failures.ts`: what one more failed attempt makes
of the state on record, and the two calls that write the row of a subject.  An upsert that
finds the row with another count writes nothing and locks it all the same, as
`ON CONFLICT DO UPDATE` does; a delete that finds no row locks nothing.

Times are milliseconds.  Which subjects the tenant has is fixed.
-/

set_option autoImplicit false

namespace Odudu.DomainIdentity.LoginFailures

open ReadCommitted Program

abbrev Time : Type := ℤ

abbrev SubjectId : Type := ℕ

structure LockoutPolicy where
  maxFailures : ℕ
  lockoutSeconds : ℕ
  maxLockoutSeconds : ℕ
  failureResetSeconds : ℕ
  deriving DecidableEq

structure LockoutState where
  failureCount : ℕ
  lastFailureAt : Option Time

structure NextLockout where
  failureCount : ℕ
  lockedUntil : Option Time
  deriving DecidableEq

def runIsBroken (state : LockoutState) (policy : LockoutPolicy) (now : Time) : Bool :=
  match state.lastFailureAt with
  | none => true
  | some lastFailureAt => decide (now - lastFailureAt ≥ policy.failureResetSeconds * 1000)

def nextLockout (state : LockoutState) (policy : LockoutPolicy) (now : Time) : NextLockout :=
  let failureCount := if runIsBroken state policy now then 1 else state.failureCount + 1
  if failureCount < policy.maxFailures then ⟨failureCount, none⟩
  else
    let doubled := policy.lockoutSeconds * 2 ^ (failureCount - policy.maxFailures)
    let seconds := min doubled policy.maxLockoutSeconds
    ⟨failureCount, some (now + seconds * 1000)⟩

structure LoginFailureRecord where
  failureCount : ℕ
  firstFailureAt : Option Time
  lastFailureAt : Option Time
  lockedUntil : Option Time
  deriving DecidableEq

def NEVER_FAILED : LoginFailureRecord where
  failureCount := 0
  firstFailureAt := none
  lastFailureAt := none
  lockedUntil := none

/-- As the lockout arithmetic reads it. -/
def LoginFailureRecord.state (observed : LoginFailureRecord) : LockoutState where
  failureCount := observed.failureCount
  lastFailureAt := observed.lastFailureAt

/-! ### Statements -/

inductive FailureOp where
  | select (subjectId : SubjectId)
  /-- The one statement of a failure, with the count it was decided from. -/
  | upsert (subjectId : SubjectId) (values : LoginFailureRecord) (observed : ℕ)
  | delete (subjectId : SubjectId)

/-- What the upsert reports. -/
structure RawOutcomeRow where
  targetRows : ℕ
  writtenRows : ℕ

@[reducible] def FailureOp.Answer : FailureOp → Type
  | select _ => Option LoginFailureRecord
  | upsert .. => RawOutcomeRow
  /- how many rows it deleted -/
  | delete _ => ℕ

abbrev Failures : Type := SubjectId → Option LoginFailureRecord

/-- The upsert finds no row, or the row with the count it was decided from. -/
def upserts (rows : Failures) (subjectId : SubjectId) (observed : ℕ) : Bool :=
  (rows subjectId).all fun row ↦ row.failureCount == observed

def FailureOp.answer (known : SubjectId → Bool) (rows : Failures) : (op : FailureOp) → op.Answer
  | select subjectId => rows subjectId
  | upsert subjectId _ observed =>
    if known subjectId then ⟨1, if upserts rows subjectId observed then 1 else 0⟩ else ⟨0, 0⟩
  | delete subjectId => if (rows subjectId).isSome then 1 else 0

/-- The row a statement writes or locks: its subject, and what becomes of it. -/
def FailureOp.written (known : SubjectId → Bool) (rows : Failures) :
    FailureOp → Option (SubjectId × Option LoginFailureRecord)
  | select _ => none
  | upsert subjectId values observed =>
    if known subjectId then
      some (subjectId, if upserts rows subjectId observed then some values else rows subjectId)
    else none
  | delete subjectId => if (rows subjectId).isSome then some (subjectId, none) else none

/-- One row written, or none. -/
def oneRow (written : Option (SubjectId × Option LoginFailureRecord)) :
    SubjectId → Option (Option LoginFailureRecord) := fun subjectId ↦
  written.bind fun row ↦ if subjectId = row.1 then some row.2 else none

/-- The rows of a tenant that has these subjects. -/
abbrev failureDatabase (known : SubjectId → Bool) : Database where
  Key := SubjectId
  Cell := fun _ ↦ Option LoginFailureRecord
  Op := FailureOp
  Answer := FailureOp.Answer
  Answers := fun op rows a ↦ a = op.answer known rows
  effect := fun op rows ↦ oneRow (op.written known rows)

/-! ### Calls -/

inductive LoginCall where
  | recordFailure (subjectId : SubjectId) (policy : LockoutPolicy) (now : Time)
  | clear (subjectId : SubjectId)
  deriving DecidableEq

inductive LoginOutcome where
  | recorded (state : LoginFailureRecord)
  | noSubject
  | contended
  | cleared (deleted : Bool)
  deriving DecidableEq

variable (known : SubjectId → Bool)

abbrev LoginTx := Program (failureDatabase known) Empty

abbrev onFailures (op : FailureOp) : LoginTx known op.Answer :=
  @Program.ask (failureDatabase known) Empty op

def forSubject (subjectId : SubjectId) : LoginTx known LoginFailureRecord := do
  let row ← onFailures known (.select subjectId)
  pure (row.getD NEVER_FAILED)

/-- The row of one more failure, decided from what was observed. -/
def recordOf (policy : LockoutPolicy) (now : Time) (observed : LoginFailureRecord) :
    LoginFailureRecord :=
  let next := nextLockout observed.state policy now
  { failureCount := next.failureCount
    firstFailureAt :=
      some (if next.failureCount = 1 then now else observed.firstFailureAt.getD now)
    lastFailureAt := some now
    lockedUntil := next.lockedUntil }

/-- One attempt, and what follows when it is lost. -/
def recordObserved (subjectId : SubjectId) (policy : LockoutPolicy) (now : Time)
    (retry : LoginTx known LoginOutcome) (observed : LoginFailureRecord) :
    LoginTx known LoginOutcome := do
  let state := recordOf policy now observed
  let row ← onFailures known (.upsert subjectId state observed.failureCount)
  if row.targetRows = 0 then pure .noSubject
  else if row.writtenRows > 0 then pure (.recorded state)
  else retry

/-- So many attempts. -/
def recordAttempts (subjectId : SubjectId) (policy : LockoutPolicy) (now : Time) :
    ℕ → LoginTx known LoginOutcome
  | 0 => pure .contended
  | attempts + 1 => do
    let observed ← forSubject known subjectId
    recordObserved known subjectId policy now (recordAttempts subjectId policy now attempts)
      observed

def CAS_ATTEMPTS : ℕ := 5

def recordFailure (subjectId : SubjectId) (policy : LockoutPolicy) (now : Time) :
    LoginTx known LoginOutcome :=
  recordAttempts known subjectId policy now CAS_ATTEMPTS

def clear (subjectId : SubjectId) : LoginTx known LoginOutcome := do
  let deleted ← onFailures known (.delete subjectId)
  pure (.cleared (decide (deleted > 0)))

def LoginCall.body : LoginCall → LoginTx known LoginOutcome
  | recordFailure subjectId policy now => LoginFailures.recordFailure known subjectId policy now
  | clear subjectId => LoginFailures.clear known subjectId

/-- Any number of failures and clears beside one another. -/
abbrev loginFailures : System where
  db := failureDatabase known
  Call := LoginCall
  Outcome := LoginOutcome
  Failure := Empty
  body := LoginCall.body known

end Odudu.DomainIdentity.LoginFailures
