import Mathlib.Data.List.Sort
import Odudu.DomainIdentity.PasswordPolicy
import Odudu.ReadCommitted.Chronicles

/-!
# Rotating a password

`completeUpdatePassword` of `usecase/update-password.ts` over the rows of `user_credentials` of
a subject: its password, and the ones it retired.  `rotatePassword` swaps the password by a
conditional update, retires the one it displaces, and trims what is retired to a depth.  Retired
rows are dated by the transaction they are of, and listed by that.

The retired rows of a subject are written only by who holds the row of its password, so its rows
are one cell, and locked as one.  A swap that finds no row writes and locks nothing.

Left out: the required action that is completed, and the audit.
-/

set_option autoImplicit false

namespace Odudu.AuthnFlows.PasswordRotations

open DomainIdentity ReadCommitted Program

abbrev SubjectId : Type := ℕ

/-! ### Rows -/

structure PasswordRow where
  hash : String
  hashNfc : Bool
  createdAt : ℕ

structure RetiredRow where
  id : ℕ
  hash : String
  createdAt : ℕ

/-- The rows of a subject. -/
structure SubjectRows where
  password : Option PasswordRow
  retired : List RetiredRow

/-- `ORDER BY created_at DESC, id DESC` -/
def Newer (row other : RetiredRow) : Prop :=
  other.createdAt < row.createdAt ∨ other.createdAt = row.createdAt ∧ other.id ≤ row.id

instance : DecidableRel Newer := fun _ _ ↦ inferInstanceAs (Decidable (_ ∨ _))

instance : Std.Total Newer where
  total := by
    intro row other
    unfold Newer
    omega

instance : IsTrans RetiredRow Newer where
  trans := by
    intro row other third h h'
    unfold Newer at *
    omega

def newestFirst (rows : List RetiredRow) : List RetiredRow := rows.insertionSort Newer

/-- What is left of the retired rows. -/
def trimmed (historyDepth : ℕ) (rows : List RetiredRow) : List RetiredRow :=
  (newestFirst rows).take historyDepth

def SubjectRows.passwordFor (rows : SubjectRows) : Option String := rows.password.map (·.hash)

def SubjectRows.passwordHistory (rows : SubjectRows) : List String :=
  (newestFirst rows.retired).map (·.hash)

theorem newestFirst_cons {row : RetiredRow} {rows : List RetiredRow}
    (h : ∀ old ∈ rows, Newer row old) : newestFirst (row :: rows) = row :: newestFirst rows := by
  unfold newestFirst
  rw [List.insertionSort_cons]
  have hsorted : ∀ old ∈ rows.insertionSort Newer, Newer row old := fun old hold ↦
    h old ((List.mem_insertionSort Newer).mp hold)
  cases hrows : rows.insertionSort Newer with
  | nil => rfl
  | cons first rest =>
    rw [hrows] at hsorted
    exact List.orderedInsert_cons_of_le Newer rest (hsorted first List.mem_cons_self)

/-- What is trimmed is listed as it is left. -/
theorem newestFirst_trimmed (historyDepth : ℕ) (rows : List RetiredRow) :
    newestFirst (trimmed historyDepth rows) = trimmed historyDepth rows := by
  have hsorted : (newestFirst rows).Pairwise Newer := List.pairwise_insertionSort Newer rows
  exact (hsorted.sublist (List.take_sublist _ _)).insertionSort_eq

/-! ### Statements -/

inductive CredentialOp where
  | passwordFor (subjectId : SubjectId)
  | passwordHistory (subjectId : SubjectId)
  /-- The conditional update of the password's row. -/
  | swap (subjectId : SubjectId) (from_ to_ : String) (now : ℕ)
  /-- The insert of a retired row. -/
  | retire (subjectId : SubjectId) (row : RetiredRow)
  | trimPasswordHistory (subjectId : SubjectId) (historyDepth : ℕ)

@[reducible] def CredentialOp.Answer : CredentialOp → Type
  | passwordFor _ => Option String
  | passwordHistory _ => List String
  /- whether a row was updated -/
  | swap .. => Bool
  | retire .. => Unit
  | trimPasswordHistory .. => Unit

abbrev CredentialRows : Type := SubjectId → SubjectRows

def CredentialOp.answer (rows : CredentialRows) : (op : CredentialOp) → op.Answer
  | passwordFor subjectId => (rows subjectId).passwordFor
  | passwordHistory subjectId => (rows subjectId).passwordHistory
  | swap subjectId from_ _ _ => decide ((rows subjectId).passwordFor = some from_)
  | retire .. => ()
  | trimPasswordHistory .. => ()

/-- The rows of a subject after a statement, if it writes any. -/
def CredentialOp.written (rows : CredentialRows) : CredentialOp → Option (SubjectId × SubjectRows)
  | swap subjectId from_ to_ now =>
    if (rows subjectId).passwordFor = some from_ then
      some (subjectId, { rows subjectId with password := some ⟨to_, true, now⟩ })
    else none
  | retire subjectId row =>
    some (subjectId, { rows subjectId with retired := row :: (rows subjectId).retired })
  | trimPasswordHistory subjectId historyDepth =>
    some (subjectId,
      { rows subjectId with retired := trimmed historyDepth (rows subjectId).retired })
  | _ => none

/-- The rows of one subject written, or of none. -/
def oneSubject (written : Option (SubjectId × SubjectRows)) : SubjectId → Option SubjectRows :=
  fun subjectId ↦ written.bind fun w ↦ if subjectId = w.1 then some w.2 else none

abbrev credentialDatabase : Database where
  Key := SubjectId
  Cell := fun _ ↦ SubjectRows
  Op := CredentialOp
  Answer := CredentialOp.Answer
  Answers := fun op rows a ↦ a = op.answer rows
  effect := fun op rows ↦ oneSubject (op.written rows)

theorem oneSubject_self (subjectId : SubjectId) (rows : SubjectRows) :
    oneSubject (some (subjectId, rows)) subjectId = some rows := by
  simp [oneSubject]

theorem laidOver_oneSubject (subjectId : SubjectId) (rows : SubjectRows) (s : CredentialRows) :
    @Writes.laidOver credentialDatabase (oneSubject (some (subjectId, rows))) s =
      Function.update s subjectId rows := by
  funext subjectId'
  by_cases hsubject : subjectId' = subjectId
  · subst hsubject
    simp [Writes.laidOver, oneSubject]
  · simp [Writes.laidOver, oneSubject, hsubject]

theorem andThen_oneSubject (subjectId : SubjectId) (rows later : SubjectRows) :
    @Writes.andThen credentialDatabase (oneSubject (some (subjectId, rows)))
      (oneSubject (some (subjectId, later))) = oneSubject (some (subjectId, later)) := by
  funext subjectId'
  by_cases hsubject : subjectId' = subjectId
  · simp [Writes.andThen, oneSubject, hsubject]
  · simp [Writes.andThen, oneSubject, hsubject]

/-! ### The use case -/

structure UpdatePassword where
  subjectId : SubjectId
  password : String
  policy : PasswordPolicy
  /-- The user, if there is one. -/
  user : Option PasswordSubject
  /-- The start of the transaction. -/
  now : ℕ
  /-- The salt of its hash. -/
  salt : ℕ
  /-- The id of the row that it retires. -/
  id : ℕ

/-- Each with the hash it started from, which the caller is not told. -/
inductive UpdatePasswordOutcome where
  | updated (from_ : String)
  | rejected (violations : List PolicyViolation)
  | superseded (from_ : String)

inductive UpdatePasswordFailure where
  | userNotFound
  | credentialNotFound

abbrev CredentialTx := Program credentialDatabase UpdatePasswordFailure

abbrev onCredentials (op : CredentialOp) : CredentialTx op.Answer :=
  @ask credentialDatabase UpdatePasswordFailure op

def rotatePassword (subjectId : SubjectId) (from_ to_ : String) (historyDepth : ℕ) (now : ℕ)
    (id : ℕ) : CredentialTx Bool := do
  if ← onCredentials (.swap subjectId from_ to_ now) then
    onCredentials (.retire subjectId ⟨id, from_, now⟩)
    onCredentials (.trimPasswordHistory subjectId historyDepth)
    pure true
  else pure false

section UseCase

variable (hasher : PasswordHasher) (input : UpdatePassword)

/-- The hash the password is stored as. -/
def newHash : String := hasher.hashUserPassword input.salt input.password

def reusesAKnownPassword (current : String) (history : List String) : Bool :=
  (current :: history).any fun hash ↦ hasher.verifyUserPassword hash input.password

/-- What comes after the reads. -/
def afterHistory (current : String) (history : List String) :
    CredentialTx UpdatePasswordOutcome :=
  if input.policy.historyDepth > 0 ∧ reusesAKnownPassword hasher input current history = true then
    pure (.rejected [REUSED_PASSWORD])
  else do
    let rotated ← rotatePassword input.subjectId current (newHash hasher input)
      input.policy.historyDepth input.now input.id
    pure (if rotated then .updated current else .superseded current)

/-- What comes after the password was read. -/
def afterPassword (current : Option String) : CredentialTx UpdatePasswordOutcome :=
  match current with
  | none => .throw .credentialNotFound
  | some current => do
    let history ← onCredentials (.passwordHistory input.subjectId)
    afterHistory hasher input current history

def completeUpdatePassword : CredentialTx UpdatePasswordOutcome :=
  match input.user with
  | none => .throw .userNotFound
  | some user =>
    let violations := evaluatePassword hasher.lexicon input.password input.policy user
    if violations ≠ [] then pure (.rejected (withMinimum violations input.policy.minLength))
    else do
      let current ← onCredentials (.passwordFor input.subjectId)
      afterPassword hasher input current

end UseCase

abbrev passwordUpdates (hasher : PasswordHasher) : System where
  db := credentialDatabase
  Call := UpdatePassword
  Outcome := UpdatePasswordOutcome
  Failure := UpdatePasswordFailure
  body := completeUpdatePassword hasher

end Odudu.AuthnFlows.PasswordRotations
