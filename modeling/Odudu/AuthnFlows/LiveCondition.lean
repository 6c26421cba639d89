import Odudu.ProtocolOidc.Schema
import Mathlib.Data.Int.Notation
import Mathlib.Tactic.Tauto

/-!
# Liveness in SQL and in memory

`repository/sessions.ts`: `liveSessionCondition` asks in the database for what `stillLive`
decides of a row that was read.  A column of a row holds microseconds and the `Date` read of
it milliseconds, so the two differ on a row that is reached within the last millisecond
(`liveSessionCondition_eq_iff`); `last_active_at` is such a column, for its default is
`now()`.
-/

set_option autoImplicit false

namespace Odudu.AuthnFlows.LiveCondition

open ProtocolOidc

/-- The columns of `sessions` that liveness is decided from, a `timestamptz` in microseconds. -/
structure SessionRow where
  secretHash : Option String
  expiresAt : ℤ
  lastActiveAt : ℤ
  remembered : Bool

/-- The `Date` a column is read as, in milliseconds: further digits are left out. -/
def readDate (column : ℤ) : ℤ := column / 1000

def isSessionLive (expiresAt lastActiveAt : ℤ) (idleSeconds : ℕ) (now : ℤ) : Bool :=
  if now ≥ expiresAt then false else decide (now - lastActiveAt < idleSeconds * 1000)

def stillLive (row : SessionRow) (tenant : SessionLifespans) (now : ℤ) : Bool :=
  match row.secretHash with
  | none => false
  | some _ =>
    isSessionLive (readDate row.expiresAt) (readDate row.lastActiveAt)
      (lifespanFor tenant row.remembered).1 now

/-- The predicate of the statement: `now` travels as text, in milliseconds. -/
def liveSessionCondition (tenant : SessionLifespans) (now : ℤ) (row : SessionRow) : Bool :=
  let sent := now * 1000
  let idleSeconds := if row.remembered then tenant.rememberMeIdleSeconds
    else tenant.ssoSessionIdleSeconds
  row.secretHash.isSome && decide (row.expiresAt > sent) &&
    decide (row.lastActiveAt > sent - idleSeconds * 1000000)

/-- The instant is that of the column, but for a part of a millisecond. -/
def WithinMillisecond (column : ℤ) (instant : ℤ) : Prop :=
  readDate column = instant ∧ column % 1000 ≠ 0

instance (column : ℤ) (instant : ℤ) : Decidable (WithinMillisecond column instant) :=
  inferInstanceAs (Decidable (_ ∧ _))

section Columns

variable {column : ℤ} {instant : ℤ}

/-- A column is after an instant where its `Date` is, or where it is after it by less than a
millisecond. -/
theorem after_iff :
    column > instant * 1000 ↔ readDate column > instant ∨ WithinMillisecond column instant := by
  unfold WithinMillisecond readDate
  omega

theorem not_within_of_after (h : readDate column > instant) : ¬WithinMillisecond column instant :=
  fun hwithin ↦ by
    have heq := hwithin.1
    omega

end Columns

/-- The instant from which a session that was last active at it is idle. -/
def idleSince (tenant : SessionLifespans) (row : SessionRow) (now : ℤ) : ℤ :=
  now - (lifespanFor tenant row.remembered).1 * 1000

section Conditions

variable {tenant : SessionLifespans} {now : ℤ} {row : SessionRow}

theorem stillLive_iff : stillLive row tenant now = true ↔
    row.secretHash.isSome ∧ readDate row.expiresAt > now ∧
      readDate row.lastActiveAt > idleSince tenant row now := by
  unfold stillLive isSessionLive idleSince
  cases row.secretHash with
  | none => simp
  | some =>
    by_cases hdead : now ≥ readDate row.expiresAt
    · simp only [hdead, if_true, Bool.false_eq_true, Option.isSome_some, true_and, false_iff]
      omega
    · simp only [hdead, if_false, decide_eq_true_eq, Option.isSome_some, true_and]
      omega

theorem liveSessionCondition_iff : liveSessionCondition tenant now row = true ↔
    row.secretHash.isSome ∧ row.expiresAt > now * 1000 ∧
      row.lastActiveAt > idleSince tenant row now * 1000 := by
  have hidle : (now * 1000 - (lifespanFor tenant row.remembered).1 * 1000000 : ℤ) =
      idleSince tenant row now * 1000 := by
    unfold idleSince
    omega
  rw [← hidle, liveSessionCondition, lifespanFor]
  simp only [Bool.and_eq_true, decide_eq_true_eq, and_assoc]
  cases row.remembered <;> rfl

end Conditions

/-- One of the two instants is reached within its last millisecond, and the other one is not
reached, or within its last too. -/
def LastMillisecond (tenant : SessionLifespans) (now : ℤ) (row : SessionRow) : Prop :=
  WithinMillisecond row.expiresAt now ∧ readDate row.lastActiveAt > idleSince tenant row now ∨
    readDate row.expiresAt > now ∧
        WithinMillisecond row.lastActiveAt (idleSince tenant row now) ∨
      WithinMillisecond row.expiresAt now ∧
        WithinMillisecond row.lastActiveAt (idleSince tenant row now)

/-- **Two liveness conditions.**  The statement selects exactly the rows that are live in memory,
but for one with a secret that is in the last millisecond of its life. -/
theorem liveSessionCondition_eq_iff (tenant : SessionLifespans) (now : ℤ) (row : SessionRow) :
    liveSessionCondition tenant now row = stillLive row tenant now ↔
      ¬(row.secretHash.isSome ∧ LastMillisecond tenant now row) := by
  have hsql := @liveSessionCondition_iff tenant now row
  rw [after_iff, after_iff] at hsql
  have hexpires := @not_within_of_after row.expiresAt now
  have hactive := @not_within_of_after row.lastActiveAt (idleSince tenant row now)
  rw [Bool.eq_iff_iff, hsql, stillLive_iff]
  unfold LastMillisecond
  tauto

/-- A session of thirty minutes that was last active half a millisecond after noon, at half past
twelve. -/
theorem idle_session_selected :
    liveSessionCondition ⟨1800, 36000, 604800, 2592000⟩ 45000000
        ⟨some "5e88", 86400000000, 43200000500, false⟩ = true ∧
      stillLive ⟨some "5e88", 86400000000, 43200000500, false⟩
        ⟨1800, 36000, 604800, 2592000⟩ 45000000 = false := by
  decide

end Odudu.AuthnFlows.LiveCondition
