import Odudu.DomainIdentity.LoginFailures
import Mathlib.Tactic.ByContra
import Mathlib.Tactic.SplitIfs

/-!
# A failed attempt and the lock before it

`service/lockout.ts` under the policies that the tenant settings admit: an attempt that fails
during a lockout counts like any other, and locks the account no shorter than it was locked
already, where the run of failures is not forgotten before.  It is forgotten
`failureResetSeconds` after the last failure, which may be sooner than the lock is over: a
lock lasts up to `maxLockoutSeconds`, and no setting holds one below the other.

The policy is read afresh for each attempt and may be amended between two of them, so the lock
on record is of the policy of its time: it is kept exactly if the two policies follow one
another as in `Follows` (`failed_attempts_keep_locks_iff`).
-/

set_option autoImplicit false

namespace Odudu.DomainIdentity.LoginFailures

/-- A policy that the tenant settings admit. -/
structure TenantPolicy extends LockoutPolicy where
  failures : 1 ≤ maxFailures ∧ maxFailures ≤ 100
  lockout : 1 ≤ lockoutSeconds ∧ lockoutSeconds ≤ 86400
  maxLockout : lockoutSeconds ≤ maxLockoutSeconds ∧ maxLockoutSeconds ≤ 2147483647
  failureReset : 60 ≤ failureResetSeconds ∧ failureResetSeconds ≤ 2592000

/-- `isLockedOut`: the instant that `locked_until` names is the first of the account again. -/
def isLockedOut (lockedUntil : Option Time) (now : ℤ) : Bool :=
  lockedUntil.any fun lockedUntil ↦ decide (lockedUntil > now)

/-- The seconds that the account is locked for from so many failures on. -/
def lockSeconds (policy : LockoutPolicy) (failureCount : ℕ) : ℕ :=
  min (policy.lockoutSeconds * 2 ^ (failureCount - policy.maxFailures)) policy.maxLockoutSeconds

section Locks

variable {policy : LockoutPolicy} {state : LockoutState} {now : ℤ} {n m : ℕ}

theorem lockSeconds_le_max (policy : LockoutPolicy) (n : ℕ) :
    lockSeconds policy n ≤ policy.maxLockoutSeconds := Nat.min_le_right _ _

theorem lockSeconds_pos {policy : TenantPolicy} : 1 ≤ lockSeconds policy.toLockoutPolicy n := by
  have hlockout := policy.lockout.1
  have hmaxLockout := policy.maxLockout.1
  have hpow : 1 ≤ 2 ^ (n - policy.maxFailures) := Nat.one_le_two_pow
  have hmul := Nat.mul_le_mul hlockout hpow
  unfold lockSeconds
  omega

theorem lockSeconds_mono (h : n ≤ m) : lockSeconds policy n ≤ lockSeconds policy m := by
  have hpow : 2 ^ (n - policy.maxFailures) ≤ 2 ^ (m - policy.maxFailures) :=
    Nat.pow_le_pow_right (by decide) (by omega)
  have hmul := Nat.mul_le_mul_left policy.lockoutSeconds hpow
  unfold lockSeconds
  omega

/-- The failure that reaches `maxFailures` locks for `lockoutSeconds`. -/
theorem lockSeconds_first {policy : TenantPolicy} :
    lockSeconds policy.toLockoutPolicy policy.maxFailures = policy.lockoutSeconds := by
  have hmaxLockout := policy.maxLockout.1
  unfold lockSeconds
  rw [Nat.sub_self, Nat.pow_zero, Nat.mul_one]
  omega

/-- The lock gets as long as it may. -/
theorem lockSeconds_reaches (hlockout : 1 ≤ policy.lockoutSeconds) :
    lockSeconds policy (policy.maxFailures + policy.maxLockoutSeconds) =
      policy.maxLockoutSeconds := by
  have hpow : policy.maxLockoutSeconds < 2 ^ policy.maxLockoutSeconds := Nat.lt_two_pow_self
  have hmul : 1 * 2 ^ policy.maxLockoutSeconds ≤
      policy.lockoutSeconds * 2 ^ policy.maxLockoutSeconds := Nat.mul_le_mul_right _ hlockout
  unfold lockSeconds
  rw [Nat.add_sub_cancel_left]
  omega

/-- The lock of one more failure, by the count that it becomes. -/
theorem lockedUntil_eq : (nextLockout state policy now).lockedUntil =
    if (nextLockout state policy now).failureCount < policy.maxFailures then none
    else some (now + lockSeconds policy (nextLockout state policy now).failureCount * 1000 : ℤ) := by
  unfold nextLockout lockSeconds
  simp only
  split_ifs <;> simp_all

theorem runIsBroken_iff {last : ℤ} (h : state.lastFailureAt = some last) :
    runIsBroken state policy now = true ↔ policy.failureResetSeconds * 1000 ≤ now - last := by
  unfold runIsBroken
  rw [h]
  exact decide_eq_true_iff

theorem failureCount_of_not_broken (h : runIsBroken state policy now = false) :
    (nextLockout state policy now).failureCount = state.failureCount + 1 := by
  unfold nextLockout
  simp only [h, Bool.false_eq_true, if_false]
  split_ifs <;> rfl

end Locks

/-! ### Runs of failures -/

/-- What is on record of a subject after failures one after the other, each under the policy of
its time: the last one under this policy. -/
inductive OnRecord : TenantPolicy → LoginFailureRecord → Prop where
  | never {policy : TenantPolicy} : OnRecord policy NEVER_FAILED
  | failed {before policy : TenantPolicy} {observed : LoginFailureRecord} (now : ℤ)
      (h : OnRecord before observed)
      (hlater : ∀ last : ℤ, observed.lastFailureAt = some last → last ≤ now) :
      OnRecord policy (recordOf policy.toLockoutPolicy now observed)

/-- One more failure, at an instant after what is on record: a lock that is still in force is
not shortened, and the run that it is of is not forgotten. -/
structure KeepsLock (policy : LockoutPolicy) (observed : LoginFailureRecord) (now : ℤ) :
    Prop where
  lock : ∀ lockedUntil : ℤ, observed.lockedUntil = some lockedUntil → lockedUntil > now →
    ∃ next : ℤ, (nextLockout observed.state policy now).lockedUntil = some next ∧ lockedUntil ≤ next
  run : runIsBroken observed.state policy now = true →
    isLockedOut observed.lockedUntil now = false

/-- Whatever is on record under the one policy, a failure under the other one keeps its lock. -/
def LocksKept (before policy : TenantPolicy) : Prop :=
  ∀ observed, OnRecord before observed → ∀ now : ℤ,
    (∀ last : ℤ, observed.lastFailureAt = some last → last ≤ now) →
      KeepsLock policy.toLockoutPolicy observed now

/-- A lock of more failures is no shorter, and none is longer than the policy's longest. -/
def LocksGrow (policy : LockoutPolicy) : Prop :=
  ∀ (state state' : LockoutState) (now now' lockedUntil : ℤ),
    (nextLockout state policy now).failureCount ≤ (nextLockout state' policy now').failureCount →
      (nextLockout state policy now).lockedUntil = some lockedUntil →
        ∃ lockedUntil' : ℤ, (nextLockout state' policy now').lockedUntil = some lockedUntil' ∧
          lockedUntil - now ≤ lockedUntil' - now' ∧
            lockedUntil' - now' ≤ policy.maxLockoutSeconds * 1000

theorem locksGrow (policy : LockoutPolicy) : LocksGrow policy := by
  intro state state' now now' lockedUntil hcount hlocked
  rw [lockedUntil_eq] at hlocked
  split_ifs at hlocked with hfew
  obtain rfl := Option.some.inj hlocked
  have hmono := @lockSeconds_mono policy _ _ hcount
  have hmax := lockSeconds_le_max policy (nextLockout state' policy now').failureCount
  refine ⟨_, by rw [lockedUntil_eq, if_neg (by omega)], by omega, by omega⟩

/-- The policy of the last failure and the policy of the next one: no lock outlasts the run it is
of, the next failure is still one that locks, and it locks for as long, from the first lock on up
to the longest. -/
structure Follows (before policy : LockoutPolicy) : Prop where
  reset : before.maxLockoutSeconds ≤ policy.failureResetSeconds
  failures : policy.maxFailures ≤ before.maxFailures + 1
  lockout : before.lockoutSeconds ≤
    policy.lockoutSeconds * 2 ^ (before.maxFailures + 1 - policy.maxFailures)
  maxLockout : before.maxLockoutSeconds ≤ policy.maxLockoutSeconds

/-- Under one policy throughout, only the time after which failures are forgotten counts. -/
theorem follows_self_iff (policy : LockoutPolicy) :
    Follows policy policy ↔ policy.maxLockoutSeconds ≤ policy.failureResetSeconds := by
  refine ⟨Follows.reset, fun hreset ↦ ⟨hreset, Nat.le_succ _, ?_, Nat.le_refl _⟩⟩
  exact Nat.le_mul_of_pos_right _ (Nat.two_pow_pos _)

/-- The lock of one more failure under a policy that follows is no shorter. -/
theorem Follows.lockSeconds_le {before policy : LockoutPolicy} (h : Follows before policy) {n : ℕ}
    (hmany : before.maxFailures ≤ n) : lockSeconds before n ≤ lockSeconds policy (n + 1) := by
  obtain ⟨more, rfl⟩ := Nat.exists_eq_add_of_le hmany
  have hfailures := h.failures
  have hmax := h.maxLockout
  have hexponent : before.maxFailures + more + 1 - policy.maxFailures =
      before.maxFailures + 1 - policy.maxFailures + more := by omega
  have hlock : before.lockoutSeconds * 2 ^ more ≤
      policy.lockoutSeconds * 2 ^ (before.maxFailures + more + 1 - policy.maxFailures) := by
    rw [hexponent, Nat.pow_add, ← Nat.mul_assoc]
    exact Nat.mul_le_mul_right _ h.lockout
  unfold lockSeconds
  rw [Nat.add_sub_cancel_left]
  omega

section Runs

variable {before policy : TenantPolicy} {observed : LoginFailureRecord} {now : ℤ}

/-- A lock that is on record is of the last failure, of as many as are on record, and of the
policy of that time. -/
theorem OnRecord.locked (h : OnRecord before observed) :
    (observed.failureCount < before.maxFailures ∧ observed.lockedUntil = none) ∨
      before.maxFailures ≤ observed.failureCount ∧ ∃ last : ℤ,
        observed.lastFailureAt = some last ∧ observed.lockedUntil =
          some (last + lockSeconds before.toLockoutPolicy observed.failureCount * 1000 : ℤ) := by
  cases h with
  | never => exact .inl ⟨before.failures.1, rfl⟩
  | @failed earlier _ observed now hbefore hlater =>
    have hlock := @lockedUntil_eq before.toLockoutPolicy observed.state now
    rcases Nat.lt_or_ge (nextLockout observed.state before.toLockoutPolicy now).failureCount
      before.maxFailures with hfew | hmany
    · exact .inl ⟨hfew, hlock.trans (if_pos hfew)⟩
    · exact .inr ⟨hmany, now, rfl, hlock.trans (if_neg (Nat.not_lt.mpr hmany))⟩

/-- What is on record is kept at every later instant exactly if its lock ends before the run is
forgotten, and one more failure, at once, locks for as long. -/
theorem OnRecord.keepsLock_iff (h : OnRecord before observed) :
    (∀ now : ℤ, (∀ last : ℤ, observed.lastFailureAt = some last → last ≤ now) →
        KeepsLock policy.toLockoutPolicy observed now) ↔
      (before.maxFailures ≤ observed.failureCount →
        lockSeconds before.toLockoutPolicy observed.failureCount ≤ policy.failureResetSeconds ∧
          policy.maxFailures ≤ observed.failureCount + 1 ∧
            lockSeconds before.toLockoutPolicy observed.failureCount ≤
              lockSeconds policy.toLockoutPolicy (observed.failureCount + 1)) := by
  rcases h.locked with ⟨hfew, hnone⟩ | ⟨hmany, last, hlast, hlocked⟩
  · refine ⟨fun _ hmany ↦ absurd hfew (Nat.not_lt.mpr hmany), fun _ now _ ↦ ⟨?_, fun _ ↦ ?_⟩⟩
    · intro lockedUntil hlocked
      cases hnone.symm.trans hlocked
    · rw [hnone]
      rfl
  have hpos := @lockSeconds_pos observed.failureCount before
  have hlater : ∀ now : ℤ, last ≤ now →
      ∀ last' : ℤ, observed.lastFailureAt = some last' → last' ≤ now := by
    rintro now hnow last' hlast'
    obtain rfl := Option.some.inj (hlast.symm.trans hlast')
    exact hnow
  constructor
  · intro hkeeps _
    have hreset : lockSeconds before.toLockoutPolicy observed.failureCount ≤
        policy.failureResetSeconds := by
      by_contra hlonger
      -- the instant at which the run is forgotten
      have hover := (hkeeps (last + policy.failureResetSeconds * 1000)
        (hlater _ (by omega))).run ((runIsBroken_iff hlast).mpr (by omega))
      rw [hlocked] at hover
      have hends := of_decide_eq_false hover
      omega
    -- and the instant of the last failure itself
    have hmin := policy.failureReset.1
    have hrun : runIsBroken observed.state policy.toLockoutPolicy last = false := by
      rw [← Bool.not_eq_true, runIsBroken_iff hlast]
      omega
    obtain ⟨next, hnext, hle⟩ := (hkeeps last (hlater _ (by omega))).lock _ hlocked (by omega)
    have hcount : _ = observed.failureCount + 1 := failureCount_of_not_broken hrun
    rw [lockedUntil_eq, hcount] at hnext
    split_ifs at hnext with hfew
    obtain rfl := Option.some.inj hnext
    exact ⟨hreset, by omega, by omega⟩
  · intro hkept now hnow
    obtain ⟨hreset, hlocks, hlonger⟩ := hkept hmany
    have hbefore := hnow last hlast
    have hrun : last + lockSeconds before.toLockoutPolicy observed.failureCount * 1000 > now →
        runIsBroken observed.state policy.toLockoutPolicy now = false := by
      intro hforce
      rw [← Bool.not_eq_true, runIsBroken_iff hlast]
      omega
    refine ⟨fun lockedUntil hlocked' hforce ↦ ?_, fun hbroken ↦ ?_⟩
    · obtain rfl := Option.some.inj (hlocked.symm.trans hlocked')
      have hcount : _ = observed.failureCount + 1 := failureCount_of_not_broken (hrun hforce)
      exact ⟨_, by rw [lockedUntil_eq, hcount, if_neg (by omega)], by omega⟩
    · rw [hlocked]
      refine decide_eq_false fun hforce ↦ ?_
      rw [hrun hforce] at hbroken
      cases hbroken

/-- So many failures at one instant. -/
def failuresAtOnce (policy : LockoutPolicy) : ℕ → LoginFailureRecord
  | 0 => NEVER_FAILED
  | failures + 1 => recordOf policy 0 (failuresAtOnce policy failures)

theorem onRecord_failuresAtOnce (policy : TenantPolicy) (failures : ℕ) :
    OnRecord policy (failuresAtOnce policy.toLockoutPolicy failures) := by
  induction failures with
  | zero => exact .never
  | succ failures ih =>
    refine .failed 0 ih fun last hlast ↦ ?_
    cases failures with
    | zero => cases hlast
    | succ =>
      obtain rfl := Option.some.inj hlast
      exact Int.le_refl _

theorem failuresAtOnce_failureCount (failures : ℕ) :
    (failuresAtOnce policy.toLockoutPolicy failures).failureCount = failures := by
  induction failures with
  | zero => rfl
  | succ failures ih =>
    cases failures with
    | zero =>
      change (nextLockout NEVER_FAILED.state policy.toLockoutPolicy 0).failureCount = 1
      unfold nextLockout
      simp only [runIsBroken, NEVER_FAILED, LoginFailureRecord.state, if_true]
      split_ifs <;> rfl
    | succ failures =>
      have hmin := policy.failureReset.1
      have hrun : runIsBroken (failuresAtOnce policy.toLockoutPolicy (failures + 1)).state
          policy.toLockoutPolicy 0 = false := by
        have hlast : (failuresAtOnce policy.toLockoutPolicy
          (failures + 1)).state.lastFailureAt = some 0 := rfl
        rw [← Bool.not_eq_true, runIsBroken_iff hlast]
        omega
      refine (failureCount_of_not_broken hrun).trans ?_
      exact congrArg Nat.succ ih

/-- As many failures as one likes may be on record, so each count asks for its lock. -/
theorem LocksKept.lockSeconds_le (h : LocksKept before policy) {n : ℕ}
    (hmany : before.maxFailures ≤ n) :
    lockSeconds before.toLockoutPolicy n ≤ policy.failureResetSeconds ∧
      policy.maxFailures ≤ n + 1 ∧
        lockSeconds before.toLockoutPolicy n ≤ lockSeconds policy.toLockoutPolicy (n + 1) := by
  have hrecord := onRecord_failuresAtOnce before n
  have hkept := hrecord.keepsLock_iff.mp (h _ hrecord)
  rw [failuresAtOnce_failureCount] at hkept
  exact hkept hmany

end Runs

/-- **Lockouts.**  Under the policies that the tenant settings admit, read afresh for each
attempt, no failure of any run shortens a lock or forgets the run it is of, and locks only grow,
exactly if the policy of the failure follows the one that the lock was given under. -/
theorem failed_attempts_keep_locks_iff (before policy : TenantPolicy) :
    (LocksKept before policy ∧ LocksGrow policy.toLockoutPolicy) ↔
      Follows before.toLockoutPolicy policy.toLockoutPolicy := by
  constructor
  · rintro ⟨hkept, -⟩
    -- the first lock, and as many failures as make it the longest
    obtain ⟨-, hfailures, hfirst⟩ := hkept.lockSeconds_le (Nat.le_refl before.maxFailures)
    obtain ⟨hreset, -, hlongest⟩ :=
      hkept.lockSeconds_le (Nat.le_add_right before.maxFailures before.maxLockoutSeconds)
    rw [lockSeconds_reaches before.lockout.1] at hreset hlongest
    rw [lockSeconds_first] at hfirst
    exact ⟨hreset, hfailures, Nat.le_trans hfirst (Nat.min_le_left _ _),
      Nat.le_trans hlongest (lockSeconds_le_max _ _)⟩
  · intro hfollows
    refine ⟨fun observed h ↦ h.keepsLock_iff.mpr fun hmany ↦ ⟨?_, ?_, ?_⟩, locksGrow _⟩
    · exact Nat.le_trans (lockSeconds_le_max _ _) hfollows.reset
    · exact Nat.le_trans hfollows.failures (Nat.succ_le_succ hmany)
    · exact hfollows.lockSeconds_le hmany

/-- Two failures lock for an hour and are forgotten after a minute: with a third one then, which is
the first of a run again, the account is not locked any more. -/
theorem failed_attempt_ends_lock :
    ∃ policy : TenantPolicy,
      OnRecord policy (failuresAtOnce policy.toLockoutPolicy 2) ∧
      (failuresAtOnce policy.toLockoutPolicy 2).lockedUntil = some 3600000 ∧
        (nextLockout (failuresAtOnce policy.toLockoutPolicy 2).state policy.toLockoutPolicy
          60000) = ⟨1, none⟩ := by
  refine ⟨⟨⟨2, 3600, 3600, 60⟩, by decide, by decide, by decide, by decide⟩,
    onRecord_failuresAtOnce _ 2, ?_⟩
  decide

end Odudu.DomainIdentity.LoginFailures
