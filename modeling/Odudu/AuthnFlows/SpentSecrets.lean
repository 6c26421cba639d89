import Odudu.AuthnFlows.FactorUses
import Mathlib.Tactic.SplitIfs

/-!
# What a secret has spent

What an update puts leaves behind it all that the secret had spent and the use itself
(`made_set`, `Behind.set`), and an update that finds its row comes after all of that
(`precedes_of_finds`).  The steps of the authenticators refuse a use exactly where the update
finds it spent.
-/

set_option autoImplicit false

namespace Odudu.AuthnFlows.FactorUses

open ProtocolOidc

/-! ### What a secret has spent -/

/-- One use of a credential may follow another. -/
def Use.Precedes : Use → Use → Prop
  | totp _ step, totp _ step' => step < step'
  | webauthn _ counter, webauthn _ counter' => counter < counter' ∨ counter = 0 ∧ counter' = 0
  | _, _ => False

/-- A use that the secret has behind it. -/
def Behind : SecretData → Use → Prop
  | .totp _ lastStep, .totp _ step => ∃ last, lastStep = some last ∧ step ≤ last
  | .webauthn _ stored, .webauthn _ counter => ∃ last, stored = some last ∧ counter ≤ last
  | .recoveryCode _ usedAt, .recoveryCode _ => usedAt ≠ none
  | _, _ => False

/-- The use that made the secret what it is. -/
def Made : SecretData → Use → Prop
  | .totp _ lastStep, .totp _ step => lastStep = some step
  | .webauthn _ stored, .webauthn _ counter => stored = some counter
  | .recoveryCode _ usedAt, .recoveryCode _ => usedAt ≠ none
  | _, _ => False

section Secrets

variable {data : SecretData} {use use' : Use} {at_ : Time}

theorem made_set (h : use.finds data = true) : Made (use.set at_ data) use := by
  cases use <;> cases data <;> simp [Use.finds, Use.set, Made] at h ⊢

theorem Made.behind (h : Made data use) : Behind data use := by
  cases use <;> cases data <;> simp [Made, Behind] at h ⊢ <;> simp [h]

theorem Behind.set (h : Behind data use) (hfinds : use'.finds data = true) :
    Behind (use'.set at_ data) use := by
  cases use <;> cases data <;> cases use' <;> simp [Behind, Use.set, Use.finds] at h hfinds ⊢
  case totp.totp.totp =>
    obtain ⟨last, rfl, hle⟩ := h
    simp only [Option.getD_some] at hfinds
    omega
  case webauthn.webauthn.webauthn =>
    obtain ⟨last, rfl, hle⟩ := h
    simp only [Option.elim_some, Int.ofNat_eq_natCast, Option.some.injEq] at hfinds
    omega

/-- An update that lands comes after what its row has spent. -/
theorem precedes_of_finds (h : Behind data use) (hfinds : use'.finds data = true) :
    use.Precedes use' := by
  cases use <;> cases data <;> cases use' <;>
    simp [Behind, Use.finds, Use.Precedes] at h hfinds ⊢
  case totp.totp.totp =>
    obtain ⟨last, rfl, hle⟩ := h
    simp only [Option.getD_some] at hfinds
    omega
  case webauthn.webauthn.webauthn =>
    obtain ⟨last, rfl, hle⟩ := h
    simp only [Option.elim_some, Int.ofNat_eq_natCast, Option.some.injEq] at hfinds
    omega
  case recoveryCode.recoveryCode.recoveryCode => exact h hfinds

/-- Nor does an update that finds nothing. -/
theorem not_precedes_of_finds (h : Made data use) (hfinds : use'.finds data = false) :
    ¬ use.Precedes use' := by
  cases use <;> cases data <;> cases use' <;>
    simp [Made, Use.finds, Use.Precedes] at h hfinds ⊢
  case totp.totp.totp =>
    subst h
    simpa using hfinds
  case webauthn.webauthn.webauthn =>
    subst h
    simp only [Option.elim_some, Int.ofNat_eq_natCast, Option.some.injEq] at hfinds
    omega

theorem finds_set (h : use.finds data = false) (hfinds : use'.finds data = true) :
    use.finds (use'.set at_ data) = false := by
  cases use <;> cases data <;> cases use' <;> simp [Use.finds, Use.set] at h hfinds ⊢
  case totp.totp.totp => omega
  case webauthn.webauthn.webauthn stored _ _ =>
    rcases stored with _ | stored
    · simp only [Option.elim_none] at h
      omega
    · simp only [Option.elim_some, Int.ofNat_eq_natCast, Option.some.injEq] at h hfinds
      omega

end Secrets

/-! ### The steps of the authenticators -/

section Steps

variable {V : Primitives} {secret code : String} {now : Time} {step : ℤ} {id : CredentialId}

/-- A code is verified at a step of the window that the secret has not spent. -/
theorem verifyTotp_isSome_iff {lastStep : ℤ} :
    (verifyTotp V secret code now (some lastStep)).isSome = true ↔
      (code.length = 6 ∧ code.toList.all Char.isDigit = true) ∧
        ∃ step ∈ [totpCounter now - 1, totpCounter now, totpCounter now + 1],
          lastStep < step ∧ V.totpCode secret step = code := by
  unfold verifyTotp
  split_ifs with hshape
  · simp only [List.find?_isSome, Option.any_some, Bool.and_eq_true, Bool.not_eq_eq_eq_not,
      Bool.not_true, decide_eq_false_iff_not, Int.not_le, beq_iff_eq, hshape, and_self, true_and]
  · exact ⟨fun hsome ↦ (nomatch hsome), fun hcode ↦ absurd hcode.1 hshape⟩

/-- What is verified, the update finds unspent. -/
theorem finds_of_verifyTotp {lastStep : ℤ}
    (h : verifyTotp V secret code now (some lastStep) = some step) :
    (Use.totp id step).finds (.totp secret (some lastStep)) = true := by
  unfold verifyTotp at h
  split_ifs at h
  have hfound := List.find?_some h
  simp only [Option.any_some, Bool.and_eq_true, Bool.not_eq_eq_eq_not, Bool.not_true,
    decide_eq_false_iff_not, Int.not_le] at hfound
  simpa [Use.finds] using hfound.1

/-- The test of the step and the predicate of the update are one. -/
theorem counterAdvanced_eq_finds (publicKey : String) (stored counter : ℕ) :
    counterAdvanced stored counter =
      (Use.webauthn id counter).finds (.webauthn publicKey (some stored)) := by
  unfold counterAdvanced
  split_ifs with hzero
  · simp [Use.finds, hzero]
  · have hnot : ¬ (counter = 0 ∧ stored = 0) := hzero
    simp [Use.finds, hnot]

variable {answered : SubjectId} {subjectId : Option SubjectId}

theorem verified_of_totpStep {given : Option String}
    {stored : Option StoredTotp}
    (h : totpStep V given subjectId (stored.map StoredTotp.secret) now = .success answered step) :
    ∃ code totp, given = some code ∧ stored = some totp ∧
      verifyTotp V totp.secret.secret code now totp.secret.lastStep = some step := by
  unfold totpStep at h
  split at h
  case h_1 => exact nomatch h
  case h_2 code =>
    split at h
    case h_2 => exact nomatch h
    case h_1 subjectId' secret _ hsecret =>
      obtain ⟨totp, rfl, rfl⟩ := Option.map_eq_some_iff.mp hsecret
      split at h
      case h_2 => exact nomatch h
      case h_1 step' hverified =>
        obtain ⟨-, rfl⟩ := TotpStepOutcome.success.inj h
        exact ⟨code, totp, rfl, rfl, hverified⟩

theorem unused_of_recoveryStep {input : AdvanceInput}
    {codes : List StoredRecoveryCode}
    (h : recoveryStep V input subjectId codes = .success answered id) :
    ∃ code ∈ codes, code.usedAt = none ∧ code.id = id := by
  unfold recoveryStep at h
  split at h
  case isTrue => exact nomatch h
  case isFalse =>
    split at h
    case h_1 => exact nomatch h
    case h_2 subjectId' =>
      simp only at h
      split at h
      case h_1 => exact nomatch h
      case h_2 code hfound =>
        split at h
        case isTrue => exact nomatch h
        case isFalse hunused =>
          obtain ⟨-, rfl⟩ := RecoveryStepOutcome.success.inj h
          exact ⟨code, List.mem_of_find?_eq_some hfound, by simpa using hunused, rfl⟩

theorem advanced_of_passkeyStep {assertion : Option Assertion}
    {credential : Option PasskeyCredential} {challenge : Option ℕ}
    {relyingParty : Option RelyingParty} {counter : ℕ}
    (h : passkeyStep V assertion credential challenge relyingParty =
      .success answered id counter) :
    ∃ passkey, credential = some passkey ∧ passkey.id = id ∧
      counterAdvanced passkey.counter counter = true := by
  unfold passkeyStep at h
  split at h
  case h_2 => exact nomatch h
  case h_1 passkey _ _ =>
    split at h
    case isTrue => exact nomatch h
    case isFalse =>
      split at h
      case h_1 => exact nomatch h
      case h_2 counter' _ =>
        split at h
        case isFalse => exact nomatch h
        case isTrue hadvanced =>
          obtain ⟨-, rfl, rfl⟩ := PasskeyStepOutcome.success.inj h
          exact ⟨passkey, rfl, rfl, hadvanced⟩

end Steps

end Odudu.AuthnFlows.FactorUses
