import Odudu.DomainTenant.TenantSettings

/-!
# The checks on the tenants table

The CHECK constraints of the migrations that are about a setting.  `tenantSettingProblems`
restates them: a record without problems, of the enumerated values, passes them all
(`checks_of_clean`).
-/

set_option autoImplicit false

namespace Odudu.DomainTenant

open Texts TenantSettingName

section Checks

variable (values : TenantSettingsRecord)

/-- `column BETWEEN min AND max`, which `NULL` passes. -/
def between (column : TenantSettingName) (min max : ℕ) : Bool :=
  match values column with
  | .integer n => decide ((min : ℤ) ≤ n) && decide (n ≤ (max : ℤ))
  | _ => true

/-- `column >= min` -/
def atLeast (column : TenantSettingName) (min : ℕ) : Bool :=
  match values column with
  | .integer n => decide ((min : ℤ) ≤ n)
  | _ => true

/-- `lower <= upper` -/
def notAbove (lower upper : TenantSettingName) : Bool :=
  match values lower, values upper with
  | .integer low, .integer high => decide (low ≤ high)
  | _, _ => true

def client_registration_policy_check : Bool :=
  match values client_registration_policy with
  | .text policy => REGISTRATION_POLICIES.contains policy
  | _ => true

def audit_event_types_check : Bool :=
  match values audit_event_types with
  | .list types =>
    REQUIRED_AUDIT_TYPES.all (types.contains ·) && types.all (AUDIT_EVENT_TYPES.contains ·)
  | _ => true

def supported_locales_bounds : Bool :=
  match values supported_locales with
  | .list tags => decide (1 ≤ tags.length) && decide (tags.length ≤ 32)
  | _ => true

def default_locale_supported : Bool :=
  match values default_locale, values supported_locales with
  | .text fallback, .list tags => tags.contains fallback
  | _, _ => true

/-- Every CHECK of the tenants table on a setting. -/
def checks : List Bool :=
  [between values sso_session_idle_seconds 60 2592000,
    between values sso_session_max_seconds 60 2592000,
    notAbove values sso_session_idle_seconds sso_session_max_seconds,
    between values password_min_length 8 256,
    between values password_history_depth 0 24,
    between values password_max_age_days 0 3650,
    between values brute_force_max_failures 1 100 &&
      between values brute_force_lockout_seconds 1 86400 &&
      notAbove values brute_force_lockout_seconds brute_force_max_lockout_seconds &&
      between values brute_force_failure_reset_seconds 60 2592000,
    client_registration_policy_check values,
    atLeast values max_clients 0,
    between values max_sessions_per_browser 1 32,
    between values remember_me_idle_seconds 60 31536000,
    between values remember_me_max_seconds 60 31536000,
    notAbove values remember_me_idle_seconds remember_me_max_seconds,
    between values audit_retention_days 1 3650,
    between values access_token_ttl_seconds 1 3600,
    between values id_token_ttl_seconds 1 3600,
    atLeast values refresh_token_ttl_seconds 1,
    between values authorization_code_ttl_seconds 1 600,
    between values login_ttl_seconds 60 86400,
    between values verify_email_ttl_seconds 60 604800,
    between values reset_password_ttl_seconds 60 86400,
    audit_event_types_check values,
    supported_locales_bounds values,
    default_locale_supported values]

def passesChecks : Bool := (checks values).all id

end Checks

/-! ### Records without problems pass -/

section Clean

variable {values : TenantSettingsRecord} {column : TenantSettingName}

/-- A value within its range. -/
theorem between_of_clean {min max : ℕ}
    (h : integerProblems values column = []) (htype : (SETTINGS column).type = .integer)
    (hrange : TENANT_SETTING_RANGES column = some { min := min, max := some max }) :
    between values column min max = true := by
  unfold between
  cases hvalue : values column with
  | integer =>
    unfold integerProblems at h
    rw [hvalue, htype] at h
    simp only [hrange, Option.isSome_some, true_and, Option.map_some, Option.bind_some,
      Option.getD_some] at h
    split_ifs at h with hout
    simp only [Bool.and_eq_true, decide_eq_true_eq]
    omega
  | null | boolean | text | list => rfl

theorem atLeast_of_clean {min : ℕ}
    (h : integerProblems values column = []) (htype : (SETTINGS column).type = .integer)
    (hrange : TENANT_SETTING_RANGES column = some { min := min }) :
    atLeast values column min = true := by
  unfold atLeast
  cases hvalue : values column with
  | integer =>
    unfold integerProblems at h
    rw [hvalue, htype] at h
    simp only [hrange, Option.isSome_some, true_and, Option.map_some, Option.bind_some,
      Option.getD_some] at h
    split_ifs at h with hout
    simp only [decide_eq_true_eq]
    omega
  | null | boolean | text | list => rfl

theorem notAbove_of_clean {lower upper : TenantSettingName}
    (h : orderingProblems values (lower, upper) = []) : notAbove values lower upper = true := by
  unfold orderingProblems at h
  unfold notAbove
  split
  · rename_i low high hlow hhigh
    simp only [hlow, hhigh] at h
    split_ifs at h with hout
    exact decide_eq_true (not_lt.mp hout)
  · rfl

/-- The values of the enumerated settings. -/
structure Enumerated (values : TenantSettingsRecord) : Prop where
  policy : ∀ policy, values client_registration_policy = .text policy →
    policy ∈ REGISTRATION_POLICIES
  types : ∀ types, values audit_event_types = .list types →
    ∀ type ∈ types, type ∈ AUDIT_EVENT_TYPES

theorem audit_event_types_check_of_clean (h : requiredProblems values audit_event_types = [])
    (henumerated : Enumerated values) : audit_event_types_check values = true := by
  unfold audit_event_types_check
  cases hvalue : values audit_event_types with
  | list types =>
    have hrequired : (SETTINGS audit_event_types).required = some REQUIRED_AUDIT_TYPES := rfl
    unfold requiredProblems at h
    simp only [hrequired, hvalue] at h
    split_ifs at h with hmissing
    have hnone := List.filter_eq_nil_iff.mp (List.eq_nil_of_length_eq_zero
      (Nat.eq_zero_of_not_pos hmissing))
    simp only [Bool.and_eq_true, List.all_eq_true, List.contains_iff_mem]
    refine ⟨fun type htype ↦ ?_, henumerated.types types hvalue⟩
    have hin := hnone type htype
    rwa [decide_eq_true_eq, not_not] at hin
  | null | boolean | text | integer => rfl

theorem client_registration_policy_check_of_enumerated (henumerated : Enumerated values) :
    client_registration_policy_check values = true := by
  unfold client_registration_policy_check
  split
  · rename_i policy hpolicy
    exact List.contains_iff_mem.mpr (henumerated.policy policy hpolicy)
  · rfl

theorem supported_locales_bounds_of_clean (h : supportedProblems values = []) :
    supported_locales_bounds values = true := by
  unfold supported_locales_bounds
  split
  · rename_i tags htags
    have hsupportable := (supportedProblems_eq_nil_iff htags).mp h
    have hsome := hsupportable.some
    have hbounded : tags.length ≤ 32 := hsupportable.bounded
    simp only [Bool.and_eq_true, decide_eq_true_eq]
    omega
  · rfl

theorem default_locale_supported_of_clean (h : defaultProblems values = []) :
    default_locale_supported values = true := by
  unfold default_locale_supported
  split
  · rename_i fallback tags hfallback htags
    exact List.contains_iff_mem.mpr ((defaultProblems_eq_nil_iff htags hfallback).mp h).2
  · rfl

/-- A record without problems passes every check. -/
theorem checks_of_clean (h : tenantSettingProblems values = []) (henumerated : Enumerated values) :
    passesChecks values = true := by
  obtain ⟨hinteger, hrequired, hsupported, hdefault, horderings⟩ :=
    tenantSettingProblems_eq_nil_iff.mp h
  have hordered {lower upper : TenantSettingName}
      (hpair : (lower, upper) ∈ TENANT_SETTING_ORDERINGS) : notAbove values lower upper = true :=
    notAbove_of_clean (horderings _ hpair)
  unfold passesChecks checks
  simp only [List.all_cons, List.all_nil, id_eq, Bool.and_true, Bool.and_eq_true]
  refine ⟨between_of_clean (hinteger _) rfl rfl, between_of_clean (hinteger _) rfl rfl,
    hordered (by decide), between_of_clean (hinteger _) rfl rfl,
    between_of_clean (hinteger _) rfl rfl, between_of_clean (hinteger _) rfl rfl,
    ⟨⟨⟨between_of_clean (hinteger _) rfl rfl, between_of_clean (hinteger _) rfl rfl⟩,
      hordered (by decide)⟩, between_of_clean (hinteger _) rfl rfl⟩,
    client_registration_policy_check_of_enumerated henumerated,
    atLeast_of_clean (hinteger _) rfl rfl, between_of_clean (hinteger _) rfl rfl,
    between_of_clean (hinteger _) rfl rfl, between_of_clean (hinteger _) rfl rfl,
    hordered (by decide), between_of_clean (hinteger _) rfl rfl,
    between_of_clean (hinteger _) rfl rfl, between_of_clean (hinteger _) rfl rfl,
    atLeast_of_clean (hinteger _) rfl rfl, between_of_clean (hinteger _) rfl rfl,
    between_of_clean (hinteger _) rfl rfl, between_of_clean (hinteger _) rfl rfl,
    between_of_clean (hinteger _) rfl rfl,
    audit_event_types_check_of_clean (hrequired _) henumerated,
    supported_locales_bounds_of_clean hsupported, default_locale_supported_of_clean hdefault⟩

/-- The default among the supported tags, by the check. -/
theorem mem_of_default_locale_supported {tags : List Utf16} {fallback : Utf16}
    (h : passesChecks values = true) (htags : values supported_locales = .list tags)
    (hfallback : values default_locale = .text fallback) : fallback ∈ tags := by
  have hmem : default_locale_supported values ∈ checks values := by
    unfold checks
    simp only [List.mem_cons, true_or, or_true]
  have hcheck : default_locale_supported values = true := List.all_eq_true.mp h _ hmem
  unfold default_locale_supported at hcheck
  simp only [hfallback, htags] at hcheck
  exact List.contains_iff_mem.mp hcheck

end Clean

end Odudu.DomainTenant
