import Odudu.DomainTenant.LanguageTags

/-!
# Tenant settings

`service/tenant-settings.ts`: the settings of a tenant with their types, what a value is coerced
to, and what a full set of values breaks.  A setting is known by its name; the column of the same
name in the schema's case is left out.

A problem is of some fields only (`judged`): where two records agree on them, it is one of both
(`problem_of_agree`).
-/

set_option autoImplicit false

namespace Odudu.DomainTenant

open Texts

/-- The settings, in the order of `SETTINGS`. -/
inductive TenantSettingName where
  | display_name
  | enabled
  | registration_allowed
  | verify_email
  | reset_password_allowed
  | sso_session_idle_seconds
  | sso_session_max_seconds
  | password_min_length
  | password_require_digit
  | password_require_uppercase
  | password_require_lowercase
  | password_require_special
  | password_not_username
  | password_not_email
  | password_history_depth
  | password_max_age_days
  | otp_required
  | brute_force_max_failures
  | brute_force_lockout_seconds
  | brute_force_max_lockout_seconds
  | brute_force_failure_reset_seconds
  | client_registration_policy
  | max_clients
  | max_sessions_per_browser
  | remember_me_allowed
  | remember_me_idle_seconds
  | remember_me_max_seconds
  | audit_retention_days
  | username_editable
  | access_token_ttl_seconds
  | id_token_ttl_seconds
  | refresh_token_ttl_seconds
  | authorization_code_ttl_seconds
  | login_ttl_seconds
  | verify_email_ttl_seconds
  | reset_password_ttl_seconds
  | login_with_email
  | cimd_enabled
  | audit_event_types
  | supported_locales
  | default_locale
  deriving DecidableEq

namespace TenantSettingName

/-- The key of a setting. -/
def key : TenantSettingName → String
  | display_name => "display_name"
  | enabled => "enabled"
  | registration_allowed => "registration_allowed"
  | verify_email => "verify_email"
  | reset_password_allowed => "reset_password_allowed"
  | sso_session_idle_seconds => "sso_session_idle_seconds"
  | sso_session_max_seconds => "sso_session_max_seconds"
  | password_min_length => "password_min_length"
  | password_require_digit => "password_require_digit"
  | password_require_uppercase => "password_require_uppercase"
  | password_require_lowercase => "password_require_lowercase"
  | password_require_special => "password_require_special"
  | password_not_username => "password_not_username"
  | password_not_email => "password_not_email"
  | password_history_depth => "password_history_depth"
  | password_max_age_days => "password_max_age_days"
  | otp_required => "otp_required"
  | brute_force_max_failures => "brute_force_max_failures"
  | brute_force_lockout_seconds => "brute_force_lockout_seconds"
  | brute_force_max_lockout_seconds => "brute_force_max_lockout_seconds"
  | brute_force_failure_reset_seconds => "brute_force_failure_reset_seconds"
  | client_registration_policy => "client_registration_policy"
  | max_clients => "max_clients"
  | max_sessions_per_browser => "max_sessions_per_browser"
  | remember_me_allowed => "remember_me_allowed"
  | remember_me_idle_seconds => "remember_me_idle_seconds"
  | remember_me_max_seconds => "remember_me_max_seconds"
  | audit_retention_days => "audit_retention_days"
  | username_editable => "username_editable"
  | access_token_ttl_seconds => "access_token_ttl_seconds"
  | id_token_ttl_seconds => "id_token_ttl_seconds"
  | refresh_token_ttl_seconds => "refresh_token_ttl_seconds"
  | authorization_code_ttl_seconds => "authorization_code_ttl_seconds"
  | login_ttl_seconds => "login_ttl_seconds"
  | verify_email_ttl_seconds => "verify_email_ttl_seconds"
  | reset_password_ttl_seconds => "reset_password_ttl_seconds"
  | login_with_email => "login_with_email"
  | cimd_enabled => "cimd_enabled"
  | audit_event_types => "audit_event_types"
  | supported_locales => "supported_locales"
  | default_locale => "default_locale"

end TenantSettingName

open TenantSettingName

def TENANT_SETTING_NAMES : List TenantSettingName :=
  [display_name, enabled, registration_allowed, verify_email, reset_password_allowed,
    sso_session_idle_seconds, sso_session_max_seconds, password_min_length,
    password_require_digit, password_require_uppercase, password_require_lowercase,
    password_require_special, password_not_username, password_not_email,
    password_history_depth, password_max_age_days, otp_required, brute_force_max_failures,
    brute_force_lockout_seconds, brute_force_max_lockout_seconds,
    brute_force_failure_reset_seconds, client_registration_policy, max_clients,
    max_sessions_per_browser, remember_me_allowed, remember_me_idle_seconds,
    remember_me_max_seconds, audit_retention_days, username_editable, access_token_ttl_seconds,
    id_token_ttl_seconds, refresh_token_ttl_seconds, authorization_code_ttl_seconds,
    login_ttl_seconds, verify_email_ttl_seconds, reset_password_ttl_seconds, login_with_email,
    cimd_enabled, audit_event_types, supported_locales, default_locale]

theorem mem_TENANT_SETTING_NAMES (name : TenantSettingName) : name ∈ TENANT_SETTING_NAMES := by
  cases name <;> decide

inductive SettingType where
  | boolean
  | integer
  | text
  | list
  deriving DecidableEq

structure TenantSetting where
  type : SettingType
  values : Option (List Utf16) := none
  /-- A list setting's members no value may leave out. -/
  required : Option (List Utf16) := none
  locales : Bool := false

def REGISTRATION_POLICIES : List Utf16 := ["disabled", "open", "token", "mcp"].map ofAscii

def AUDIT_EVENT_TYPES : List Utf16 :=
  ["admin_mutation", "admin_access", "authentication", "session", "token", "credential"].map ofAscii

/-- The audit trail's admin pair. -/
def REQUIRED_AUDIT_TYPES : List Utf16 := ["admin_mutation", "admin_access"].map ofAscii

def SETTINGS : TenantSettingName → TenantSetting
  | display_name => { type := .text }
  | enabled | registration_allowed | verify_email | reset_password_allowed => { type := .boolean }
  | sso_session_idle_seconds | sso_session_max_seconds | password_min_length => { type := .integer }
  | password_require_digit | password_require_uppercase | password_require_lowercase
  | password_require_special | password_not_username | password_not_email => { type := .boolean }
  | password_history_depth | password_max_age_days => { type := .integer }
  | otp_required => { type := .boolean }
  | brute_force_max_failures | brute_force_lockout_seconds | brute_force_max_lockout_seconds
  | brute_force_failure_reset_seconds => { type := .integer }
  | client_registration_policy => { type := .text, values := some REGISTRATION_POLICIES }
  | max_clients | max_sessions_per_browser => { type := .integer }
  | remember_me_allowed => { type := .boolean }
  | remember_me_idle_seconds | remember_me_max_seconds | audit_retention_days => { type := .integer }
  | username_editable => { type := .boolean }
  | access_token_ttl_seconds | id_token_ttl_seconds | refresh_token_ttl_seconds
  | authorization_code_ttl_seconds | login_ttl_seconds | verify_email_ttl_seconds
  | reset_password_ttl_seconds => { type := .integer }
  | login_with_email | cimd_enabled => { type := .boolean }
  | audit_event_types =>
    { type := .list, values := some AUDIT_EVENT_TYPES, required := some REQUIRED_AUDIT_TYPES }
  | supported_locales => { type := .list, locales := true }
  | default_locale => { type := .text, locales := true }

def MAX_SUPPORTED_LOCALES : ℕ := 32

/-- What a setting holds: a column may be `null`. -/
inductive TenantSettingValue where
  | null
  | boolean (b : Bool)
  | integer (n : ℤ)
  | text (t : Utf16)
  | list (members : List Utf16)
  deriving DecidableEq

abbrev TenantSettingsRecord : Type := TenantSettingName → TenantSettingValue

/-! ### Coercion -/

/-- What a setting is asked to hold: a text, or a list of texts. -/
inductive RawSetting where
  | text (raw : Utf16)
  | list (members : List Utf16)

inductive CoerceOutcome where
  | coerced (setting : TenantSettingName) (value : TenantSettingValue)
  | unknown_setting (known : List String)
  | invalid_value (expected : SettingType) (values : Option (List Utf16))

def isSettingName (value : String) : Option TenantSettingName :=
  TENANT_SETTING_NAMES.find? fun name ↦ name.key == value

def coerceBoolean (raw : Utf16) : Option Bool :=
  if raw = ofAscii "true" then some true
  else if raw = ofAscii "false" then some false
  else none

def digitsValue (digits : Utf16) : ℕ :=
  digits.foldl (fun n u ↦ 10 * n + (u.toNat - 0x30)) 0

/-- What `\d+` takes. -/
def isDigits (text : Utf16) : Bool := text != [] && text.all isDigitUnit

def coerceInteger (raw : Utf16) : Option ℤ :=
  if raw.head? = some DASH then
    if isDigits (raw.drop 1) then some (-(digitsValue (raw.drop 1) : ℤ)) else none
  else if isDigits raw then some (digitsValue raw) else none

def COMMA : UInt16 := 0x2C

def trim (text : Utf16) : Utf16 := trimBy isWhiteUnit text

def coerceList (raw : RawSetting) (values : List Utf16) : Option (List Utf16) :=
  let members := match raw with
    | .text text => (text.splitOn COMMA).map trim
    | .list members => members
  let named := members.filter (· ≠ [])
  if named.all (· ∈ values) then some (values.filter (· ∈ named)) else none

/-- A member in its canonical spelling when it has one. -/
def spelled (member : Utf16) : Utf16 := (canonicalLocale member).getD member

def coerceLocaleList (raw : RawSetting) : List Utf16 :=
  let members := match raw with
    | .text text => text.splitOn COMMA
    | .list members => members
  ((members.map trim).filter (· ≠ [])).map spelled

/-- A list setting's possible members, or none for a setting that is not a list. -/
def listSettingValues (name : String) : Option (List Utf16) :=
  match isSettingName name with
  | none => none
  | some setting =>
    if (SETTINGS setting).type = .list then some ((SETTINGS setting).values.getD []) else none

def coerceText (setting : TenantSettingName) (raw : Utf16) : CoerceOutcome :=
  let values := (SETTINGS setting).values
  if values.any fun values ↦ !values.contains raw then .invalid_value .text values
  else if (SETTINGS setting).locales then
    -- empty clears the setting
    .coerced setting
      (if trim raw = [] then .null else .text ((canonicalLocale (trim raw)).getD raw))
  else .coerced setting (.text raw)

def coerceNamed (setting : TenantSettingName) (raw : RawSetting) : CoerceOutcome :=
  match (SETTINGS setting).type, raw with
  | .list, raw =>
    if (SETTINGS setting).locales then .coerced setting (.list (coerceLocaleList raw))
    else
      let values := (SETTINGS setting).values.getD []
      match coerceList raw values with
      | none => .invalid_value .list (some values)
      | some list => .coerced setting (.list list)
  | expected, .list _ => .invalid_value expected none
  | .text, .text raw => coerceText setting raw
  | .boolean, .text raw =>
    match coerceBoolean raw with
    | none => .invalid_value .boolean none
    | some b => .coerced setting (.boolean b)
  | .integer, .text raw =>
    match coerceInteger raw with
    | none => .invalid_value .integer none
    | some n => .coerced setting (.integer n)

def coerceTenantSetting (name : String) (raw : RawSetting) : CoerceOutcome :=
  match isSettingName name with
  | none => .unknown_setting (TENANT_SETTING_NAMES.map key)
  | some setting => coerceNamed setting raw

/-! ### Problems -/

/-- PostgreSQL's `integer`. -/
def INTEGER_CEILING : ℕ := 2147483647

def ACCESS_TOKEN_CEILING_SECONDS : ℕ := 3600

structure TenantSettingRange where
  min : ℕ
  max : Option ℕ := none

def TENANT_SETTING_RANGES : TenantSettingName → Option TenantSettingRange
  | sso_session_idle_seconds => some { min := 60, max := some 2592000 }
  | sso_session_max_seconds => some { min := 60, max := some 2592000 }
  | password_min_length => some { min := 8, max := some 256 }
  | password_history_depth => some { min := 0, max := some 24 }
  | password_max_age_days => some { min := 0, max := some 3650 }
  | brute_force_max_failures => some { min := 1, max := some 100 }
  | brute_force_lockout_seconds => some { min := 1, max := some 86400 }
  | brute_force_failure_reset_seconds => some { min := 60, max := some 2592000 }
  | max_clients => some { min := 0 }
  | max_sessions_per_browser => some { min := 1, max := some 32 }
  | remember_me_idle_seconds => some { min := 60, max := some 31536000 }
  | remember_me_max_seconds => some { min := 60, max := some 31536000 }
  | audit_retention_days => some { min := 1, max := some 3650 }
  | access_token_ttl_seconds => some { min := 1, max := some ACCESS_TOKEN_CEILING_SECONDS }
  | id_token_ttl_seconds => some { min := 1, max := some 3600 }
  | refresh_token_ttl_seconds => some { min := 1 }
  | authorization_code_ttl_seconds => some { min := 1, max := some 600 }
  | login_ttl_seconds => some { min := 60, max := some 86400 }
  | verify_email_ttl_seconds => some { min := 60, max := some 604800 }
  | reset_password_ttl_seconds => some { min := 60, max := some 86400 }
  | _ => none

def TENANT_SETTING_ORDERINGS : List (TenantSettingName × TenantSettingName) :=
  [(sso_session_idle_seconds, sso_session_max_seconds),
    (remember_me_idle_seconds, remember_me_max_seconds),
    (brute_force_lockout_seconds, brute_force_max_lockout_seconds)]

structure TenantSettingProblem where
  name : TenantSettingName
  message : Utf16

section Problems

variable (values : TenantSettingsRecord)

def rangeMessage (min max : ℕ) : Utf16 :=
  ofAscii "must be between " ++ decimal min ++ ofAscii " and " ++ decimal max

/-- The ranges of one setting. -/
def integerProblems (name : TenantSettingName) : List TenantSettingProblem :=
  match values name, (SETTINGS name).type with
  | .integer value, .integer =>
    let range := TENANT_SETTING_RANGES name
    let min := (range.map TenantSettingRange.min).getD 0
    let max := (range.bind TenantSettingRange.max).getD INTEGER_CEILING
    if range.isSome ∧ (value < min ∨ value > max) then [⟨name, rangeMessage min max⟩]
    else if value > INTEGER_CEILING then
      [⟨name, ofAscii "must be at most " ++ decimal INTEGER_CEILING⟩]
    else []
  | _, _ => []

def AND : Utf16 := ofAscii " and "

def missingMessage (required missing : List Utf16) : Utf16 :=
  ofAscii "must include " ++ AND.intercalate required ++
    ofAscii ", which can never be turned off; " ++ AND.intercalate missing ++
    ofAscii " is missing"

/-- The members of one list setting that may not be left out. -/
def requiredProblems (name : TenantSettingName) : List TenantSettingProblem :=
  match (SETTINGS name).required, values name with
  | some required, .list value =>
    let missing := required.filter (· ∉ value)
    if missing.length > 0 then [⟨name, missingMessage required missing⟩] else []
  | _, _ => []

def supportedProblems : List TenantSettingProblem :=
  match values supported_locales with
  | .list tags =>
    (if tags.length = 0 ∨ tags.length > MAX_SUPPORTED_LOCALES then
      [⟨supported_locales, ofAscii "must hold between 1 and " ++ decimal MAX_SUPPORTED_LOCALES ++
        ofAscii " language tags"⟩]
    else []) ++
      match tags.find? fun tag ↦ !isValidLocale tag with
      | some bad =>
        [⟨supported_locales, quoted (bad.take 40) ++
          ofAscii " is not a language tag such as fr or zh-Hant-TW"⟩]
      | none =>
        -- every tag is of letters, digits and dashes here
        if (tags.map fun tag ↦ tag.map lowerUnit).Nodup then []
        else [⟨supported_locales, ofAscii "names a language tag twice"⟩]
  | _ => []

def defaultProblems : List TenantSettingProblem :=
  match values default_locale with
  | .text fallback =>
    if !isValidLocale fallback then
      [⟨default_locale, ofAscii "must be a language tag such as fr or zh-Hant-TW"⟩]
    else
      match values supported_locales with
      | .list supported =>
        if fallback ∈ supported then []
        else [⟨default_locale, ofAscii "must be one of supported_locales"⟩]
      | _ => []
  | _ => []

def localeProblems : List TenantSettingProblem := supportedProblems values ++ defaultProblems values

def orderingProblems (pair : TenantSettingName × TenantSettingName) : List TenantSettingProblem :=
  match values pair.1, values pair.2 with
  | .integer low, .integer high =>
    if low > high then [⟨pair.1, ofAscii "must not exceed " ++ ofAscii pair.2.key⟩] else []
  | _, _ => []

/-- What a full set of setting values breaks, by setting. -/
def tenantSettingProblems : List TenantSettingProblem :=
  TENANT_SETTING_NAMES.flatMap (integerProblems values) ++
    TENANT_SETTING_NAMES.flatMap (requiredProblems values) ++
    localeProblems values ++
    TENANT_SETTING_ORDERINGS.flatMap (orderingProblems values)

end Problems

/-! ### What a problem is about -/

section Judged

variable {values values' : TenantSettingsRecord}

/-- The fields that the problems of a setting are about. -/
def judged (name : TenantSettingName) : List TenantSettingName :=
  name :: (((TENANT_SETTING_ORDERINGS.filter (·.1 = name)).map Prod.snd) ++
    if name = default_locale then [supported_locales] else [])

theorem name_mem_judged (name : TenantSettingName) : name ∈ judged name := List.mem_cons_self

variable {problem : TenantSettingProblem} {name : TenantSettingName}

theorem name_of_integerProblems
    (h : problem ∈ integerProblems values name) : problem.name = name := by
  unfold integerProblems at h
  split at h
  · simp only at h
    split_ifs at h
    · rw [List.mem_singleton.mp h]
    · rw [List.mem_singleton.mp h]
    · exact absurd h List.not_mem_nil
  · exact absurd h List.not_mem_nil

theorem name_of_requiredProblems
    (h : problem ∈ requiredProblems values name) : problem.name = name := by
  unfold requiredProblems at h
  split at h
  · simp only at h
    split_ifs at h
    · rw [List.mem_singleton.mp h]
    · exact absurd h List.not_mem_nil
  · exact absurd h List.not_mem_nil

theorem name_of_supportedProblems
    (h : problem ∈ supportedProblems values) : problem.name = supported_locales := by
  unfold supportedProblems at h
  split at h
  · rcases List.mem_append.mp h with h | h
    · split_ifs at h
      · rw [List.mem_singleton.mp h]
      · exact absurd h List.not_mem_nil
    · split at h
      · rw [List.mem_singleton.mp h]
      · split_ifs at h
        · exact absurd h List.not_mem_nil
        · rw [List.mem_singleton.mp h]
  · exact absurd h List.not_mem_nil

theorem name_of_defaultProblems
    (h : problem ∈ defaultProblems values) : problem.name = default_locale := by
  unfold defaultProblems at h
  split at h
  · split_ifs at h
    · rw [List.mem_singleton.mp h]
    · split at h
      · split_ifs at h
        · exact absurd h List.not_mem_nil
        · rw [List.mem_singleton.mp h]
      · exact absurd h List.not_mem_nil
  · exact absurd h List.not_mem_nil

theorem name_of_orderingProblems {pair : TenantSettingName × TenantSettingName}
    (h : problem ∈ orderingProblems values pair) :
    problem.name = pair.1 := by
  unfold orderingProblems at h
  split at h
  · split_ifs at h
    · rw [List.mem_singleton.mp h]
    · exact absurd h List.not_mem_nil
  · exact absurd h List.not_mem_nil

/-- A problem of a record is one of every record that agrees on what the problem is about. -/
theorem problem_of_agree
    (h : problem ∈ tenantSettingProblems values)
    (hagree : ∀ field ∈ judged problem.name, values field = values' field) :
    problem ∈ tenantSettingProblems values' := by
  have hsame := hagree problem.name (name_mem_judged problem.name)
  unfold tenantSettingProblems localeProblems at h ⊢
  simp only [List.mem_append, List.mem_flatMap] at h ⊢
  rcases h with ((⟨name, hname, h⟩ | ⟨name, hname, h⟩) | h | h) | ⟨pair, hpair, h⟩
  · rw [name_of_integerProblems h] at hsame
    refine Or.inl (Or.inl (Or.inl ⟨name, hname, ?_⟩))
    rwa [integerProblems, ← hsame]
  · rw [name_of_requiredProblems h] at hsame
    refine Or.inl (Or.inl (Or.inr ⟨name, hname, ?_⟩))
    rwa [requiredProblems, ← hsame]
  · rw [name_of_supportedProblems h] at hsame
    refine Or.inl (Or.inr (Or.inl ?_))
    rwa [supportedProblems, ← hsame]
  · rw [name_of_defaultProblems h] at hsame hagree
    have hsupported := hagree supported_locales (by decide)
    refine Or.inl (Or.inr (Or.inr ?_))
    rwa [defaultProblems, ← hsame, ← hsupported]
  · rw [name_of_orderingProblems h] at hsame hagree
    have hupper : pair.2 ∈ judged pair.1 := by
      refine List.mem_cons_of_mem _ (List.mem_append_left _ ?_)
      exact List.mem_map_of_mem (List.mem_filter.mpr ⟨hpair, decide_eq_true rfl⟩)
    refine Or.inr ⟨pair, hpair, ?_⟩
    rwa [orderingProblems, ← hsame, ← hagree pair.2 hupper]

end Judged

/-! ### Records without problems -/

section Clean

variable {values : TenantSettingsRecord}

theorem tenantSettingProblems_eq_nil_iff :
    tenantSettingProblems values = [] ↔
      (∀ name, integerProblems values name = []) ∧ (∀ name, requiredProblems values name = []) ∧
        supportedProblems values = [] ∧ defaultProblems values = [] ∧
          ∀ pair ∈ TENANT_SETTING_ORDERINGS, orderingProblems values pair = [] := by
  unfold tenantSettingProblems localeProblems
  rw [List.append_eq_nil_iff, List.append_eq_nil_iff, List.append_eq_nil_iff,
    List.append_eq_nil_iff, List.flatMap_eq_nil_iff, List.flatMap_eq_nil_iff,
    List.flatMap_eq_nil_iff]
  constructor
  · rintro ⟨⟨⟨hinteger, hrequired⟩, hsupported, hdefault⟩, horderings⟩
    exact ⟨fun name ↦ hinteger name (mem_TENANT_SETTING_NAMES name),
      fun name ↦ hrequired name (mem_TENANT_SETTING_NAMES name), hsupported, hdefault, horderings⟩
  · rintro ⟨hinteger, hrequired, hsupported, hdefault, horderings⟩
    exact ⟨⟨⟨fun name _ ↦ hinteger name, fun name _ ↦ hrequired name⟩, hsupported, hdefault⟩,
      horderings⟩

/-- The tags that may be supported. -/
structure Supportable (tags : List Utf16) : Prop where
  some : tags.length ≠ 0
  bounded : tags.length ≤ MAX_SUPPORTED_LOCALES
  valid : ∀ tag ∈ tags, isValidLocale tag = true
  once : (tags.map fun tag ↦ tag.map lowerUnit).Nodup

variable {tags : List Utf16}

theorem supportedProblems_eq_nil_iff (h : values supported_locales = .list tags) :
    supportedProblems values = [] ↔ Supportable tags := by
  unfold supportedProblems
  rw [h]
  simp only [List.append_eq_nil_iff]
  constructor
  · rintro ⟨hcount, htags⟩
    have hbounds : ¬(tags.length = 0 ∨ tags.length > MAX_SUPPORTED_LOCALES) := by
      intro hout
      rw [if_pos hout] at hcount
      exact absurd hcount (List.cons_ne_nil _ _)
    split at htags
    · exact absurd htags (List.cons_ne_nil _ _)
    · rename_i hvalid
      refine ⟨fun h ↦ hbounds (Or.inl h), Nat.le_of_not_lt fun h ↦ hbounds (Or.inr h), ?_, ?_⟩
      · intro tag htag
        have hfound := List.find?_eq_none.mp hvalid tag htag
        rwa [Bool.not_eq_true, Bool.not_eq_false'] at hfound
      · by_contra hnodup
        rw [if_neg hnodup] at htags
        exact absurd htags (List.cons_ne_nil _ _)
  · intro hsupportable
    have hvalid : tags.find? (fun tag ↦ !isValidLocale tag) = none := by
      rw [List.find?_eq_none]
      intro tag htag
      rw [hsupportable.valid tag htag]
      exact Bool.false_ne_true
    refine ⟨if_neg ?_, ?_⟩
    · rintro (hzero | hmany)
      · exact hsupportable.some hzero
      · exact absurd hmany (Nat.not_lt.mpr hsupportable.bounded)
    · rw [hvalid]
      exact if_pos hsupportable.once

theorem defaultProblems_eq_nil_iff {fallback : Utf16}
    (h : values supported_locales = .list tags) (h' : values default_locale = .text fallback) :
    defaultProblems values = [] ↔ isValidLocale fallback = true ∧ fallback ∈ tags := by
  unfold defaultProblems
  rw [h', h]
  simp only
  split
  · rename_i hinvalid
    rw [Bool.not_eq_true'] at hinvalid
    constructor
    · intro habsurd
      exact absurd habsurd (List.cons_ne_nil _ _)
    · rintro ⟨hvalid, -⟩
      rw [hinvalid] at hvalid
      exact absurd hvalid Bool.false_ne_true
  · rename_i hvalid
    rw [Bool.not_eq_true, Bool.not_eq_false'] at hvalid
    split
    · rename_i hmem
      exact ⟨fun _ ↦ ⟨hvalid, hmem⟩, fun _ ↦ rfl⟩
    · rename_i hmem
      constructor
      · intro habsurd
        exact absurd habsurd (List.cons_ne_nil _ _)
      · exact fun h ↦ absurd h.2 hmem

end Clean

end Odudu.DomainTenant
