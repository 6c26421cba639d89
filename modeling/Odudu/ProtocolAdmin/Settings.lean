import Odudu.DomainTenant.SettingChecks
import Odudu.ProtocolAdmin.Etag

/-!
# Writers of a tenant's settings

The three doors that write them: a tenant's creation (`insertProvisionedTenant` of
`usecase/tenants.ts`), its import (`validateTenantImport` and `writeSettings`), and the amendment
of its settings (`usecase/settings.ts`).

The row is locked while it is amended, and a tenant is made in one transaction, so the doors are
taken one at a time.  What a document is refused for beside its settings is a list of the
document, the tag of a record is a parameter, and a request's number is the text that `String`
makes of it.
-/

set_option autoImplicit false

namespace Odudu.ProtocolAdmin.Settings

open Texts DomainTenant TenantSettingName

/-! ### Display names -/

def DISPLAY_NAME_MAX : ℕ := 256

def isBidiControl (u : UInt16) : Bool :=
  decide (0x202A ≤ u.toNat) && decide (u.toNat ≤ 0x202E) ||
    decide (0x2066 ≤ u.toNat) && decide (u.toNat ≤ 0x2069)

def containsBidiControl (value : Utf16) : Bool := value.any isBidiControl

def BIDI_REFUSED_MESSAGE : Utf16 := ofAscii
  "must not contain bidirectional control characters (U+202A to U+202E, U+2066 to U+2069)"

def refusesBidi (next current : TenantSettingValue) : Bool :=
  match next with
  | .text value => decide (next ≠ current) && containsBidiControl value
  | _ => false

/-- A display name is trimmed, and a blank or absent one is none. -/
def normalizeDisplayName (value : Option Utf16) : TenantSettingValue :=
  if trim (value.getD []) = [] then .null else .text (trim (value.getD []))

/-! ### The row -/

/-- What the tenants table gives a row by default. -/
def defaults : TenantSettingsRecord
  | display_name => .null
  | enabled => .boolean true
  | registration_allowed | verify_email | reset_password_allowed => .boolean false
  | sso_session_idle_seconds => .integer 1800
  | sso_session_max_seconds => .integer 36000
  | password_min_length => .integer 15
  | password_require_digit | password_require_uppercase | password_require_lowercase
  | password_require_special => .boolean false
  | password_not_username | password_not_email => .boolean true
  | password_history_depth | password_max_age_days => .integer 0
  | otp_required => .boolean false
  | brute_force_max_failures => .integer 5
  | brute_force_lockout_seconds => .integer 60
  | brute_force_max_lockout_seconds => .integer 900
  | brute_force_failure_reset_seconds => .integer 43200
  | client_registration_policy => .text (ofAscii "disabled")
  | max_clients => .integer 200
  | max_sessions_per_browser => .integer 25
  | remember_me_allowed => .boolean false
  | remember_me_idle_seconds => .integer 604800
  | remember_me_max_seconds => .integer 2592000
  | audit_retention_days => .integer 90
  | username_editable => .boolean false
  | access_token_ttl_seconds | id_token_ttl_seconds => .integer 300
  | refresh_token_ttl_seconds => .integer 1209600
  | authorization_code_ttl_seconds => .integer 60
  | login_ttl_seconds => .integer 1800
  | verify_email_ttl_seconds => .integer 43200
  | reset_password_ttl_seconds => .integer 300
  | login_with_email | cimd_enabled => .boolean false
  | audit_event_types => .list AUDIT_EVENT_TYPES
  | supported_locales => .list [ofAscii "en"]
  | default_locale => .null

/-- A record with the values of some columns laid on it. -/
def laid (record : TenantSettingsRecord) (columns : List (TenantSettingName × TenantSettingValue)) :
    TenantSettingsRecord :=
  columns.foldl (fun row column ↦ Function.update row column.1 column.2) record

/-- The row of a new tenant; none where the display name is refused. -/
def insertProvisionedTenant (displayName : TenantSettingValue) : Option TenantSettingsRecord :=
  if refusesBidi displayName .null then none
  else some (laid defaults [(display_name, displayName)])

/-- `tenantSettingsRepository.amend`; none where a CHECK refuses the row. -/
def amendRow (record : TenantSettingsRecord)
    (columns : List (TenantSettingName × TenantSettingValue)) : Option TenantSettingsRecord :=
  if passesChecks (laid record columns) then some (laid record columns) else none

/-! ### Amendment -/

/-- A value of a request. -/
inductive SettingValue where
  | boolean (b : Bool)
  | number (spelling : Utf16)
  | text (t : Utf16)
  | list (members : List Utf16)

/-- `typeof raw === 'object' ? raw : String(raw)` -/
def SettingValue.raw : SettingValue → RawSetting
  | boolean b => .text (if b then ofAscii "true" else ofAscii "false")
  | number spelling => .text spelling
  | text t => .text t
  | list members => .list members

def SettingValue.isArray : SettingValue → Bool
  | list _ => true
  | _ => false

def SYSTEM_TENANT_DISABLE_REFUSED : String :=
  "system is the tenant every cross-tenant administrator authenticates against and cannot be disabled"

inductive AmendSettingsOutcome where
  | amended (settings : TenantSettingsRecord)
  | unknown_setting (name : String) (known : List String)
  | invalid_value (name : String) (expected : SettingType) (values : Option (List Utf16))
  | out_of_range (problems : List TenantSettingProblem) (ranged : Bool)
  | system_tenant_guarded (reason : String)
  | precondition_failed
  /-- `AmendSettingsRefusedError`, which rolls the transaction back -/
  | refused (settingNames : List String)

/-- A setting with the value its column is to hold. -/
abbrev CoercedSetting : Type := TenantSettingName × TenantSettingValue

/-- The value of a column: a display name is normalised. -/
def heldValue (setting : TenantSettingName) (value : TenantSettingValue) : TenantSettingValue :=
  match setting, value with
  | display_name, .text t => normalizeDisplayName (some t)
  | _, value => value

def coerceEntry (name : String) (value : SettingValue) :
    Except AmendSettingsOutcome CoercedSetting :=
  match listSettingValues name, value.isArray with
  | some values, false => .error (.invalid_value name .list (some values))
  | _, _ =>
    match coerceTenantSetting name value.raw with
    | .unknown_setting known => .error (.unknown_setting name known)
    | .invalid_value expected values => .error (.invalid_value name expected values)
    | .coerced setting value => .ok (setting, heldValue setting value)

def coerceAll : List (String × SettingValue) → Except AmendSettingsOutcome (List CoercedSetting)
  | [] => .ok []
  | (name, value) :: rest =>
    match coerceEntry name value with
    | .error outcome => .error outcome
    | .ok setting =>
      match coerceAll rest with
      | .error outcome => .error outcome
      | .ok settings => .ok (setting :: settings)

structure AmendSettingsInput where
  values : List (String × SettingValue)
  ifMatch : Option Utf16

/-- Whether a display name that is asked for is over its bound. -/
def isLongName : TenantSettingValue → Bool
  | .text t => decide (t.length > DISPLAY_NAME_MAX)
  | _ => false

section Amend

variable (system : Bool) (etagOf : TenantSettingsRecord → Utf16)

/-- The amendment of a locked row. -/
def amendCoerced (current : TenantSettingsRecord) (settings : List CoercedSetting) :
    AmendSettingsOutcome :=
  let named (refuses : TenantSettingValue → Bool) : Bool :=
    settings.any fun setting ↦ setting.1 = display_name && refuses setting.2
  if named (refusesBidi · (current display_name)) then
    .out_of_range [⟨display_name, BIDI_REFUSED_MESSAGE⟩] false
  else if named isLongName then
    .out_of_range
      [⟨display_name, ofAscii "at most " ++ decimal DISPLAY_NAME_MAX ++ ofAscii " characters"⟩] false
  else if settings.length = 0 then .amended current
  else
    let problems := tenantSettingProblems (laid current settings)
    if problems.length > 0 then
      .out_of_range problems (problems.any fun problem ↦ (listSettingValues problem.name.key).isNone)
    else
      match amendRow current settings with
      | none => .refused (settings.map fun setting ↦ setting.1.key)
      | some row => .amended row

def amendSettings (current : TenantSettingsRecord) (input : AmendSettingsInput) :
    AmendSettingsOutcome :=
  match coerceAll input.values with
  | .error outcome => outcome
  | .ok settings =>
    if settings.any (· = (enabled, .boolean false)) && system then
      .system_tenant_guarded SYSTEM_TENANT_DISABLE_REFUSED
    else if Etag.tagMatches input.ifMatch (etagOf current) = .mismatch then .precondition_failed
    else amendCoerced current settings

end Amend

/-! ### Import -/

structure ImportError where
  path : Utf16
  message : Utf16

/-- A tenant document: the members of its `settings` and of its `registration_policy`, what its
schema finds wrong where it refuses, and what the rest of it is refused for. -/
structure TenantDocument where
  settings : TenantSettingName → Option TenantSettingValue
  registration_policy : TenantSettingName → Option TenantSettingValue
  issues : List ImportError
  rest : List ImportError

def REGISTRATION_POLICY_SETTINGS : List TenantSettingName :=
  [registration_allowed, verify_email, client_registration_policy]

/-- Whether the schema takes a value as a setting. -/
def schemaAccepts (name : TenantSettingName) (value : TenantSettingValue) : Bool :=
  match name, value with
  | display_name, .null => true
  | display_name, .text t => decide (t.length ≤ DISPLAY_NAME_MAX) && !containsBidiControl t
  | default_locale, .null => true
  | client_registration_policy, .text policy => REGISTRATION_POLICIES.contains policy
  | name, value =>
    match (SETTINGS name).type, value with
    | .boolean, .boolean _ => true
    | .integer, .integer _ => true
    | .text, .text _ => true
    | .list, .list _ => true
    | _, _ => false

/-- What a document from before a setting existed is read as. -/
def schemaDefault : TenantSettingName → Option TenantSettingValue
  | cimd_enabled => some (.boolean false)
  | supported_locales => some (.list [ofAscii "en"])
  | default_locale => some .null
  | _ => none

def parseMember (members : TenantSettingName → Option TenantSettingValue)
    (name : TenantSettingName) : Option TenantSettingValue :=
  match members name with
  | none => schemaDefault name
  | some value => if schemaAccepts name value then some value else none

/-- The members of a strict object of some settings, the others undefined. -/
def parseObject (names : List TenantSettingName)
    (members : TenantSettingName → Option TenantSettingValue) : Option TenantSettingsRecord :=
  if TENANT_SETTING_NAMES.all fun name ↦
      if name ∈ names then (parseMember members name).isSome else (members name).isNone then
    some fun name ↦ if name ∈ names then (parseMember members name).getD .null else .null
  else none

structure ParsedSettings where
  settings : TenantSettingsRecord
  registration_policy : TenantSettingsRecord

def parseDocument (document : TenantDocument) : Option ParsedSettings :=
  match parseObject (TENANT_SETTING_NAMES.filter (· ∉ REGISTRATION_POLICY_SETTINGS))
      document.settings,
    parseObject REGISTRATION_POLICY_SETTINGS document.registration_policy with
  | some settings, some registration_policy => some ⟨settings, registration_policy⟩
  | _, _ => none

/-- What the settings of a document are refused for. -/
def settingErrors (settings : TenantSettingsRecord) : List ImportError :=
  (tenantSettingProblems settings).map (fun problem ↦
    ⟨ofAscii "document.settings." ++ ofAscii problem.name.key, problem.message⟩) ++
  match settings audit_event_types with
  | .list types =>
    match coerceTenantSetting audit_event_types.key (.list types) with
    | .invalid_value _ values =>
      [⟨ofAscii "document.settings.audit_event_types",
        ofAscii "names an event type other than " ++
          (ofAscii ", ").intercalate (values.getD [])⟩]
    | _ => []
  | _ => []

def validateTenantImport (document : TenantDocument) : Except (List ImportError) ParsedSettings :=
  match parseDocument document with
  | none => .error document.issues
  | some parsed =>
    let errors := settingErrors parsed.settings ++ document.rest
    if errors.length > 0 then .error errors else .ok parsed

/-- What one member of a document writes: a scalar as it comes, a list coerced. -/
def documentColumn (values : TenantSettingsRecord) (name : TenantSettingName) :
    Option TenantSettingValue :=
  match values name with
  | .null => none
  | .list members =>
    match coerceTenantSetting name.key (.list members) with
    | .coerced _ value => some value
    | _ => none
  | value => if name ≠ display_name then some value else none

/-- `{ ...document.settings, ...document.registration_policy }` -/
def documentValues (parsed : ParsedSettings) : TenantSettingsRecord := fun name ↦
  if name ∈ REGISTRATION_POLICY_SETTINGS then parsed.registration_policy name
  else parsed.settings name

def writeSettings (row : TenantSettingsRecord) (parsed : ParsedSettings) :
    Option TenantSettingsRecord :=
  amendRow row <| TENANT_SETTING_NAMES.filterMap fun name ↦
    (documentColumn (documentValues parsed) name).map (Prod.mk name)

inductive ImportTenantOutcome where
  | invalid (errors : List ImportError)
  | failed
  | created (row : TenantSettingsRecord)

def textOf : TenantSettingValue → Option Utf16
  | .text t => some t
  | _ => none

/-- The import of a document under a name that is free. -/
def importTenant (displayName : Option Utf16) (document : TenantDocument) : ImportTenantOutcome :=
  match validateTenantImport document with
  | .error errors => .invalid errors
  | .ok parsed =>
    let asked := displayName <|> textOf (parsed.settings display_name)
    match insertProvisionedTenant (normalizeDisplayName asked) with
    | none => .failed
    | some row =>
      match writeSettings row parsed with
      | none =>
        .invalid [⟨ofAscii "document.settings", ofAscii "a setting is outside its permitted range"⟩]
      | some row => .created row

/-! ### Runs -/

section Runs

variable {Id : Type} [DecidableEq Id]

inductive Request (Id : Type) where
  | create (id : Id) (displayName : Option Utf16)
  | importTenant (id : Id) (displayName : Option Utf16) (document : TenantDocument)
  | amend (id : Id) (input : AmendSettingsInput)

/-- The settings of the tenants there are. -/
abbrev Tenants (Id : Type) : Type := Id → Option TenantSettingsRecord

/-- A tenant of a new id. -/
def insert (tenants : Tenants Id) (id : Id) (row : TenantSettingsRecord) : Tenants Id :=
  match tenants id with
  | none => Function.update tenants id (some row)
  | some _ => tenants

def answer (isSystemTenantId : Id → Bool) (etagOf : TenantSettingsRecord → Utf16)
    (tenants : Tenants Id) : Request Id → Tenants Id
  | .create id displayName =>
    match insertProvisionedTenant (normalizeDisplayName displayName) with
    | none => tenants
    | some row => insert tenants id row
  | .importTenant id displayName document =>
    match importTenant displayName document with
    | .created row => insert tenants id row
    | _ => tenants
  | .amend id input =>
    match tenants id with
    | none => tenants
    | some current =>
      match amendSettings (isSystemTenantId id) etagOf current input with
      | .amended settings => Function.update tenants id (some settings)
      | _ => tenants

def run (isSystemTenantId : Id → Bool) (etagOf : TenantSettingsRecord → Utf16)
    (requests : List (Request Id)) : Tenants Id :=
  requests.foldl (answer isSystemTenantId etagOf) fun _ ↦ none

end Runs

end Odudu.ProtocolAdmin.Settings
