import Odudu.ProtocolAdmin.StoredSettings

/-!
# Imported settings

A document's settings are judged as they come and written with their lists coerced.  The
coercion keeps what the rules ask of a list, and a default that was written otherwise than its
tag is now spelled is refused by the row's check (`sound_importTenant`).
-/

set_option autoImplicit false

namespace Odudu.ProtocolAdmin.Settings

open Texts DomainTenant TenantSettingName

/-! ### The schema -/

section Schema

variable {name : TenantSettingName} {value : TenantSettingValue}

/-- Every default of the schema is a value that the schema takes. -/
theorem schemaAccepts_default (h : schemaDefault name = some value) :
    schemaAccepts name value = true := by
  unfold schemaDefault at h
  split at h
  · rw [← Option.some.inj h]
    rfl
  · rw [← Option.some.inj h]
    rfl
  · rw [← Option.some.inj h]
    rfl
  · exact nomatch h

variable {members : TenantSettingName → Option TenantSettingValue}

theorem schemaAccepts_parseMember
    (h : parseMember members name = some value) : schemaAccepts name value = true := by
  unfold parseMember at h
  split at h
  · exact schemaAccepts_default h
  · split_ifs at h with haccepts
    rwa [← Option.some.inj h]

theorem schemaAccepts_parseObject {names : List TenantSettingName}
    {record : TenantSettingsRecord}
    (h : parseObject names members = some record) (hname : name ∈ names) :
    schemaAccepts name (record name) = true := by
  unfold parseObject at h
  split_ifs at h with hall
  have hpresent := List.all_eq_true.mp hall name (mem_TENANT_SETTING_NAMES name)
  rw [if_pos hname] at hpresent
  obtain ⟨value, hvalue⟩ := Option.isSome_iff_exists.mp hpresent
  rw [← Option.some.inj h]
  simp only [if_pos hname, hvalue, Option.getD_some]
  exact schemaAccepts_parseMember hvalue

theorem integer_of_schemaAccepts (h : schemaAccepts name value = true)
    (htype : (SETTINGS name).type = .integer) : ∃ n, value = .integer n := by
  unfold schemaAccepts at h
  split at h
  · exact nomatch htype
  · exact nomatch htype
  · exact nomatch htype
  · exact nomatch htype
  · rw [htype] at h
    cases value with
    | integer n => exact ⟨n, rfl⟩
    | null | boolean | text | list => exact nomatch h

theorem list_of_schemaAccepts (h : schemaAccepts name value = true)
    (htype : (SETTINGS name).type = .list) : ∃ members, value = .list members := by
  unfold schemaAccepts at h
  split at h
  · exact nomatch htype
  · exact nomatch htype
  · exact nomatch htype
  · exact nomatch htype
  · rw [htype] at h
    cases value with
    | list members => exact ⟨members, rfl⟩
    | null | boolean | text | integer => exact nomatch h

theorem default_of_schemaAccepts (h : schemaAccepts default_locale value = true) :
    value = .null ∨ ∃ tag, value = .text tag := by
  cases value with
  | null => exact Or.inl rfl
  | text t => exact Or.inr ⟨t, rfl⟩
  | boolean | integer | list => exact nomatch h

theorem policy_of_schemaAccepts (h : schemaAccepts client_registration_policy value = true) :
    ∃ policy, value = .text policy ∧ policy ∈ REGISTRATION_POLICIES := by
  cases value with
  | text policy => exact ⟨policy, rfl, List.contains_iff_mem.mp h⟩
  | null | boolean | integer | list => exact nomatch h

end Schema

/-! ### What is written -/

section Written

variable {row final : TenantSettingsRecord} {parsed : ParsedSettings}

theorem laid_filterMap (row : TenantSettingsRecord)
    (column : TenantSettingName → Option TenantSettingValue) (names : List TenantSettingName)
    (name : TenantSettingName) :
    laid row (names.filterMap fun other ↦ (column other).map (Prod.mk other)) name =
      if name ∈ names then (column name).getD (row name) else row name := by
  induction names generalizing row with
  | nil => rfl
  | cons first _ ih =>
    cases hcolumn : column first with
    | none =>
      rw [List.filterMap_cons_none (by rw [hcolumn, Option.map_none]), ih]
      by_cases hname : name = first
      · subst hname
        rw [hcolumn, Option.getD_none, ite_self, ite_self]
      · simp only [List.mem_cons, hname, false_or]
    | some =>
      rw [List.filterMap_cons_some (by rw [hcolumn, Option.map_some]), laid_cons, ih]
      by_cases hname : name = first
      · subst hname
        simp only [Function.update_self, hcolumn, Option.getD_some, ite_self, List.mem_cons_self,
          if_true]
      · simp only [Function.update_of_ne hname, List.mem_cons, hname, false_or]

theorem writeSettings_spec (h : writeSettings row parsed = some final) :
    passesChecks final = true ∧
      ∀ name, final name = (documentColumn (documentValues parsed) name).getD (row name) := by
  unfold writeSettings amendRow at h
  split_ifs at h with hpasses
  obtain rfl := Option.some.inj h
  refine ⟨hpasses, fun name ↦ ?_⟩
  rw [laid_filterMap, if_pos (mem_TENANT_SETTING_NAMES name)]

/-- A document that is accepted. -/
structure Accepted (parsed : ParsedSettings) : Prop where
  settings : ∀ name, name ∉ REGISTRATION_POLICY_SETTINGS →
    schemaAccepts name (parsed.settings name) = true
  policy : ∀ name ∈ REGISTRATION_POLICY_SETTINGS,
    schemaAccepts name (parsed.registration_policy name) = true
  clean : tenantSettingProblems parsed.settings = []
  types : ∀ types, parsed.settings audit_event_types = .list types →
    ∃ coerced, coerceList (.list types) AUDIT_EVENT_TYPES = some coerced

variable {settings : TenantSettingsRecord}

theorem types_of_settingErrors {types : List Utf16}
    (h : settingErrors settings = []) (hvalue : settings audit_event_types = .list types) :
    ∃ coerced, coerceList (.list types) AUDIT_EVENT_TYPES = some coerced := by
  unfold settingErrors at h
  have htypes := (List.append_eq_nil_iff.mp h).2
  rw [hvalue] at htypes
  simp only [coerceTenantSetting_key, coerceNamed_types] at htypes
  cases hlist : coerceList (.list types) AUDIT_EVENT_TYPES with
  | some coerced => exact ⟨coerced, rfl⟩
  | none =>
    rw [hlist] at htypes
    exact absurd htypes (List.cons_ne_nil _ _)

theorem clean_of_settingErrors (h : settingErrors settings = []) :
    tenantSettingProblems settings = [] := by
  unfold settingErrors at h
  exact List.map_eq_nil_iff.mp (List.append_eq_nil_iff.mp h).1

variable {document : TenantDocument}

theorem accepted_of_validateTenantImport
    (h : validateTenantImport document = .ok parsed) : Accepted parsed := by
  unfold validateTenantImport at h
  split at h
  · exact nomatch h
  · rename_i parsed' hparsed
    simp only at h
    split_ifs at h with herrors
    obtain rfl := Except.ok.inj h
    have hnone := (List.append_eq_nil_iff.mp
      (List.eq_nil_of_length_eq_zero (Nat.eq_zero_of_not_pos herrors))).1
    unfold parseDocument at hparsed
    split at hparsed
    · rename_i settings policy hsettings hpolicy
      obtain rfl := Option.some.inj hparsed
      refine ⟨?_, ?_, clean_of_settingErrors hnone, fun types ↦ types_of_settingErrors hnone⟩
      · intro name hname
        exact schemaAccepts_parseObject hsettings
          (List.mem_filter.mpr ⟨mem_TENANT_SETTING_NAMES name, decide_eq_true hname⟩)
      · intro name hname
        exact schemaAccepts_parseObject hpolicy hname
    · exact nomatch hparsed

variable {name : TenantSettingName}

theorem documentValues_setting
    (h : name ∉ REGISTRATION_POLICY_SETTINGS) :
    documentValues parsed name = parsed.settings name := if_neg h

/-- An integer setting is written as it comes. -/
theorem written_integer (haccepted : Accepted parsed) (h : writeSettings row parsed = some final)
    (htype : (SETTINGS name).type = .integer) :
    final name = parsed.settings name := by
  have hname : name ∉ REGISTRATION_POLICY_SETTINGS := by
    intro hmem
    rcases List.mem_cons.mp hmem with rfl | hmem
    · exact nomatch htype
    · rcases List.mem_cons.mp hmem with rfl | hmem
      · exact nomatch htype
      · rw [List.mem_singleton.mp hmem] at htype
        exact nomatch htype
  have hdisplay : name ≠ display_name := by
    rintro rfl
    exact nomatch htype
  obtain ⟨n, hn⟩ := integer_of_schemaAccepts (haccepted.settings name hname) htype
  rw [(writeSettings_spec h).2, documentColumn, documentValues_setting hname, hn]
  simp only [if_pos hdisplay, Option.getD_some]

variable {tags : List Utf16}

theorem written_supported (h : writeSettings row parsed = some final)
    (htags : parsed.settings supported_locales = .list tags) :
    final supported_locales = .list (coerceLocaleList (.list tags)) := by
  rw [(writeSettings_spec h).2, documentColumn, documentValues_setting (by decide), htags]
  simp only [coerceTenantSetting_key, coerceNamed_supported, Option.getD_some]

variable {types coerced : List Utf16}

theorem written_types (h : writeSettings row parsed = some final)
    (htypes : parsed.settings audit_event_types = .list types)
    (hcoerced : coerceList (.list types) AUDIT_EVENT_TYPES = some coerced) :
    final audit_event_types = .list coerced := by
  rw [(writeSettings_spec h).2, documentColumn, documentValues_setting (by decide), htypes]
  simp only [coerceTenantSetting_key, coerceNamed_types, hcoerced, Option.getD_some]

theorem written_default_null (h : writeSettings row parsed = some final)
    (hnull : parsed.settings default_locale = .null) :
    final default_locale = row default_locale := by
  rw [(writeSettings_spec h).2, documentColumn, documentValues_setting (by decide), hnull]
  rfl

theorem written_default (h : writeSettings row parsed = some final) {tag : Utf16}
    (htag : parsed.settings default_locale = .text tag) : final default_locale = .text tag := by
  rw [(writeSettings_spec h).2, documentColumn, documentValues_setting (by decide), htag]
  rfl

theorem written_policy (haccepted : Accepted parsed) (h : writeSettings row parsed = some final) :
    ∃ policy, final client_registration_policy = .text policy ∧
      policy ∈ REGISTRATION_POLICIES := by
  obtain ⟨policy, hpolicy, hmem⟩ :=
    policy_of_schemaAccepts (haccepted.policy client_registration_policy (by decide))
  refine ⟨policy, ?_, hmem⟩
  have hvalue : documentValues parsed client_registration_policy = .text policy := hpolicy
  rw [(writeSettings_spec h).2, documentColumn, hvalue]
  rfl

/-! ### What the coercion keeps -/

/-- The members that may not be left out are still there. -/
theorem requiredProblems_coerced {record record' : TenantSettingsRecord}
    (h : requiredProblems record audit_event_types = [])
    (htypes : record audit_event_types = .list types)
    (hcoerced : coerceList (.list types) AUDIT_EVENT_TYPES = some coerced)
    (htypes' : record' audit_event_types = .list coerced) :
    requiredProblems record' audit_event_types = [] := by
  have hrequired : (SETTINGS audit_event_types).required = some REQUIRED_AUDIT_TYPES := rfl
  unfold requiredProblems at h ⊢
  simp only [hrequired, htypes] at h
  simp only [hrequired, htypes']
  split_ifs at h with hmissing
  have hnone := List.filter_eq_nil_iff.mp (List.eq_nil_of_length_eq_zero
    (Nat.eq_zero_of_not_pos hmissing))
  refine if_neg (Nat.not_lt.mpr (Nat.le_of_eq (List.length_eq_zero_iff.mpr ?_)))
  rw [List.filter_eq_nil_iff]
  intro type htype hout
  have hin : type ∈ types := by
    have hnot := hnone type htype
    rwa [decide_eq_true_eq, not_not] at hnot
  refine of_decide_eq_true hout ?_
  unfold coerceList at hcoerced
  simp only at hcoerced
  split_ifs at hcoerced
  rw [← Option.some.inj hcoerced]
  have hpossible : ∀ type ∈ REQUIRED_AUDIT_TYPES, type ∈ AUDIT_EVENT_TYPES ∧ type ≠ [] := by
    decide
  refine List.mem_filter.mpr ⟨(hpossible type htype).1, decide_eq_true ?_⟩
  exact List.mem_filter.mpr ⟨hin, decide_eq_true (hpossible type htype).2⟩

theorem canonicalLocale_spelled {tag : Utf16} (h : isValidLocale tag = true) :
    canonicalLocale tag = some (spelled tag) := by
  obtain ⟨canonical, hcanonical⟩ := canonicalLocale_of_valid h
  rw [spelled, hcanonical, Option.getD_some]

/-- Tags that may be supported may be so in their canonical spelling. -/
theorem supportable_coerced (h : Supportable tags) :
    Supportable (coerceLocaleList (.list tags)) := by
  rw [coerceLocaleList_valid h.valid]
  constructor
  · rw [List.length_map]
    exact h.some
  · rw [List.length_map]
    exact h.bounded
  · intro tag htag
    obtain ⟨written, hwritten, rfl⟩ := List.mem_map.mp htag
    exact (canonicalLocale_spec (canonicalLocale_spelled (h.valid written hwritten))).1
  · have hsame : (tags.map spelled).map (fun tag ↦ tag.map lowerUnit) =
        tags.map fun tag ↦ tag.map lowerUnit := by
      rw [List.map_map]
      refine List.map_congr_left fun tag htag ↦ ?_
      exact (canonicalLocale_spec (canonicalLocale_spelled (h.valid tag htag))).2.2
    rw [hsame]
    exact h.once

theorem required_eq {required : List Utf16}
    (h : (SETTINGS name).required = some required) : name = audit_event_types := by
  cases name <;> first | rfl | exact nomatch h

/-! ### Imports -/

/-- The settings that an accepted document writes over a row without a default are sound. -/
theorem Accepted.sound (haccepted : Accepted parsed) (hrow : row default_locale = .null)
    (h : writeSettings row parsed = some final) : Sound final := by
  obtain ⟨hinteger, hrequired, hsupported, hdefault, horderings⟩ :=
    tenantSettingProblems_eq_nil_iff.mp haccepted.clean
  obtain ⟨tags, htags⟩ :=
    list_of_schemaAccepts (haccepted.settings supported_locales (by decide)) rfl
  obtain ⟨types, htypes⟩ :=
    list_of_schemaAccepts (haccepted.settings audit_event_types (by decide)) rfl
  obtain ⟨coerced, hcoerced⟩ := haccepted.types types htypes
  have hwritten := written_supported h htags
  have hfallback : final default_locale = .null ∨
      ∃ tag, parsed.settings default_locale = .text tag ∧ final default_locale = .text tag := by
    rcases default_of_schemaAccepts (haccepted.settings default_locale (by decide)) with
      hnull | ⟨tag, htag⟩
    · exact Or.inl ((written_default_null h hnull).trans hrow)
    · exact Or.inr ⟨tag, htag, written_default h htag⟩
  -- a default that is written is one of the tags as they are now spelled
  have hmem {tag : Utf16} (htag : final default_locale = .text tag) :
      tag ∈ coerceLocaleList (.list tags) :=
    mem_of_default_locale_supported (writeSettings_spec h).1 hwritten htag
  constructor
  · intro name
    unfold CoercedValue
    split
    · exact ⟨_, hwritten, spelledTag_of_coerceLocaleList⟩
    · rcases hfallback with hnull | ⟨tag, -, htag⟩
      · exact Or.inl hnull
      · exact Or.inr ⟨tag, htag, spelledTag_of_coerceLocaleList tag (hmem htag)⟩
    · exact written_policy haccepted h
    · exact ⟨coerced, written_types h htypes hcoerced, mem_of_coerceList hcoerced⟩
    · trivial
  · refine tenantSettingProblems_eq_nil_iff.mpr ⟨?_, ?_, ?_, ?_, ?_⟩
    · intro name
      by_cases htype : (SETTINGS name).type = .integer
      · rw [integerProblems, written_integer haccepted h htype]
        exact hinteger name
      · unfold integerProblems
        split
        · rename_i hinteger'
          exact absurd hinteger' htype
        · rfl
    · intro name
      cases hlist : (SETTINGS name).required with
      | none =>
        unfold requiredProblems
        rw [hlist]
      | some =>
        obtain rfl := required_eq hlist
        exact requiredProblems_coerced (hrequired _) htypes hcoerced
          (written_types h htypes hcoerced)
    · rw [supportedProblems_eq_nil_iff hwritten]
      exact supportable_coerced ((supportedProblems_eq_nil_iff htags).mp hsupported)
    · rcases hfallback with hnull | ⟨tag, hasked, htag⟩
      · unfold defaultProblems
        rw [hnull]
      · rw [defaultProblems_eq_nil_iff hwritten htag]
        exact ⟨((defaultProblems_eq_nil_iff htags hasked).mp hdefault).1, hmem htag⟩
    · intro pair hpair
      have htyped : ∀ pair ∈ TENANT_SETTING_ORDERINGS,
          (SETTINGS pair.1).type = .integer ∧ (SETTINGS pair.2).type = .integer := by
        decide
      rw [orderingProblems, written_integer haccepted h (htyped pair hpair).1,
        written_integer haccepted h (htyped pair hpair).2]
      exact horderings pair hpair

theorem default_locale_insertProvisionedTenant {displayName : TenantSettingValue}
    (h : insertProvisionedTenant displayName = some row) : row default_locale = .null := by
  unfold insertProvisionedTenant at h
  split_ifs at h
  rw [← Option.some.inj h]
  rfl

/-- The settings of an imported tenant are sound. -/
theorem sound_importTenant {displayName : Option Utf16}
    (h : importTenant displayName document = .created final) : Sound final := by
  unfold importTenant at h
  split at h
  · exact nomatch h
  · rename_i parsed hparsed
    simp only at h
    split at h
    · exact nomatch h
    · rename_i row hrow
      split at h
      · exact nomatch h
      · rename_i written hwritten
        rw [← ImportTenantOutcome.created.inj h]
        exact (accepted_of_validateTenantImport hparsed).sound
          (default_locale_insertProvisionedTenant hrow) hwritten

end Written

/-! ### Runs -/

section Runs

variable {Id : Type} [DecidableEq Id] {isSystemTenantId : Id → Bool}
  {etagOf : TenantSettingsRecord → Utf16}

/-- Every tenant's settings are sound. -/
def AllSound (tenants : Tenants Id) : Prop := ∀ id record, tenants id = some record → Sound record

variable {tenants : Tenants Id} {row : TenantSettingsRecord}

theorem AllSound.update (h : AllSound tenants) {id : Id}
    (hrow : Sound row) :
    AllSound (Function.update tenants id (some row)) := by
  intro other record hrecord
  by_cases hother : other = id
  · rw [hother, Function.update_self] at hrecord
    rwa [← Option.some.inj hrecord]
  · rw [Function.update_of_ne hother] at hrecord
    exact h other record hrecord

theorem AllSound.insert (h : AllSound tenants) {id : Id}
    (hrow : Sound row) : AllSound (insert tenants id row) := by
  unfold Settings.insert
  split
  · exact h.update hrow
  · exact h

theorem AllSound.answer (h : AllSound tenants) (request : Request Id) :
    AllSound (answer isSystemTenantId etagOf tenants request) := by
  unfold Settings.answer
  split
  · split
    · exact h
    · rename_i hrow
      exact h.insert (sound_insertProvisionedTenant hrow)
  · split
    · rename_i hrow
      exact h.insert (sound_importTenant hrow)
    · exact h
  · split
    · exact h
    · rename_i current hcurrent
      split
      · rename_i hrow
        exact h.update ((h _ current hcurrent).amendSettings hrow)
      · exact h

/-- Whatever the requests, every tenant's settings are sound. -/
theorem allSound_run (requests : List (Request Id)) :
    AllSound (run isSystemTenantId etagOf requests) := by
  have hfold : ∀ (requests : List (Request Id)) (tenants : Tenants Id), AllSound tenants →
      AllSound (requests.foldl (Settings.answer isSystemTenantId etagOf) tenants) := by
    intro requests
    induction requests with
    | nil => exact fun _ h ↦ h
    | cons request _ ih => exact fun tenants h ↦ ih _ (h.answer request)
  exact hfold requests _ fun _ _ hrecord ↦ nomatch hrecord

/-- After any requests the settings of a tenant have no problem, its tags are in the spelling that
coercion gives them, and no amendment of them is refused for a field that it leaves out. -/
theorem stored_settings_keep_rules (isSystemTenantId : Id → Bool)
    (etagOf : TenantSettingsRecord → Utf16) (requests : List (Request Id)) {id : Id}
    {record : TenantSettingsRecord} (h : run isSystemTenantId etagOf requests id = some record) :
    tenantSettingProblems record = [] ∧ Spelled record ∧
      ∀ input, Blames etagOf record input
        (amendSettings (isSystemTenantId id) etagOf record input) := by
  have hsound := allSound_run requests id record h
  exact ⟨hsound.clean, hsound.spelled, fun input ↦ hsound.blames _ etagOf input⟩

/-- A document of the defaults, but for the languages. -/
def tenantDocument : TenantDocument where
  settings := fun name ↦
    if name ∈ REGISTRATION_POLICY_SETTINGS then none
    else if name = supported_locales then some (.list [ofAscii "EN", ofAscii "fr"])
    else some (defaults name)
  registration_policy := fun name ↦
    if name ∈ REGISTRATION_POLICY_SETTINGS then some (defaults name) else none
  issues := []
  rest := []

/-- A tenant that is created and amended, and one that is imported. -/
def amendedTenant : List (Request ℕ) :=
  [.create 7 none, .amend 7 ⟨[("default_locale", .text (ofAscii "EN"))], none⟩,
    .importTenant 8 none tenantDocument]

theorem stored_settings_keep_rules_amended :
    (run (· == 0) (fun _ ↦ []) amendedTenant 7).isSome = true ∧
    ∃ imported, run (· == 0) (fun _ ↦ []) amendedTenant 8 = some imported ∧
      imported supported_locales = .list [ofAscii "en", ofAscii "fr"] ∧
        tenantSettingProblems imported = [] ∧ Spelled imported := by
  have hrun : (run (· == 0) (fun _ ↦ []) amendedTenant 8).map
      (fun record ↦ record supported_locales) = some (.list [ofAscii "en", ofAscii "fr"]) := by
    decide +kernel
  obtain ⟨imported, himported, hspelled⟩ := Option.map_eq_some_iff.mp hrun
  have hkept := stored_settings_keep_rules (· == 0) (fun _ ↦ []) amendedTenant himported
  exact ⟨by decide +kernel, imported, himported, hspelled, hkept.1, hkept.2.1⟩

end Runs

end Odudu.ProtocolAdmin.Settings
