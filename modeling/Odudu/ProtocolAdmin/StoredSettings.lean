import Odudu.ProtocolAdmin.Settings

/-!
# Stored settings keep their rules

Each door coerces what it writes (`Coerced`) and leaves no problem, so the record of a tenant is
`Sound` after any requests.  A sound record never stands in an amendment's way: what an amendment
is refused for is of a field that it asks to change (`Blames`).
-/

set_option autoImplicit false

namespace Odudu.ProtocolAdmin.Settings

open Texts DomainTenant TenantSettingName

/-! ### Coerced values -/

theorem isSettingName_key (name : TenantSettingName) : isSettingName name.key = some name := by
  cases name <;> rfl

theorem key_of_isSettingName {key : String} {name : TenantSettingName}
    (h : isSettingName key = some name) : name.key = key := by
  have hfound := List.find?_some h
  exact beq_iff_eq.mp hfound

/-- A tag that is spelled as it should be, if it is a tag at all. -/
def SpelledTag (tag : Utf16) : Prop := isValidLocale tag = true → canonicalLocale tag = some tag

/-- What a coercion gives a setting. -/
def CoercedValue : TenantSettingName → TenantSettingValue → Prop
  | supported_locales, value => ∃ tags, value = .list tags ∧ ∀ tag ∈ tags, SpelledTag tag
  | default_locale, value => value = .null ∨ ∃ tag, value = .text tag ∧ SpelledTag tag
  | client_registration_policy, value =>
    ∃ policy, value = .text policy ∧ policy ∈ REGISTRATION_POLICIES
  | audit_event_types, value =>
    ∃ types, value = .list types ∧ ∀ type ∈ types, type ∈ AUDIT_EVENT_TYPES
  | _, _ => True

theorem spelledTag_spelled (member : Utf16) : SpelledTag (spelled member) := by
  intro hvalid
  unfold spelled at hvalid ⊢
  cases hcanonical : canonicalLocale member with
  | none =>
    rw [hcanonical, Option.getD_none] at hvalid
    obtain ⟨tag, htag⟩ := canonicalLocale_of_valid hvalid
    rw [hcanonical] at htag
    exact absurd htag.symm (Option.some_ne_none tag)
  | some => exact (canonicalLocale_spec hcanonical).2.1

variable {raw : RawSetting}

theorem spelledTag_of_coerceLocaleList :
    ∀ tag ∈ coerceLocaleList raw, SpelledTag tag := by
  intro tag htag
  obtain ⟨member, -, rfl⟩ := List.mem_map.mp htag
  exact spelledTag_spelled member

/-- A default that is asked for is spelled canonically when what is left of it after trimming is
a tag, and kept as it is otherwise. -/
theorem spelledTag_default (raw : Utf16) :
    SpelledTag ((canonicalLocale (trim raw)).getD raw) := by
  intro hvalid
  cases hcanonical : canonicalLocale (trim raw) with
  | none =>
    rw [hcanonical, Option.getD_none] at hvalid
    obtain ⟨tag, htag⟩ := canonicalLocale_of_valid hvalid
    rw [trim, trim_of_isValidLocale hvalid, htag] at hcanonical
    exact absurd hcanonical (Option.some_ne_none tag)
  | some => exact (canonicalLocale_spec hcanonical).2.1

theorem mem_of_coerceList {values types : List Utf16}
    (h : coerceList raw values = some types) : ∀ type ∈ types, type ∈ values := by
  unfold coerceList at h
  simp only at h
  split_ifs at h
  obtain rfl := Option.some.inj h
  exact fun type htype ↦ (List.mem_filter.mp htype).1

theorem coerceNamed_supported (raw : RawSetting) :
    coerceNamed supported_locales raw =
      .coerced supported_locales (.list (coerceLocaleList raw)) := by
  cases raw <;> rfl

variable {value : TenantSettingValue} {setting : TenantSettingName}

theorem coercedValue_supported
    (h : coerceNamed supported_locales raw = .coerced setting value) :
    setting = supported_locales ∧ CoercedValue supported_locales value := by
  rw [coerceNamed_supported] at h
  obtain ⟨rfl, rfl⟩ := CoerceOutcome.coerced.inj h
  exact ⟨rfl, _, rfl, spelledTag_of_coerceLocaleList⟩

theorem coercedValue_default
    (h : coerceNamed default_locale raw = .coerced setting value) :
    setting = default_locale ∧ CoercedValue default_locale value := by
  cases raw with
  | list => exact absurd h (by simp [coerceNamed, SETTINGS])
  | text raw =>
    have hspelled : coerceNamed default_locale (.text raw) = .coerced default_locale
        (if trim raw = [] then .null else .text ((canonicalLocale (trim raw)).getD raw)) := rfl
    rw [hspelled] at h
    obtain ⟨rfl, rfl⟩ := CoerceOutcome.coerced.inj h
    refine ⟨rfl, ?_⟩
    split
    · exact Or.inl rfl
    · exact Or.inr ⟨_, rfl, spelledTag_default raw⟩

theorem coercedValue_policy
    (h : coerceNamed client_registration_policy raw = .coerced setting value) :
    setting = client_registration_policy ∧ CoercedValue client_registration_policy value := by
  cases raw with
  | list => exact absurd h (by simp [coerceNamed, SETTINGS])
  | text raw =>
    have hspelled : coerceNamed client_registration_policy (.text raw) =
        if !REGISTRATION_POLICIES.contains raw then
          .invalid_value .text (some REGISTRATION_POLICIES)
        else .coerced client_registration_policy (.text raw) := rfl
    rw [hspelled] at h
    split_ifs at h with hmem
    obtain ⟨rfl, rfl⟩ := CoerceOutcome.coerced.inj h
    rw [Bool.not_eq_true, Bool.not_eq_false', List.contains_iff_mem] at hmem
    exact ⟨rfl, raw, rfl, hmem⟩

theorem coerceNamed_types (raw : RawSetting) :
    coerceNamed audit_event_types raw =
      match coerceList raw AUDIT_EVENT_TYPES with
      | none => .invalid_value .list (some AUDIT_EVENT_TYPES)
      | some list => .coerced audit_event_types (.list list) := by
  cases raw <;> rfl

theorem coercedValue_types
    (h : coerceNamed audit_event_types raw = .coerced setting value) :
    setting = audit_event_types ∧ CoercedValue audit_event_types value := by
  rw [coerceNamed_types] at h
  cases hlist : coerceList raw AUDIT_EVENT_TYPES with
  | none =>
    rw [hlist] at h
    exact absurd h (by simp)
  | some list =>
    rw [hlist] at h
    obtain ⟨rfl, rfl⟩ := CoerceOutcome.coerced.inj h
    exact ⟨rfl, list, rfl, mem_of_coerceList hlist⟩

theorem setting_of_coerceText {name setting : TenantSettingName} {raw : Utf16}
    (h : coerceText name raw = .coerced setting value) :
    setting = name := by
  unfold coerceText at h
  simp only at h
  split_ifs at h <;> exact (CoerceOutcome.coerced.inj h).1.symm

theorem setting_of_coerceNamed {name setting : TenantSettingName}
    (h : coerceNamed name raw = .coerced setting value) :
    setting = name := by
  unfold coerceNamed at h
  split at h
  · simp only at h
    split_ifs at h
    · exact (CoerceOutcome.coerced.inj h).1.symm
    · split at h
      · exact nomatch h
      · exact (CoerceOutcome.coerced.inj h).1.symm
  · exact nomatch h
  · exact setting_of_coerceText h
  · split at h
    · exact nomatch h
    · exact (CoerceOutcome.coerced.inj h).1.symm
  · split at h
    · exact nomatch h
    · exact (CoerceOutcome.coerced.inj h).1.symm

/-- A coercion gives the setting that is named a value that is coerced. -/
theorem coerceNamed_spec {name setting : TenantSettingName}
    (h : coerceNamed name raw = .coerced setting value) :
    setting = name ∧ CoercedValue name value := by
  refine ⟨setting_of_coerceNamed h, ?_⟩
  unfold CoercedValue
  split
  · exact (coercedValue_supported h).2
  · exact (coercedValue_default h).2
  · exact (coercedValue_policy h).2
  · exact (coercedValue_types h).2
  · trivial

theorem coerceTenantSetting_key (name : TenantSettingName) (raw : RawSetting) :
    coerceTenantSetting name.key raw = coerceNamed name raw := by
  unfold coerceTenantSetting
  rw [isSettingName_key]

/-! ### Records -/

/-- Every value of a record is one that a coercion gives. -/
def Coerced (record : TenantSettingsRecord) : Prop := ∀ name, CoercedValue name (record name)

/-- The settings of a tenant: coerced, and without problems. -/
structure Sound (record : TenantSettingsRecord) : Prop where
  coerced : Coerced record
  clean : tenantSettingProblems record = []

section Records

variable {record : TenantSettingsRecord} {columns : List (TenantSettingName × TenantSettingValue)}

theorem laid_cons (record : TenantSettingsRecord) (column : TenantSettingName × TenantSettingValue)
    (columns : List (TenantSettingName × TenantSettingValue)) :
    laid record (column :: columns) =
      laid (Function.update record column.1 column.2) columns := rfl

/-- A value of a laid record is the record's or a column's. -/
theorem laid_or (record : TenantSettingsRecord)
    (columns : List (TenantSettingName × TenantSettingValue)) (name : TenantSettingName) :
    laid record columns name = record name ∨ (name, laid record columns name) ∈ columns := by
  induction columns generalizing record with
  | nil => exact Or.inl rfl
  | cons column _ ih =>
    rw [laid_cons]
    rcases ih (Function.update record column.1 column.2) with h | h
    · by_cases hname : name = column.1
      · refine Or.inr ?_
        rw [h, hname, Function.update_self]
        exact List.mem_cons_self
      · refine Or.inl ?_
        rw [h, Function.update_of_ne hname]
    · exact Or.inr (List.mem_cons_of_mem _ h)

theorem Coerced.laid (h : Coerced record)
    (hcolumns : ∀ column ∈ columns, CoercedValue column.1 column.2) :
    Coerced (laid record columns) := by
  intro name
  rcases laid_or record columns name with hsame | hmem
  · rw [hsame]
    exact h name
  · exact hcolumns _ hmem

theorem Coerced.enumerated (h : Coerced record) : Enumerated record := by
  constructor
  · intro policy hpolicy
    obtain ⟨policy', hvalue, hmem⟩ := h client_registration_policy
    rw [hpolicy] at hvalue
    rwa [TenantSettingValue.text.inj hvalue]
  · intro types htypes
    obtain ⟨types', hvalue, hmem⟩ := h audit_event_types
    rw [htypes] at hvalue
    rwa [TenantSettingValue.list.inj hvalue]

/-- The stored tags, each in the spelling that coercion gives it. -/
structure Spelled (record : TenantSettingsRecord) : Prop where
  supported : ∃ tags, record supported_locales = .list tags ∧
    (∀ tag ∈ tags, canonicalLocale tag = some tag) ∧
    coerceTenantSetting "supported_locales" (.list tags) = .coerced supported_locales (.list tags)
  fallback : record default_locale = .null ∨ ∃ tag, record default_locale = .text tag ∧
    canonicalLocale tag = some tag ∧
    coerceTenantSetting "default_locale" (.text tag) = .coerced default_locale (.text tag)

variable {tags : List Utf16}

theorem coerceLocaleList_valid (h : ∀ tag ∈ tags, isValidLocale tag = true) :
    coerceLocaleList (.list tags) = tags.map spelled := by
  have htrim : tags.map trim = tags :=
    (List.map_congr_left fun tag htag ↦ trim_of_isValidLocale (h tag htag)).trans
      (List.map_id tags)
  have hfilter : tags.filter (· ≠ []) = tags := by
    rw [List.filter_eq_self]
    exact fun tag htag ↦ decide_eq_true (ne_nil_of_isValidLocale (h tag htag))
  unfold coerceLocaleList
  simp only
  rw [htrim, hfilter]

theorem coerceLocaleList_canonical
    (h : ∀ tag ∈ tags, canonicalLocale tag = some tag) :
    coerceLocaleList (.list tags) = tags := by
  rw [coerceLocaleList_valid fun tag htag ↦ isValidLocale_of_canonical (h tag htag)]
  refine (List.map_congr_left fun tag htag ↦ ?_).trans (List.map_id tags)
  rw [spelled, h tag htag, Option.getD_some, id_eq]

theorem Sound.spelled (h : Sound record) : Spelled record := by
  obtain ⟨-, -, hsupported, hdefault, -⟩ := tenantSettingProblems_eq_nil_iff.mp h.clean
  obtain ⟨tags, htags, hspelled⟩ := h.coerced supported_locales
  have hsupportable := (supportedProblems_eq_nil_iff htags).mp hsupported
  have hcanonical (tag : Utf16) (htag : tag ∈ tags) : canonicalLocale tag = some tag :=
    hspelled tag htag (hsupportable.valid tag htag)
  constructor
  · refine ⟨tags, htags, hcanonical, ?_⟩
    have hkey := coerceTenantSetting_key supported_locales (.list tags)
    rw [coerceNamed_supported, coerceLocaleList_canonical hcanonical] at hkey
    exact hkey
  · rcases h.coerced default_locale with hnull | ⟨tag, htag, hfallback⟩
    · exact Or.inl hnull
    · have hvalid := ((defaultProblems_eq_nil_iff htags htag).mp hdefault).1
      have hself := hfallback hvalid
      refine Or.inr ⟨tag, htag, hself, ?_⟩
      have htrim : trim tag = tag := trim_of_isValidLocale hvalid
      have hkey := coerceTenantSetting_key default_locale (.text tag)
      have hnamed : coerceNamed default_locale (.text tag) = .coerced default_locale
          (if trim tag = [] then .null else .text ((canonicalLocale (trim tag)).getD tag)) := rfl
      rw [hnamed, htrim, if_neg (ne_nil_of_isValidLocale hvalid), hself, Option.getD_some] at hkey
      exact hkey

end Records

/-! ### Creation -/

theorem coerced_defaults : Coerced defaults := by
  intro name
  unfold CoercedValue
  split
  · refine ⟨[ofAscii "en"], rfl, ?_⟩
    intro tag htag hvalid
    rw [List.mem_singleton.mp htag]
    rfl
  · exact Or.inl rfl
  · exact ⟨ofAscii "disabled", rfl, List.mem_cons_self⟩
  · exact ⟨AUDIT_EVENT_TYPES, rfl, fun _ htype ↦ htype⟩
  · trivial

/-- A new tenant's settings are sound. -/
theorem sound_insertProvisionedTenant {displayName : TenantSettingValue}
    {row : TenantSettingsRecord} (h : insertProvisionedTenant displayName = some row) :
    Sound row := by
  unfold insertProvisionedTenant at h
  split_ifs at h
  obtain rfl := Option.some.inj h
  constructor
  · refine coerced_defaults.laid ?_
    intro column hcolumn
    rw [List.mem_singleton.mp hcolumn]
    trivial
  · cases displayName <;> rfl

/-! ### Amendment -/

section Amendment

variable {current : TenantSettingsRecord} {values : List (String × SettingValue)}
  {settings : List CoercedSetting}

theorem coercedValue_heldValue {name : TenantSettingName} {value : TenantSettingValue}
    (h : CoercedValue name value) : CoercedValue name (heldValue name value) := by
  unfold heldValue
  split
  · trivial
  · exact h

/-- An entry that is taken is coerced under its own name. -/
theorem coerceEntry_ok {name : String} {value : SettingValue} {setting : CoercedSetting}
    (h : coerceEntry name value = .ok setting) :
    setting.1.key = name ∧ CoercedValue setting.1 setting.2 := by
  have hcoerced : ∃ named held, coerceTenantSetting name value.raw = .coerced named held ∧
      setting = (named, heldValue named held) := by
    unfold coerceEntry at h
    split at h
    · exact nomatch h
    · split at h
      · exact nomatch h
      · exact nomatch h
      · rename_i named held hnamed
        exact ⟨named, held, hnamed, (Except.ok.inj h).symm⟩
  obtain ⟨named, held, hnamed, rfl⟩ := hcoerced
  unfold coerceTenantSetting at hnamed
  split at hnamed
  · exact nomatch hnamed
  · rename_i known hknown
    obtain ⟨rfl, hvalue⟩ := coerceNamed_spec hnamed
    exact ⟨key_of_isSettingName hknown, coercedValue_heldValue hvalue⟩

variable {outcome : AmendSettingsOutcome}

/-- An entry that is not taken is refused under its own name. -/
theorem coerceEntry_error {name : String} {value : SettingValue}
    (h : coerceEntry name value = .error outcome) :
    (∃ known, outcome = .unknown_setting name known) ∨
      ∃ expected possible, outcome = .invalid_value name expected possible := by
  unfold coerceEntry at h
  split at h
  · exact Or.inr ⟨_, _, (Except.error.inj h).symm⟩
  · split at h
    · exact Or.inl ⟨_, (Except.error.inj h).symm⟩
    · exact Or.inr ⟨_, _, (Except.error.inj h).symm⟩
    · exact nomatch h

theorem coerceAll_ok (h : coerceAll values = .ok settings) :
    ∀ setting ∈ settings, ∃ entry ∈ values, coerceEntry entry.1 entry.2 = .ok setting := by
  induction values generalizing settings with
  | nil =>
    obtain rfl := Except.ok.inj h
    exact fun _ hsetting ↦ absurd hsetting List.not_mem_nil
  | cons entry _ ih =>
    unfold coerceAll at h
    split at h
    · exact nomatch h
    · rename_i first hfirst
      split at h
      · exact nomatch h
      · rename_i others hothers
        obtain rfl := Except.ok.inj h
        intro setting hsetting
        rcases List.mem_cons.mp hsetting with rfl | hsetting
        · exact ⟨entry, List.mem_cons_self, hfirst⟩
        · obtain ⟨entry', hentry, hok⟩ := ih hothers setting hsetting
          exact ⟨entry', List.mem_cons_of_mem _ hentry, hok⟩

theorem coerceAll_error (h : coerceAll values = .error outcome) :
    ∃ entry ∈ values, coerceEntry entry.1 entry.2 = .error outcome := by
  induction values with
  | nil => exact nomatch h
  | cons entry _ ih =>
    unfold coerceAll at h
    split at h
    · rename_i refused hrefused
      obtain rfl := Except.error.inj h
      exact ⟨entry, List.mem_cons_self, hrefused⟩
    · split at h
      · rename_i refused hrefused
        obtain rfl := Except.error.inj h
        obtain ⟨entry', hentry, herror⟩ := ih hrefused
        exact ⟨entry', List.mem_cons_of_mem _ hentry, herror⟩
      · exact nomatch h

/-- A value that is asked for under a setting's name. -/
def Asked (values : List (String × SettingValue)) (field : TenantSettingName) : Prop :=
  ∃ value, (field.key, value) ∈ values

/-- A value that is asked for and is not the current one. -/
def AskedToChange (current : TenantSettingsRecord) (values : List (String × SettingValue))
    (field : TenantSettingName) : Prop :=
  ∃ value held, (field.key, value) ∈ values ∧
    coerceEntry field.key value = .ok (field, held) ∧ held ≠ current field

/-- What an amendment is refused for is of its header or of a field that it names, and a rule of
the record is broken by a field that it changes. -/
def Blames (etagOf : TenantSettingsRecord → Utf16) (current : TenantSettingsRecord)
    (input : AmendSettingsInput) : AmendSettingsOutcome → Prop
  | .amended _ => True
  | .unknown_setting name _ => name ∈ input.values.map Prod.fst
  | .invalid_value name _ _ => name ∈ input.values.map Prod.fst
  | .out_of_range problems _ => ∀ problem ∈ problems,
    (problem.name = display_name ∧ Asked input.values display_name) ∨
      ∃ field ∈ judged problem.name, AskedToChange current input.values field
  | .system_tenant_guarded _ => Asked input.values enabled
  | .precondition_failed => Etag.tagMatches input.ifMatch (etagOf current) = .mismatch
  | .refused _ => False

theorem asked_of_mem (h : coerceAll values = .ok settings) {setting : CoercedSetting}
    (hsetting : setting ∈ settings) : Asked values setting.1 := by
  obtain ⟨⟨name, value⟩, hentry, hok⟩ := coerceAll_ok h setting hsetting
  refine ⟨value, ?_⟩
  rw [(coerceEntry_ok hok).1]
  exact hentry

/-- A problem of the record with the patch laid on it is of a field that the patch changes. -/
theorem askedToChange_of_problem (hcurrent : tenantSettingProblems current = [])
    (h : coerceAll values = .ok settings) {problem : TenantSettingProblem}
    (hproblem : problem ∈ tenantSettingProblems (laid current settings)) :
    ∃ field ∈ judged problem.name, AskedToChange current values field := by
  by_contra hnone
  have hagree : ∀ field ∈ judged problem.name, laid current settings field = current field := by
    intro field hfield
    rcases laid_or current settings field with hsame | hmem
    · exact hsame
    · by_contra hchanged
      refine hnone ⟨field, hfield, ?_⟩
      obtain ⟨⟨name, value⟩, hentry, hok⟩ := coerceAll_ok h _ hmem
      have hkey : field.key = name := (coerceEntry_ok hok).1
      refine ⟨value, laid current settings field, ?_, ?_, hchanged⟩
      · rwa [hkey]
      · rwa [hkey]
  have hmem := problem_of_agree hproblem hagree
  rw [hcurrent] at hmem
  exact List.not_mem_nil hmem

theorem coercedValues_of_ok (h : coerceAll values = .ok settings) :
    ∀ setting ∈ settings, CoercedValue setting.1 setting.2 := by
  intro setting hsetting
  obtain ⟨entry, -, hok⟩ := coerceAll_ok h setting hsetting
  exact (coerceEntry_ok hok).2

variable {row : TenantSettingsRecord}

/-- An amendment of sound settings leaves them sound. -/
theorem Sound.amendCoerced (hcurrent : Sound current) (h : coerceAll values = .ok settings)
    (hrow : amendCoerced current settings = .amended row) :
    Sound row := by
  unfold Settings.amendCoerced at hrow
  simp only at hrow
  split_ifs at hrow with hbidi hlong hempty hproblems
  · rwa [← AmendSettingsOutcome.amended.inj hrow]
  · unfold amendRow at hrow
    split_ifs at hrow
    rw [← AmendSettingsOutcome.amended.inj hrow]
    exact ⟨hcurrent.coerced.laid (coercedValues_of_ok h),
      List.eq_nil_of_length_eq_zero (Nat.eq_zero_of_not_pos hproblems)⟩

theorem named_asked (h : coerceAll values = .ok settings) (refuses : TenantSettingValue → Bool)
    (hany : (settings.any fun setting ↦ setting.1 = display_name && refuses setting.2) = true) :
    Asked values display_name := by
  obtain ⟨setting, hsetting, hrefused⟩ := List.any_eq_true.mp hany
  have hname : setting.1 = display_name := of_decide_eq_true (Bool.and_eq_true_iff.mp hrefused).1
  have hasked := asked_of_mem h hsetting
  rwa [hname] at hasked

variable {etagOf : TenantSettingsRecord → Utf16} {input : AmendSettingsInput}

theorem Sound.blames_amendCoerced (hcurrent : Sound current)
    (h : coerceAll input.values = .ok settings) :
    Blames etagOf current input (Settings.amendCoerced current settings) := by
  unfold Settings.amendCoerced
  simp only
  split_ifs with hbidi hlong hempty hproblems
  · intro problem hproblem
    rw [List.mem_singleton.mp hproblem]
    exact Or.inl ⟨rfl, named_asked h (refusesBidi · (current display_name)) hbidi⟩
  · intro problem hproblem
    rw [List.mem_singleton.mp hproblem]
    exact Or.inl ⟨rfl, named_asked h isLongName hlong⟩
  · trivial
  · exact fun problem hproblem ↦ Or.inr (askedToChange_of_problem hcurrent.clean h hproblem)
  · -- the checks restate the rules, so the row passes them
    have hclean : tenantSettingProblems (laid current settings) = [] :=
      List.eq_nil_of_length_eq_zero (Nat.eq_zero_of_not_pos hproblems)
    have hpasses := checks_of_clean hclean
      (hcurrent.coerced.laid (coercedValues_of_ok h)).enumerated
    unfold amendRow
    rw [if_pos hpasses]
    trivial

/-- Sound settings stand in no amendment's way. -/
theorem Sound.blames (hcurrent : Sound current) (system : Bool)
    (etagOf : TenantSettingsRecord → Utf16) (input : AmendSettingsInput) :
    Blames etagOf current input (amendSettings system etagOf current input) := by
  unfold amendSettings
  split
  · rename_i outcome herror
    obtain ⟨entry, hentry, hrefused⟩ := coerceAll_error herror
    rcases coerceEntry_error hrefused with ⟨known, rfl⟩ | ⟨expected, possible, rfl⟩
    · exact List.mem_map_of_mem hentry
    · exact List.mem_map_of_mem hentry
  · rename_i settings hsettings
    split_ifs with hguarded hmismatch
    · obtain ⟨setting, hsetting, hdisabled⟩ :=
        List.any_eq_true.mp (Bool.and_eq_true_iff.mp hguarded).1
      have hasked := asked_of_mem hsettings hsetting
      rwa [of_decide_eq_true hdisabled] at hasked
    · exact hmismatch
    · exact hcurrent.blames_amendCoerced hsettings

theorem Sound.amendSettings (hcurrent : Sound current) {system : Bool}
    (h : amendSettings system etagOf current input = .amended row) : Sound row := by
  unfold Settings.amendSettings at h
  split at h
  · rename_i outcome herror
    obtain ⟨entry, -, hrefused⟩ := coerceAll_error herror
    rcases coerceEntry_error hrefused with ⟨known, rfl⟩ | ⟨expected, possible, rfl⟩
    · exact nomatch h
    · exact nomatch h
  · rename_i settings hsettings
    split_ifs at h
    exact hcurrent.amendCoerced hsettings h

end Amendment

end Odudu.ProtocolAdmin.Settings
