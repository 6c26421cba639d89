import Odudu.ProtocolOidc.Consent
import Odudu.Texts.Ascii

/-!
# What a consent leaves behind

The answer to a consent page is used three times: it narrows the scope of the code, it is
recorded, and what was recorded is read back when consent is decided again
(`usecase/consent-submission.ts`, `consentRepository`, and `consentContext` of `index.ts`).

`consent_agrees` is about every client, every requested scope, every set of ticked boxes and
whatever was recorded before: the code's scope is what was answered, and consent to that scope
is decided again without asking, but for the three exceptions it names.

A scope is text here, as it is parked and stored.  The order in which a page lists a client's
scopes is left out, and so are the labels.
-/

set_option autoImplicit false

namespace Odudu.ProtocolOidc

/-! ### Scopes as text -/

/-- The scopes that a `scope` parameter names. -/
def scopeNames (scope : String) : List String :=
  ((scope.toList.splitOn ' ').filter fun name ↦ decide (name ≠ [])).map String.ofList

/-- The names joined again. -/
def joinScopes (names : List String) : String :=
  String.ofList ([' '].intercalate (names.map String.toList))

/-- A name that a `scope` parameter can carry. -/
def IsScopeName (name : String) : Prop := name.toList ≠ [] ∧ ' ' ∉ name.toList

theorem isScopeName_of_mem {scope name : String} (h : name ∈ scopeNames scope) :
    IsScopeName name := by
  obtain ⟨part, hpart, rfl⟩ := List.mem_map.mp h
  obtain ⟨hmem, hne⟩ := List.mem_filter.mp hpart
  rw [IsScopeName, String.toList_ofList]
  exact ⟨of_decide_eq_true hne, Texts.notMem_of_mem_splitOn hmem⟩

/-- Names joined are the names that are read again. -/
theorem scopeNames_joinScopes {names : List String} (h : ∀ name ∈ names, IsScopeName name) :
    scopeNames (joinScopes names) = names := by
  cases hnames : names with
  | nil => simp [joinScopes, scopeNames]
  | cons =>
    have hsplit : ([' '].intercalate (names.map String.toList)).splitOn ' ' =
        names.map String.toList := by
      refine List.splitOn_intercalate ' ' ?_ (by simp [hnames])
      intro part hpart
      obtain ⟨name, hname, rfl⟩ := List.mem_map.mp hpart
      exact (h name hname).2
    have hfilter : (names.map String.toList).filter (fun name ↦ decide (name ≠ [])) =
        names.map String.toList := by
      refine List.filter_eq_self.mpr fun part hpart ↦ ?_
      obtain ⟨name, hname, rfl⟩ := List.mem_map.mp hpart
      exact decide_eq_true (h name hname).1
    rw [← hnames, scopeNames, joinScopes, String.toList_ofList, hsplit, hfilter, List.map_map]
    exact List.map_id'' (fun name ↦ String.ofList_toList) names

/-! ### A client's scopes -/

inductive Assignment where
  | default
  | optional
  deriving DecidableEq

/-- A row of `client_scope_assignments`, with its scope's name. -/
structure ScopeAssignment where
  id : ℕ
  name : String
  assignment : Assignment

/-- What `consentContext` reads of a client.  A scope's name is its own in a tenant, and a
client has a scope once. -/
structure ConsentingClient where
  consentRequired : Bool
  approvalRequired : Bool
  assignments : List ScopeAssignment
  nodup_ids : (assignments.map ScopeAssignment.id).Nodup
  nodup_names : (assignments.map ScopeAssignment.name).Nodup

namespace ConsentingClient

variable (client : ConsentingClient)

/-- The names of the scopes assigned in one way. -/
def assigned (assignment : Assignment) : List String :=
  (client.assignments.filter fun row ↦ decide (row.assignment = assignment)).map
    ScopeAssignment.name

/-- `consentContext`. -/
def context : ConsentContext where
  consentRequired := client.consentRequired
  approvalRequired := client.approvalRequired
  defaultScopes := client.assigned .default
  optionalScopes := client.assigned .optional
  scopeIdByName := client.assignments.map fun row ↦ (row.name, row.id)

end ConsentingClient

/-! ### The record -/

/-- The rows of `consent_scopes`, by subject and client. -/
abbrev ConsentRecords := SubjectId → ClientId → List ℕ

/-- `consentRepository.record`: what fell out of the set is deleted, and what is new to it
inserted. -/
def ConsentRecords.record (records : ConsentRecords) (subjectId : SubjectId)
    (clientId : ClientId) (scopeIds : List ℕ) : ConsentRecords :=
  fun subjectId' clientId' ↦
    if subjectId' = subjectId ∧ clientId' = clientId then
      let kept := (records subjectId clientId).filter scopeIds.contains
      kept ++ scopeIds.filter fun id ↦ !kept.contains id
    else records subjectId' clientId'

/-- What is kept of an answer, and the ids it is recorded under. -/
structure AnsweredConsent where
  scope : String
  recordedIds : List ℕ

/-- The part of `handleConsentSubmission` about scopes, for an answer that allows. -/
def answeredConsent (context : ConsentContext) (scope : String) (ticked : List String) :
    AnsweredConsent :=
  let requested := scopeNames scope
  let grantedThisTime (name : String) :=
    !context.optionalScopes.contains name || ticked.contains name
  let recordedNames := (context.defaultScopes ++ context.optionalScopes).filter fun name ↦
    requested.contains name && grantedThisTime name
  { scope := joinScopes (consentedScope context ticked requested)
    recordedIds := recordedNames.filterMap fun name ↦ context.scopeIdByName.lookup name }

section Agreement

variable {client : ConsentingClient} {scope : String} {ticked : List String}

/-- The code's scope is what was left of the names requested. -/
theorem scopeNames_answeredConsent (context : ConsentContext) :
    scopeNames (answeredConsent context scope ticked).scope =
      consentedScope context ticked (scopeNames scope) := by
  refine scopeNames_joinScopes fun name hname ↦ ?_
  exact isScopeName_of_mem (consentedScope_subset context ticked _ hname)

theorem mem_assigned {assignment : Assignment} {name : String} :
    name ∈ client.assigned assignment ↔
      ∃ row ∈ client.assignments, row.assignment = assignment ∧ row.name = name := by
  simp only [ConsentingClient.assigned, List.mem_map, List.mem_filter, decide_eq_true_eq]
  constructor
  · intro ⟨row, ⟨hmem, hassigned⟩, hname⟩
    exact ⟨row, hmem, hassigned, hname⟩
  · intro ⟨row, hmem, hassigned, hname⟩
    exact ⟨row, ⟨hmem, hassigned⟩, hname⟩

/-- A client's scopes are the default and the optional ones. -/
theorem mem_vocabulary {name : String} :
    name ∈ client.context.defaultScopes ++ client.context.optionalScopes ↔
      ∃ row ∈ client.assignments, row.name = name := by
  rw [List.mem_append]
  change name ∈ client.assigned .default ∨ name ∈ client.assigned .optional ↔ _
  rw [mem_assigned, mem_assigned]
  constructor
  · intro h
    rcases h with ⟨row, hmem, -, hname⟩ | ⟨row, hmem, -, hname⟩
    · exact ⟨row, hmem, hname⟩
    · exact ⟨row, hmem, hname⟩
  · intro ⟨row, hmem, hname⟩
    cases hassigned : row.assignment with
    | default => exact Or.inl ⟨row, hmem, hassigned, hname⟩
    | optional => exact Or.inr ⟨row, hmem, hassigned, hname⟩

variable {row : ScopeAssignment}

/-- A scope is looked up under its own id. -/
theorem lookup_scopeId {rows : List ScopeAssignment}
    (hnames : (rows.map ScopeAssignment.name).Nodup) (hrow : row ∈ rows) :
    (rows.map fun row ↦ (row.name, row.id)).lookup row.name = some row.id := by
  induction rows with
  | nil => simp at hrow
  | cons first _ ih =>
    rw [List.map_cons, List.nodup_cons] at hnames
    rcases List.mem_cons.mp hrow with rfl | hrest
    · simp
    · have hne : row.name ≠ first.name := fun heq ↦
        hnames.1 (heq ▸ List.mem_map_of_mem hrest)
      have hkey : (row.name == first.name) = false := by simpa using hne
      rw [List.map_cons, List.lookup_cons, hkey]
      exact ih hnames.2 hrest

/-- What is recorded is the client's scopes that the code was granted. -/
theorem mem_recordedIds {id : ℕ} :
    id ∈ (answeredConsent client.context scope ticked).recordedIds ↔
      ∃ row ∈ client.assignments, row.id = id ∧
        row.name ∈ consentedScope client.context ticked (scopeNames scope) := by
  have hgranted : ∀ name, (name ∈ consentedScope client.context ticked (scopeNames scope)) ↔
      ((scopeNames scope).contains name &&
        (!client.context.optionalScopes.contains name || ticked.contains name)) = true := by
    intro name
    rw [consentedScope, List.mem_filter, Bool.and_eq_true, List.contains_iff_mem]
  simp only [answeredConsent, List.mem_filterMap, List.mem_filter, ← hgranted]
  constructor
  · intro ⟨name, ⟨hvocabulary, hname⟩, hid⟩
    obtain ⟨row, hrow, rfl⟩ := mem_vocabulary.mp hvocabulary
    have hlookup := hid.symm.trans (lookup_scopeId client.nodup_names hrow)
    exact ⟨row, hrow, (Option.some.inj hlookup).symm, hname⟩
  · intro ⟨row, hrow, hid, hname⟩
    refine ⟨row.name, ⟨mem_vocabulary.mpr ⟨row, hrow, rfl⟩, hname⟩, ?_⟩
    exact hid ▸ lookup_scopeId client.nodup_names hrow

/-- A record holds what was last recorded. -/
theorem mem_record {records : ConsentRecords} {subjectId : SubjectId} {clientId : ClientId}
    {scopeIds : List ℕ} {id : ℕ} :
    id ∈ records.record subjectId clientId scopeIds subjectId clientId ↔ id ∈ scopeIds := by
  simp only [ConsentRecords.record, and_self, if_true, List.mem_append]
  constructor
  · intro h
    rcases h with hkept | hnew
    · simpa using (List.mem_filter.mp hkept).2
    · exact (List.mem_filter.mp hnew).1
  · intro hid
    by_cases hkept : id ∈ (records subjectId clientId).filter scopeIds.contains
    · exact Or.inl hkept
    · refine Or.inr (List.mem_filter.mpr ⟨hid, ?_⟩)
      rw [Bool.not_eq_true', ← Bool.not_eq_true, List.contains_iff_mem]
      exact hkept

/-- When a request is answered without asking. -/
theorem decideConsent_eq_notRequired_iff {input : ConsentInput} :
    decideConsent input = .notRequired ↔ Prompt.consent ∉ input.prompt ∧
      ¬(MCP_WRITE_SCOPE ∈ input.defaultScopes ++ input.optionalScopes ∧
        MCP_WRITE_SCOPE ∈ input.requestedScopes) ∧
      ¬(input.approvalRequired = true ∧ input.approved = false) ∧
      (input.consentRequired = true → ∀ name ∈ input.defaultScopes ++ input.optionalScopes,
        name ∈ input.requestedScopes → name ∈ input.grantedScopes) := by
  have hwrite : ((input.defaultScopes.filter input.requestedScopes.contains ++
      input.optionalScopes.filter input.requestedScopes.contains).contains MCP_WRITE_SCOPE = true) ↔
      (MCP_WRITE_SCOPE ∈ input.defaultScopes ++ input.optionalScopes ∧
        MCP_WRITE_SCOPE ∈ input.requestedScopes) := by
    rw [← List.filter_append, List.contains_iff_mem, List.mem_filter, List.contains_iff_mem]
  have hmissing : ((input.defaultScopes.filter input.requestedScopes.contains ++
      input.optionalScopes.filter input.requestedScopes.contains).all
        input.grantedScopes.contains = true) ↔
      ∀ name ∈ input.defaultScopes ++ input.optionalScopes,
        name ∈ input.requestedScopes → name ∈ input.grantedScopes := by
    rw [← List.filter_append, List.all_eq_true]
    simp only [List.mem_filter, List.contains_iff_mem, and_imp]
  have hasked : ∀ {silent : Bool} {defaults optionals granted : List String},
      (if silent then ConsentDecision.refuse else .ask defaults optionals granted) ≠
        .notRequired := by
    intro silent defaults optionals granted
    cases silent <;> exact fun h ↦ by cases h
  rw [← hwrite, ← hmissing, decideConsent, ← List.contains_iff_mem]
  by_cases hprompt : input.prompt.contains .consent = true
  · rw [if_pos hprompt]
    exact iff_of_false (fun h ↦ by cases h) fun h ↦ h.1 hprompt
  rw [if_neg hprompt, and_iff_right hprompt]
  by_cases hscope : (input.defaultScopes.filter input.requestedScopes.contains ++
      input.optionalScopes.filter input.requestedScopes.contains).contains MCP_WRITE_SCOPE = true
  · rw [if_pos hscope]
    exact iff_of_false hasked fun h ↦ h.1 hscope
  rw [if_neg hscope, and_iff_right hscope]
  by_cases hvetted : (input.approvalRequired && !input.approved) = true
  · rw [if_pos hvetted]
    refine iff_of_false hasked fun h ↦ h.1 ?_
    simpa using hvetted
  rw [if_neg hvetted, and_iff_right (by simpa using hvetted)]
  cases hrequired : input.consentRequired with
  | false => simp
  | true =>
    rw [if_neg (by simp)]
    split
    case isTrue hall => exact iff_of_true rfl fun _ ↦ hall
    case isFalse hall => exact iff_of_false hasked fun h ↦ hall (h rfl)

/-- What is read back as granted is the client's scopes that the code was granted. -/
theorem mem_grantedNames {grantedIds : List ℕ} (hids : ∀ id, id ∈ grantedIds ↔
      id ∈ (answeredConsent client.context scope ticked).recordedIds)
    (hrow : row ∈ client.assignments)
    (hname : row.name ∈ consentedScope client.context ticked (scopeNames scope)) :
    row.name ∈ (client.context.scopeIdByName.filter fun named ↦
      grantedIds.contains named.2).map Prod.fst := by
  refine List.mem_map.mpr ⟨(row.name, row.id), List.mem_filter.mpr ⟨?_, ?_⟩, rfl⟩
  · exact List.mem_map_of_mem (f := fun row : ScopeAssignment ↦ (row.name, row.id)) hrow
  · have hrecorded := mem_recordedIds.mpr ⟨row, hrow, rfl, hname⟩
    exact List.contains_iff_mem.mpr ((hids row.id).mpr hrecorded)

/-- Why consent to a scope is asked for again. -/
def AskedAgain (context : ConsentContext) (granted : List String) (prompt : List Prompt) : Prop :=
  Prompt.consent ∈ prompt ∨
    (MCP_WRITE_SCOPE ∈ granted ∧
      MCP_WRITE_SCOPE ∈ context.defaultScopes ++ context.optionalScopes) ∨
    -- A grant of none of the client's scopes approves nothing.
    (context.approvalRequired = true ∧
      ∀ name ∈ granted, name ∉ context.defaultScopes ++ context.optionalScopes)

/-- Consent grants exactly what was answered, and is remembered for what it granted. -/
theorem consent_agrees (client : ConsentingClient) (scope : String) (ticked : List String)
    (records : ConsentRecords) (subjectId : SubjectId) (clientId : ClientId) :
    let given := answeredConsent client.context scope ticked
    let recorded := records.record subjectId clientId given.recordedIds
    scopeNames given.scope ⊆ scopeNames scope ∧
    (∀ name ∈ scopeNames scope, name ∉ client.context.optionalScopes →
      name ∈ scopeNames given.scope) ∧
    (∀ name ∈ scopeNames scope, name ∈ client.context.optionalScopes →
      (name ∈ scopeNames given.scope ↔ name ∈ ticked)) ∧
    ∀ prompt, decideConsentGate client.context (recorded subjectId clientId)
        (scopeNames given.scope) prompt = .notRequired ↔
      ¬AskedAgain client.context (scopeNames given.scope) prompt := by
  intro given recorded
  have hnames : scopeNames given.scope = consentedScope client.context ticked (scopeNames scope) :=
    scopeNames_answeredConsent client.context
  rw [hnames]
  refine ⟨consentedScope_subset _ _ _, ?_, ?_, fun prompt ↦ ?_⟩
  · intro name hname hmandatory
    exact List.mem_filter.mpr ⟨hname, by simp [hmandatory]⟩
  · intro name hname hoptional
    rw [consentedScope, List.mem_filter]
    simp [hname, hoptional]
  · have hids : ∀ id, id ∈ recorded subjectId clientId ↔ id ∈ given.recordedIds :=
      fun id ↦ mem_record
    rw [decideConsentGate, decideConsent_eq_notRequired_iff, AskedAgain, not_or, not_or]
    refine and_congr_right fun _ ↦ and_congr (not_congr and_comm) ?_
    have hcovered : ∀ name ∈ client.context.defaultScopes ++ client.context.optionalScopes,
        name ∈ consentedScope client.context ticked (scopeNames scope) →
          name ∈ (client.context.scopeIdByName.filter fun named ↦
            (recorded subjectId clientId).contains named.2).map Prod.fst := by
      intro name hvocabulary hname
      obtain ⟨row, hrow, rfl⟩ := mem_vocabulary.mp hvocabulary
      exact mem_grantedNames hids hrow hname
    have happroved : (recorded subjectId clientId).isEmpty = true ↔
        ∀ name ∈ consentedScope client.context ticked (scopeNames scope),
          name ∉ client.context.defaultScopes ++ client.context.optionalScopes := by
      rw [List.isEmpty_iff, List.eq_nil_iff_forall_not_mem]
      constructor
      · intro hnone name hname hvocabulary
        obtain ⟨row, hrow, rfl⟩ := mem_vocabulary.mp hvocabulary
        exact hnone row.id ((hids row.id).mpr (mem_recordedIds.mpr ⟨row, hrow, rfl, hname⟩))
      · intro hnone id hid
        obtain ⟨row, hrow, -, hname⟩ := mem_recordedIds.mp ((hids id).mp hid)
        exact hnone row.name hname (mem_vocabulary.mpr ⟨row, hrow, rfl⟩)
    rw [and_iff_left fun _ ↦ hcovered]
    refine not_congr (and_congr_right fun _ ↦ ?_)
    rw [← happroved, Bool.not_eq_false']

end Agreement

/-- A client with a scope that is always given and one that is asked for. -/
def mailClient : ConsentingClient where
  consentRequired := true
  approvalRequired := false
  assignments := [⟨1, "profile", .default⟩, ⟨2, "email", .optional⟩]
  nodup_ids := by decide
  nodup_names := by decide

/-- The box of `email` is left unticked: it is not given, and nothing is asked again. -/
theorem consent_agrees_unticked :
    let given := answeredConsent mailClient.context "profile email" []
    "profile" ∈ scopeNames given.scope ∧ "email" ∉ scopeNames given.scope ∧
    decideConsentGate mailClient.context
      (ConsentRecords.record (fun _ _ ↦ []) 1 1 given.recordedIds 1 1)
      (scopeNames given.scope) [] = .notRequired := by
  intro given
  obtain ⟨-, hgiven, hticked, hgate⟩ :=
    consent_agrees mailClient "profile email" [] (fun _ _ ↦ []) 1 1
  refine ⟨hgiven _ (by decide) (by decide), fun hemail ↦ ?_, (hgate []).mpr ?_⟩
  · exact absurd ((hticked _ (by decide) (by decide)).mp hemail) List.not_mem_nil
  · rintro (hprompt | ⟨-, hwrite⟩ | ⟨hvetted, -⟩)
    · exact absurd hprompt List.not_mem_nil
    · exact absurd hwrite (by decide)
    · exact absurd hvetted (by decide)

end Odudu.ProtocolOidc
