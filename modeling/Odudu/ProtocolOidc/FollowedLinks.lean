import Odudu.ProtocolOidc.RestartRequest

/-!
# A link that is followed

What `/authorize` reads of a link that `restartAuthorizeLocation` made: every parameter that
was set, and no other (`normalize_link`).  `validate_ok_iff` says of which parameters a request
is accepted.
-/

set_option autoImplicit false

namespace Odudu.ProtocolOidc.Authorize

open Texts Numbers

/-! ### Pairs as raw parameters -/

theorem lookup_eq_none_of_names {α : Type} {pairs : List (String × α)} {name : String}
    (h : name ∉ pairs.map Prod.fst) : pairs.lookup name = none := by
  refine List.lookup_eq_none_iff.mpr fun pair hpair ↦ ?_
  rw [bne_iff_ne]
  rintro rfl
  exact h (List.mem_map_of_mem hpair)

/-- A value that is given: an empty one is not. -/
def given (value : Option String) : Option String := value.filter (· ≠ "")

@[simp] theorem given_none : given none = none := rfl

@[simp] theorem given_empty : given (some "") = none := rfl

theorem given_some {value : String} (h : value ≠ "") : given (some value) = some value := by
  simp [given, Option.filter, h]

section Pairs

variable {pairs : List (String × String)} {name : String}

theorem rawValueOf_eq (hnodup : (pairs.map Prod.fst).Nodup) {pair : String × String}
    (h : pair ∈ pairs) : rawValueOf pairs pair.1 = .lone (.string pair.2) := by
  have hfilter : pairs.filter (fun other ↦ other.1 = pair.1) = [pair] := by
    induction pairs with
    | nil => exact absurd h List.not_mem_nil
    | cons first rest ih =>
      rw [List.map_cons, List.nodup_cons] at hnodup
      rcases List.mem_cons.mp h with rfl | hrest
      · have hnone : rest.filter (fun other ↦ other.1 = pair.1) = [] :=
          List.filter_eq_nil_iff.mpr fun other hother heq ↦
            hnodup.1 (of_decide_eq_true heq ▸ List.mem_map_of_mem hother)
        rw [List.filter_cons_of_pos (by simp), hnone]
      · have hne : first.1 ≠ pair.1 := fun heq ↦ hnodup.1 (heq ▸ List.mem_map_of_mem hrest)
        rw [List.filter_cons_of_neg (by simpa using hne), ih hnodup.2 hrest]
  rw [rawValueOf, hfilter]

theorem entries_ofPairs (hnodup : (pairs.map Prod.fst).Nodup) :
    (RawParams.ofPairs pairs).entries =
      pairs.map fun pair ↦ (pair.1, RawValue.lone (.string pair.2)) := by
  rw [RawParams.ofPairs, RawParams.entries, hnodup.dedup, List.map_map]
  exact List.map_congr_left fun pair hpair ↦ Prod.ext rfl (rawValueOf_eq hnodup hpair)

/-- The parameters of pairs: an empty value is none, and `resource` is read elsewhere. -/
def paramsOf (pairs : List (String × String)) : Params := fun key ↦
  if key = "resource" then none else given (pairs.lookup key)

theorem parameterValue_lone (value : String) :
    parameterValue (.lone (.string value)) = if value = "" then .absent else .single value := by
  by_cases hvalue : value = ""
  · subst hvalue
    rfl
  · rw [if_neg hvalue]
    refine parameterValue_eq_single.mpr ?_
    simp [RawValue.present, RawValue.sent, hvalue]

theorem normalizeEntries_lone (hnodup : (pairs.map Prod.fst).Nodup) (params : Params) :
    normalizeEntries (pairs.map fun pair ↦ (pair.1, RawValue.lone (.string pair.2))) params none =
      .ok (fun key ↦ (paramsOf pairs key).or (params key)) none := by
  induction pairs generalizing params with
  | nil =>
    rw [List.map_nil, normalizeEntries]
    congr 1
    funext key
    simp [paramsOf]
  | cons pair _ ih =>
    obtain ⟨name, value⟩ := pair
    rw [List.map_cons, List.nodup_cons] at hnodup
    have hlater := lookup_eq_none_of_names hnodup.1
    rw [List.map_cons, normalizeEntries]
    by_cases hresource : name = "resource"
    · rw [if_pos hresource, ih hnodup.2]
      congr 1
      funext key
      by_cases hkey : key = "resource"
      · simp [paramsOf, hkey]
      · have hne : (key == name) = false := by simpa [hresource] using hkey
        simp [paramsOf, hkey, List.lookup_cons, hne]
    rw [if_neg hresource, parameterValue_lone]
    by_cases hvalue : value = ""
    · rw [if_pos hvalue, ih hnodup.2]
      change QueryNormalization.ok _ _ = _
      congr 1
      funext key
      by_cases hkey : key = name
      · subst hkey
        simp [paramsOf, hresource, hvalue, hlater]
      · have hne : (key == name) = false := by simpa using hkey
        simp [paramsOf, List.lookup_cons, hne]
    · rw [if_neg hvalue]
      simp only []
      rw [ih hnodup.2]
      congr 1
      funext key
      by_cases hkey : key = name
      · subst hkey
        simp [paramsOf, hresource, given_some hvalue, hlater]
      · have hne : (key == name) = false := by simpa using hkey
        simp [paramsOf, List.lookup_cons, hne, Function.update_of_ne hkey]

theorem normalize_ofPairs (hnodup : (pairs.map Prod.fst).Nodup) :
    normalizeAuthorizeQuery (.ofPairs pairs) = .ok (paramsOf pairs) none := by
  rw [normalizeAuthorizeQuery_eq, entries_ofPairs hnodup, normalizeEntries_lone hnodup]
  simp

theorem resourceParam_ofPairs (hnodup : (pairs.map Prod.fst).Nodup) :
    resourceParam (.ofPairs pairs) =
      match given (pairs.lookup "resource") with
      | none => .absent
      | some resource => .one resource := by
  have hlookup : ∀ list : List (String × String),
      (list.map fun pair ↦ (pair.1, RawValue.lone (.string pair.2))).lookup "resource" =
        (list.lookup "resource").map fun value ↦ RawValue.lone (.string value) := by
    intro list
    induction list with
    | nil => rfl
    | cons pair _ ih =>
      rw [List.map_cons, List.lookup_cons, List.lookup_cons, ih]
      cases ("resource" == pair.1) <;> rfl
  have hentries := entries_ofPairs hnodup
  rw [RawParams.ofPairs, RawParams.entries] at hentries
  rw [RawParams.ofPairs, resourceParam, hentries, hlookup]
  cases pairs.lookup "resource" with
  | none => rfl
  | some resource =>
    by_cases hempty : resource = ""
    · subst hempty
      rfl
    · simp [RawValue.present, RawValue.sent, Entry.string?, hempty, given_some hempty]

end Pairs

/-! ### Parameters that are set -/

section Set

variable {params : List (String × Option String)}

theorem names_setParams : ((setParams params).map Prod.fst).Sublist (params.map Prod.fst) := by
  induction params with
  | nil => exact List.Sublist.refl _
  | cons param _ ih =>
    obtain ⟨name, value⟩ := param
    cases value with
    | none => exact ih.cons name
    | some => exact ih.cons_cons name

theorem lookup_setParams (hnodup : (params.map Prod.fst).Nodup) (name : String) :
    (setParams params).lookup name = (params.lookup name).join := by
  induction params with
  | nil => rfl
  | cons param params ih =>
    obtain ⟨other, value⟩ := param
    rw [List.map_cons, List.nodup_cons] at hnodup
    have hrest := ih hnodup.2
    cases value with
    | none =>
      have hskip : setParams ((other, none) :: params) = setParams params := rfl
      rw [hskip, hrest, List.lookup_cons]
      by_cases hname : name = other
      · subst hname
        simp [lookup_eq_none_of_names hnodup.1]
      · rw [beq_eq_false_iff_ne.mpr hname]
    | some value =>
      have hput : setParams ((other, some value) :: params) = (other, value) :: setParams params :=
        rfl
      rw [hput, List.lookup_cons, List.lookup_cons, hrest]
      cases name == other <;> rfl

end Set

/-! ### The link -/

section Link

variable {address : TenantAddress} {pending : PendingRequest} {url : String}

theorem names_restartParams (claims : Utf16) :
    ((restartParams pending claims).map Prod.fst).Nodup := by
  simp [restartParams]

/-- What the link is made of, and what is read of it. -/
theorem readLink_eq (h : restartAuthorizeLocation address pending = some url) :
    pending.idTokenHintSubject = none ∧ pending.claimsSubject = none ∧
      ∃ claims, (pending.claims.map claimsParameter).getD (some []) = some claims ∧
        readLink url = .ofPairs (setParams (restartParams pending claims)) := by
  unfold restartAuthorizeLocation at h
  split at h
  case isTrue => cases h
  case isFalse hsubjects =>
    simp only [Bool.or_eq_true, not_or, Bool.not_eq_true, Option.isSome_eq_false_iff,
      Option.isNone_iff_eq_none] at hsubjects
    obtain ⟨claims, hclaims, hurl⟩ := Option.map_eq_some_iff.mp h
    refine ⟨hsubjects.1, hsubjects.2, claims, hclaims, ?_⟩
    have hpath : '?' ∉ address.path.toList ++ "/protocol/openid-connect/auth".toList := by
      intro hmem
      rcases List.mem_append.mp hmem with hpath | hrest
      · exact address.noQuery hpath
      · revert hrest
        decide
    rw [readLink, ← hurl, String.toList_ofList, ← List.append_assoc, queryOf_append hpath,
      parseForm_serializeForm]

/-- A parameter of the link. -/
def linkParam (pending : PendingRequest) (claims : Utf16) (key : String) : Option String :=
  given ((restartParams pending claims).lookup key).join

theorem normalize_link (claims : Utf16) :
    normalizeAuthorizeQuery (.ofPairs (setParams (restartParams pending claims))) =
      .ok (fun key ↦ if key = "resource" then none else linkParam pending claims key) none := by
  rw [normalize_ofPairs ((names_restartParams claims).sublist names_setParams)]
  congr 1
  funext key
  rw [paramsOf, lookup_setParams (names_restartParams claims), linkParam]

theorem resource_link (claims : Utf16) :
    resourceParam (.ofPairs (setParams (restartParams pending claims))) =
      match linkParam pending claims "resource" with
      | none => .absent
      | some resource => .one resource := by
  rw [resourceParam_ofPairs ((names_restartParams claims).sublist names_setParams),
    lookup_setParams (names_restartParams claims), linkParam]

end Link

/-! ### What is accepted -/

/-- The parameters of an accepted request, below the boundary. -/
structure BelowBoundary (params : Params) (knownScopes clientScopes : List String)
    (request : AcceptedRequest) (prompts : Prompts) (idTokenHint : Option String)
    (maxAge : Option ℕ) : Prop where
  noRequest : params "request" = none
  noRequestUri : params "request_uri" = none
  responseType : params "response_type" = some "code"
  codeChallenge : params "code_challenge" = some request.codeChallenge
  wellFormed : isWellFormedPkceString request.codeChallenge = true
  codeChallengeMethod : params "code_challenge_method" = some "S256"
  grantable : scopesAreGrantable (params "scope") knownScopes clientScopes = true
  prompts : parsePrompt (params "prompt") = some prompts
  maxAge : parseMaxAge (params "max_age") = .ok maxAge
  idTokenHint : params "id_token_hint" = idTokenHint
  scope : request.scope = (params "scope").getD "openid"
  state : request.state = params "state"
  nonce : request.nonce = params "nonce"
  method : request.codeChallengeMethod = "S256"

section Validation

variable {parse : String → Option Url} {params : Params} {record : ClientRecord}
  {redirectUri : String} {knownScopes clientScopes : List String} {repeatedKey : Option String}
  {request : AcceptedRequest} {prompts : Prompts} {idTokenHint : Option String}
  {maxAge : Option ℕ}

/-- Exactly the requests that pass the boundary and what is checked below it. -/
theorem validateBelowBoundary_ok_iff :
    validateBelowBoundary params record redirectUri knownScopes clientScopes repeatedKey =
        .ok request prompts idTokenHint maxAge ↔
      repeatedKey = none ∧ request.clientId = record.clientId ∧
        request.redirectUri = redirectUri ∧
          BelowBoundary params knownScopes clientScopes request prompts idTokenHint maxAge := by
  unfold validateBelowBoundary
  constructor
  · intro h
    simp only at h
    split at h
    · cases h
    split at h
    · cases h
    split at h
    · cases h
    split at h
    · cases h
    split at h
    · cases h
    split at h
    · cases h
    split at h
    · cases h
    split at h
    · cases h
    split at h
    · cases h
    split at h
    · cases h
    obtain ⟨rfl, rfl, rfl, rfl⟩ := AuthorizeOutcome.ok.inj h
    refine ⟨by simp_all, rfl, rfl, ?_⟩
    constructor <;> simp_all [toPendingRequest]
  · rintro ⟨rfl, hclient, huri, hbelow⟩
    obtain ⟨clientId, uri, scope, state, nonce, challenge, method⟩ := request
    simp only at hclient huri
    subst hclient huri
    have hscope := hbelow.scope
    have hstate := hbelow.state
    have hnonce := hbelow.nonce
    have hmethod := hbelow.method
    have hhint := hbelow.idTokenHint
    simp only at hscope hstate hnonce hmethod
    subst hscope hstate hnonce hmethod hhint
    simp [hbelow.noRequest, hbelow.noRequestUri, hbelow.responseType, hbelow.codeChallenge,
      hbelow.wellFormed, hbelow.codeChallengeMethod, hbelow.grantable, hbelow.prompts,
      hbelow.maxAge, toPendingRequest]

/-- A request is accepted of its parameters alone, for a client and a URI that are vetted. -/
theorem validate_ok_iff {client : Option ClientRecord} {config : Option ClientOidcConfig} :
    validateAuthorizationRequest parse params client config knownScopes clientScopes repeatedKey =
        .ok request prompts idTokenHint maxAge ↔
      (params "response_mode").any (· != SUPPORTED_RESPONSE_MODE) = false ∧
        params "redirect_uri" = some request.redirectUri ∧
          (∃ record registered, Vetted parse client config request.redirectUri record registered ∧
            request.clientId = record.clientId) ∧
            repeatedKey = none ∧
              BelowBoundary params knownScopes clientScopes request prompts idTokenHint maxAge := by
  unfold validateAuthorizationRequest
  constructor
  · intro h
    split at h
    case isTrue => cases h
    case isFalse hmode =>
      split at h
      case h_2 => cases h
      case h_1 client config =>
        split at h
        case isTrue => cases h
        case isFalse henabled =>
          split at h
          case h_1 => cases h
          case h_2 redirectUri huri =>
            split at h
            case isTrue => cases h
            case isFalse haccepted =>
              obtain ⟨hrepeated, hclient, hredirect, hbelow⟩ :=
                validateBelowBoundary_ok_iff.mp h
              subst hredirect
              refine ⟨by simpa using hmode, huri, ⟨client, config, ?_, hclient⟩, hrepeated, hbelow⟩
              exact ⟨rfl, by simpa using henabled, rfl, by simpa using haccepted⟩
  · rintro ⟨hmode, huri, ⟨record, registered, hvetted, hclient⟩, hrepeated, hbelow⟩
    obtain ⟨rfl, henabled, rfl, haccepted⟩ := hvetted
    rw [if_neg (by rw [hmode]; exact Bool.false_ne_true)]
    simp only [henabled, Bool.not_true, Bool.false_eq_true, if_false, huri, haccepted]
    exact validateBelowBoundary_ok_iff.mpr ⟨hrepeated, hclient, rfl, hbelow⟩

end Validation

/-- No parameter that is read is empty. -/
theorem normalizeEntries_ne_empty {entries : List (String × RawValue)} {params params' : Params}
    {repeatedKey repeatedKey' : Option String} {key : String}
    (hok : normalizeEntries entries params repeatedKey = .ok params' repeatedKey')
    (h : params key ≠ some "") : params' key ≠ some "" := by
  induction entries generalizing params repeatedKey with
  | nil =>
    obtain ⟨rfl, -⟩ := QueryNormalization.ok.inj hok
    exact h
  | cons entry _ ih =>
    obtain ⟨name, raw⟩ := entry
    have hput : ∀ value, raw.present.findSome? Entry.string? = some value →
        Function.update params name (some value) key ≠ some "" := by
      intro value hvalue
      by_cases hname : key = name
      · subst hname
        rw [Function.update_self]
        rintro ⟨rfl⟩
        obtain ⟨entry, hentry, hstring⟩ := List.exists_of_findSome?_eq_some hvalue
        cases entry with
        | string =>
          obtain rfl := Option.some.inj hstring
          simp [RawValue.present] at hentry
        | unreadable => cases hstring
      · rwa [Function.update_of_ne hname]
    unfold normalizeEntries at hok
    by_cases hresource : name = "resource"
    · rw [if_pos hresource] at hok
      exact ih hok h
    rw [if_neg hresource] at hok
    unfold parameterValue at hok
    simp only at hok
    cases hfound : raw.present.findSome? Entry.string? with
    | none =>
      simp only [hfound] at hok
      split at hok
      case h_1 => exact ih hok h
      case h_2 value hsingle => split at hsingle <;> cases hsingle
      case h_3 value hambiguous =>
        split at hambiguous
        case isTrue =>
          obtain rfl := ParameterValue.ambiguous.inj hambiguous
          split at hok
          · cases hok
          · exact ih hok h
        case isFalse => cases hambiguous
    | some value =>
      simp only [hfound] at hok
      split at hok
      case h_1 => exact ih hok h
      case h_2 text hsingle =>
        split at hsingle
        · cases hsingle
        · obtain rfl := ParameterValue.single.inj hsingle
          exact ih hok (hput value hfound)
      case h_3 text hambiguous =>
        split at hambiguous
        case isTrue =>
          obtain rfl := ParameterValue.ambiguous.inj hambiguous
          split at hok
          · cases hok
          · exact ih hok (hput value hfound)
        case isFalse => cases hambiguous

theorem normalize_ne_empty {rawParams : RawParams} {params : Params} {repeatedKey : Option String}
    (hok : normalizeAuthorizeQuery rawParams = .ok params repeatedKey) (key : String) :
    params key ≠ some "" := by
  rw [normalizeAuthorizeQuery_eq] at hok
  exact normalizeEntries_ne_empty hok (by simp)

end Odudu.ProtocolOidc.Authorize
