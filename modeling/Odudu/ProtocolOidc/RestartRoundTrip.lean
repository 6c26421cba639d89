import Odudu.ProtocolOidc.FollowedLinks

/-!
# The restart link asks for the parked request

`restart_round_trips_iff`: a request is accepted and parked for a page, and what was parked is
made a link of.  The link is accepted as the same request exactly when two things hold of the
parked one.  A single audience is one that a `resource` parameter may name, for it is sent as
one even where it is the client's registered list; and `max_age` is below `10 ^ 21`, from where
on its text has an exponent, or, for a session that was promoted, is the client's own default,
for there it is not parked.
-/

set_option autoImplicit false

namespace Odudu.ProtocolOidc.Authorize

open Texts Numbers

/-! ### Language tags -/

/-- Tags as they are parked. -/
structure Tags (tags : List String) : Prop where
  nodup : tags.Nodup
  isTag : ∀ tag ∈ tags, isTag tag = true
  length : tags.length ≤ MAX_UI_LOCALES

variable {rest tags : List String}

theorem tags_collectTags (h : Tags tags) :
    Tags (collectTags rest tags) := by
  induction rest generalizing tags with
  | nil => exact h
  | cons _ _ ih =>
    unfold collectTags
    split
    case isTrue => exact h
    case isFalse hroom =>
      split
      case isTrue hnew =>
        simp only [Bool.and_eq_true, Bool.not_eq_true', List.contains_eq_mem,
          decide_eq_false_iff_not] at hnew
        refine ih ⟨?_, ?_, ?_⟩
        · refine List.nodup_append.mpr ⟨h.nodup, by simp, fun a ha b hb ↦ ?_⟩
          obtain rfl := List.mem_singleton.mp hb
          exact fun heq ↦ hnew.2 (heq ▸ ha)
        · intro tag htag
          rcases List.mem_append.mp htag with hold | hlast
          · exact h.isTag tag hold
          · exact List.mem_singleton.mp hlast ▸ hnew.1
        · rw [List.length_append, List.length_singleton]
          have hle := h.length
          omega
      case isFalse => exact ih h

/-- Tags that were collected are collected again. -/
theorem collectTags_tags (h : Tags (tags ++ rest)) :
    collectTags rest tags = tags ++ rest := by
  induction rest generalizing tags with
  | nil => exact (List.append_nil tags).symm
  | cons candidate rest ih =>
    have hlength := h.length
    rw [List.length_append, List.length_cons] at hlength
    have hnew : candidate ∉ tags := fun hmem ↦
      (List.nodup_append.mp h.nodup).2.2 candidate hmem candidate List.mem_cons_self rfl
    have htag := h.isTag candidate (List.mem_append_right _ List.mem_cons_self)
    have happend : tags ++ candidate :: rest = (tags ++ [candidate]) ++ rest := by simp
    rw [collectTags, if_neg (by omega), if_pos (by simp [htag, hnew]), ih (happend ▸ h), happend]

theorem isWord_of_isTag {tag : String} (h : isTag tag = true) : IsWord tag := by
  simp only [isTag, Bool.and_eq_true, decide_eq_true_eq, List.all_eq_true] at h
  obtain ⟨⟨hchars, hlength⟩, -⟩ := h
  refine ⟨?_, fun hspace ↦ absurd (hchars ' ' hspace) (by decide)⟩
  rintro rfl
  exact absurd hlength (by decide)

theorem tags_parseUiLocales (raw : Option String) : Tags (parseUiLocales raw) := by
  cases raw with
  | none => exact ⟨List.nodup_nil, nofun, Nat.zero_le _⟩
  | some => exact tags_collectTags ⟨List.nodup_nil, nofun, Nat.zero_le _⟩

/-- What is joined is given, and its words are read again. -/
theorem given_joined {values : List String} (h : ∀ value ∈ values, IsWord value) :
    given (joined values) = joined values := by
  unfold joined
  split
  case isTrue => rfl
  case isFalse hne =>
    refine given_some fun hempty ↦ ?_
    have hwords := words_join h
    rw [hempty] at hwords
    have hnone : words "" = [] := by
      rw [words, splitOn_space]
      rfl
    exact hne (by rw [← hwords, hnone]; rfl)

theorem parseUiLocales_joined {tags : List String} (h : Tags tags) :
    parseUiLocales (joined tags) = tags := by
  unfold joined
  split
  case isTrue hempty => exact (List.isEmpty_iff.mp hempty).symm
  case isFalse =>
    rw [parseUiLocales, words_join fun tag htag ↦ isWord_of_isTag (h.isTag tag htag)]
    exact @collectTags_tags tags [] h

/-! ### Scopes -/

theorem requestedScopeTokens_eq (scope : Option String) :
    requestedScopeTokens scope = words (scope.getD "openid") := rfl

theorem words_openid : words "openid" = ["openid"] := by
  rw [words, splitOn_space]
  decide

theorem requestWithGrantableScope_whole {origin : RegistrationOrigin} {params : Params}
    {scope : String} (hscope : params "scope" = some scope)
    (hlength : (grantableScopes origin (words scope)).length = (words scope).length) :
    requestWithGrantableScope (some origin) params = params := by
  simp only [requestWithGrantableScope, hscope]
  exact if_pos hlength

/-- The scope that a request is parked with is asked for whole. -/
theorem requestWithGrantableScope_again {origin : Option RegistrationOrigin}
    {params params' : Params}
    (h : params' "scope" = some ((requestWithGrantableScope origin params "scope").getD "openid")) :
    requestWithGrantableScope origin params' = params' := by
  cases origin with
  | none => cases hscope : params' "scope" <;> simp only [requestWithGrantableScope, hscope]
  | some origin =>
    unfold requestWithGrantableScope at h
    cases hscope : params "scope" with
    | none =>
      simp only [hscope, Option.getD_none] at h
      refine requestWithGrantableScope_whole h ?_
      rw [words_openid]
      cases origin <;> decide
    | some scope =>
      simp only [hscope] at h
      change params' "scope" = some ((if (grantableScopes origin (words scope)).length =
        (words scope).length then params else Function.update params "scope"
          (some (" ".intercalate (grantableScopes origin (words scope)))) : Params) "scope" |>.getD
            "openid") at h
      by_cases hlength : (grantableScopes origin (words scope)).length = (words scope).length
      · rw [if_pos hlength, hscope, Option.getD_some] at h
        exact requestWithGrantableScope_whole h hlength
      · rw [if_neg hlength, Function.update_self, Option.getD_some] at h
        -- What was taken out is the write scope, and more than that was asked for.
        have hgrantable : grantableScopes origin (words scope) =
            (words scope).filter (· != MCP_WRITE_SCOPE) ∧
              ∀ list, list.filter (· != MCP_WRITE_SCOPE) = list →
                grantableScopes origin list = list := by
          unfold grantableScopes at hlength ⊢
          split at hlength
          case isTrue => exact absurd rfl hlength
          case isFalse happroval =>
            simp only at hlength
            split at hlength
            case isTrue => exact absurd rfl hlength
            case isFalse hsome =>
              refine ⟨by rw [if_neg happroval]; exact if_neg hsome, fun list hlist ↦ ?_⟩
              rw [if_neg happroval]
              simp only [hlist]
              split <;> rfl
        have hwords : words (" ".intercalate (grantableScopes origin (words scope))) =
            grantableScopes origin (words scope) := by
          refine words_join fun word hword ↦ ?_
          rw [hgrantable.1] at hword
          exact isWord_of_mem (List.mem_of_mem_filter hword)
        refine requestWithGrantableScope_whole h ?_
        rw [hwords, hgrantable.2 _ (by rw [hgrantable.1, List.filter_filter]; simp)]

/-! ### `prompt` -/

theorem promptOfToken_promptToken (value : Prompt) :
    promptOfToken (promptToken value) = some value := by
  cases value <;> rfl

theorem isWord_promptToken (value : Prompt) : IsWord (promptToken value) := by
  cases value <;> exact ⟨by decide, by decide⟩

theorem eraseDups_of_nodup {α : Type} [DecidableEq α] {items : List α} (h : items.Nodup) :
    items.eraseDups = items := by
  induction items with
  | nil => rfl
  | cons item items ih =>
    obtain ⟨hnew, hrest⟩ := List.nodup_cons.mp h
    have hfilter : items.filter (fun other ↦ !other == item) = items :=
      List.filter_eq_self.mpr fun other hother ↦ by
        simpa using fun heq : other = item ↦ hnew (heq ▸ hother)
    rw [List.eraseDups_cons, hfilter, ih hrest]

theorem nodup_of_parsePrompt {raw : Option String} {prompts : Prompts}
    (h : parsePrompt raw = some prompts) : prompts.values.Nodup := by
  unfold parsePrompt at h
  cases raw with
  | none =>
    obtain rfl := Option.some.inj h
    exact List.nodup_nil
  | some =>
    simp only at h
    split at h
    · cases h
    · split at h
      · obtain rfl := Option.some.inj h
        exact List.nodup_dedup _
      · cases h

variable {values : List Prompt}

/-- Values that may be sent together are read back. -/
theorem parsePrompt_joined (hnodup : values.Nodup)
    (hnone : .none ∈ values → values.length ≤ 1) (hcreate : .create ∈ values → values.length ≤ 1) :
    parsePrompt (joined (values.map promptToken)) = some ⟨values, hnone, hcreate⟩ := by
  unfold joined
  split
  case isTrue hempty =>
    obtain rfl : values = [] := by simpa using hempty
    rfl
  case isFalse =>
    have hwords : ((" ".intercalate (values.map promptToken)).splitOn " ").filter
        (fun token ↦ token != "") = values.map promptToken := by
      refine words_join fun token htoken ↦ ?_
      obtain ⟨value, -, rfl⟩ := List.mem_map.mp htoken
      exact isWord_promptToken value
    have hread : (values.map promptToken).mapM promptOfToken = some values := by
      rw [List.mapM_map]
      exact (mapM_of_forall fun value _ ↦ promptOfToken_promptToken value).trans
        (congrArg some (List.map_id values))
    simp only [parsePrompt, hwords, hread, hnodup.dedup]
    exact dif_pos ⟨hnone, hcreate⟩

/-- The values that are asked for again are as many, and none of them is `create`. -/
theorem nodup_rewritten (hnodup : values.Nodup)
    (hcreate : .create ∈ values → values.length ≤ 1) : (values.map rewritten).Nodup := by
  by_cases hmem : .create ∈ values
  · obtain rfl : values = [.create] := by
      cases values with
      | nil => cases hmem
      | cons _ rest =>
        have hlength := hcreate hmem
        obtain rfl : rest = [] := by
          rw [List.length_cons] at hlength
          exact List.length_eq_zero_iff.mp (by omega)
        rw [List.mem_singleton.mp hmem]
    simp
  · have hsame : values.map rewritten = values := by
      refine (List.map_congr_left fun value hvalue ↦ ?_).trans (List.map_id values)
      cases value with
      | create => exact absurd hvalue hmem
      | _ => rfl
    rwa [hsame]

theorem create_not_rewritten : .create ∉ values.map rewritten := by
  intro h
  obtain ⟨value, -, heq⟩ := List.mem_map.mp h
  cases value <;> cases heq

theorem none_of_rewritten (h : .none ∈ values.map rewritten) :
    .none ∈ values := by
  obtain ⟨value, hvalue, heq⟩ := List.mem_map.mp h
  cases value with
  | none => exact hvalue
  | _ => cases heq

/-! ### `max_age` -/

theorem isMaxAge_toDigits (n : ℕ) : isMaxAge (Nat.toDigits 10 n) = true := by
  have hdigits : (Nat.toDigits 10 n).all Char.isDigit = true :=
    List.all_eq_true.mpr fun c hc ↦ Nat.isDigit_of_mem_toDigits (by decide) (by decide) hc
  have hhead : ∀ m : ℕ, m ≠ 0 → (Nat.toDigits 10 m).head? ≠ some '0' := by
    intro m
    induction m using Nat.strongRecOn with
    | ind m ih =>
      intro hm
      by_cases hlt : m < 10
      · rw [Nat.toDigits_of_lt_base hlt]
        interval_cases m <;> simp_all [Nat.digitChar]
      · rw [Nat.toDigits_of_base_le (by decide) (by omega),
          List.head?_append_of_ne_nil _ Nat.toDigits_ne_nil]
        exact ih (m / 10) (by omega) (by omega)
  have hne : (Nat.toDigits 10 n).isEmpty = false := by
    simp [Nat.toDigits_ne_nil]
  rw [isMaxAge, hdigits, hne]
  rcases Nat.eq_zero_or_pos n with rfl | hpos
  · rfl
  · simp [hhead n (Nat.ne_of_gt hpos)]

/-- A number below `10 ^ 21` is read back. -/
theorem parseMaxAge_numberText {n : ℕ} (h : nearest n = n) (hlt : n < EXPONENT_FROM) :
    parseMaxAge (some (numberText n)) = .ok (some (shortest n)) := by
  rw [numberText_of_lt h hlt, Nat.repr_eq_ofList_toDigits, parseMaxAge]
  simp only [String.toList_ofList, isMaxAge_toDigits, if_true, Nat.ofDigitChars_ten_toDigits]

/-- A number from `10 ^ 21` on is refused when it comes back. -/
theorem parseMaxAge_exponent {d : Double} (h : ∀ n, d = .finite n → nearest n = n)
    (hlarge : ∀ n < EXPONENT_FROM, d ≠ .finite n) :
    parseMaxAge (some (maxAgeText d)) = .invalid := by
  have hrefused : ∀ text : String, 'e' ∈ text.toList ∨ text = "null" →
      parseMaxAge (some text) = .invalid := by
    intro text htext
    have hdigits : isMaxAge text.toList = false := by
      rcases htext with hexponent | rfl
      · have hall : text.toList.all Char.isDigit = false := by
          rw [List.all_eq_false]
          exact ⟨'e', hexponent, by decide⟩
        rw [isMaxAge, hall]
        rfl
      · decide
    rw [parseMaxAge]
    simp only [hdigits, Bool.false_eq_true, if_false]
  cases d with
  | infinity => exact hrefused _ (Or.inr rfl)
  | finite n =>
    refine hrefused _ (Or.inl (exponent_mem_numberText (h n rfl) ?_))
    by_contra hlt
    exact hlarge n (by omega) rfl

/-! ### The request that is accepted -/

/-- How a request is registered as coming to be known: an unknown origin needs no approval. -/
def originOf (setup : AuthorizeSetup) (params : Params) : RegistrationOrigin :=
  ((resolvedClient setup params).client.map (·.registrationOrigin)).getD .operator

/-- The audiences that the client holds. -/
def heldBy (setup : AuthorizeSetup) (params : Params) (clientId : String) : List String :=
  audiencesHeld setup.env (originOf setup params) setup.policy (setup.settings clientId).audiences

/-- The scopes are the client's to ask for at the audience. -/
def scopesHold (setup : AuthorizeSetup) (params : Params) (audience : List String) : Bool :=
  let scopes := requestedScopeTokens (askedParams setup params "scope")
  !(refusesWriteScope (originOf setup params) scopes ||
    !scopesCoherentWithAudience scopes audience setup.env.mcpAudience ADMIN_API_AUDIENCE)

/-- What an accepted request is made of, beyond its validation. -/
structure AcceptedBelow (setup : AuthorizeSetup) (rawParams : RawParams) (params : Params)
    (idTokenHint : Option String) (maxAge : Option ℕ) (a : Accepted) : Prop where
  audience : parseResource setup.env (resourceParam rawParams)
    (heldBy setup params a.request.clientId) = some a.audience
  scopes : scopesHold setup params a.audience = true
  maxAge : a.maxAge = (maxAge.or (setup.settings a.request.clientId).defaultMaxAge).map Double.ofNat
  claims : ∃ sent, parseClaimsRequest ((params "claims").map unitsOf) = .ok sent ∧
    a.claims = claimsInEffect a.maxAge sent
  claimsSubject : a.claimsSubject = (a.claims.idToken.named? SUB).bind (·.value)
  uiLocales : a.uiLocales = parseUiLocales (params "ui_locales")
  hint : a.hintSubject =
    idTokenHint.bind fun hint ↦ setup.subjectOfAuthorizeHint hint a.request.clientId
  hinted : idTokenHint.isSome = a.hintSubject.isSome

section Answers

variable {setup : AuthorizeSetup} {rawParams : RawParams} {params : Params}
  {request : AcceptedRequest} {prompts : Prompts} {idTokenHint : Option String}
  {maxAge : Option ℕ} {a : Accepted}

/-- What is left to decide below the boundary. -/
theorem acceptBelow_accepted_iff :
    acceptBelow setup rawParams params request prompts idTokenHint maxAge = .accepted a ↔
      a.request = request ∧ a.prompts = prompts ∧
        AcceptedBelow setup rawParams params idTokenHint maxAge a := by
  constructor
  · intro h
    unfold acceptBelow at h
    simp only at h
    split at h
    case h_1 => cases h
    case h_2 audience haudience =>
      split at h
      case isTrue => cases h
      case isFalse hscopes =>
        split at h
        case h_1 => cases h
        case h_2 sent hsent =>
          have hscopes' : scopesHold setup params audience = true := by
            simpa [scopesHold, originOf] using hscopes
          split at h
          case h_1 =>
            obtain rfl := AuthorizeAnswer.accepted.inj h
            exact ⟨rfl, rfl, ⟨haudience, hscopes', rfl, ⟨sent, hsent, rfl⟩, rfl, rfl, rfl, rfl⟩⟩
          case h_2 hint =>
            split at h
            case h_1 => cases h
            case h_2 subject hsubject =>
              obtain rfl := AuthorizeAnswer.accepted.inj h
              exact ⟨rfl, rfl,
                ⟨haudience, hscopes', rfl, ⟨sent, hsent, rfl⟩, rfl, rfl, hsubject.symm, rfl⟩⟩
  · rintro ⟨rfl, rfl, haudience, hscopes, hmaxAge, ⟨sent, hsent, hclaims⟩, hsubject, hlocales,
      hhint, hhinted⟩
    obtain ⟨request, prompts, uiLocales, hintSubject, claimsSubject, audience, claims, age⟩ := a
    simp only at haudience hscopes hmaxAge hsent hclaims hsubject hlocales hhint hhinted ⊢
    subst hlocales hsubject hclaims hmaxAge
    have hrefused : (refusesWriteScope (originOf setup params)
        (requestedScopeTokens (askedParams setup params "scope")) ||
          !scopesCoherentWithAudience (requestedScopeTokens (askedParams setup params "scope"))
            audience setup.env.mcpAudience ADMIN_API_AUDIENCE) = false := by
      simpa [scopesHold] using hscopes
    unfold acceptBelow
    simp only [heldBy, originOf] at haudience hrefused
    simp only [haudience, hrefused, Bool.false_eq_true, if_false, hsent]
    cases idTokenHint with
    | none =>
      obtain rfl : hintSubject = none := hhint
      rfl
    | some hint =>
      cases hintSubject with
      | none => cases hhinted
      | some subject =>
        have hsome : setup.subjectOfAuthorizeHint hint request.clientId = some subject :=
          hhint.symm
        simp only [hsome]

/-- What an accepted request was validated of. -/
structure AcceptedOf (setup : AuthorizeSetup) (rawParams : RawParams) (params : Params)
    (idTokenHint : Option String) (maxAge : Option ℕ) (a : Accepted) : Prop where
  normalized : normalizeAuthorizeQuery rawParams = .ok params none
  tenantEnabled : setup.deps.tenantEnabled = true
  responseMode : (askedParams setup params "response_mode").any (· != SUPPORTED_RESPONSE_MODE) =
    false
  redirectUri : askedParams setup params "redirect_uri" = some a.request.redirectUri
  vetted : ∃ record registered, Vetted setup.parse (resolvedClient setup params).client
    (resolvedClient setup params).config a.request.redirectUri record registered ∧
      a.request.clientId = record.clientId
  below : BelowBoundary (askedParams setup params)
    (setup.deps.scopesNamed (requestedScopeTokens (askedParams setup params "scope")))
    (resolvedClient setup params).scopes a.request a.prompts idTokenHint maxAge
  accepted : AcceptedBelow setup rawParams params idTokenHint maxAge a

theorem answerAuthorize_eq {repeatedKey : Option String}
    (hok : normalizeAuthorizeQuery rawParams = .ok params repeatedKey)
    (htenant : setup.deps.tenantEnabled = true) :
    answerAuthorize setup.parse setup.deps rawParams =
      validateAuthorizationRequest setup.parse (askedParams setup params)
        (resolvedClient setup params).client (resolvedClient setup params).config
        (setup.deps.scopesNamed (requestedScopeTokens (askedParams setup params "scope")))
        (resolvedClient setup params).scopes repeatedKey := by
  simp only [answerAuthorize, hok, htenant, Bool.not_true, Bool.false_eq_true, if_false]
  rfl

theorem acceptAuthorize_accepted_iff :
    acceptAuthorize setup rawParams = .accepted a ↔
      ∃ params idTokenHint maxAge, AcceptedOf setup rawParams params idTokenHint maxAge a := by
  constructor
  · intro h
    unfold acceptAuthorize at h
    split at h
    case h_2 => cases h
    case h_1 params repeatedKey request prompts idTokenHint maxAge hok hanswer =>
      obtain ⟨rfl, rfl, hbelow⟩ := acceptBelow_accepted_iff.mp h
      by_cases htenant : setup.deps.tenantEnabled = true
      · rw [answerAuthorize_eq hok htenant, validate_ok_iff] at hanswer
        obtain ⟨hmode, huri, hvetted, rfl, hvalid⟩ := hanswer
        exact ⟨params, idTokenHint, maxAge, hok, htenant, hmode, huri, hvetted, hvalid, hbelow⟩
      · simp only [answerAuthorize, hok, htenant, Bool.not_false, if_true] at hanswer
        obtain ⟨-, -, ⟨record, registered, hvetted, -⟩, -⟩ := validate_ok_iff.mp hanswer
        exact absurd hvetted.exists_client (by simp)
  · rintro ⟨params, idTokenHint, maxAge, h⟩
    have hanswer := answerAuthorize_eq h.normalized h.tenantEnabled
    rw [validate_ok_iff.mpr ⟨h.responseMode, h.redirectUri, h.vetted, rfl, h.below⟩] at hanswer
    simp only [acceptAuthorize, h.normalized, hanswer]
    exact acceptBelow_accepted_iff.mpr ⟨rfl, rfl, h.accepted⟩

/-- Only the scope is asked for otherwise than it was sent. -/
theorem askedParams_of_ne {key : String} (h : key ≠ "scope") :
    askedParams setup params key = params key := by
  unfold askedParams requestWithGrantableScope
  cases params "scope" with
  | none => rfl
  | some =>
    cases (resolvedClient setup params).client.map (·.registrationOrigin) with
    | none => rfl
    | some =>
      simp only []
      split_ifs
      · rfl
      · exact Function.update_of_ne h _ _

end Answers

/-! ### The same request -/

/-- The same members, in whatever order. -/
def SameClaims (claims claims' : ClaimsRequest) : Prop :=
  claims'.idToken.entries.Perm claims.idToken.entries ∧
    claims'.userinfo.entries.Perm claims.userinfo.entries

/-- The same request, but that `create` has become `login`. -/
structure SameRequest (pending pending' : PendingRequest) : Prop where
  request : pending'.toAcceptedRequest = pending.toAcceptedRequest
  idTokenHintSubject : pending'.idTokenHintSubject = pending.idTokenHintSubject
  claimsSubject : pending'.claimsSubject = pending.claimsSubject
  prompt : ∃ values values', pending.prompt = some values ∧ pending'.prompt = some values' ∧
    values'.Perm (values.map rewritten)
  maxAge : pending'.maxAge = pending.maxAge
  uiLocales : pending'.uiLocales = pending.uiLocales
  resource : pending'.resource = pending.resource
  claims : ∃ claims claims', pending.claims = some claims ∧ pending'.claims = some claims' ∧
    SameClaims claims claims'

/-- The link is accepted, and as what would be parked the same, whatever it is parked for. -/
def RoundTrips (setup : AuthorizeSetup) (storage : Storage) (a : Accepted) (url : String) : Prop :=
  ∃ a', acceptAuthorize setup (readLink url) = .accepted a' ∧
    ∀ page, SameRequest (storage.stored (a.parked page)) (storage.stored (a'.parked page))

/-- A single audience may be named by a `resource` parameter. -/
def MayBeNamed (env : Deployment) (audience : List String) : Prop :=
  ∀ target, audience = [target] → target = "" ∨ env.isUrlWithoutFragment target = true

/-- The `max_age` is parked, and printed without an exponent; where it is not parked, it is the
client's own default. -/
def AgeComesBack (defaultMaxAge : Option ℕ) (page : ParkedFor) (maxAge : Option Double) : Prop :=
  if page = .promotion then maxAge = defaultMaxAge.map Double.ofNat
  else ∀ d, maxAge = some d → ∃ n < EXPONENT_FROM, d = .finite n

/-! ### Claims that come back -/

theorem named?_stored (storage : Storage) (member : ClaimsRequestMember) (name : Utf16) :
    (storage.member member).named? name = member.named? name :=
  lookup_perm (storage.perm member.entries) (storage.member member).nodup name

theorem withAuthTime_of_essential {member : ClaimsRequestMember} {entry : ClaimRequestEntry}
    (h : member.named? AUTH_TIME = some entry) (hessential : entry.essential = true) :
    withAuthTime member = member := by
  have hentry : ({ (member.named? AUTH_TIME).getD ⟨false, none, none⟩ with essential := true } :
      ClaimRequestEntry) = entry := by
    rw [h, Option.getD_some, ← hessential]
  ext1
  rw [withAuthTime, hentry]
  exact putEntry_of_mem member.nodup ((lookup_eq_some_iff_mem member.nodup).mp h)

theorem withAuthTime_essential (member : ClaimsRequestMember) :
    ∃ entry, (withAuthTime member).named? AUTH_TIME = some entry ∧ entry.essential = true :=
  ⟨{ (member.named? AUTH_TIME).getD ⟨false, none, none⟩ with essential := true },
    (lookup_eq_some_iff_mem (withAuthTime member).nodup).mpr (name_mem_putEntry _), rfl⟩

/-- What is in effect is in effect again, once it was stored. -/
theorem claimsInEffect_again (storage : Storage) {maxAge : Option Double} {sent : ClaimsRequest}
    {claims : ClaimsRequest} (h : claims = claimsInEffect maxAge sent) :
    claimsInEffect maxAge ⟨storage.member claims.idToken, storage.member claims.userinfo⟩ =
      ⟨storage.member claims.idToken, storage.member claims.userinfo⟩ := by
  unfold claimsInEffect at h ⊢
  split at h
  case isFalse hnone => rw [if_neg hnone]
  case isTrue hsome =>
    subst h
    obtain ⟨entry, hentry, hessential⟩ := withAuthTime_essential sent.idToken
    rw [if_pos hsome]
    simp only
    rw [withAuthTime_of_essential ((named?_stored storage _ AUTH_TIME).trans hentry) hessential]

/-! ### The link is followed -/

/-- The parameters that are read of the link. -/
def linkParams (pending : PendingRequest) (claims : Utf16) : Params := fun key ↦
  if key = "resource" then none else linkParam pending claims key

theorem given_of_ne {value : Option String} (h : value ≠ some "") : given value = value := by
  cases value with
  | none => rfl
  | some => exact given_some fun hempty ↦ h (congrArg some hempty)

section Followed

variable {setup : AuthorizeSetup} {storage : Storage} {rawParams : RawParams} {params : Params}
  {idTokenHint : Option String} {maxAge : Option ℕ} {a : Accepted} {page : ParkedFor}
  {claims : Utf16}

/-- What is read of the link, of a request that was accepted. -/
structure Follows (setup : AuthorizeSetup) (a : Accepted) (params linked : Params) : Prop where
  clientId : linked "client_id" = params "client_id"
  redirectUri : linked "redirect_uri" = some a.request.redirectUri
  scope : linked "scope" = some a.request.scope
  state : linked "state" = a.request.state
  nonce : linked "nonce" = a.request.nonce
  codeChallenge : linked "code_challenge" = some a.request.codeChallenge
  asked : askedParams setup linked = linked
  scopes : requestedScopeTokens (linked "scope") =
    requestedScopeTokens (askedParams setup params "scope")

theorem AcceptedOf.ne_empty (h : AcceptedOf setup rawParams params idTokenHint maxAge a)
    (key : String) : params key ≠ some "" := normalize_ne_empty h.normalized key

/-- The client is found by the `client_id` that was sent. -/
theorem AcceptedOf.clientId (h : AcceptedOf setup rawParams params idTokenHint maxAge a) :
    params "client_id" = some a.request.clientId := by
  obtain ⟨record, registered, hvetted, hid⟩ := h.vetted
  have hclient := hvetted.exists_client
  unfold resolvedClient at hclient
  cases hsent : params "client_id" with
  | none =>
    rw [hsent] at hclient
    cases hclient
  | some clientId =>
    rw [hsent] at hclient
    rw [hid, setup.named clientId record hclient]

theorem AcceptedOf.scope_ne (h : AcceptedOf setup rawParams params idTokenHint maxAge a) :
    a.request.scope ≠ "" := by
  intro hempty
  have hgrantable := h.below.grantable
  have htokens : requestedScopeTokens (askedParams setup params "scope") = [] := by
    rw [requestedScopeTokens_eq, ← h.below.scope, hempty, words, splitOn_space]
    rfl
  simp [scopesAreGrantable, htokens] at hgrantable

theorem AcceptedOf.follows (h : AcceptedOf setup rawParams params idTokenHint maxAge a) :
    Follows setup a params (linkParams (storage.stored (a.parked page)) claims) := by
  have hclient := h.clientId
  have hscope : linkParams (storage.stored (a.parked page)) claims "scope" =
      some a.request.scope := given_some h.scope_ne
  have hresolved : ∀ params' : Params, params' "client_id" = params "client_id" →
      resolvedClient setup params' = resolvedClient setup params := fun params' heq ↦ by
    rw [resolvedClient, resolvedClient, heq]
  have hsent : linkParams (storage.stored (a.parked page)) claims "client_id" =
      params "client_id" := by
    have hne := h.ne_empty "client_id"
    rw [hclient] at hne ⊢
    exact given_of_ne hne
  have huri : linkParams (storage.stored (a.parked page)) claims "redirect_uri" =
      some a.request.redirectUri := by
    have hne := h.ne_empty "redirect_uri"
    rw [← @askedParams_of_ne setup params "redirect_uri" (by decide), h.redirectUri] at hne
    exact given_of_ne hne
  have hchallenge : linkParams (storage.stored (a.parked page)) claims "code_challenge" =
      some a.request.codeChallenge := by
    have hne := h.ne_empty "code_challenge"
    rw [← @askedParams_of_ne setup params "code_challenge" (by decide),
      h.below.codeChallenge] at hne
    exact given_of_ne hne
  have hstate : linkParams (storage.stored (a.parked page)) claims "state" = a.request.state := by
    have hne := h.ne_empty "state"
    rw [← @askedParams_of_ne setup params "state" (by decide), ← h.below.state] at hne
    exact given_of_ne hne
  have hnonce : linkParams (storage.stored (a.parked page)) claims "nonce" = a.request.nonce := by
    have hne := h.ne_empty "nonce"
    rw [← @askedParams_of_ne setup params "nonce" (by decide), ← h.below.nonce] at hne
    exact given_of_ne hne
  refine ⟨hsent, huri, hscope, hstate, hnonce, hchallenge, ?_, ?_⟩
  · unfold askedParams
    rw [hresolved _ hsent]
    refine @requestWithGrantableScope_again _ params _ ?_
    rw [hscope, h.below.scope]
    rfl
  · rw [hscope, requestedScopeTokens_eq, requestedScopeTokens_eq, h.below.scope]
    rfl

theorem Follows.resolved {params' : Params} (h : Follows setup a params params') :
    resolvedClient setup params' = resolvedClient setup params := by
  rw [resolvedClient, resolvedClient, h.clientId]

/-! ### The audience is asked for again -/

theorem resourceParam_ne_empty (rawParams : RawParams) : resourceParam rawParams ≠ .one "" := by
  have hpresent : ∀ raw : RawValue, "" ∉ raw.present.filterMap Entry.string? := by
    intro raw hmem
    obtain ⟨entry, hentry, hstring⟩ := List.mem_filterMap.mp hmem
    cases entry with
    | string =>
      obtain rfl := Option.some.inj hstring
      simp [RawValue.present] at hentry
    | unreadable => cases hstring
  unfold resourceParam
  cases rawParams with
  | other => exact fun hone ↦ by cases hone
  | object entries =>
    simp only
    cases hsent : entries.lookup "resource" with
    | none => exact fun hone ↦ by cases hone
    | some raw =>
      have hraw := hpresent raw
      intro hone
      rw [Option.elim_some] at hone
      split at hone
      · cases hone
      · rename_i value hvalue
        obtain rfl := Field.one.inj hone
        exact hraw (hvalue ▸ List.mem_singleton_self _)
      · cases hone

theorem resource_again (claims : Utf16) :
    resourceParam (.ofPairs (setParams (restartParams (storage.stored (a.parked page)) claims))) =
      match given (singleResource (some a.audience)) with
      | none => .absent
      | some resource => .one resource := resource_link claims

theorem parseResource_link {env : Deployment} {held : List String} (claims : Utf16)
    (h : parseResource env (resourceParam rawParams) held = some a.audience)
    (hnamed : MayBeNamed env a.audience) :
    parseResource env (resourceParam
      (.ofPairs (setParams (restartParams (storage.stored (a.parked page)) claims)))) held =
        some a.audience := by
  have hsent : held = a.audience ∨ ∃ target ∈ held, target ≠ "" ∧ a.audience = [target] := by
    have hne := resourceParam_ne_empty rawParams
    cases hraw : resourceParam rawParams with
    | absent =>
      rw [hraw] at h
      exact Or.inl (Option.some.inj h)
    | many =>
      rw [hraw] at h
      cases h
    | one raw =>
      rw [hraw] at h hne
      simp only [parseResource] at h
      split at h
      case isFalse => cases h
      case isTrue =>
        split at h
        case isFalse => cases h
        case isTrue hheld =>
          exact Or.inr ⟨raw, by simpa using hheld, fun hempty ↦ hne (congrArg Field.one hempty),
            (Option.some.inj h).symm⟩
  rw [resource_again]
  rcases haudience : a.audience with _ | ⟨target, _ | ⟨second, rest⟩⟩
  · rcases hsent with rfl | ⟨target, -, -, htarget⟩
    · rw [haudience]
      rfl
    · rw [haudience] at htarget
      cases htarget
  · by_cases hempty : target = ""
    · subst hempty
      rcases hsent with rfl | ⟨target, -, hne, htarget⟩
      · rw [haudience]
        rfl
      · rw [haudience] at htarget
        exact absurd (List.head_eq_of_cons_eq htarget).symm hne
    · have hurl := (hnamed target haudience).resolve_left hempty
      have hheld : held.contains target = true := by
        rcases hsent with rfl | ⟨other, hother, -, htarget⟩
        · simp [haudience]
        · obtain rfl := List.head_eq_of_cons_eq (haudience.symm.trans htarget)
          simpa using hother
      simp only [singleResource, given_some hempty, parseResource, hurl, hheld, if_true]
  · rcases hsent with rfl | ⟨target, -, -, htarget⟩
    · rw [haudience]
      rfl
    · rw [haudience] at htarget
      cases htarget

/-- An audience that is asked for alone is one that may be. -/
theorem mayBeNamed_of_parseResource {env : Deployment} {held audience : List String}
    (claims : Utf16)
    (h : parseResource env (resourceParam
      (.ofPairs (setParams (restartParams (storage.stored (a.parked page)) claims)))) held =
        some audience) :
    MayBeNamed env a.audience := by
  intro target htarget
  by_cases hempty : target = ""
  · exact Or.inl hempty
  · rw [resource_again, htarget] at h
    simp only [singleResource, given_some hempty, parseResource] at h
    split at h
    case isTrue hurl => exact Or.inr hurl
    case isFalse => cases h

/-! ### The age is asked for again -/

theorem maxAgeText_ne_empty {d : Double} (h : ∀ n, d = .finite n → nearest n = n) :
    maxAgeText d ≠ "" := by
  cases d with
  | infinity => exact fun hnull ↦ absurd hnull (by decide)
  | finite n =>
    intro hempty
    rw [maxAgeText] at hempty
    by_cases hlt : n < EXPONENT_FROM
    · rw [numberText_of_lt (h n rfl) hlt, Nat.repr_eq_ofList_toDigits] at hempty
      have hdigits := congrArg String.toList hempty
      rw [String.toList_ofList] at hdigits
      exact Nat.toDigits_ne_nil hdigits
    · have hexponent := exponent_mem_numberText (h n rfl) (by omega)
      rw [hempty] at hexponent
      exact absurd hexponent (by decide)

theorem ofNat_shortest {n : ℕ} (h : nearest n = n) (hlt : n < EXPONENT_FROM) :
    Double.ofNat (shortest n) = .finite n := by
  have hread := nearest_shortest h
  have hbound : EXPONENT_FROM < 2 ^ 1024 := by decide +kernel
  rw [Double.ofNat, hread, if_pos (by omega)]

theorem nearest_of_age {age : Option ℕ} {d : Double} (h : age.map Double.ofNat = some d) :
    ∀ n, d = .finite n → nearest n = n := by
  rintro n rfl
  obtain ⟨m, -, hm⟩ := Option.map_eq_some_iff.mp h
  exact Double.nearest_of_ofNat hm

theorem maxAge_link (claims : Utf16) :
    linkParams (storage.stored (a.parked page)) claims "max_age" =
      given ((if page = .promotion then none else a.maxAge).map maxAgeText) := rfl

theorem parseMaxAge_link {defaultMaxAge : Option ℕ} (claims : Utf16)
    (h : a.maxAge = (maxAge.or defaultMaxAge).map Double.ofNat)
    (hage : AgeComesBack defaultMaxAge page a.maxAge) :
    ∃ maxAge', parseMaxAge (linkParams (storage.stored (a.parked page)) claims "max_age") =
      .ok maxAge' ∧ a.maxAge = (maxAge'.or defaultMaxAge).map Double.ofNat := by
  rw [maxAge_link]
  unfold AgeComesBack at hage
  by_cases hpage : page = .promotion
  · rw [if_pos hpage] at hage ⊢
    exact ⟨none, rfl, hage⟩
  · rw [if_neg hpage] at hage ⊢
    cases hmaxAge : a.maxAge with
    | none =>
      rw [hmaxAge, eq_comm, Option.map_eq_none_iff, Option.or_eq_none_iff] at h
      exact ⟨none, rfl, by rw [h.2]; rfl⟩
    | some d =>
      obtain ⟨n, hlt, rfl⟩ := hage d hmaxAge
      have hnearest := nearest_of_age (h.symm.trans hmaxAge)
      refine ⟨some (shortest n), ?_, ?_⟩
      · rw [Option.map_some, given_some (maxAgeText_ne_empty hnearest), maxAgeText,
          parseMaxAge_numberText (hnearest n rfl) hlt]
      · rw [Option.some_or, Option.map_some, ofNat_shortest (hnearest n rfl) hlt]

/-- An age that was asked for again is one that comes back. -/
theorem ageComesBack_of_parseMaxAge {defaultMaxAge maxAge' : Option ℕ} (claims : Utf16)
    (h : a.maxAge = (maxAge.or defaultMaxAge).map Double.ofNat)
    (hparsed : parseMaxAge (linkParams (storage.stored (a.parked page)) claims "max_age") =
      .ok maxAge')
    (hsame : a.maxAge = (maxAge'.or defaultMaxAge).map Double.ofNat) :
    AgeComesBack defaultMaxAge page a.maxAge := by
  rw [maxAge_link] at hparsed
  unfold AgeComesBack
  by_cases hpage : page = .promotion
  · rw [if_pos hpage] at hparsed ⊢
    obtain rfl := MaxAgeParse.ok.inj hparsed
    exact hsame
  · rw [if_neg hpage] at hparsed ⊢
    intro d hd
    have hnearest := nearest_of_age (h.symm.trans hd)
    rw [hd, Option.map_some, given_some (maxAgeText_ne_empty hnearest)] at hparsed
    by_contra hlarge
    rw [parseMaxAge_exponent hnearest fun n hlt hn ↦ hlarge ⟨n, hlt, hn⟩] at hparsed
    cases hparsed

/-! ### The request is accepted again -/

/-- The values of `prompt` that the link asks for. -/
def promptAgain (storage : Storage) (a : Accepted) : List Prompt :=
  (storage.order a.prompts.values).map rewritten

theorem promptAgain_perm : (promptAgain storage a).Perm (a.prompts.values.map rewritten) :=
  (storage.perm a.prompts.values).map rewritten

theorem parsePrompt_link (claims : Utf16) (hnodup : a.prompts.values.Nodup) :
    ∃ hnone hcreate, parsePrompt (linkParams (storage.stored (a.parked page)) claims "prompt") =
      some ⟨promptAgain storage a, hnone, hcreate⟩ := by
  have hperm := storage.perm a.prompts.values
  have hlength : (promptAgain storage a).length = a.prompts.values.length := by
    rw [promptAgain_perm.length_eq, List.length_map]
  have hdistinct : (promptAgain storage a).Nodup :=
    promptAgain_perm.nodup_iff.mpr (nodup_rewritten hnodup a.prompts.createAlone)
  have hnone : .none ∈ promptAgain storage a → (promptAgain storage a).length ≤ 1 := fun hmem ↦
    hlength ▸ a.prompts.noneAlone (none_of_rewritten (promptAgain_perm.mem_iff.mp hmem))
  have hcreate : .create ∈ promptAgain storage a → (promptAgain storage a).length ≤ 1 :=
    fun hmem ↦ absurd (promptAgain_perm.mem_iff.mp hmem) create_not_rewritten
  have hlink : linkParams (storage.stored (a.parked page)) claims "prompt" =
      given (joined ((promptAgain storage a).eraseDups.map promptToken)) := rfl
  have hwords : ∀ word ∈ (promptAgain storage a).map promptToken, IsWord word := by
    intro word hword
    obtain ⟨value, -, rfl⟩ := List.mem_map.mp hword
    exact isWord_promptToken value
  exact ⟨hnone, hcreate, by
    rw [hlink, eraseDups_of_nodup hdistinct, given_joined hwords,
      parsePrompt_joined hdistinct hnone hcreate]⟩

theorem parseUiLocales_link (claims : Utf16) (h : Tags a.uiLocales) :
    parseUiLocales (linkParams (storage.stored (a.parked page)) claims "ui_locales") =
      a.uiLocales := by
  have hlocales : ((storage.stored (a.parked page)).uiLocales.getD []) = a.uiLocales := by
    change (if a.uiLocales.isEmpty then none else some a.uiLocales).getD [] = a.uiLocales
    split
    case isTrue hempty => exact (List.isEmpty_iff.mp hempty).symm
    case isFalse => rfl
  have hlink : linkParams (storage.stored (a.parked page)) claims "ui_locales" =
      given (joined ((storage.stored (a.parked page)).uiLocales.getD [])) := rfl
  rw [hlink, hlocales, given_joined fun tag htag ↦ isWord_of_isTag (h.isTag tag htag),
    parseUiLocales_joined h]

/-- The claims as they are parked. -/
def storedClaims (storage : Storage) (claims : ClaimsRequest) : ClaimsRequest :=
  ⟨storage.member claims.idToken, storage.member claims.userinfo⟩

theorem parseClaimsRequest_link
    (h : claimsParameter (storedClaims storage a.claims) = some claims) :
    parseClaimsRequest ((linkParams (storage.stored (a.parked page)) claims "claims").map unitsOf) =
      .ok (storedClaims storage a.claims) := by
  obtain ⟨hparsed, hwellFormed⟩ := parse_claimsParameter h
  have hlink : linkParams (storage.stored (a.parked page)) claims "claims" =
      given (if claims = [] then none else some (usvString claims)) := rfl
  rw [hlink]
  by_cases hempty : claims = []
  · rw [if_pos hempty] at hparsed ⊢
    exact hparsed
  · rw [if_neg hempty] at hparsed ⊢
    have hunits := unitsOf_usvString hwellFormed
    have hne : usvString claims ≠ "" := fun hnone ↦ hempty (by rw [← hunits, hnone]; rfl)
    rw [given_some hne, Option.map_some, hunits]
    exact hparsed

/-- The request that the link is accepted as. -/
def againOf (storage : Storage) (a : Accepted) (prompts : Prompts) : Accepted :=
  { a with prompts, claims := storedClaims storage a.claims }

/-- The link of an accepted request is accepted as the request again. -/
theorem AcceptedOf.again (h : AcceptedOf setup rawParams params none maxAge a)
    (hclaims : claimsParameter (storedClaims storage a.claims) = some claims)
    (hnamed : MayBeNamed setup.env a.audience)
    (hage : AgeComesBack (setup.settings a.request.clientId).defaultMaxAge page a.maxAge) :
    ∃ prompts maxAge', prompts.values = promptAgain storage a ∧
      AcceptedOf setup
        (.ofPairs (setParams (restartParams (storage.stored (a.parked page)) claims)))
        (linkParams (storage.stored (a.parked page)) claims) none maxAge'
        (againOf storage a prompts) := by
  have hfollows : Follows setup a params (linkParams (storage.stored (a.parked page)) claims) :=
    h.follows
  obtain ⟨hnone, hcreate, hprompts⟩ := @parsePrompt_link storage a page claims
    (nodup_of_parsePrompt h.below.prompts)
  obtain ⟨maxAge', hmaxAge, hsame⟩ := parseMaxAge_link claims h.accepted.maxAge hage
  have hsent := @parseClaimsRequest_link storage a page claims hclaims
  obtain ⟨sent, -, heffect⟩ := h.accepted.claims
  have horigin : originOf setup (linkParams (storage.stored (a.parked page)) claims) =
      originOf setup params := by
    rw [originOf, originOf, hfollows.resolved]
  have hheld : heldBy setup (linkParams (storage.stored (a.parked page)) claims)
      a.request.clientId = heldBy setup params a.request.clientId := by
    rw [heldBy, heldBy, horigin]
  have hscopes : requestedScopeTokens (askedParams setup
      (linkParams (storage.stored (a.parked page)) claims) "scope") =
        requestedScopeTokens (askedParams setup params "scope") := by
    rw [hfollows.asked, hfollows.scopes]
  refine ⟨⟨promptAgain storage a, hnone, hcreate⟩, maxAge', rfl,
    { normalized := normalize_link claims
      tenantEnabled := h.tenantEnabled
      responseMode := ?_
      redirectUri := ?_
      vetted := ?_
      below := ?_
      accepted := ?_ }⟩
  · rw [hfollows.asked]
    rfl
  · rw [hfollows.asked]
    exact hfollows.redirectUri
  · rw [hfollows.resolved]
    exact h.vetted
  · rw [hscopes, hfollows.resolved, hfollows.asked]
    exact
      { noRequest := rfl
        noRequestUri := rfl
        responseType := rfl
        codeChallenge := hfollows.codeChallenge
        wellFormed := h.below.wellFormed
        codeChallengeMethod := by
          have hmethod : linkParams (storage.stored (a.parked page)) claims
              "code_challenge_method" = given (some a.request.codeChallengeMethod) := rfl
          rw [hmethod, h.below.method]
          rfl
        grantable := by
          have hgrantable := h.below.grantable
          unfold scopesAreGrantable at hgrantable ⊢
          rw [hfollows.scopes]
          exact hgrantable
        prompts := hprompts
        maxAge := hmaxAge
        idTokenHint := rfl
        scope := by rw [hfollows.scope]; rfl
        state := hfollows.state.symm
        nonce := hfollows.nonce.symm
        method := h.below.method }
  · exact
      { audience := by
          rw [againOf, hheld]
          exact parseResource_link claims h.accepted.audience hnamed
        scopes := by
          have hhold := h.accepted.scopes
          unfold scopesHold at hhold ⊢
          rw [horigin, hscopes]
          exact hhold
        maxAge := hsame
        claims := ⟨_, hsent, (claimsInEffect_again storage heffect).symm⟩
        claimsSubject := by
          have hstored : (storedClaims storage a.claims).idToken.named? SUB =
              a.claims.idToken.named? SUB := named?_stored storage _ SUB
          rw [againOf, hstored]
          exact h.accepted.claimsSubject
        uiLocales := by
          have htags : Tags a.uiLocales := by
            rw [h.accepted.uiLocales]
            exact tags_parseUiLocales _
          exact (parseUiLocales_link claims htags).symm
        hint := h.accepted.hint
        hinted := h.accepted.hinted }

/-- What is accepted of the link is parked as the request was. -/
theorem sameRequest_again {prompts : Prompts} (hprompts : prompts.values = promptAgain storage a)
    (page : ParkedFor) :
    SameRequest (storage.stored (a.parked page))
      (storage.stored ((againOf storage a prompts).parked page)) where
  request := rfl
  idTokenHintSubject := rfl
  claimsSubject := rfl
  prompt := by
    refine ⟨storage.order a.prompts.values, storage.order prompts.values, rfl, rfl, ?_⟩
    rw [hprompts]
    exact storage.perm _
  maxAge := rfl
  uiLocales := rfl
  resource := rfl
  claims := ⟨storedClaims storage a.claims, storedClaims storage (storedClaims storage a.claims),
    rfl, rfl, storage.perm _, storage.perm _⟩

end Followed

/-! ### Both directions -/

section Directions

variable {setup : AuthorizeSetup} {storage : Storage} {address : TenantAddress}
  {rawParams : RawParams} {a : Accepted} {page : ParkedFor} {url : String}

/-- A link that is accepted as the request says so of its audience and of its age. -/
theorem RoundTrips.comesBack (haccepted : acceptAuthorize setup rawParams = .accepted a)
    (hlink : restartAuthorizeLocation address (storage.stored (a.parked page)) = some url)
    (hround : RoundTrips setup storage a url) :
    MayBeNamed setup.env a.audience ∧
      AgeComesBack (setup.settings a.request.clientId).defaultMaxAge page a.maxAge := by
  obtain ⟨params, idTokenHint, maxAge, h⟩ := acceptAuthorize_accepted_iff.mp haccepted
  obtain ⟨-, -, claims, -, hread⟩ := readLink_eq hlink
  obtain ⟨again, hagain, hsame⟩ := hround
  rw [hread] at hagain
  obtain ⟨params', hint, maxAge', h'⟩ := acceptAuthorize_accepted_iff.mp hagain
  obtain ⟨rfl, -⟩ := QueryNormalization.ok.inj ((normalize_link claims).symm.trans h'.normalized)
  have hage : again.maxAge = a.maxAge := (hsame .signIn).maxAge
  have hclient : again.request.clientId = a.request.clientId :=
    congrArg AcceptedRequest.clientId (hsame .signIn).request
  have hparsed : parseMaxAge (linkParams (storage.stored (a.parked page)) claims "max_age") =
      .ok maxAge' := by
    have hbelow := h'.below.maxAge
    rwa [askedParams_of_ne (by decide)] at hbelow
  refine ⟨mayBeNamed_of_parseResource claims h'.accepted.audience,
    ageComesBack_of_parseMaxAge claims h.accepted.maxAge hparsed ?_⟩
  rw [← hage, h'.accepted.maxAge, hclient]

/-- A link is accepted as the request where its audience and its age allow it. -/
theorem roundTrips_of_comesBack (haccepted : acceptAuthorize setup rawParams = .accepted a)
    (hlink : restartAuthorizeLocation address (storage.stored (a.parked page)) = some url)
    (hnamed : MayBeNamed setup.env a.audience)
    (hage : AgeComesBack (setup.settings a.request.clientId).defaultMaxAge page a.maxAge) :
    RoundTrips setup storage a url := by
  obtain ⟨params, idTokenHint, maxAge, h⟩ := acceptAuthorize_accepted_iff.mp haccepted
  obtain ⟨hsubject, -, claims, hclaims, hread⟩ := readLink_eq hlink
  -- The hint is not stored: a request that had one is made no link of.
  obtain rfl : idTokenHint = none := by
    have hhinted := h.accepted.hinted
    have hnone : a.hintSubject = none := hsubject
    rw [hnone] at hhinted
    exact Option.isNone_iff_eq_none.mp (Option.isSome_eq_false_iff.mp hhinted)
  have hwritten : claimsParameter (storedClaims storage a.claims) = some claims := hclaims
  obtain ⟨prompts, maxAge', hprompts, hagain⟩ := h.again hwritten hnamed hage
  refine ⟨againOf storage a prompts, ?_, sameRequest_again hprompts⟩
  rw [hread]
  exact acceptAuthorize_accepted_iff.mpr ⟨_, none, maxAge', hagain⟩

end Directions

/-- **Restart links.**  A request is accepted, and parked for a page, and what is parked is made
a link of.  Followed, the link is accepted as that request exactly when its audience may be
named and its `max_age` comes back. -/
theorem restart_round_trips_iff (setup : AuthorizeSetup) (storage : Storage)
    (address : TenantAddress) (rawParams : RawParams) (a : Accepted) (page : ParkedFor)
    (url : String) (haccepted : acceptAuthorize setup rawParams = .accepted a)
    (hlink : restartAuthorizeLocation address (storage.stored (a.parked page)) = some url) :
    RoundTrips setup storage a url ↔
      MayBeNamed setup.env a.audience ∧
        AgeComesBack (setup.settings a.request.clientId).defaultMaxAge page a.maxAge :=
  ⟨fun hround ↦ hround.comesBack haccepted hlink,
    fun h ↦ roundTrips_of_comesBack haccepted hlink h.1 h.2⟩

/-! ### A client with one audience -/

/-- A tenant with one client, which is registered for one audience. -/
def setupWithAudience (audience : String) : AuthorizeSetup where
  parse := fun _ ↦ none
  env := { plainDeployment with
    isUrlWithoutFragment := fun target ↦ "https://".toList.isPrefixOf target.toList }
  deps :=
    { tenantEnabled := true
      resolveClient := fun clientId ↦
        if clientId = "app" then
          ⟨some ⟨"app", true, .confidential, .operator⟩, some ⟨["https://app.example/cb"]⟩,
            ["openid"]⟩
        else NO_CLIENT
      scopesNamed := id }
  policy := .mcp
  settings := fun _ ↦ ⟨[audience], none⟩
  subjectOfAuthorizeHint := fun _ _ ↦ none
  named := by
    intro clientId client h
    by_cases hclient : clientId = "app"
    · subst hclient
      exact Option.some.inj h ▸ rfl
    · simp [hclient, NO_CLIENT] at h

def appChallenge : String := "E9Melhoa2OwvFrEMTJguCHaoeK1t8URWbuGJSstw-cM"

/-- `email` from userinfo. -/
def emailClaims : ClaimsRequest :=
  ⟨.empty, ClaimsRequestMember.empty.put (ofAscii "email") (by decide) ⟨false, none, none⟩⟩

def emailText : String := usvString (stringify (claimsRecord emailClaims))

theorem parse_emailText : parseClaimsRequest (some (unitsOf emailText)) = .ok emailClaims := by
  have hshort : ¬MAX_CLAIMS_PARAMETER_BYTES < byteLength (stringify (claimsRecord emailClaims)) := by
    decide +kernel
  have hparameter : claimsParameter emailClaims = some (stringify (claimsRecord emailClaims)) := by
    rw [claimsParameter, if_neg hshort]
    rfl
  obtain ⟨hparse, hwellFormed⟩ := parse_claimsParameter hparameter
  rw [emailText, unitsOf_usvString hwellFormed]
  exact hparse

def loginPrompt : Prompts := ⟨[.login], by decide, by decide⟩

theorem parsePrompt_login : parsePrompt (some "login") = some loginPrompt := by
  have hwords : ("login".splitOn " ").filter (fun token ↦ token != "") = ["login"] := by
    rw [splitOn_space]
    decide
  simp only [parsePrompt, hwords]
  rfl

def appPairs : List (String × String) :=
  [("client_id", "app"), ("redirect_uri", "https://app.example/cb"), ("response_type", "code"),
    ("code_challenge", appChallenge), ("code_challenge_method", "S256"), ("state", "af0ifjsldkj"),
    ("nonce", "n-0S6"), ("prompt", "login"), ("max_age", "300"), ("claims", emailText)]

/-- The client's request, which names no `resource`. -/
def appRequest (audience : String) : Accepted where
  request := ⟨"app", "https://app.example/cb", "openid", some "af0ifjsldkj", some "n-0S6",
    appChallenge, "S256"⟩
  prompts := loginPrompt
  uiLocales := []
  hintSubject := none
  claimsSubject := none
  audience := [audience]
  claims := claimsInEffect (some (.finite 300)) emailClaims
  maxAge := some (.finite 300)

theorem acceptAuthorize_appPairs (audience : String) :
    acceptAuthorize (setupWithAudience audience) (.ofPairs appPairs) =
      .accepted (appRequest audience) := by
  have hasked : askedParams (setupWithAudience audience) (paramsOf appPairs) = paramsOf appPairs :=
    rfl
  have hopenid : requestedScopeTokens (paramsOf appPairs "scope") = ["openid"] :=
    words_openid
  have hregistered : RedirectUri.isRegisteredRedirectUri (fun _ ↦ none) "https://app.example/cb"
      ["https://app.example/cb"] .confidential (some .operator) = true := by
    decide
  have hchallenge : isWellFormedPkceString appChallenge = true := by
    decide
  have hage : Double.ofNat 300 = .finite 300 := by
    decide +kernel
  refine acceptAuthorize_accepted_iff.mpr ⟨paramsOf appPairs, none, some 300,
    { normalized := normalize_ofPairs (by decide)
      tenantEnabled := rfl
      responseMode := rfl
      redirectUri := rfl
      vetted := ⟨_, _, ⟨rfl, rfl, rfl, hregistered⟩, rfl⟩
      below := ?_
      accepted := ?_ }⟩
  · rw [hasked]
    exact
      { noRequest := rfl
        noRequestUri := rfl
        responseType := rfl
        codeChallenge := rfl
        wellFormed := hchallenge
        codeChallengeMethod := rfl
        grantable := by
          rw [scopesAreGrantable, hopenid]
          rfl
        prompts := parsePrompt_login
        maxAge := rfl
        idTokenHint := rfl
        scope := rfl
        state := rfl
        nonce := rfl
        method := rfl }
  · exact
      { audience := by
          rw [resourceParam_ofPairs (by decide)]
          rfl
        scopes := by
          rw [scopesHold, hasked, hopenid]
          rfl
        maxAge := congrArg some hage.symm
        claims := ⟨emailClaims, parse_emailText, rfl⟩
        claimsSubject := rfl
        uiLocales := rfl
        hint := rfl
        hinted := rfl }

def plainStorage : Storage := ⟨fun items ↦ items, fun _ ↦ List.Perm.refl _⟩

def demoAddress : TenantAddress := ⟨"/t/demo", by decide⟩

theorem restart_link (audience : String) : ∃ url, restartAuthorizeLocation demoAddress
    (plainStorage.stored ((appRequest audience).parked .signIn)) = some url := by
  have hparameter :
      (claimsParameter (claimsInEffect (some (.finite 300)) emailClaims)).isSome = true := by
    decide +kernel
  obtain ⟨claims, hclaims⟩ := Option.isSome_iff_exists.mp hparameter
  have hstored : (plainStorage.stored ((appRequest audience).parked .signIn)).claims =
      some (claimsInEffect (some (.finite 300)) emailClaims) := rfl
  rw [restartAuthorizeLocation, hstored, Option.map_some, hclaims]
  exact ⟨_, rfl⟩

/-- A request with a state, a nonce, a prompt, a `max_age` and claims. -/
theorem restart_round_trips_at_an_address :
    ∃ url, restartAuthorizeLocation demoAddress
        (plainStorage.stored ((appRequest "https://api.example").parked .signIn)) = some url ∧
      RoundTrips (setupWithAudience "https://api.example") plainStorage
        (appRequest "https://api.example") url := by
  obtain ⟨url, hlink⟩ := restart_link "https://api.example"
  refine ⟨url, hlink, ?_⟩
  refine (restart_round_trips_iff _ _ demoAddress _ _ .signIn _
    (acceptAuthorize_appPairs "https://api.example") hlink).mpr ⟨?_, ?_⟩
  · rintro target ⟨⟩
    exact Or.inr (by decide)
  · rintro _ ⟨rfl⟩
    exact ⟨300, by decide, rfl⟩

/-- A client is registered for `my-api`, which is no URL, and names no `resource`: the link
names it, and is refused. -/
theorem restart_refused_of_my_api :
    acceptAuthorize (setupWithAudience "my-api") (.ofPairs appPairs) =
        .accepted (appRequest "my-api") ∧
      ∃ url, restartAuthorizeLocation demoAddress
          (plainStorage.stored ((appRequest "my-api").parked .signIn)) = some url ∧
        ¬ RoundTrips (setupWithAudience "my-api") plainStorage (appRequest "my-api") url := by
  have haccepted := acceptAuthorize_appPairs "my-api"
  obtain ⟨url, hlink⟩ := restart_link "my-api"
  refine ⟨haccepted, url, hlink, fun hround ↦ ?_⟩
  have hnamed := (hround.comesBack haccepted hlink).1
  rcases hnamed "my-api" rfl with hempty | hurl
  · exact absurd hempty (by decide)
  · exact absurd hurl (by decide)

end Odudu.ProtocolOidc.Authorize
