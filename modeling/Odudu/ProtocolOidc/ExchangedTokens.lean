import Odudu.ProtocolOidc.TokenIssuing

/-!
# What an exchange makes

The tokens of an exchange, and the grant it records, are made from what the subject token is
taken for: an access token for no more than its grant, a refresh token until it expires, and an
ID token for its subject alone.
-/

set_option autoImplicit false

namespace Odudu.ProtocolOidc

open ReadCommitted Program

variable {R : Rules database Failure} {w : Writes database} {s : Rows} {env : Deployment}
  {F : Rows → Prop}

/-- The credential that a text is presented as. -/
def presentedAs (type : ExchangeTokenType) (text : TokenText) : Option Credential :=
  match type with
  | .accessToken => text.accessToken.map .accessToken
  | .refreshToken => some (.refreshToken text.refreshTokenHash)
  | .idToken => text.idToken.map .idToken

/-- The credential that is presented to an exchange. -/
def ExchangeRequest.presented (r : ExchangeRequest) : Option Credential :=
  (acceptedType r.subjectTokenType).bind fun type ↦ presentedAs type r.subjectToken

/-- What an exchange hands over, and the grant that it records. -/
def ExchangeResponse.credentials (response : ExchangeResponse) (r : ExchangeRequest) :
    List Credential :=
  match response.issued with
  | .accessToken token => [.grant r.grantId, .accessToken token]
  | .refreshToken hash _ => [.grant r.grantId, .refreshToken hash]
  | .idToken token => [.idToken token]

/-- The access token that an exchange hands over is coherent. -/
def ExchangeResponse.Coherent (response : ExchangeResponse) (env : Deployment) : Prop :=
  ∀ token, response.issued = .accessToken token → token.Coherent env

/-- What a resolved token is worth to the exchange. -/
def ResolvedExchangeToken.worth (token : ResolvedExchangeToken) : Worth where
  subjectId := token.subjectId
  scope := token.scope
  claims := askedClaims token.requestedUserinfoClaims
  expiresAt := ceilingAt token.expiresAt
  ceiling := ceilingAt token.expiresAt
  acts := token.act.isSome

/-- A token that was resolved is what an exchange takes the credential presented for. -/
def Rows.TakenFor (s : Rows) (presented : Option Credential)
    (resolved : Option ResolvedExchangeToken) : Prop :=
  ∀ token, resolved = some token → ∃ x, presented = some x ∧ s.Takes x token.worth

theorem kept_takenFor (presented : Option Credential) (resolved : Option ResolvedExchangeToken) :
    KeptByLineage fun s ↦ s.TakenFor presented resolved := by
  intro s s' hkeeps h token htoken
  obtain ⟨x, hx, htakes⟩ := h token htoken
  exact ⟨x, hx, htakes.keeps hkeeps⟩

theorem takenFor_none (presented : Option Credential) : s.TakenFor presented none :=
  fun _ h ↦ nomatch h

namespace ExchangeRequest

variable (r : ExchangeRequest)

theorem wp_sessionIsLive_lawful (hR : refreshLaw.Abides R) (hF : KeptByLineage F)
    (sessionId : Option SessionId) (now : Time) (h₀ : Carrying F w s) :
    (r.sessionIsLive sessionId now).wp R w s fun _ w s ↦ Carrying F w s := by
  cases sessionId with
  | none => exact h₀
  | some => exact wp_read_lawful hR hF h₀ rfl fun _ _ _ h₁ ↦ h₁

theorem wp_liveGrant_lawful (hR : refreshLaw.Abides R) (hF : KeptByLineage F) (grantId : GrantId)
    (now : Time) (h₀ : Carrying F w s) :
    (r.liveGrant grantId now).wp R w s fun found w s ↦
      Carrying (fun s ↦ F s ∧ s.Found grantId found) w s := by
  have hnone : ∀ {w s}, Carrying F w s → Carrying (fun s ↦ F s ∧ s.Found grantId none) w s :=
    fun h ↦ h.imp fun hfact ↦ ⟨hfact, fun _ h ↦ nomatch h⟩
  refine wp_read_lawful hR hF h₀ rfl fun s₁ found hfound h₁ ↦ ?_
  cases found with
  | none => exact hnone h₁
  | some grant =>
    dsimp only
    split
    case isTrue => exact hnone h₁
    case isFalse =>
      split
      case isTrue => exact hnone h₁
      case isFalse =>
        rw [wp_bind]
        refine wp_mono ?_ (wp_sessionIsLive_lawful r hR (hF.and (kept_found grantId (some grant)))
          grant.sessionId now (h₁.imp fun hfact ↦ ⟨hfact, found_of_answers hfound⟩))
        intro live w₂ s₂ h₂
        cases live with
        | false => exact hnone (h₂.imp And.left)
        | true => exact h₂

theorem wp_resolveAccessToken_lawful (hR : refreshLaw.Abides R) (hF : KeptByLineage F)
    (text : TokenText) (now : Time) (h₀ : Carrying F w s) :
    (r.resolveAccessToken text now).wp R w s fun resolved w s ↦
      Carrying (fun s ↦ F s ∧ s.TakenFor (presentedAs .accessToken text) resolved) w s := by
  rw [resolveAccessToken]
  split
  case h_1 => exact h₀.imp fun hfact ↦ ⟨hfact, takenFor_none _⟩
  case h_2 payload hpayload =>
    rw [wp_bind]
    refine wp_mono ?_ (wp_liveGrant_lawful r hR hF payload.grantId now h₀)
    intro found w₁ s₁ h₁
    refine h₁.imp fun ⟨hfact, hfound⟩ ↦ ⟨hfact, fun token htoken ↦ ?_⟩
    obtain ⟨grant, rfl, rfl⟩ := Option.map_eq_some_iff.mp htoken
    refine ⟨.accessToken payload, by rw [presentedAs, hpayload, Option.map_some], ?_⟩
    exact ⟨_, Rows.Found.recorded hfound, rfl⟩

theorem wp_resolveRefreshToken_lawful (hR : refreshLaw.Abides R) (hF : KeptByLineage F)
    (text : TokenText) (now : Time) (h₀ : Carrying F w s) :
    (r.resolveRefreshToken text now).wp R w s fun resolved w s ↦
      Carrying (fun s ↦ F s ∧ s.TakenFor (presentedAs .refreshToken text) resolved) w s := by
  refine wp_read_lawful hR hF h₀ rfl fun s₁ record hrecord h₁ ↦ ?_
  cases record with
  | none => exact h₁.imp fun hfact ↦ ⟨hfact, takenFor_none _⟩
  | some record =>
    dsimp only
    split
    case isTrue => exact h₁.imp fun hfact ↦ ⟨hfact, takenFor_none _⟩
    case isFalse =>
      split
      case isTrue => exact h₁.imp fun hfact ↦ ⟨hfact, takenFor_none _⟩
      case isFalse =>
        have hseen : (s₁.after w).Seen text.refreshTokenHash record :=
          ⟨record, Option.some.inj hrecord, .refl record⟩
        rw [wp_bind]
        refine wp_mono ?_ (wp_liveGrant_lawful r hR (hF.and (kept_seen text.refreshTokenHash record))
          record.grantId now (h₁.imp fun hfact ↦ ⟨hfact, hseen⟩))
        intro found w₂ s₂ h₂
        refine h₂.imp fun ⟨⟨hfact, hseen⟩, hfound⟩ ↦ ⟨hfact, fun token htoken ↦ ?_⟩
        obtain ⟨grant, rfl, rfl⟩ := Option.map_eq_some_iff.mp htoken
        refine ⟨.refreshToken text.refreshTokenHash, rfl, ?_⟩
        obtain ⟨row', hrow', hsame⟩ := hseen
        obtain ⟨grant', hgrant', hsame'⟩ := hfound grant rfl
        refine ⟨row', grant', hrow', ?_, ?_⟩
        · rw [hsame.grantId]
          exact hgrant'
        · rw [hsame.expiresAt, hsame'.worth, hsame'.actChain]
          rfl

theorem wp_resolveIdToken_lawful (hR : refreshLaw.Abides R) (hF : KeptByLineage F)
    (text : TokenText) (now : Time) (h₀ : Carrying F w s) :
    (r.resolveIdToken text now).wp R w s fun resolved w s ↦
      Carrying (fun s ↦ F s ∧ s.TakenFor (presentedAs .idToken text) resolved) w s := by
  rw [resolveIdToken]
  split
  case h_1 => exact h₀.imp fun hfact ↦ ⟨hfact, takenFor_none _⟩
  case h_2 claims hclaims =>
    split
    case isTrue => exact h₀.imp fun hfact ↦ ⟨hfact, takenFor_none _⟩
    case isFalse =>
      split
      case isTrue => exact h₀.imp fun hfact ↦ ⟨hfact, takenFor_none _⟩
      case isFalse =>
        rw [wp_bind]
        refine wp_mono ?_ (wp_sessionIsLive_lawful r hR hF claims.sid now h₀)
        intro live w₁ s₁ h₁
        cases live with
        | false => exact h₁.imp fun hfact ↦ ⟨hfact, takenFor_none _⟩
        | true =>
          refine h₁.imp fun hfact ↦ ⟨hfact, ?_⟩
          rintro _ ⟨rfl⟩
          exact ⟨.idToken claims, by rw [presentedAs, hclaims, Option.map_some], rfl⟩

theorem wp_resolveByType_lawful (hR : refreshLaw.Abides R) (hF : KeptByLineage F)
    (type : ExchangeTokenType) (text : TokenText) (now : Time) (h₀ : Carrying F w s) :
    (r.resolveByType type text now).wp R w s fun resolved w s ↦
      Carrying (fun s ↦ F s ∧ s.TakenFor (presentedAs type text) resolved) w s := by
  cases type with
  | accessToken => exact wp_resolveAccessToken_lawful r hR hF text now h₀
  | refreshToken => exact wp_resolveRefreshToken_lawful r hR hF text now h₀
  | idToken => exact wp_resolveIdToken_lawful r hR hF text now h₀

theorem wp_resolveExchangeToken_lawful (hR : refreshLaw.Abides R) (hF : KeptByLineage F)
    (type : ExchangeTokenType) (text : TokenText) (now : Time) (h₀ : Carrying F w s) :
    (r.resolveExchangeToken type text now).wp R w s fun resolved w s ↦
      Carrying (fun s ↦ F s ∧ s.TakenFor (presentedAs type text) resolved) w s := by
  rw [resolveExchangeToken, wp_bind]
  refine wp_mono ?_ (wp_resolveByType_lawful r hR hF type text now h₀)
  intro resolved w₁ s₁ h₁
  cases resolved with
  | none => exact h₁
  | some =>
    refine wp_read_lawful hR (hF.and (kept_takenFor _ _)) h₁ rfl fun s₂ subject _ h₂ ↦ ?_
    cases subjectIsEnabled subject with
    | false => exact h₂.imp fun ⟨hfact, _⟩ ↦ ⟨hfact, takenFor_none _⟩
    | true => exact h₂

/-- An actor's token comes with the exchange. -/
def delegates : Bool := r.actorToken.isSome && r.actorTokenType.isSome

theorem wp_resolveActor_lawful (hR : refreshLaw.Abides R) (hF : KeptByLineage F) (now : Time)
    (h₀ : Carrying F w s) :
    (r.resolveActor now).wp R w s fun actor w s ↦
      Carrying (fun s ↦ F s ∧ (r.delegates = true → actor.isSome = true)) w s := by
  rw [resolveActor]
  split
  case h_1 text raw _ _ =>
    split
    case h_1 => exact hR.wp_throw
    case h_2 type _ =>
      rw [wp_bind]
      refine wp_mono ?_ (wp_resolveExchangeToken_lawful r hR hF type text now h₀)
      intro actor w₁ s₁ h₁
      cases actor with
      | none => exact hR.wp_throw
      | some => exact h₁.imp fun hfact ↦ ⟨hfact.1, fun _ ↦ rfl⟩
  case h_2 hnone _ =>
    split
    case isTrue => exact hR.wp_throw
    case isFalse => exact h₀.imp fun hfact ↦ ⟨hfact, fun h ↦ by simp [delegates, hnone] at h⟩
  case h_3 hnone => exact h₀.imp fun hfact ↦ ⟨hfact, fun h ↦ by simp [delegates, hnone] at h⟩

theorem attenuateScope_subset {requested : Option (List String)} {granted scope : List String}
    (h : attenuateScope requested granted = some scope) : scope ⊆ granted := by
  unfold attenuateScope at h
  split at h
  case h_1 =>
    obtain rfl := Option.some.inj h
    exact fun _ hmem ↦ hmem
  case h_2 tokens =>
    dsimp only at h
    split_ifs at h with hempty hall
    obtain rfl := Option.some.inj h
    exact fun token hmem ↦ List.contains_iff_mem.mp (List.all_eq_true.mp hall token hmem)

/-- A chain that was narrowed is narrowed. -/
theorem narrowAct_of_ok {budget : ℕ} {act narrowed : ActClaim}
    (h : narrowAct budget act = .ok narrowed) : narrowAct budget narrowed = .ok narrowed := by
  induction budget generalizing act narrowed with
  | zero => exact nomatch h
  | succ budget ih =>
    obtain ⟨sub, inner⟩ := act
    cases inner with
    | none =>
      simp only [narrowAct] at h
      split_ifs at h with hsub
      obtain rfl := Narrowed.ok.inj h
      simp only [narrowAct, if_neg hsub]
    | some inner =>
      simp only [narrowAct] at h
      split_ifs at h with hsub
      cases hinner : narrowAct budget inner with
      | malformed | tooDeep => simp [hinner] at h
      | ok =>
        simp only [hinner, Narrowed.ok.injEq] at h
        obtain rfl := h
        simp only [narrowAct, if_neg hsub, ih hinner]

theorem narrowActClaim_of_ok {budget : ℕ} (hbudget : budget + 1 = MAX_DELEGATION_DEPTH)
    {sub : String} (hsub : sub ≠ "") {prior inner : ActClaim}
    (h : narrowAct budget prior = .ok inner) :
    (narrowActClaim (some (.mk sub (some inner)))).isSome = true := by
  rw [narrowActClaim, Option.bind_some, ← hbudget]
  simp only [narrowAct, if_neg hsub, narrowAct_of_ok h, Option.isSome_some]

/-- A chain that was read can be read again. -/
theorem isSome_narrowActClaim_narrowed {act : Option ActClaim}
    (h : (narrowActClaim act).isSome = true) :
    (narrowActClaim (narrowActClaim act)).isSome = true := by
  cases act with
  | none => exact h
  | some act =>
    cases hnarrowed : narrowAct MAX_DELEGATION_DEPTH act with
    | malformed | tooDeep => simp [narrowActClaim, hnarrowed] at h
    | ok => simp [narrowActClaim, hnarrowed, narrowAct_of_ok hnarrowed]

theorem subjectText_ne_empty (id : SubjectId) : subjectText id ≠ "" := Nat.repr_ne_empty

/-- The chain of an actor can be read, and names the actor. -/
theorem buildActChain_readable {id : SubjectId} {prior : Option ActClaim} {act : ActClaim}
    (h : buildActChain (subjectText id) prior = .ok act) :
    (narrowActClaim (some act)).isSome = true := by
  have hsub := subjectText_ne_empty id
  cases prior with
  | none =>
    obtain rfl := Narrowed.ok.inj h
    simp [narrowActClaim, MAX_DELEGATION_DEPTH, narrowAct, hsub]
  | some prior =>
    rw [buildActChain] at h
    cases hinner : narrowAct (MAX_DELEGATION_DEPTH - 1) prior with
    | malformed | tooDeep => simp [hinner] at h
    | ok =>
      simp only [hinner, Narrowed.ok.injEq] at h
      obtain rfl := h
      exact narrowActClaim_of_ok rfl hsub hinner

variable {subject : ResolvedExchangeToken} {actor : Option ResolvedExchangeToken}

/-- A token that is exchanged with an actor's names the actor, in a chain that can be read. -/
theorem delegatedAct_readable
    {delegated : Option ActClaim}
    (h : r.delegatedAct subject actor = .ok delegated) :
    (actor.isSome = true → delegated.isSome = true) ∧
      (delegated.isSome = true → (narrowActClaim delegated).isSome = true) := by
  unfold delegatedAct at h
  split_ifs at h with hother hpermits
  cases actor with
  | none =>
    obtain rfl := Except.ok.inj h
    exact ⟨id, id⟩
  | some =>
    dsimp only at h
    split at h
    case h_1 act hact =>
      obtain rfl := Except.ok.inj h
      exact ⟨fun _ ↦ rfl, fun _ ↦ buildActChain_readable hact⟩
    case h_2 => exact nomatch h

/-- What is exchanged for a marked token is marked, and so is the grant it is recorded under. -/
theorem exchangedAct_marks {scope : List String}
    {delegated act : Option ActClaim} (h : r.exchangedAct subject scope delegated = .ok act)
    (hdelegated : delegated.isSome = true → (narrowActClaim delegated).isSome = true)
    (hmarks : subject.worth.Marked ∨ delegated.isSome = true) :
    act.isSome = true ∧ ((narrowActClaim act).isSome = true ∨ holdsMcpScope scope = true) := by
  cases delegated with
  | some =>
    have hreadable := hdelegated rfl
    dsimp only [exchangedAct] at h
    split_ifs at h with hunreadable hmcp hscope
    · obtain rfl := Except.ok.inj h
      exact ⟨rfl, Or.inl hreadable⟩
    · obtain rfl := Except.ok.inj h
      exact ⟨rfl, Or.inl hreadable⟩
  | none =>
    dsimp only [exchangedAct] at h
    rw [Option.none_or] at h
    split_ifs at h with hunreadable hmcp hscope
    · obtain rfl := Except.ok.inj h
      exact ⟨rfl, Or.inr (by simpa using hscope)⟩
    · obtain rfl := Except.ok.inj h
      have hacts : subject.act.isSome = true :=
        (hmarks.resolve_right fun h ↦ nomatch h).resolve_right hmcp
      have hnarrowed : (narrowActClaim subject.act).isSome = true := by
        simpa [hacts, Option.isSome_iff_ne_none] using hunreadable
      exact ⟨hnarrowed, Or.inl (isSome_narrowActClaim_narrowed hnarrowed)⟩

variable {e : Exchanged} {subjectType issuedType : ExchangeTokenType}

/-- What an exchange that is settled went through. -/
theorem settle_cases
    (h : r.settle env subjectType issuedType subject actor = .ok e) :
    ∃ delegated, r.delegatedAct subject actor = .ok delegated ∧
      r.exchangedScope subject = .ok e.scope ∧
        r.exchangedAct subject e.scope delegated = .ok e.act ∧
          e.subject = subject ∧ e.actor = actor := by
  unfold settle at h
  cases hdelegated : r.delegatedAct subject actor with
  | error => simp [hdelegated, Bind.bind, Except.bind] at h
  | ok delegated =>
    cases hscope : r.exchangedScope subject with
    | error => simp [hdelegated, hscope, Bind.bind, Except.bind] at h
    | ok scope =>
      cases hact : r.exchangedAct subject scope delegated with
      | error => simp [hdelegated, hscope, hact, Bind.bind, Except.bind] at h
      | ok =>
        cases haudience : r.exchangedAudience env subjectType issuedType with
        | error =>
          simp [hdelegated, hscope, hact, haudience, Bind.bind, Except.bind] at h
        | ok =>
          simp only [hdelegated, hscope, hact, haudience, Bind.bind, Except.bind, Pure.pure,
            Except.pure, Except.ok.injEq] at h
          obtain rfl := h
          exact ⟨delegated, rfl, rfl, hact, rfl, rfl⟩

/-- What an exchange settles on is for the subject token, with no more scope, and marked where
the token is or an actor's comes with it. -/
theorem settle_eq_ok
    (h : r.settle env subjectType issuedType subject actor = .ok e) :
    e.subject = subject ∧ e.scope ⊆ subject.scope ∧
      (subject.worth.Marked ∨ actor.isSome = true → e.act.isSome = true ∧
        ((narrowActClaim e.act).isSome = true ∨ holdsMcpScope e.scope = true)) := by
  obtain ⟨delegated, hdelegated, hscope, hact, hsubject, -⟩ := r.settle_cases h
  have hactor := delegatedAct_readable r hdelegated
  refine ⟨hsubject, ?_, fun hmarks ↦ exchangedAct_marks r hact hactor.2 (hmarks.imp_right hactor.1)⟩
  unfold exchangedScope at hscope
  split at hscope
  case h_1 => exact nomatch hscope
  case h_2 scope' hattenuated =>
    obtain rfl := Except.ok.inj hscope
    exact attenuateScope_subset hattenuated

theorem cappedBy_le (ceiling : Option Time) (expiresAt : Time) :
    (cappedBy ceiling expiresAt : WithTop Time) ≤ ceilingAt ceiling := by
  cases ceiling with
  | none => exact le_top
  | some => exact WithTop.coe_le_coe.mpr (Nat.min_le_right _ _)

/-- What an exchange marks, it marks with an actor, and the grant with one that can be read or
with an MCP scope. -/
def Exchanged.MarkedWhere (e : Exchanged) (marks : Prop) : Prop :=
  marks → e.act.isSome = true ∧
    ((narrowActClaim e.act).isSome = true ∨ holdsMcpScope e.scope = true)

variable {marks : Prop}

/-- The grant that an exchange records is worth no more than the subject token. -/
theorem makes_exchangedGrant {audience : List String}
    (hscope : e.scope ⊆ e.subject.scope) (hmarks : e.MarkedWhere marks)
    (h : s.Recorded r.grantId (r.exchangedGrant e audience).worth) :
    s.Makes marks e.subject.worth (.grant r.grantId) :=
  ⟨_, h, ⟨rfl, hscope, le_rfl⟩, fun _ ↦ ⟨rfl, fun h ↦ (hmarks h).2⟩⟩

/-- An exchange gives nothing that its subject token does not back. -/
theorem wp_issueExchanged_lawful (hR : refreshLaw.Abides R) (hF : KeptByLineage F)
    (issuedType : ExchangeTokenType) (hscope : e.scope ⊆ e.subject.scope)
    (hmarks : e.MarkedWhere marks) (now : Time) (h₀ : Carrying F w s) :
    (r.issueExchanged env issuedType e now).wp R w s fun response w s ↦
      Carrying (fun s ↦ F s ∧ response.Coherent env ∧
        (∀ token, response.issued = .accessToken token → s.Backs token) ∧
        ∀ y ∈ response.credentials r, s.Makes marks e.subject.worth y) w s := by
  cases issuedType with
  | idToken =>
    refine h₀.imp fun hfact ↦ ⟨hfact, fun _ h ↦ (nomatch h), fun _ h ↦ (nomatch h), fun y hy ↦ ?_⟩
    obtain rfl := List.mem_singleton.mp hy
    exact ⟨_, rfl, ⟨rfl, fun _ hmem ↦ (nomatch hmem), cappedBy_le _ _⟩, fun h ↦ nomatch h⟩
  | refreshToken =>
    rw [issueExchanged, issueExchangedRefreshToken]
    split
    case isTrue => exact hR.wp_throw
    case isFalse hallowed =>
      have hallowed : refreshAllowedForScope e.scope = true := by simpa using hallowed
      have hgrant := kept_found r.grantId (some (r.exchangedGrant e e.audience))
      refine wp_tokenGrantCreate hR hF h₀ fun s₁ w₁ h₁ ↦ ?_
      refine wp_refreshTokenCreate hR (hF.and hgrant) h₁ _ (fun _ h ↦ h.2.recorded) hallowed
        (cappedBy_le _ _) fun s₂ w₂ h₂ ↦ ?_
      refine h₂.imp fun ⟨⟨hfact, hfound⟩, hholds⟩ ↦
        ⟨hfact, fun _ h ↦ (nomatch h), fun _ h ↦ (nomatch h), fun y hy ↦ ?_⟩
      simp only [ExchangeResponse.credentials, List.mem_cons, List.not_mem_nil, or_false] at hy
      obtain rfl | rfl := hy
      · exact makes_exchangedGrant r hscope hmarks hfound.recorded
      · exact ⟨_, hholds, ⟨rfl, hscope, le_rfl⟩, fun _ ↦ ⟨rfl, fun h ↦ (hmarks h).2⟩⟩
  | accessToken =>
    rw [issueExchanged, issueExchangedAccessToken]
    split
    case h_1 => exact hR.wp_throw
    case h_2 token hmint =>
      refine wp_tokenGrantCreate hR hF h₀ fun s₁ w₁ h₁ ↦ ?_
      refine h₁.imp fun ⟨hfact, hfound⟩ ↦ ⟨hfact, ?_, ?_, fun y hy ↦ ?_⟩
      · rintro _ ⟨rfl⟩
        exact coherent_of_mintAccessToken hmint
      · rintro _ ⟨rfl⟩
        exact backs_of_mint hmint hfound rfl rfl rfl
      · simp only [ExchangeResponse.credentials, List.mem_cons, List.not_mem_nil, or_false] at hy
        obtain rfl | rfl := hy
        · exact makes_exchangedGrant r hscope hmarks hfound.recorded
        · exact makes_of_mint hmint hfound.recorded rfl (fun _ hmem ↦ hmem) rfl rfl ⟨rfl, hscope, rfl⟩
            le_rfl fun h ↦ Or.inl (hmarks h).1

/-- An exchange makes what it hands over from what it takes the subject token for, and marks it
where that is marked or an actor's token comes with it. -/
theorem wp_issueExchangedTokens_lawful (hR : refreshLaw.Abides R)
    (h₀ : Carrying (fun _ ↦ True) w s) :
    (issueExchangedTokens env r).wp R w s fun response w s ↦
      Carrying (fun s ↦ response.Coherent env ∧
        (∀ token, response.issued = .accessToken token → s.Backs token) ∧
        ∃ x u, r.presented = some x ∧ s.Takes x u ∧
          ∀ y ∈ response.credentials r, s.Makes (u.Marked ∨ r.delegates = true) u y) w s := by
  rw [issueExchangedTokens]
  split
  case h_1 subjectType issuedType hsubjectType _ =>
    have hpresented : r.presented = presentedAs subjectType r.subjectToken := by
      rw [presented, hsubjectType, Option.bind_some]
    split
    case isTrue => exact hR.wp_throw
    case isFalse =>
      split
      case isTrue => exact hR.wp_throw
      case isFalse =>
        refine wp_read_lawful hR Law.kept_true h₀ rfl fun s₁ now _ h₁ ↦ ?_
        rw [wp_bind]
        refine wp_mono ?_ (wp_resolveExchangeToken_lawful r hR Law.kept_true subjectType
          r.subjectToken now h₁)
        intro resolved w₂ s₂ h₂
        cases resolved with
        | none => exact hR.wp_throw
        | some subject =>
          have htaken := kept_takenFor (presentedAs subjectType r.subjectToken) (some subject)
          rw [wp_bind]
          refine wp_mono ?_ (wp_resolveActor_lawful r hR htaken now (h₂.imp And.right))
          intro actor w₃ s₃ h₃
          have hactor := h₃.fact.2
          split
          case h_1 => exact hR.wp_throw
          case h_2 e hsettled =>
            obtain ⟨rfl, hscope, hmarks⟩ := settle_eq_ok r hsettled
            refine wp_mono ?_ (wp_issueExchanged_lawful r hR htaken issuedType hscope
              (fun h ↦ hmarks (Or.imp_right hactor h)) now (h₃.imp And.left))
            intro response w₄ s₄ h₄
            refine h₄.imp fun ⟨htaken, hcoherent, hbacks, hmakes⟩ ↦ ⟨hcoherent, hbacks, ?_⟩
            obtain ⟨x, hx, htakes⟩ := htaken e.subject rfl
            exact ⟨x, _, hpresented.trans hx, htakes, hmakes⟩
  case h_2 => exact hR.wp_throw

end ExchangeRequest

end Odudu.ProtocolOidc
