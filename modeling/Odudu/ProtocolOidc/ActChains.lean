import Odudu.ProtocolOidc.ClientAssertion
import Odudu.ProtocolOidc.TokenChains

/-!
# Act chains in storage

`narrowAct`, `buildActChain` and `narrowActClaim` (`service/token-exchange.ts`) read an `act`
claim as it comes from a verified token or a stored grant, where nothing is known of it.  A
value stands for a chain (`StoredAs`) whatever the order of its members and whatever else it
has; it is read just when the chain is within the budget and names every actor
(`narrowActValue_eq_ok_iff`), and so a chain that was built is read back in full.

An exchange builds on the chain of the actor's token, or keeps that of the subject's where there
is no actor.  Under an actor the subject token's own chain is not nested: it is given up.
-/

set_option autoImplicit false

namespace Odudu.ProtocolOidc

open ClientAssertion (Json)

/-- The actors of a chain, the last to act first. -/
def ActClaim.actors : ActClaim → List String
  | .mk sub none => [sub]
  | .mk sub (some act) => sub :: act.actors

def ActClaim.depth (act : ActClaim) : ℕ := act.actors.length

/-- A value that stands for a chain. -/
inductive StoredAs : ActClaim → Json → Prop where
  | last {sub : String} {value : Json} (hsub : value.get "sub" = some (.string sub))
      (hact : value.get "act" = none) : StoredAs (.mk sub none) value
  | nest {sub : String} {act : ActClaim} {value nested : Json}
      (hsub : value.get "sub" = some (.string sub)) (hact : value.get "act" = some nested)
      (h : StoredAs act nested) : StoredAs (.mk sub (some act)) value

/-- `narrowAct` of a value. -/
def narrowActValue : ℕ → Json → Narrowed
  | 0, _ => .tooDeep
  | budget + 1, value =>
    match value.get "sub" with
    | some (.string sub) =>
      if sub = "" then .malformed
      else
        match value.get "act" with
        | none => .ok (.mk sub none)
        | some nested =>
          match narrowActValue budget nested with
          | .ok inner => .ok (.mk sub (some inner))
          | refused => refused
    | _ => .malformed

/-- `buildActChain` on a value. -/
def buildActChainValue (actorSubject : String) (priorAct : Option Json) : Narrowed :=
  match priorAct with
  | none => .ok (.mk actorSubject none)
  | some prior =>
    match narrowActValue (MAX_DELEGATION_DEPTH - 1) prior with
    | .ok inner => .ok (.mk actorSubject (some inner))
    | refused => refused

/-- `narrowActClaim` of a value. -/
def narrowActClaimValue (value : Option Json) : Option ActClaim :=
  match value with
  | none | some .null => none
  | some value =>
    match narrowActValue MAX_DELEGATION_DEPTH value with
    | .ok act => some act
    | _ => none

/-- The value of a chain, as an exchange signs or stores it. -/
def ActClaim.toJson : ActClaim → Json
  | .mk sub none => .object [("sub", .string sub)]
  | .mk sub (some act) => .object [("sub", .string sub), ("act", act.toJson)]

variable {act inner : ActClaim} {value : Json} {budget : ℕ} {sub : String}

/-- A chain whose actors are all named. -/
def ActClaim.Named (act : ActClaim) : Prop := ∀ sub ∈ act.actors, sub ≠ ""

@[simp] theorem actors_last : (ActClaim.mk sub none).actors = [sub] := by rw [ActClaim.actors]

@[simp] theorem actors_nest : (ActClaim.mk sub (some act)).actors = sub :: act.actors := by
  rw [ActClaim.actors]

theorem depth_last : (ActClaim.mk sub none).depth = 1 := by
  rw [ActClaim.depth, actors_last, List.length_singleton]

theorem depth_nest : (ActClaim.mk sub (some act)).depth = act.depth + 1 := by
  rw [ActClaim.depth, actors_nest, List.length_cons, ActClaim.depth]

theorem named_last : (ActClaim.mk sub none).Named ↔ sub ≠ "" := by simp [ActClaim.Named]

theorem named_nest : (ActClaim.mk sub (some act)).Named ↔ sub ≠ "" ∧ act.Named := by
  simp [ActClaim.Named]

/-- A value is of one chain. -/
theorem StoredAs.unique {act' : ActClaim} (h : StoredAs act value) (h' : StoredAs act' value) :
    act = act' := by
  induction h generalizing act' with
  | last hsub hact =>
    cases h' with
    | last hsub' =>
      rw [hsub] at hsub'
      obtain rfl := Json.string.inj (Option.some.inj hsub')
      rfl
    | nest _ hact' =>
      rw [hact] at hact'
      cases hact'
  | nest hsub hact _ ih =>
    cases h' with
    | last _ hact' =>
      rw [hact] at hact'
      cases hact'
    | nest hsub' hact' hnested =>
      rw [hsub] at hsub'
      rw [hact] at hact'
      obtain rfl := Json.string.inj (Option.some.inj hsub')
      obtain rfl := Option.some.inj hact'
      rw [ih hnested]

theorem storedAs_toJson (act : ActClaim) : StoredAs act act.toJson := by
  match act with
  | .mk sub none =>
    rw [ActClaim.toJson]
    exact .last rfl rfl
  | .mk sub (some inner) =>
    rw [ActClaim.toJson]
    exact .nest rfl rfl (storedAs_toJson inner)

/-- A chain that is in a value is read in full, or is too deep. -/
theorem narrowActValue_of_stored (h : StoredAs act value) (hnamed : act.Named) :
    narrowActValue budget value = if act.depth ≤ budget then .ok act else .tooDeep := by
  induction h generalizing budget with
  | last hsub hact =>
    rw [depth_last]
    cases budget with
    | zero => rfl
    | succ budget =>
      rw [narrowActValue, hsub, if_pos (Nat.le_add_left 1 budget)]
      simp only
      rw [if_neg (named_last.mp hnamed), hact]
  | @nest sub inner _ _ hsub hact _ ih =>
    rw [depth_nest]
    obtain ⟨hempty, hinner⟩ := named_nest.mp hnamed
    cases budget with
    | zero => rfl
    | succ budget =>
      rw [narrowActValue, hsub]
      simp only
      rw [if_neg hempty, hact]
      simp only
      rw [ih hinner]
      by_cases hdepth : inner.depth ≤ budget
      · rw [if_pos hdepth, if_pos (Nat.succ_le_succ hdepth)]
      · rw [if_neg hdepth, if_neg fun h ↦ hdepth (Nat.le_of_succ_le_succ h)]

/-- What is read of a value is the chain in it. -/
theorem stored_of_narrowActValue (h : narrowActValue budget value = .ok act) :
    StoredAs act value ∧ act.Named := by
  induction budget generalizing act value with
  | zero => cases h
  | succ _ ih =>
    rw [narrowActValue] at h
    split at h
    case h_1 sub hsub =>
      split_ifs at h with hempty
      split at h
      case h_1 hact =>
        obtain rfl := Narrowed.ok.inj h
        exact ⟨.last hsub hact, named_last.mpr hempty⟩
      case h_2 nested hact =>
        split at h
        case h_1 inner hinner =>
          obtain rfl := Narrowed.ok.inj h
          obtain ⟨hstored, hnamed⟩ := ih hinner
          exact ⟨.nest hsub hact hstored, named_nest.mpr ⟨hempty, hnamed⟩⟩
        case h_2 hrefused => exact absurd h (hrefused act)
    case h_2 => cases h

/-- A value is read just when it stands for a chain within the budget that names its actors. -/
theorem narrowActValue_eq_ok_iff :
    narrowActValue budget value = .ok act ↔
      StoredAs act value ∧ act.Named ∧ act.depth ≤ budget := by
  constructor
  · intro h
    obtain ⟨hstored, hnamed⟩ := stored_of_narrowActValue h
    rw [narrowActValue_of_stored hstored hnamed] at h
    refine ⟨hstored, hnamed, ?_⟩
    by_contra hdeep
    rw [if_neg hdeep] at h
    cases h
  · rintro ⟨hstored, hnamed, hdepth⟩
    rw [narrowActValue_of_stored hstored hnamed, if_pos hdepth]

/-- A chain that can be read is read back from storage. -/
theorem narrowActClaimValue_of_stored (h : StoredAs act value) (hnamed : act.Named)
    (hdepth : act.depth ≤ MAX_DELEGATION_DEPTH) : narrowActClaimValue (some value) = some act := by
  have hread : narrowActValue MAX_DELEGATION_DEPTH value = .ok act := by
    rw [narrowActValue_of_stored h hnamed, if_pos hdepth]
  unfold narrowActClaimValue
  split
  · rename_i hnone
    cases hnone
  · rename_i hnull
    obtain rfl := Option.some.inj hnull
    cases h with
    | last hsub | nest hsub => cases hsub
  · rename_i value' _ hvalue
    obtain rfl := Option.some.inj hvalue
    rw [hread]

variable {actorSubject : String}

/-- What is built has the actor before all the actors of the value it is built on. -/
theorem buildActChainValue_ok (hactor : actorSubject ≠ "")
    {prior : Option Json} (h : buildActChainValue actorSubject prior = .ok act) :
    act.Named ∧ act.depth ≤ MAX_DELEGATION_DEPTH ∧
      (prior = none → act = .mk actorSubject none) ∧
      ∀ value, prior = some value →
        ∃ inner, StoredAs inner value ∧ act = .mk actorSubject (some inner) := by
  unfold buildActChainValue at h
  split at h
  · obtain rfl := Narrowed.ok.inj h
    refine ⟨named_last.mpr hactor, ?_, fun _ ↦ rfl, nofun⟩
    rw [depth_last]
    exact Nat.succ_pos _
  · rename_i value
    split at h
    · rename_i inner hinner
      obtain rfl := Narrowed.ok.inj h
      obtain ⟨hstored, hnamed, hdepth⟩ := narrowActValue_eq_ok_iff.mp hinner
      refine ⟨named_nest.mpr ⟨hactor, hnamed⟩, ?_, nofun, ?_⟩
      · rw [depth_nest]
        exact Nat.succ_le_succ hdepth
      · rintro _ ⟨⟩
        exact ⟨inner, hstored, rfl⟩
    · rename_i hrefused
      exact absurd h (hrefused act)

theorem buildActChainValue_of_deep (h : StoredAs act value)
    (hnamed : act.Named) (hdepth : MAX_DELEGATION_DEPTH ≤ act.depth) :
    buildActChainValue actorSubject (some value) = .tooDeep := by
  have hdeep : ¬ act.depth ≤ MAX_DELEGATION_DEPTH - 1 := by
    have hpos : 0 < MAX_DELEGATION_DEPTH := by decide
    omega
  rw [buildActChainValue, narrowActValue_of_stored h hnamed, if_neg hdeep]

/-! ### Chains of tokens and grants -/

/-- A chain is narrowed as its value is. -/
theorem narrowAct_eq (budget : ℕ) (act : ActClaim) :
    narrowAct budget act = narrowActValue budget act.toJson := by
  induction budget generalizing act with
  | zero => rfl
  | succ _ ih =>
    obtain ⟨sub, inner⟩ := act
    cases inner with
    | none =>
      rw [ActClaim.toJson]
      rfl
    | some =>
      rw [ActClaim.toJson, narrowAct, ih]
      rfl

theorem buildActChain_eq (actorSubject : String) (prior : Option ActClaim) :
    buildActChain actorSubject prior =
      buildActChainValue actorSubject (prior.map ActClaim.toJson) := by
  cases prior with
  | none => rfl
  | some =>
    rw [buildActChain, narrowAct_eq]
    rfl

/-- A chain that is read is the chain that was there. -/
theorem narrowActClaim_eq_some_iff {prior : Option ActClaim} :
    narrowActClaim prior = some act ↔
      prior = some act ∧ act.Named ∧ act.depth ≤ MAX_DELEGATION_DEPTH := by
  cases prior with
  | none =>
    refine iff_of_false (fun h ↦ ?_) fun h ↦ ?_
    · cases h
    · cases h.1
  | some prior =>
    have hread : narrowActClaim (some prior) = some act ↔
        narrowAct MAX_DELEGATION_DEPTH prior = .ok act := by
      rw [narrowActClaim, Option.bind_some]
      cases narrowAct MAX_DELEGATION_DEPTH prior <;> simp
    rw [hread, narrowAct_eq, narrowActValue_eq_ok_iff, Option.some.injEq]
    refine and_congr_left fun _ ↦ ⟨fun h ↦ (storedAs_toJson prior).unique h, ?_⟩
    rintro rfl
    exact storedAs_toJson prior

namespace ExchangeRequest

variable (r : ExchangeRequest)

/-- What an exchange says of its actors: an actor stands before the chain of its own token, and
where there is none the subject token's chain is kept. -/
theorem act_of_settle {env : Deployment} {subjectType issuedType : ExchangeTokenType}
    {subject : ResolvedExchangeToken} {actor : Option ResolvedExchangeToken} {e : Exchanged}
    (h : r.settle env subjectType issuedType subject actor = .ok e) :
    (∀ acting, actor = some acting → ∃ act, e.act = some act ∧
        buildActChain (subjectText acting.subjectId) acting.act = .ok act) ∧
      (actor = none → ∀ act, subject.act = some act → e.act = some act ∧
        narrowActClaim (some act) = some act) ∧
      (actor = none → subject.act = none →
        e.act = none ∨ e.act = some (.mk r.clientName none)) := by
  obtain ⟨delegated, hdelegated, -, hact, -, -⟩ := r.settle_cases h
  unfold delegatedAct at hdelegated
  split_ifs at hdelegated with hother hpermits
  refine ⟨?_, ?_, ?_⟩
  · rintro acting rfl
    dsimp only at hdelegated
    split at hdelegated
    · rename_i act hbuilt
      obtain rfl := Except.ok.inj hdelegated
      refine ⟨act, ?_, hbuilt⟩
      dsimp only [exchangedAct] at hact
      split_ifs at hact
      · exact (Except.ok.inj hact).symm
      · exact (Except.ok.inj hact).symm
    · cases hdelegated
  · rintro rfl act hsubject
    obtain rfl := Except.ok.inj hdelegated
    dsimp only [exchangedAct] at hact
    rw [hsubject, Option.none_or] at hact
    split_ifs at hact with hunread hmcp hscope
    all_goals
      cases hread : narrowActClaim (some act) with
      | none => simp [hread] at hunread
      | some =>
        have hsame := (narrowActClaim_eq_some_iff.mp hread).1
        rw [hread] at hact
        obtain rfl := Option.some.inj hsame
        exact ⟨(Except.ok.inj hact).symm, rfl⟩
  · rintro rfl hsubject
    obtain rfl := Except.ok.inj hdelegated
    dsimp only [exchangedAct] at hact
    rw [hsubject] at hact
    split_ifs at hact with hunread hmcp hscope
    · exact Or.inr (Except.ok.inj hact).symm
    · exact Or.inl (Except.ok.inj hact).symm

end ExchangeRequest

open ExchangeRequest in
/-- A chain that was built is read back in full from what was stored or signed of it, is no deeper
than the bound, has the actor before every actor of the chain it is built on, and is not built on
at the bound.  An exchange names its actor before the whole chain of the actor's token, or keeps
the subject token's chain where it has no actor, and a refresh signs the chain its grant has. -/
theorem act_chain_survives :
    (∀ (id : SubjectId) (prior : Option Json) (act : ActClaim),
      buildActChainValue (subjectText id) prior = .ok act →
        (∀ value, StoredAs act value → narrowActClaimValue (some value) = some act) ∧
        act.depth ≤ MAX_DELEGATION_DEPTH ∧
        (prior = none → act = .mk (subjectText id) none) ∧
        (∀ value, prior = some value →
          ∃ inner, StoredAs inner value ∧ act = .mk (subjectText id) (some inner)) ∧
        (act.depth = MAX_DELEGATION_DEPTH → ∀ value id', StoredAs act value →
          buildActChainValue (subjectText id') (some value) = .tooDeep)) ∧
    (∀ (r : ExchangeRequest) (env : Deployment) (subjectType issuedType : ExchangeTokenType)
      (subject : ResolvedExchangeToken) (actor : Option ResolvedExchangeToken) (e : Exchanged),
      r.settle env subjectType issuedType subject actor = .ok e →
        (∀ acting, actor = some acting → ∃ act, e.act = some act ∧
          act.depth ≤ MAX_DELEGATION_DEPTH ∧
            act = .mk (subjectText acting.subjectId) acting.act) ∧
        (actor = none → subject.act.isSome = true → e.act = subject.act) ∧
        (actor.isSome = true ∨ subject.act.isSome = true ∨ r.clientName ≠ "" →
          ∀ (refresh : RefreshRequest) (grantId : GrantId) (scope audience narrowed : List String),
            (refreshMint refresh grantId (r.exchangedGrant e audience) scope narrowed).act =
              e.act)) := by
  constructor
  · intro id prior act h
    obtain ⟨hnamed, hdepth, hnone, hsome⟩ := buildActChainValue_ok (subjectText_ne_empty id) h
    exact ⟨fun value hstored ↦ narrowActClaimValue_of_stored hstored hnamed hdepth, hdepth, hnone,
      hsome, fun hbound value id' hstored ↦ buildActChainValue_of_deep hstored hnamed hbound.ge⟩
  · intro r env subjectType issuedType subject actor e h
    obtain ⟨hacting, hkept, hmarked⟩ := r.act_of_settle h
    -- the chain of an actor's token, read as it stands
    have hbuilt : ∀ acting, actor = some acting → ∃ act, e.act = some act ∧ act.Named ∧
        act.depth ≤ MAX_DELEGATION_DEPTH ∧ act = .mk (subjectText acting.subjectId) acting.act := by
      intro acting hactor
      obtain ⟨act, hact, hbuild⟩ := hacting acting hactor
      rw [buildActChain_eq] at hbuild
      obtain ⟨hnamed, hdepth, hnone, hsome⟩ :=
        buildActChainValue_ok (subjectText_ne_empty acting.subjectId) hbuild
      refine ⟨act, hact, hnamed, hdepth, ?_⟩
      cases hprior : acting.act with
      | none => exact hnone (by rw [hprior]; rfl)
      | some prior =>
        obtain ⟨inner, hstored, rfl⟩ := hsome prior.toJson (by rw [hprior]; rfl)
        rw [hstored.unique (storedAs_toJson prior)]
    refine ⟨fun acting hactor ↦ ?_, fun hnone hsubject ↦ ?_, fun hnamed refresh grantId scope
      audience narrowed ↦ ?_⟩
    · obtain ⟨act, hact, -, hdepth, hchain⟩ := hbuilt acting hactor
      exact ⟨act, hact, hdepth, hchain⟩
    · obtain ⟨act, hact⟩ := Option.isSome_iff_exists.mp hsubject
      rw [hact]
      exact (hkept hnone act hact).1
    · change narrowActClaim e.act = e.act
      cases hactor : actor with
      | some acting =>
        obtain ⟨act, hact, hnamed, hdepth, -⟩ := hbuilt acting hactor
        rw [hact]
        exact narrowActClaim_eq_some_iff.mpr ⟨rfl, hnamed, hdepth⟩
      | none =>
        rw [hactor] at hnamed
        cases hsubject : subject.act with
        | some act =>
          obtain ⟨hsame, hread⟩ := hkept hactor act hsubject
          rw [hsame, hread]
        | none =>
          -- The exchange of an MCP token may name the client that asked for it.
          rcases hmarked hactor hsubject with hact | hact
          · rw [hact]
            rfl
          · have hclient : r.clientName ≠ "" := by simpa [hsubject] using hnamed
            rw [hact]
            exact narrowActClaim_eq_some_iff.mpr
              ⟨rfl, named_last.mpr hclient, by rw [depth_last]; decide⟩

/-- A chain with so many actors before its last. -/
def chainOfAgents : ℕ → ActClaim
  | 0 => .mk "agent" none
  | n + 1 => .mk "agent" (some (chainOfAgents n))

theorem named_chainOfAgents : ∀ n, (chainOfAgents n).Named
  | 0 => named_last.mpr (by decide)
  | n + 1 => named_nest.mpr ⟨by decide, named_chainOfAgents n⟩

/-- A chain at the bound is read back in full, and not built on. -/
theorem act_chain_survives_atBound :
    ∃ act, buildActChainValue (subjectText 7) (some (chainOfAgents (MAX_DELEGATION_DEPTH - 2)).toJson) =
        .ok act ∧ act.depth = MAX_DELEGATION_DEPTH ∧
      narrowActClaimValue (some act.toJson) = some act ∧
      buildActChainValue (subjectText 8) (some act.toJson) = .tooDeep := by
  have hbuilt : buildActChainValue (subjectText 7)
      (some (chainOfAgents (MAX_DELEGATION_DEPTH - 2)).toJson) =
        .ok (.mk (subjectText 7) (some (chainOfAgents (MAX_DELEGATION_DEPTH - 2)))) := by
    rw [buildActChainValue, narrowActValue_of_stored (storedAs_toJson _) (named_chainOfAgents _)]
    rfl
  obtain ⟨hread, -, -, -, hbound⟩ := act_chain_survives.1 7 _ _ hbuilt
  exact ⟨_, hbuilt, rfl, hread _ (storedAs_toJson _), hbound rfl _ 8 (storedAs_toJson _)⟩

/-- A person's token, handed on once already. -/
def delegatedToken : ResolvedExchangeToken where
  subjectId := 1
  scope := []
  sessionId := none
  grantId := some 3
  clientDbId := 1
  requestedUserinfoClaims := none
  act := some (.mk "first-agent" none)
  mayAct := .absent
  expiresAt := some 60

/-- The next agent's own token. -/
def agentToken : ResolvedExchangeToken := { delegatedToken with subjectId := 2, act := none }

/-- The token exchanged for it names the next agent, and the first no more. -/
theorem first_agent_not_nested :
    ∃ e, presentIdToken.settle plainDeployment .accessToken .accessToken delegatedToken
        (some agentToken) = .ok e ∧
      delegatedToken.act = some (.mk "first-agent" none) ∧ e.act = some (.mk "2" none) :=
  ⟨_, rfl, rfl, by decide⟩

end Odudu.ProtocolOidc
