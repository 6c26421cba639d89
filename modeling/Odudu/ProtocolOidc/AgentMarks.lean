import Odudu.ProtocolOidc.TokenChains

/-!
# The marks of an agent, along a chain

A token is an agent's by its `act` claim or by an MCP scope.  `marked_of_descends` says that the
marks go along every chain but where `IssuingCall.DropsMark` has it: an ID token, which carries
neither, is exchanged with no actor's token beside it; or a registration policy that is over
takes `mcp:read` out of an access token whose grant names no actor.

The mark that the MCP endpoint signs, `via`, goes along no chain at all.
-/

set_option autoImplicit false

namespace Odudu.ProtocolOidc

open ReadCommitted

/-- Nothing that is made of this names an actor. -/
def Rows.NamesNoActor (s : Rows) (x : Credential) : Prop := ∀ u, s.Holds x u → u.acts = false

/-- The mark is dropped where `y` is made from `x`. -/
def IssuingCall.DropsMark (s : Rows) (x y : Credential) : IssuingCall → Prop
  | refresh r => r.takesMcpAway = true ∧ y.isAccessToken = true ∧ s.NamesNoActor x
  | exchange r => x.isIdToken = true ∧ r.delegates = false
  | _ => False

variable {env : Deployment}

/-- One thing was made from another, and no mark dropped. -/
def MarkedLink (c : Config (tokenIssuance env)) (x y : Credential) : Prop :=
  ∃ a ∈ c.history, ∃ outcome, a.result = .ok outcome ∧
    ((x, y) ∈ a.call.made outcome ∨ (x, y) ∈ a.call.exchanged outcome) ∧
    ¬a.call.DropsMark c.rows x y

/-- A chain on which no mark is dropped. -/
abbrev DescendsMarked (c : Config (tokenIssuance env)) : Credential → Credential → Prop :=
  Relation.ReflTransGen (MarkedLink c)

/-- What the MCP endpoint minted, and for which request. -/
def IssuingCall.minted : IssuingCall → IssuingOutcome → List (AgentTokenRequest × AccessToken)
  | mintAgent r, .accessToken token => [(r, token)]
  | _, _ => []

/-- What the MCP endpoint minted in a run. -/
def mintedIn (history : List (Answered (tokenIssuance env))) :
    List (AgentTokenRequest × AccessToken) :=
  outcomesOf IssuingCall.minted history

/-- What an agent holds: a marked token or grant, or the endpoint's own token. -/
def AgentHolds (c : Config (tokenIssuance env)) (x : Credential) : Prop :=
  (∃ u, Rows.Holds c.rows x u ∧ u.Marked) ∨
    ∃ r token, x = .accessToken token ∧ (r, token) ∈ mintedIn c.history

variable {rows : Rows} {c : Config (tokenIssuance env)} {x y : Credential} {token : AccessToken}

theorem minted_of_mintedIn (hrows : refreshLaw.Lawful rows) (hc : Reaches .free (.start rows) c)
    {r : AgentTokenRequest} (h : (r, token) ∈ mintedIn c.history) :
    r.Minted token c.rows := by
  obtain ⟨a, ha, outcome, hresult, hmem⟩ := mem_outcomesOf.mp h
  cases hcall : a.call with
  | mintAgent =>
    rw [hcall] at hmem
    cases outcome with
    | accessToken =>
      obtain ⟨rfl, rfl⟩ := Prod.mk.inj (List.mem_singleton.mp hmem)
      exact ((promised_of_reaches hrows hc).2 a ha _ hresult).minted r token hcall rfl
    | _ => exact nomatch hmem
  | _ =>
    rw [hcall] at hmem
    cases outcome <;> exact nomatch hmem

variable {outcome : IssuingOutcome} {call : IssuingCall}

/-- Only grants and refresh tokens are redeemed and rotated. -/
theorem source_of_made
    (h : (x, y) ∈ call.made outcome) :
    x.isIdToken = false ∧ x.isAccessToken = false ∧
      ∀ u : Worth, u.Marked → ∀ s : Rows, s.Holds x u → ¬call.DropsMark s x y → call.Marks u y := by
  cases call with
  | redeem =>
    cases outcome with
    | tokens =>
      obtain ⟨y, -, ⟨rfl, rfl⟩⟩ := List.mem_map.mp h
      exact ⟨rfl, rfl, fun u hmarked _ _ _ ↦ hmarked⟩
    | _ => exact nomatch h
  | refresh =>
    cases outcome with
    | tokens =>
      obtain ⟨y, -, ⟨rfl, rfl⟩⟩ := List.mem_map.mp h
      refine ⟨rfl, rfl, fun u hmarked s hholds hkeeps ↦ ?_⟩
      rcases hmarked with hacts | hmcp
      · exact Or.inl hacts
      · by_cases hacts : u.acts = true
        · exact Or.inl hacts
        · refine Or.inr ⟨hmcp, fun hy ↦ ?_⟩
          by_contra htakes
          refine hkeeps ⟨by simpa using htakes, hy, fun u' hholds' ↦ ?_⟩
          rw [hholds'.unique hholds]
          simpa using hacts
    | _ => exact nomatch h
  | clientCredentials =>
    cases outcome with
    | accessToken =>
      obtain ⟨rfl, rfl⟩ := Prod.mk.inj (List.mem_singleton.mp h)
      exact ⟨rfl, rfl, fun u hmarked _ _ _ ↦ hmarked⟩
    | _ => exact nomatch h
  | _ => cases outcome <;> exact nomatch h

/-- An exchange marks what it makes, unless an ID token is presented alone. -/
theorem marks_of_exchanged
    (h : (x, y) ∈ call.exchanged outcome) {s : Rows} (hkeeps : ¬call.DropsMark s x y) {u : Worth}
    (hu : x.isIdToken = true ∨ u.Marked) : call.Marks u y := by
  cases call with
  | exchange =>
    rcases hu with hid | hmarked
    · right
      by_contra hdelegates
      exact hkeeps ⟨hid, by simpa using hdelegates⟩
    · exact Or.inl hmarked
  | _ => cases outcome <;> exact nomatch h

/-- What an agent holds, or an ID token made of it, makes only the like. -/
theorem agentHolds_of_link (hrows : refreshLaw.Lawful rows) (hc : Reaches .free (.start rows) c)
    (hx : x.isIdToken = true ∨ AgentHolds c x) (hlink : MarkedLink c x y) :
    y.isIdToken = true ∨ AgentHolds c y := by
  obtain ⟨hlawful, hpromised⟩ := promised_of_reaches hrows hc
  obtain ⟨a, ha, outcome, hresult, hmem, hkeeps⟩ := hlink
  have hpromise := hpromised a ha outcome hresult
  have hmakes : ∃ u, Rows.Makes c.rows (a.call.Marks u y) u y ∧ a.call.Marks u y := by
    rcases hmem with hmade | hexchanged
    · obtain ⟨hid, haccess, hmarks⟩ := source_of_made hmade
      obtain ⟨u, hholds, hmakes⟩ := hpromise.made x y hmade
      refine ⟨u, hmakes, ?_⟩
      rcases hx with hid' | ⟨u', hholds', hmarked⟩ | ⟨r, token, rfl, -⟩
      · rw [hid] at hid'
        exact nomatch hid'
      · obtain rfl := hholds.unique hholds'
        exact hmarks u hmarked c.rows hholds hkeeps
      · exact nomatch haccess
    · obtain ⟨u, htakes, hmakes⟩ := hpromise.exchanged x y hexchanged
      refine ⟨u, hmakes, marks_of_exchanged hexchanged hkeeps ?_⟩
      rcases hx with hid | ⟨u', hholds, hmarked⟩ | ⟨r, token, rfl, hminted⟩
      · exact Or.inl hid
      · exact Or.inr ((htakes.noMore hlawful hholds).2.2.2 hmarked)
      · obtain ⟨u', -, rfl⟩ := htakes
        right
        left
        change token.act.isSome = true
        rw [(minted_of_mintedIn hrows hc hminted).act]
        rfl
  obtain ⟨u, ⟨v, hholds, -, hrest⟩, hmarks⟩ := hmakes
  cases hid : y.isIdToken with
  | true => exact Or.inl rfl
  | false => exact Or.inr (Or.inl ⟨v, hholds, (hrest hid).2 hmarks⟩)

theorem agentHolds_of_descends (hrows : refreshLaw.Lawful rows)
    (hc : Reaches .free (.start rows) c) (hx : AgentHolds c x) (hdescends : DescendsMarked c x y) :
    y.isIdToken = true ∨ AgentHolds c y := by
  induction hdescends with
  | refl => exact Or.inr hx
  | tail _ hlink ih => exact agentHolds_of_link hrows hc ih hlink

/-- Down a chain from what an agent holds, on which no mark is dropped, every access token is
marked. -/
theorem marked_of_descends (hrows : refreshLaw.Lawful rows) (hc : Reaches .free (.start rows) c)
    (hx : AgentHolds c x) (hdescends : DescendsMarked c x (.accessToken token)) :
    token.act.isSome = true ∨ holdsMcpScope token.scope = true := by
  rcases agentHolds_of_descends hrows hc hx hdescends with hid | ⟨u, ⟨rfl, -⟩, hmarked⟩ |
    ⟨r, token', heq, hminted⟩
  · exact nomatch hid
  · exact hmarked
  · obtain rfl := Credential.accessToken.inj heq
    left
    rw [(minted_of_mintedIn hrows hc hminted).act]
    rfl

/-- What is made in a chain is not the MCP endpoint's own. -/
theorem via_of_link (hrows : refreshLaw.Lawful rows) (hc : Reaches .free (.start rows) c)
    (hlink : Link c.history x (.accessToken token)) : token.via = false := by
  obtain ⟨-, hpromised⟩ := promised_of_reaches hrows hc
  rcases hlink with hmade | hexchanged
  · obtain ⟨a, ha, outcome, hresult, hmem⟩ := mem_outcomesOf.mp hmade
    obtain ⟨-, -, -, ⟨-, _, -, hunder⟩, -⟩ := (hpromised a ha outcome hresult).made x _ hmem
    exact hunder.via
  · obtain ⟨a, ha, outcome, hresult, hmem⟩ := mem_outcomesOf.mp hexchanged
    obtain ⟨-, -, -, ⟨-, _, -, hunder⟩, -⟩ := (hpromised a ha outcome hresult).exchanged x _ hmem
    exact hunder.via

end Odudu.ProtocolOidc
