import Odudu.ProtocolOidc.ClientTokens
import Odudu.ProtocolOidc.RefreshIssuance
import Odudu.ProtocolOidc.RowsAge
import Odudu.ReadCommitted.Laws
import Mathlib.Algebra.Order.Monoid.Unbundled.WithTop

/-!
# What tokens are issued under

Every access token and every refresh token is issued under a grant, and a grant keeps what it
was recorded with, its revocation apart.  `lineage` is the order by which rows age so, which
every repository method keeps to whatever it finds; `refreshLaw` is what a refresh token may be
among the grants: one of a grant that may be refreshed, which expires within its ceiling.

`Rows.Holds` reads off the rows what a credential is worth (`Worth`): whom it is for, the scope and
the claims it carries, when it expires, and the bound on everything that is made from it.
-/

set_option autoImplicit false

namespace Odudu.ProtocolOidc

open ReadCommitted Program

section Lineage

/-- A grant keeps what it was recorded with. -/
def TokenGrant.SameBut (a b : TokenGrant) : Prop := b = { a with revokedAt := b.revokedAt }

/-- A refresh token keeps its grant and its deadline. -/
structure RefreshToken.SameBut (a b : RefreshToken) : Prop where
  grantId : b.grantId = a.grantId
  expiresAt : b.expiresAt = a.expiresAt

theorem TokenGrant.SameBut.refl (a : TokenGrant) : a.SameBut a := rfl

theorem TokenGrant.SameBut.trans {a b c : TokenGrant} (h : a.SameBut b) (h' : b.SameBut c) :
    a.SameBut c := by
  rw [TokenGrant.SameBut, h', h]

theorem RefreshToken.SameBut.refl (a : RefreshToken) : a.SameBut a := ⟨rfl, rfl⟩

theorem RefreshToken.SameBut.trans {a b c : RefreshToken} (h : a.SameBut b) (h' : b.SameBut c) :
    a.SameBut c :=
  ⟨h'.grantId.trans h.grantId, h'.expiresAt.trans h.expiresAt⟩

/-- How a grant and a refresh token may change; the other tables may do as they like. -/
def descended : (k : layout.Key) → Option (layout.Row k.1) → Option (layout.Row k.1) → Prop
  | ⟨.tokenGrants, _⟩, a, b => StaysAnd TokenGrant.SameBut a b
  | ⟨.refreshTokens, _⟩, a, b => StaysAnd RefreshToken.SameBut a b
  | _, _, _ => True

/-- The order by which tokens and grants keep what they were issued with. -/
def lineage : Ageing database where
  older := descended
  refl := by
    rintro ⟨table, id⟩ v
    cases table with
    | tokenGrants => exact .refl TokenGrant.SameBut.refl v
    | refreshTokens => exact .refl RefreshToken.SameBut.refl v
    | _ => trivial
  trans := by
    rintro ⟨table, id⟩ v v' v'' h h'
    cases table with
    | tokenGrants => exact StaysAnd.trans TokenGrant.SameBut (fun _ _ _ ↦ .trans) h h'
    | refreshTokens => exact StaysAnd.trans RefreshToken.SameBut (fun _ _ _ ↦ .trans) h h'
    | _ => trivial

/-- The tokens and the grants have stayed what they were. -/
abbrev Rows.Keeps (s s' : Rows) : Prop := lineage.Ages s s'

variable {s s' : Rows}

theorem Rows.Keeps.grant (h : s.Keeps s') {id : GrantId} {row : TokenGrant}
    (hrow : s.grant id = some row) : ∃ row', s'.grant id = some row' ∧ row.SameBut row' :=
  h ⟨.tokenGrants, id⟩ row hrow

theorem Rows.Keeps.refreshToken (h : s.Keeps s') {hash : TokenHash} {row : RefreshToken}
    (hrow : s.refreshToken hash = some row) :
    ∃ row', s'.refreshToken hash = some row' ∧ row.SameBut row' :=
  h ⟨.refreshTokens, hash⟩ row hrow

private theorem descended_grant {id : GrantId} {row row' : TokenGrant} (h : row.SameBut row') :
    lineage.older ⟨.tokenGrants, id⟩ (some row) (some row') := by
  rintro _ ⟨rfl⟩
  exact ⟨row', rfl, h⟩

private theorem descended_refreshToken {hash : TokenHash} {row row' : RefreshToken}
    (h : row.SameBut row') : lineage.older ⟨.refreshTokens, hash⟩ (some row) (some row') := by
  rintro _ ⟨rfl⟩
  exact ⟨row', rfl, h⟩

private theorem keeps_insert {table : Table} {id : ℕ} {row : table.Row} :
    s.Keeps (s.after (Layout.insert (L := layout) table id row s)) := by
  refine ages_insert ?_
  cases table with
  | tokenGrants | refreshTokens => exact fun _ h ↦ nomatch h
  | _ => trivial

/-- Every repository method keeps what tokens and grants were issued with. -/
theorem Op.keeps_effect (op : Op) (s : Rows) : s.Keeps (s.after (op.effect s)) := by
  cases op with
  | refreshTokenCreate | tokenGrantCreate | authorizationCodeCreate | sessionCreate
  | authenticationSessionCreate => exact keeps_insert
  | tokenGrantRevoke | tokenGrantRevokeForSession | tokenGrantRevokeForSessions
  | tokenGrantRevokeForSubjectClient | tokenGrantRevokeForSubject | tokenGrantRevokeForActor =>
    exact ages_update fun _ _ _ _ ↦ descended_grant rfl
  | refreshTokenConsume | refreshTokenAttachReplacement =>
    exact ages_update fun _ _ _ _ ↦ descended_refreshToken ⟨rfl, rfl⟩
  | tick | subjectSetEnabled | authorizationCodeConsume | authorizationCodeAttachGrant
  | sessionTouch | sessionEnd | sessionEndAll | sessionEndMany | authenticationSessionConsume
  | authenticationSessionRecordSatisfied | authenticationSessionBindSubject
  | authenticationSessionRecordAuthenticated | authenticationSessionSetWebauthnChallenge
  | authenticationSessionClaimWebauthnChallenge | authenticationSessionResetProgress =>
    exact ages_update fun _ _ _ _ ↦ trivial
  | _ => exact Ageing.Ages.refl (A := lineage) s

end Lineage

section Worth

/-- What a credential is worth. -/
structure Worth where
  subjectId : SubjectId
  scope : List String
  /-- The userinfo claims that were asked for. -/
  claims : Option (List String)
  expiresAt : WithTop Time
  /-- The latest that anything made from it may expire. -/
  ceiling : WithTop Time
  /-- It names an actor, whom what is made from it goes on to name. -/
  acts : Bool

/-- Marked as an agent's: by an actor or by an MCP scope. -/
def Worth.Marked (v : Worth) : Prop := v.acts = true ∨ holdsMcpScope v.scope = true

/-- No more than something else: for the same subject, with no more scope, and with nothing
made from it that expires later. -/
structure Worth.NoMore (v u : Worth) : Prop where
  subjectId : v.subjectId = u.subjectId
  scope : v.scope ⊆ u.scope
  ceiling : v.ceiling ≤ u.ceiling

theorem Worth.NoMore.refl (v : Worth) : v.NoMore v := ⟨rfl, fun _ h ↦ h, le_rfl⟩

theorem Worth.NoMore.trans {v u t : Worth} (h : v.NoMore u) (h' : u.NoMore t) : v.NoMore t :=
  ⟨h.subjectId.trans h'.subjectId, fun _ hmem ↦ h'.scope (h.scope hmem),
    h.ceiling.trans h'.ceiling⟩

/-- The instant that is not to be passed, where there is one. -/
def ceilingAt : Option Time → WithTop Time
  | none => ⊤
  | some t => t

/-- The claims that were asked for by name, if any. -/
def askedClaims (names : Option (List String)) : Option (List String) :=
  names.filter fun names ↦ !names.isEmpty

def TokenGrant.worth (grant : TokenGrant) : Worth where
  subjectId := grant.subjectId
  scope := grant.scope
  claims := askedClaims grant.requestedUserinfoClaims
  expiresAt := ceilingAt grant.expCeiling
  ceiling := ceilingAt grant.expCeiling
  acts := (narrowActClaim grant.actChain).isSome

def AccessToken.worth (token : AccessToken) : Worth where
  subjectId := token.sub
  scope := token.scope
  claims := token.requestedUserinfoClaims
  expiresAt := token.exp
  ceiling := token.exp
  acts := token.act.isSome

def IdToken.worth (token : IdToken) : Worth where
  subjectId := token.sub
  scope := []
  claims := none
  expiresAt := token.exp
  ceiling := token.exp
  acts := false

/-- What a grant was recorded with. -/
def Rows.Recorded (s : Rows) (id : GrantId) (u : Worth) : Prop :=
  ∃ grant, s.grant id = some grant ∧ u = grant.worth

variable {s s' : Rows} {id : GrantId} {u v : Worth}

theorem TokenGrant.SameBut.worth {a b : TokenGrant} (h : a.SameBut b) : b.worth = a.worth := by
  rw [h]
  rfl

theorem TokenGrant.SameBut.actChain {a b : TokenGrant} (h : a.SameBut b) :
    b.actChain = a.actChain := by
  rw [h]

theorem Rows.Recorded.keeps (h : s.Recorded id u) (hkeeps : s.Keeps s') : s'.Recorded id u := by
  obtain ⟨grant, hgrant, rfl⟩ := h
  obtain ⟨grant', hgrant', hsame⟩ := hkeeps.grant hgrant
  exact ⟨grant', hgrant', hsame.worth.symm⟩

theorem Rows.Recorded.unique (h : s.Recorded id u) (h' : s.Recorded id v) : u = v := by
  obtain ⟨grant, hgrant, rfl⟩ := h
  obtain ⟨grant', hgrant', rfl⟩ := h'
  rw [Option.some.inj (hgrant.symm.trans hgrant')]

end Worth

section Law

/-- A refresh token is one of a grant that may be refreshed, and expires within its
ceiling. -/
def Rows.Rooted (s : Rows) (row : RefreshToken) : Prop :=
  ∃ u, s.Recorded row.grantId u ∧ refreshAllowedForScope u.scope = true ∧
    (row.expiresAt : WithTop Time) ≤ u.ceiling

variable {s s' : Rows}

theorem Rows.Rooted.keeps {row row' : RefreshToken} (h : s.Rooted row) (hkeeps : s.Keeps s')
    (hrow : row.SameBut row') : s'.Rooted row' := by
  obtain ⟨u, hrecorded, hallowed, hceiling⟩ := h
  refine ⟨u, ?_, hallowed, ?_⟩
  · rw [hrow.grantId]
    exact hrecorded.keeps hkeeps
  · rw [hrow.expiresAt]
    exact hceiling

/-- What a cell may hold: a refresh token is rooted. -/
def Rows.MayHold : (k : layout.Key) → Option (layout.Row k.1) → Rows → Prop
  | ⟨.refreshTokens, _⟩, cell, s => ∀ row, cell = some row → s.Rooted row
  | _, _, _ => True

/-- Every refresh token is rooted among the grants. -/
def refreshLaw : Law lineage where
  holds := Rows.MayHold
  ages := by
    rintro ⟨table, id⟩ v s s' h hages
    cases table with
    | refreshTokens => exact fun row hrow ↦ Rows.Rooted.keeps (h row hrow) hages (.refl row)
    | _ => trivial

variable {row : RefreshToken}

theorem rooted_of_lawful (hs : refreshLaw.Lawful s) {hash : TokenHash}
    (hrow : s.refreshToken hash = some row) : s.Rooted row :=
  hs ⟨.refreshTokens, hash⟩ row hrow

theorem lawful_of_rooted (h : ∀ hash row, s.refreshToken hash = some row → s.Rooted row) :
    refreshLaw.Lawful s := by
  rintro ⟨table, id⟩
  cases table with
  | refreshTokens => exact h id
  | _ => trivial

theorem wrote_of_rooted {w : Writes database}
    (h : ∀ hash row, w ⟨.refreshTokens, hash⟩ = some (some row) → (s.after w).Rooted row) :
    refreshLaw.Wrote w s := by
  rintro ⟨table, id⟩ v hv
  cases table with
  | refreshTokens =>
    rintro row rfl
    exact h id row hv
  | _ => trivial

/-- Every repository method but the one that creates refresh tokens keeps the law. -/
theorem Op.keeps_refreshLaw {op : Op} (hop : ∀ hash row, op ≠ .refreshTokenCreate hash row)
    (hs : refreshLaw.Lawful s) : refreshLaw.Keeps op s := by
  refine ⟨op.keeps_effect s, wrote_of_rooted fun hash row hwrote ↦ ?_⟩
  have hkeeps : s.Keeps (s.after (op.effect s)) := op.keeps_effect s
  have hupdated : ∀ {wanted : ℕ → RefreshToken → Bool} {set : RefreshToken → RefreshToken},
      Layout.update (L := layout) .refreshTokens wanted set s ⟨.refreshTokens, hash⟩ =
        some (some row) → (∀ row : RefreshToken, row.SameBut (set row)) →
      (s.after (op.effect s)).Rooted row := by
    intro wanted set hupdate hset
    obtain ⟨row', hrow', -, hset'⟩ := Layout.update_eq_some (L := layout) hupdate
    obtain rfl := Option.some.inj hset'
    exact (rooted_of_lawful hs hrow').keeps hkeeps (hset row')
  cases op with
  | refreshTokenCreate hash row => exact absurd rfl (hop hash row)
  | refreshTokenConsume | refreshTokenAttachReplacement =>
    dsimp only [database, effect] at hwrote
    exact hupdated hwrote fun _ ↦ ⟨rfl, rfl⟩
  | _ => exact nomatch hwrote

theorem keeps_refreshTokenCreate {hash : TokenHash} (h : s.Rooted row) :
    refreshLaw.Keeps (.refreshTokenCreate hash row) s := by
  have hkeeps := Op.keeps_effect (.refreshTokenCreate hash row) s
  refine ⟨hkeeps, wrote_of_rooted fun hash' row' hwrote ↦ ?_⟩
  dsimp only [database, Op.effect] at hwrote
  obtain ⟨rfl, hrow⟩ := Layout.insert_eq_some (L := layout) hwrote
  obtain rfl := Option.some.inj hrow
  exact h.keeps hkeeps (.refl _)

end Law

section Credentials

/-- What can be presented for something else, and the grants they are issued under. -/
inductive Credential where
  | grant (id : GrantId)
  | accessToken (token : AccessToken)
  | refreshToken (hash : TokenHash)
  | idToken (token : IdToken)
  deriving DecidableEq

/-- An access token says what its grant says, with no more scope, and is not the MCP
endpoint's own. -/
structure AccessToken.Under (token : AccessToken) (u : Worth) : Prop where
  sub : token.sub = u.subjectId
  scope : token.scope ⊆ u.scope
  claims : token.requestedUserinfoClaims = u.claims
  via : token.via = false

/-- What the rows hold a credential to be worth.  A refresh token is worth its grant until it
expires, and is replaced under the grant's ceiling. -/
def Rows.Holds (s : Rows) : Credential → Worth → Prop
  | .grant id, v => s.Recorded id v
  | .accessToken token, v => v = token.worth ∧ ∃ u, s.Recorded token.grantId u ∧ token.Under u
  | .refreshToken hash, v => ∃ row u, s.refreshToken hash = some row ∧
      s.Recorded row.grantId u ∧ v = { u with expiresAt := (row.expiresAt : WithTop Time) }
  | .idToken token, v => v = token.worth

/-- What an exchange takes a credential for that is presented to it. -/
def Rows.Takes (s : Rows) : Credential → Worth → Prop
  | .grant _, _ => False
  | .accessToken token, v => ∃ u, s.Recorded token.grantId u ∧
      v = { u with
        scope := ExchangeRequest.heldScope u.scope token.scope
        expiresAt := (token.exp : WithTop Time)
        ceiling := (token.exp : WithTop Time)
        acts := token.act.isSome }
  | .refreshToken hash, v => ∃ row grant, s.refreshToken hash = some row ∧
      s.grant row.grantId = some grant ∧
      v = { grant.worth with
        expiresAt := (row.expiresAt : WithTop Time)
        ceiling := (row.expiresAt : WithTop Time)
        acts := grant.actChain.isSome }
  | .idToken token, v => v = token.worth

variable {s s' : Rows} {x : Credential} {v u : Worth}

theorem Rows.Holds.keeps (h : s.Holds x v) (hkeeps : s.Keeps s') : s'.Holds x v := by
  cases x with
  | grant => exact Rows.Recorded.keeps h hkeeps
  | accessToken =>
    obtain ⟨rfl, u, hrecorded, hunder⟩ := h
    exact ⟨rfl, u, hrecorded.keeps hkeeps, hunder⟩
  | refreshToken =>
    obtain ⟨row, u, hrow, hrecorded, rfl⟩ := h
    obtain ⟨row', hrow', hage⟩ := hkeeps.refreshToken hrow
    refine ⟨row', u, hrow', ?_, ?_⟩
    · rw [hage.grantId]
      exact hrecorded.keeps hkeeps
    · rw [hage.expiresAt]
  | idToken => exact h

theorem Rows.Takes.keeps (h : s.Takes x v) (hkeeps : s.Keeps s') : s'.Takes x v := by
  cases x with
  | grant | idToken => exact h
  | accessToken =>
    obtain ⟨u, hrecorded, rfl⟩ := h
    exact ⟨u, hrecorded.keeps hkeeps, rfl⟩
  | refreshToken =>
    obtain ⟨row, grant, hrow, hgrant, rfl⟩ := h
    obtain ⟨row', hrow', hage⟩ := hkeeps.refreshToken hrow
    obtain ⟨grant', hgrant', hsame⟩ := hkeeps.grant hgrant
    refine ⟨row', grant', hrow', ?_, ?_⟩
    · rw [hage.grantId]
      exact hgrant'
    · rw [hage.expiresAt, hsame.worth, hsame.actChain]

/-- Nothing expires after what bounds all that is made from it. -/
theorem Rows.Holds.expiresAt_le (hs : refreshLaw.Lawful s) (h : s.Holds x v) :
    v.expiresAt ≤ v.ceiling := by
  cases x with
  | grant =>
    obtain ⟨grant, -, rfl⟩ := h
    exact le_rfl
  | accessToken =>
    obtain ⟨rfl, -⟩ := h
    exact le_rfl
  | refreshToken =>
    obtain ⟨row, u, hrow, hrecorded, rfl⟩ := h
    obtain ⟨u', hrecorded', -, hceiling⟩ := rooted_of_lawful hs hrow
    obtain rfl := hrecorded.unique hrecorded'
    exact hceiling
  | idToken =>
    rw [Rows.Holds] at h
    rw [h]
    exact le_rfl

/-- What a credential is worth is one thing. -/
theorem Rows.Holds.unique (h : s.Holds x v) (h' : s.Holds x u) : v = u := by
  cases x with
  | grant => exact Rows.Recorded.unique h h'
  | accessToken => rw [h.1, h'.1]
  | refreshToken =>
    obtain ⟨row, u, hrow, hrecorded, rfl⟩ := h
    obtain ⟨row', u', hrow', hrecorded', rfl⟩ := h'
    obtain rfl := Option.some.inj (hrow.symm.trans hrow')
    rw [hrecorded.unique hrecorded']
  | idToken =>
    rw [Rows.Holds] at h h'
    rw [h, h']

theorem isSome_of_narrowActClaim {act : Option ActClaim}
    (h : (narrowActClaim act).isSome = true) : act.isSome = true := by
  cases act with
  | none => exact h
  | some => rfl

/-- What an exchange takes of a token's scope is all of it, where the token is of its grant. -/
theorem heldScope_of_under {token : AccessToken} (h : token.Under u) {scope : String} :
    scope ∈ ExchangeRequest.heldScope u.scope token.scope ↔ scope ∈ token.scope := by
  rw [ExchangeRequest.heldScope, List.mem_filter, List.contains_iff_mem]
  exact ⟨And.right, fun hmem ↦ ⟨h.scope hmem, hmem⟩⟩

/-- An exchange takes a credential for no more than it is worth, and for nothing after it
expires; the marks of an agent are seen. -/
theorem Rows.Takes.noMore (hs : refreshLaw.Lawful s) (h : s.Takes x v) (h' : s.Holds x u) :
    v.NoMore u ∧ v.ceiling ≤ u.expiresAt ∧ v.claims = u.claims ∧ (u.Marked → v.Marked) := by
  cases x with
  | grant => exact h.elim
  | accessToken =>
    obtain ⟨u, hrecorded, rfl⟩ := h
    obtain ⟨rfl, u', hrecorded', hunder⟩ := h'
    obtain rfl := hrecorded.unique hrecorded'
    refine ⟨⟨hunder.sub.symm, fun scope hmem ↦ (heldScope_of_under hunder).mp hmem, le_rfl⟩,
      le_rfl, hunder.claims.symm, fun hmarked ↦ hmarked.imp_right fun hmcp ↦ ?_⟩
    exact holdsMcpScope_mono (fun scope hmem ↦ (heldScope_of_under hunder).mpr hmem) hmcp
  | refreshToken =>
    obtain ⟨row, grant, hrow, hgrant, rfl⟩ := h
    obtain ⟨row', u', hrow', hrecorded', rfl⟩ := h'
    obtain rfl := Option.some.inj (hrow.symm.trans hrow')
    have hrecorded : s.Recorded row.grantId grant.worth := ⟨grant, hgrant, rfl⟩
    obtain rfl := hrecorded.unique hrecorded'
    obtain ⟨u', hrecorded', -, hceiling⟩ := rooted_of_lawful hs hrow
    obtain rfl := hrecorded.unique hrecorded'
    exact ⟨⟨rfl, fun _ hmem ↦ hmem, hceiling⟩, le_rfl, rfl,
      fun hmarked ↦ hmarked.imp_left isSome_of_narrowActClaim⟩
  | idToken =>
    rw [Rows.Takes] at h
    rw [Rows.Holds] at h'
    rw [h, h']
    exact ⟨.refl _, le_rfl, rfl, id⟩

end Credentials

end Odudu.ProtocolOidc
