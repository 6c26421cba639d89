import Odudu.ProtocolOidc.Schema
import Odudu.ReadCommitted.Schedule
import Odudu.ReadCommitted.Tables

/-!
# The repositories: one statement each

The tables of `Schema` as a database, and the repository methods the modelled use cases
call, each one SQL statement.  The statements of one table that differ in their `WHERE`
alone are one `update` with that condition.

The clock is a row that only `tick` moves, and never back.  `readClock` reads it: for the
database's `now()` a transaction reads it first, for the process's clock a use case reads
it where the source does.

Left out: statements on the audit, on consents, on credentials and on configuration.
What a modelled use case reads of those is an input of its call.
-/

set_option autoImplicit false

namespace Odudu.ProtocolOidc

open ReadCommitted

/-- A row of `subjects`. -/
structure Subject where
  disabledAt : Option Time

/-- `subjectIsEnabled`: a subject that is missing is not enabled. -/
def subjectIsEnabled : Option Subject → Bool
  | none => false
  | some subject => subject.disabledAt.isNone

inductive Table where
  | clock
  | subjects
  | authenticationSessions
  | sessions
  | authorizationCodes
  | tokenGrants
  | refreshTokens
  deriving DecidableEq

/-- The row type of each table. -/
@[reducible] def Table.Row : Table → Type
  | clock => Time
  | subjects => Subject
  | authenticationSessions => AuthenticationSession
  | sessions => Session
  | authorizationCodes => AuthorizationCode
  | tokenGrants => TokenGrant
  | refreshTokens => RefreshToken

/-- The tables, each keyed on a number. -/
abbrev layout : Layout where
  Table := Table
  Id := fun _ ↦ ℕ
  Row := Table.Row

abbrev Rows := layout.Rows

namespace Rows

variable (s : Rows)

/-- The instant the clock shows. -/
def clock : Time := (s ⟨.clock, 0⟩).getD 0

abbrev subject (id : SubjectId) : Option Subject := s ⟨.subjects, id⟩

abbrev authenticationSession (id : AuthSessionId) : Option AuthenticationSession :=
  s ⟨.authenticationSessions, id⟩

abbrev session (id : SessionId) : Option Session := s ⟨.sessions, id⟩

abbrev code (hash : TokenHash) : Option AuthorizationCode := s ⟨.authorizationCodes, hash⟩

abbrev grant (id : GrantId) : Option TokenGrant := s ⟨.tokenGrants, id⟩

abbrev refreshToken (hash : TokenHash) : Option RefreshToken := s ⟨.refreshTokens, hash⟩

end Rows

/-- A repository method with its arguments. -/
inductive Op where
  /-- Reads the clock. -/
  | readClock
  /-- Time passes. -/
  | tick (seconds : Time)
  | subjectById (id : SubjectId)
  | subjectSetEnabled (id : SubjectId) (enabled : Bool) (now : Time)
  /-- `refreshTokenRepository(tx).create`. -/
  | refreshTokenCreate (hash : TokenHash) (row : RefreshToken)
  | refreshTokenConsume (hash : TokenHash) (now : Time)
  | refreshTokenByHash (hash : TokenHash)
  | refreshTokenAttachReplacement (hash replacedBy : TokenHash)
  /-- `tokenGrantRepository(tx).create`. -/
  | tokenGrantCreate (id : GrantId) (row : TokenGrant)
  | tokenGrantById (id : GrantId)
  | tokenGrantRevoke (id : GrantId) (revokedAt : Time)
  | tokenGrantRevokeForSession (sessionId : SessionId) (revokedAt : Time)
  | tokenGrantRevokeForSessions (sessionIds : List SessionId) (revokedAt : Time)
  | tokenGrantRevokeForSubjectClient (subjectId : SubjectId) (clientId : ClientId)
      (revokedAt : Time)
  | tokenGrantRevokeForSubject (subjectId : SubjectId) (revokedAt : Time)
  | tokenGrantRevokeForActor (actorSubjectId : SubjectId) (now : Time)
  /-- `authorizationCodeRepository(tx).create`. -/
  | authorizationCodeCreate (hash : TokenHash) (row : AuthorizationCode)
  | authorizationCodeConsume (hash : TokenHash) (now : Time)
  | authorizationCodeByHash (hash : TokenHash)
  | authorizationCodeAttachGrant (hash : TokenHash) (grantId : GrantId)
  /-- `sessionRepository(tx).create`. -/
  | sessionCreate (id : SessionId) (row : Session)
  | sessionById (id : SessionId)
  | sessionLiveById (id : SessionId) (tenant : SessionLifespans) (now : Time)
  | sessionTouch (id : SessionId) (now : Time)
  | sessionEnd (id : SessionId) (now : Time)
  | sessionEndAll (ids : List SessionId) (now : Time)
  | sessionEndMany (ids : List SessionId) (now : Time)
  | sessionLiveByEntries (entries : List SessionEntry) (tenant : SessionLifespans) (now : Time)
  | sessionLiveIdsFor (subjectId : SubjectId) (now : Time) (limit : ℕ)
  /-- `authenticationSessionRepository(tx).create`. -/
  | authenticationSessionCreate (id : AuthSessionId) (row : AuthenticationSession)
  | authenticationSessionById (id : AuthSessionId)
  | authenticationSessionConsume (id : AuthSessionId) (consumedAt : Time)
  | authenticationSessionRecordSatisfied (id : AuthSessionId) (authenticator : AuthenticatorName)
  | authenticationSessionBindSubject (id : AuthSessionId) (subjectId : SubjectId)
  | authenticationSessionRecordAuthenticated (id : AuthSessionId) (authenticatedAt : Option Time)
  | authenticationSessionSetWebauthnChallenge (id : AuthSessionId) (challenge : ℕ)
  | authenticationSessionClaimWebauthnChallenge (id : AuthSessionId)
  | authenticationSessionResetProgress (id : AuthSessionId)

namespace Op

/-- What each method returns. -/
@[reducible] def Answer : Op → Type
  | readClock => Time
  | subjectById _ => Option Subject
  | refreshTokenCreate .. | tokenGrantCreate .. | authorizationCodeCreate ..
  | sessionCreate .. | authenticationSessionCreate .. => Bool
  | refreshTokenConsume .. | refreshTokenByHash _ => Option RefreshToken
  | tokenGrantById _ => Option TokenGrant
  | tokenGrantRevoke .. => Bool
  | authorizationCodeConsume .. | authorizationCodeByHash _ => Option AuthorizationCode
  | sessionById _ | sessionLiveById .. => Option Session
  | sessionEnd .. => Bool
  | sessionLiveIdsFor .. => List SessionId
  | sessionLiveByEntries .. => List (SessionId × Session)
  | authenticationSessionById _ => Option AuthenticationSession
  | authenticationSessionConsume .. => Bool
  | authenticationSessionClaimWebauthnChallenge _ => Option ℕ
  | _ => Unit

/-- An unspent, unexpired refresh token: the `WHERE` of `consume`. -/
def refreshTokenConsumable (now : Time) (row : RefreshToken) : Bool :=
  row.usedAt.isNone && decide (now < row.expiresAt)

/-- An unspent, unexpired code: the `WHERE` of `consume`. -/
def codeConsumable (now : Time) (row : AuthorizationCode) : Bool :=
  row.consumedAt.isNone && decide (now < row.expiresAt)

/-- `SET revoked_at`, under `WHERE ... AND revoked_at IS NULL`. -/
def revokeUnrevoked (wanted : GrantId → TokenGrant → Bool) (revokedAt : Time) :
    Rows → layout.Change :=
  Layout.update (L := layout) .tokenGrants (fun id row ↦ wanted id row && row.revokedAt.isNone)
    fun row ↦ { row with revokedAt := some revokedAt }

/-- `SET revoked_at = coalesce(revoked_at, ...)`. -/
def revokeCoalescing (wanted : TokenGrant → Bool) (revokedAt : Time) : Rows → layout.Change :=
  Layout.update (L := layout) .tokenGrants (fun _ row ↦ wanted row)
    fun row ↦ { row with revokedAt := some (row.revokedAt.getD revokedAt) }

/-- `UPDATE authentication_sessions SET ... WHERE id = ...`. -/
def updateAuthenticationSession (id : AuthSessionId) (wanted : AuthenticationSession → Bool)
    (set : AuthenticationSession → AuthenticationSession) : Rows → layout.Change :=
  Layout.update (L := layout) .authenticationSessions
    (fun id' row ↦ decide (id' = id) && wanted row) set

/-- A subject's session whose ceiling is ahead of `now`. -/
def liveFor (s : Rows) (subjectId : SubjectId) (now : Time) (id : SessionId) : Prop :=
  ∃ row, s.session id = some row ∧ row.subjectId = subjectId ∧ now < row.expiresAt

/-- The live sessions that these entries prove, each once. -/
def liveByEntries (entries : List SessionEntry) (tenant : SessionLifespans) (now : Time)
    (s : Rows) : List (SessionId × Session) :=
  (entries.map SessionEntry.id).eraseDups.filterMap fun id ↦
    match s.session id with
    | none => none
    | some row =>
      if (entries.any fun entry ↦ decide (entry.id = id ∧ row.secretHash = some entry.secretHash)) &&
          stillLive row tenant now then some (id, row)
      else none

theorem mem_liveByEntries {entries : List SessionEntry} {tenant : SessionLifespans} {now : Time}
    {s : Rows} {id : SessionId} {row : Session}
    (h : (id, row) ∈ liveByEntries entries tenant now s) : s.session id = some row := by
  obtain ⟨id', -, hfound⟩ := List.mem_filterMap.mp h
  cases hrow : s.session id' with
  | none => simp [hrow] at hfound
  | some =>
    simp only [hrow] at hfound
    split at hfound
    case isTrue =>
      obtain ⟨rfl, rfl⟩ := Prod.mk.inj (Option.some.inj hfound)
      exact hrow
    case isFalse => simp at hfound

/-- What each method returns on the rows it sees; of `sessionLiveIdsFor`, which searches,
`Answers` says what it may. -/
def answer : (op : Op) → Rows → Option op.Answer
  | readClock, s => some s.clock
  | tick _, _ => some ()
  | subjectById id, s => some (s.subject id)
  | subjectSetEnabled .., _ => some ()
  | refreshTokenCreate hash _, s => some (s.refreshToken hash).isNone
  | refreshTokenConsume hash now, s =>
      some (((s.refreshToken hash).filter (refreshTokenConsumable now)).map
        fun row ↦ { row with usedAt := some now })
  | refreshTokenByHash hash, s => some (s.refreshToken hash)
  | refreshTokenAttachReplacement .., _ => some ()
  | tokenGrantCreate id _, s => some (s.grant id).isNone
  | tokenGrantById id, s => some (s.grant id)
  | tokenGrantRevoke id _, s => some ((s.grant id).any fun row ↦ row.revokedAt.isNone)
  | tokenGrantRevokeForSession .., _ => some ()
  | tokenGrantRevokeForSessions .., _ => some ()
  | tokenGrantRevokeForSubjectClient .., _ => some ()
  | tokenGrantRevokeForSubject .., _ => some ()
  | tokenGrantRevokeForActor .., _ => some ()
  | authorizationCodeCreate hash _, s => some (s.code hash).isNone
  | authorizationCodeConsume hash now, s =>
      some (((s.code hash).filter (codeConsumable now)).map
        fun row ↦ { row with consumedAt := some now })
  | authorizationCodeByHash hash, s => some (s.code hash)
  | authorizationCodeAttachGrant .., _ => some ()
  | sessionCreate id _, s => some (s.session id).isNone
  | sessionById id, s => some (s.session id)
  | sessionLiveById id tenant now, s =>
      some ((s.session id).filter fun row ↦ stillLive row tenant now)
  | sessionTouch .., _ => some ()
  | sessionEnd id now, s => some ((s.session id).any fun row ↦ decide (now < row.expiresAt))
  | sessionEndAll .., _ => some ()
  | sessionEndMany .., _ => some ()
  | sessionLiveByEntries entries tenant now, s => some (liveByEntries entries tenant now s)
  | sessionLiveIdsFor .., _ => none
  | authenticationSessionCreate id _, s => some (s.authenticationSession id).isNone
  | authenticationSessionById id, s => some (s.authenticationSession id)
  | authenticationSessionConsume id _, s =>
      some ((s.authenticationSession id).any fun row ↦ row.consumedAt.isNone)
  | authenticationSessionRecordSatisfied .., _ => some ()
  | authenticationSessionBindSubject .., _ => some ()
  | authenticationSessionRecordAuthenticated .., _ => some ()
  | authenticationSessionSetWebauthnChallenge .., _ => some ()
  | authenticationSessionClaimWebauthnChallenge id, s =>
      some ((s.authenticationSession id).bind fun row ↦ row.webauthnChallenge)
  | authenticationSessionResetProgress _, _ => some ()

/-- What each method may return on the rows it sees. -/
def Answers : (op : Op) → Rows → op.Answer → Prop
  -- The first `limit` of them in id order: fewer only where there are no more.
  | sessionLiveIdsFor subjectId now limit, s, a =>
      a.Pairwise (· < ·) ∧ a.length ≤ limit ∧ (∀ id ∈ a, liveFor s subjectId now id) ∧
        ∀ id, liveFor s subjectId now id → id ∉ a → a.length = limit ∧ ∀ id' ∈ a, id' < id
  -- In the order the rows are found in.
  | sessionLiveByEntries entries tenant now, s, a => a.Perm (liveByEntries entries tenant now s)
  | op, s, a => op.answer s = some a

/-- The methods that only read. -/
def reads : Op → Bool
  | readClock | subjectById _ | refreshTokenByHash _ | tokenGrantById _
  | authorizationCodeByHash _ | sessionById _ | sessionLiveById .. | sessionLiveIdsFor ..
  | sessionLiveByEntries ..
  | authenticationSessionById _ => true
  | _ => false

/-- What each method writes, given the rows it sees. -/
def effect : Op → Rows → layout.Change
  | readClock, _ => fun _ ↦ none
  | tick seconds, s => Layout.update (L := layout) .clock (fun _ _ ↦ true) (· + seconds) s
  | subjectById _, _ => fun _ ↦ none
  | subjectSetEnabled id enabled now, s =>
      Layout.update (L := layout) .subjects (fun id' _ ↦ decide (id' = id))
        (fun row ↦ { row with
          disabledAt := if enabled then none else some (row.disabledAt.getD now) }) s
  | refreshTokenCreate hash row, s => Layout.insert (L := layout) .refreshTokens hash row s
  | refreshTokenConsume hash now, s =>
      Layout.update (L := layout) .refreshTokens
        (fun hash' row ↦ decide (hash' = hash) && refreshTokenConsumable now row)
        (fun row ↦ { row with usedAt := some now }) s
  | refreshTokenByHash _, _ => fun _ ↦ none
  | refreshTokenAttachReplacement hash replacedBy, s =>
      Layout.update (L := layout) .refreshTokens (fun hash' _ ↦ decide (hash' = hash))
        (fun row ↦ { row with replacedBy := some replacedBy }) s
  | tokenGrantCreate id row, s => Layout.insert (L := layout) .tokenGrants id row s
  | tokenGrantById _, _ => fun _ ↦ none
  | tokenGrantRevoke id revokedAt, s =>
      revokeUnrevoked (fun id' _ ↦ decide (id' = id)) revokedAt s
  | tokenGrantRevokeForSession sessionId revokedAt, s =>
      revokeCoalescing (fun row ↦ decide (row.sessionId = some sessionId)) revokedAt s
  | tokenGrantRevokeForSessions sessionIds revokedAt, s =>
      revokeCoalescing (fun row ↦ row.sessionId.any (decide <| · ∈ sessionIds)) revokedAt s
  | tokenGrantRevokeForSubjectClient subjectId clientId revokedAt, s =>
      revokeUnrevoked
        (fun _ row ↦ decide (row.subjectId = subjectId) && decide (row.clientId = clientId))
        revokedAt s
  | tokenGrantRevokeForSubject subjectId revokedAt, s =>
      revokeUnrevoked (fun _ row ↦ decide (row.subjectId = subjectId)) revokedAt s
  | tokenGrantRevokeForActor actorSubjectId now, s =>
      revokeUnrevoked (fun _ row ↦ decide (row.actorSubjectId = some actorSubjectId)) now s
  | authorizationCodeCreate hash row, s =>
      Layout.insert (L := layout) .authorizationCodes hash row s
  | authorizationCodeConsume hash now, s =>
      Layout.update (L := layout) .authorizationCodes
        (fun hash' row ↦ decide (hash' = hash) && codeConsumable now row)
        (fun row ↦ { row with consumedAt := some now }) s
  | authorizationCodeByHash _, _ => fun _ ↦ none
  | authorizationCodeAttachGrant hash grantId, s =>
      Layout.update (L := layout) .authorizationCodes (fun hash' _ ↦ decide (hash' = hash))
        (fun row ↦ { row with grantId := some grantId }) s
  | sessionCreate id row, s => Layout.insert (L := layout) .sessions id row s
  | sessionById _, _ => fun _ ↦ none
  | sessionLiveById .., _ => fun _ ↦ none
  | sessionTouch id now, s =>
      Layout.update (L := layout) .sessions (fun id' _ ↦ decide (id' = id))
        (fun row ↦ { row with lastActiveAt := now }) s
  | sessionEnd id now, s =>
      Layout.update (L := layout) .sessions
        (fun id' row ↦ decide (id' = id) && decide (now < row.expiresAt))
        (fun row ↦ { row with expiresAt := now }) s
  | sessionEndAll ids now, s =>
      Layout.update (L := layout) .sessions
        (fun id' row ↦ decide (id' ∈ ids) && decide (now < row.expiresAt))
        (fun row ↦ { row with expiresAt := now }) s
  | sessionEndMany ids now, s =>
      Layout.update (L := layout) .sessions (fun id' _ ↦ decide (id' ∈ ids))
        (fun row ↦ { row with expiresAt := now }) s
  | sessionLiveByEntries .., _ => fun _ ↦ none
  | sessionLiveIdsFor .., _ => fun _ ↦ none
  | authenticationSessionCreate id row, s =>
      Layout.insert (L := layout) .authenticationSessions id row s
  | authenticationSessionById _, _ => fun _ ↦ none
  | authenticationSessionConsume id consumedAt, s =>
      updateAuthenticationSession id (fun row ↦ row.consumedAt.isNone)
        (fun row ↦ { row with consumedAt := some consumedAt }) s
  | authenticationSessionRecordSatisfied id authenticator, s =>
      updateAuthenticationSession id (fun row ↦ !decide (authenticator ∈ row.satisfied))
        (fun row ↦ { row with satisfied := row.satisfied ++ [authenticator] }) s
  | authenticationSessionBindSubject id subjectId, s =>
      updateAuthenticationSession id (fun _ ↦ true)
        (fun row ↦ { row with subjectId := some subjectId }) s
  | authenticationSessionRecordAuthenticated id authenticatedAt, s =>
      updateAuthenticationSession id (fun _ ↦ true)
        (fun row ↦ { row with authenticatedAt := authenticatedAt }) s
  | authenticationSessionSetWebauthnChallenge id challenge, s =>
      updateAuthenticationSession id (fun _ ↦ true)
        (fun row ↦ { row with webauthnChallenge := some challenge }) s
  | authenticationSessionClaimWebauthnChallenge id, s =>
      updateAuthenticationSession id (fun row ↦ row.webauthnChallenge.isSome)
        (fun row ↦ { row with webauthnChallenge := none }) s
  | authenticationSessionResetProgress id, s =>
      updateAuthenticationSession id (fun _ ↦ true)
        (fun row ↦ { row with
          satisfied := []
          subjectId := none
          authenticatedAt := none
          webauthnChallenge := none }) s

end Op

/-- The tables and the repository methods on them. -/
abbrev database : Database where
  Key := layout.Key
  Cell := fun k ↦ Option (layout.Row k.1)
  Op := Op
  Answer := Op.Answer
  Answers := Op.Answers
  effect := Op.effect

/-- The answers of the methods, for schedules. -/
def oracle : Oracle database where
  answer := Op.answer
  reads := Op.reads
  right := fun op s a h ↦ by
    cases op with
    | sessionLiveByEntries => exact .of_eq (Option.some.inj h).symm
    | sessionLiveIdsFor => simp [Op.answer] at h
    | _ => exact h
  effect_of_reads := fun op _ h ↦ by
    cases op <;> first | rfl | simp [Op.reads] at h

/-- The rows with writes laid over them. -/
abbrev Rows.after (s : Rows) (w : Writes database) : Rows := w.laidOver s

variable {w : Writes database}

theorem Rows.after_of_none {s : Rows} {k : layout.Key} (h : w k = none) :
    s.after w k = s k :=
  @Writes.laidOver_of_none database w k h s

theorem Rows.after_of_some {s : Rows} {k : layout.Key}
    {v : Option (layout.Row k.1)} (h : w k = some v) : s.after w k = v :=
  @Writes.laidOver_of_some database w k v h s

theorem Rows.after_insert {table : Table} {id : ℕ} {s : Rows} (row : table.Row)
    (hfree : s ⟨table, id⟩ = none) :
    s.after (Layout.insert (L := layout) table id row s) ⟨table, id⟩ = some row :=
  Rows.after_of_some (Layout.insert_of_free (L := layout) hfree)

section Effects

variable {s : Rows} {hash : TokenHash}

theorem effect_refreshTokenCreate (row : RefreshToken)
    (hfree : s.refreshToken hash = none) :
    Op.effect (.refreshTokenCreate hash row) s =
      Layout.put (L := layout) .refreshTokens hash (some row) :=
  Layout.insert_eq_put hfree

variable {now : Time}

theorem effect_refreshTokenConsume {row : RefreshToken}
    (hrow : s.refreshToken hash = some row) (hok : Op.refreshTokenConsumable now row = true) :
    Op.effect (.refreshTokenConsume hash now) s =
      Layout.put (L := layout) .refreshTokens hash (some { row with usedAt := some now }) :=
  Layout.update_eq_put hrow (by simp [hok]) fun _ _ hne ↦ by simp [hne]

theorem effect_refreshTokenConsume_none
    (h : (s.refreshToken hash).filter (Op.refreshTokenConsumable now) = none) :
    Op.effect (.refreshTokenConsume hash now) s = fun _ ↦ none := by
  refine Layout.update_eq_none fun id row hrow ↦ ?_
  by_cases hid : id = hash
  · subst hid
    have hnot : Op.refreshTokenConsumable now row = false := by simpa [hrow] using h
    simp [hnot]
  · simp [hid]

theorem effect_refreshTokenAttachReplacement {hash replacedBy : TokenHash}
    {row : RefreshToken} (hrow : s.refreshToken hash = some row) :
    Op.effect (.refreshTokenAttachReplacement hash replacedBy) s =
      Layout.put (L := layout) .refreshTokens hash
        (some { row with replacedBy := some replacedBy }) :=
  Layout.update_eq_put hrow (by simp) fun _ _ hne ↦ by simp [hne]

theorem effect_tokenGrantCreate {id : GrantId} (row : TokenGrant) (hfree : s.grant id = none) :
    Op.effect (.tokenGrantCreate id row) s =
      Layout.put (L := layout) .tokenGrants id (some row) :=
  Layout.insert_eq_put hfree

variable {row : AuthorizationCode}

theorem effect_authorizationCodeConsume
    (hrow : s.code hash = some row)
    (hok : Op.codeConsumable now row = true) :
    Op.effect (.authorizationCodeConsume hash now) s =
      Layout.put (L := layout) .authorizationCodes hash
        (some { row with consumedAt := some now }) :=
  Layout.update_eq_put hrow (by simp [hok]) fun _ _ hne ↦ by simp [hne]

theorem effect_authorizationCodeConsume_none
    (h : (s.code hash).filter (Op.codeConsumable now) = none) :
    Op.effect (.authorizationCodeConsume hash now) s = fun _ ↦ none := by
  refine Layout.update_eq_none fun id row hrow ↦ ?_
  by_cases hid : id = hash
  · subst hid
    have hnot : Op.codeConsumable now row = false := by simpa [hrow] using h
    simp [hnot]
  · simp [hid]

theorem effect_authorizationCodeAttachGrant {grantId : GrantId}
    (hrow : s.code hash = some row) :
    Op.effect (.authorizationCodeAttachGrant hash grantId) s =
      Layout.put (L := layout) .authorizationCodes hash
        (some { row with grantId := some grantId }) :=
  Layout.update_eq_put hrow (by simp) fun _ _ hne ↦ by simp [hne]

end Effects

/-- What a request of the modelled use cases throws. -/
inductive Failure where
  | invalidGrant
  /-- `invalid_grant` answered to the replay of a code, with the grant it was redeemed
  into. -/
  | replayed (grantId : GrantId)
  | invalidScope
  | invalidTarget
  | invalidRequest
  | invalidClient
  | unauthorizedClient
  /-- `AgentTokenRefused`. -/
  | agentTokenRefused
  /-- An `Error` that is no answer of the protocol: a row that must be there is not, or a
  key is taken. -/
  | internal
  deriving DecidableEq

/-- What the modelled use cases do. -/
abbrev Tx (α : Type) : Type := Program database Failure α

/-- A repository method called. -/
abbrev query (op : Op) : Tx op.Answer := @Program.ask database Failure op

/-- A transaction of the given statements. -/
def runAll : List Op → Tx Unit
  | [] => pure ()
  | op :: ops => do
    let _answer ← query op
    runAll ops

end Odudu.ProtocolOidc
