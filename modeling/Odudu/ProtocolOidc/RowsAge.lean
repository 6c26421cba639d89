import Odudu.ProtocolOidc.Repositories
import Odudu.ReadCommitted.Ageing

/-!
# How the rows age

No modelled use case takes back a revocation or a consumption, gives a session to another
subject, or moves the clock back.  `older` says so of each table, and `Op.ages_effect` that every
repository method keeps to it, the two aside that attach something to a row: those do
when the row has nothing attached.
-/

set_option autoImplicit false

namespace Odudu.ProtocolOidc

open ReadCommitted Program

/-- A column that is written once. -/
def WrittenOnce {α : Type} (a b : Option α) : Prop := ∀ x, a = some x → b = some x

theorem WrittenOnce.refl {α : Type} (a : Option α) : WrittenOnce a a := fun _ h ↦ h

theorem WrittenOnce.trans {α : Type} {a b c : Option α} (h : WrittenOnce a b)
    (h' : WrittenOnce b c) : WrittenOnce a c := fun x hx ↦ h' x (h x hx)

theorem WrittenOnce.of_none {α : Type} {a : Option α} (h : a = none) (b : Option α) :
    WrittenOnce a b := by
  intro x hx
  simp [h] at hx

theorem WrittenOnce.isSome {α : Type} {a b : Option α} (h : WrittenOnce a b)
    (ha : a.isSome) : b.isSome := by
  obtain ⟨x, hx⟩ := Option.isSome_iff_exists.mp ha
  exact Option.isSome_iff_exists.mpr ⟨x, h x hx⟩

/-- A sign-in attempt keeps its request and its deadline, and is consumed once. -/
structure AuthenticationSession.Older (a b : AuthenticationSession) : Prop where
  pendingRequest : b.pendingRequest = a.pendingRequest
  expiresAt : b.expiresAt = a.expiresAt
  consumedAt : WrittenOnce a.consumedAt b.consumedAt

/-- A session keeps its subject and what it was established with. -/
structure Session.Older (a b : Session) : Prop where
  subjectId : b.subjectId = a.subjectId
  createdAt : b.createdAt = a.createdAt
  authenticators : b.authenticators = a.authenticators

/-- A code is consumed once and bound to one grant. -/
structure AuthorizationCode.Older (a b : AuthorizationCode) : Prop where
  rest : b = { a with consumedAt := b.consumedAt, grantId := b.grantId }
  consumedAt : WrittenOnce a.consumedAt b.consumedAt
  grantId : WrittenOnce a.grantId b.grantId

/-- A grant is revoked once. -/
structure TokenGrant.Older (a b : TokenGrant) : Prop where
  rest : b = { a with revokedAt := b.revokedAt }
  revokedAt : WrittenOnce a.revokedAt b.revokedAt

/-- A refresh token is used once and replaced once. -/
structure RefreshToken.Older (a b : RefreshToken) : Prop where
  rest : b = { a with usedAt := b.usedAt, replacedBy := b.replacedBy }
  usedAt : WrittenOnce a.usedAt b.usedAt
  replacedBy : WrittenOnce a.replacedBy b.replacedBy

theorem RefreshToken.Older.grantId {a b : RefreshToken} (h : a.Older b) :
    b.grantId = a.grantId := by
  rw [h.rest]

/-- A row that is there stays, and ages. -/
def StaysAnd {α : Type} (le : α → α → Prop) (a b : Option α) : Prop :=
  ∀ row, a = some row → ∃ row', b = some row' ∧ le row row'

/-- How a row of each table may change. -/
def older : (k : layout.Key) → Option (layout.Row k.1) → Option (layout.Row k.1) → Prop
  | ⟨.clock, _⟩, a, b => a.getD 0 ≤ b.getD 0
  | ⟨.subjects, _⟩, _, _ => True
  | ⟨.authenticationSessions, _⟩, a, b => StaysAnd AuthenticationSession.Older a b
  | ⟨.sessions, _⟩, a, b => StaysAnd Session.Older a b
  | ⟨.authorizationCodes, _⟩, a, b => StaysAnd AuthorizationCode.Older a b
  | ⟨.tokenGrants, _⟩, a, b => StaysAnd TokenGrant.Older a b
  | ⟨.refreshTokens, _⟩, a, b => StaysAnd RefreshToken.Older a b

theorem StaysAnd.refl {α : Type} {le : α → α → Prop} (hle : ∀ row, le row row)
    (a : Option α) : StaysAnd le a a :=
  fun row h ↦ ⟨row, h, hle row⟩

theorem StaysAnd.trans {α : Type} (le : α → α → Prop)
    (hle : ∀ a b c, le a b → le b c → le a c) {a b c : Option α} (h : StaysAnd le a b)
    (h' : StaysAnd le b c) : StaysAnd le a c := by
  intro row hrow
  obtain ⟨row', hrow', hage⟩ := h row hrow
  obtain ⟨row'', hrow'', hage'⟩ := h' row' hrow'
  exact ⟨row'', hrow'', hle _ _ _ hage hage'⟩

theorem AuthenticationSession.Older.refl (a : AuthenticationSession) : a.Older a :=
  ⟨rfl, rfl, .refl _⟩

theorem AuthenticationSession.Older.trans {a b c : AuthenticationSession} (h : a.Older b)
    (h' : b.Older c) : a.Older c :=
  ⟨h'.pendingRequest.trans h.pendingRequest, h'.expiresAt.trans h.expiresAt,
    h.consumedAt.trans h'.consumedAt⟩

theorem Session.Older.refl (a : Session) : a.Older a := ⟨rfl, rfl, rfl⟩

theorem Session.Older.trans {a b c : Session} (h : a.Older b) (h' : b.Older c) : a.Older c :=
  ⟨h'.subjectId.trans h.subjectId, h'.createdAt.trans h.createdAt,
    h'.authenticators.trans h.authenticators⟩

theorem AuthorizationCode.Older.refl (a : AuthorizationCode) : a.Older a :=
  ⟨rfl, .refl _, .refl _⟩

theorem AuthorizationCode.Older.trans {a b c : AuthorizationCode} (h : a.Older b)
    (h' : b.Older c) : a.Older c where
  rest := by
    rw [h'.rest, h.rest]
  consumedAt := h.consumedAt.trans h'.consumedAt
  grantId := h.grantId.trans h'.grantId

theorem TokenGrant.Older.refl (a : TokenGrant) : a.Older a := ⟨rfl, .refl _⟩

theorem TokenGrant.Older.trans {a b c : TokenGrant} (h : a.Older b) (h' : b.Older c) :
    a.Older c where
  rest := by
    rw [h'.rest, h.rest]
  revokedAt := h.revokedAt.trans h'.revokedAt

theorem RefreshToken.Older.refl (a : RefreshToken) : a.Older a := ⟨rfl, .refl _, .refl _⟩

theorem RefreshToken.Older.trans {a b c : RefreshToken} (h : a.Older b) (h' : b.Older c) :
    a.Older c where
  rest := by
    rw [h'.rest, h.rest]
  usedAt := h.usedAt.trans h'.usedAt
  replacedBy := h.replacedBy.trans h'.replacedBy

/-- The order on the rows. -/
def ageing : Ageing database where
  older := older
  refl := by
    rintro ⟨table, id⟩ v
    cases table
    · exact Nat.le_refl _
    · trivial
    · exact .refl AuthenticationSession.Older.refl v
    · exact .refl Session.Older.refl v
    · exact .refl AuthorizationCode.Older.refl v
    · exact .refl TokenGrant.Older.refl v
    · exact .refl RefreshToken.Older.refl v
  trans := by
    rintro ⟨table, id⟩ v v' v'' h h'
    cases table
    · exact Nat.le_trans h h'
    · trivial
    · exact StaysAnd.trans AuthenticationSession.Older (fun _ _ _ ↦ AuthenticationSession.Older.trans) h h'
    · exact StaysAnd.trans Session.Older (fun _ _ _ ↦ Session.Older.trans) h h'
    · exact StaysAnd.trans AuthorizationCode.Older (fun _ _ _ ↦ AuthorizationCode.Older.trans) h h'
    · exact StaysAnd.trans TokenGrant.Older (fun _ _ _ ↦ TokenGrant.Older.trans) h h'
    · exact StaysAnd.trans RefreshToken.Older (fun _ _ _ ↦ RefreshToken.Older.trans) h h'

/-- The rows have aged. -/
abbrev Rows.Ages (s s' : Rows) : Prop := ageing.Ages s s'

theorem aged {w : Writes database} {s s' : Rows} (h : ageing.Rely w s s') : s.Ages s' := h.ages

theorem agedSeen {w : Writes database} {s s' : Rows} (h : ageing.Rely w s s') :
    (s.after w).Ages (s'.after w) :=
  h.seen

namespace Rows.Ages

variable {s s' : Rows} (h : s.Ages s')

include h

theorem clock_le : s.clock ≤ s'.clock := h ⟨.clock, 0⟩

theorem authenticationSession {id : AuthSessionId} {row : AuthenticationSession}
    (hrow : s.authenticationSession id = some row) :
    ∃ row', s'.authenticationSession id = some row' ∧ row.Older row' :=
  h ⟨.authenticationSessions, id⟩ row hrow

theorem code {hash : TokenHash} {row : AuthorizationCode} (hrow : s.code hash = some row) :
    ∃ row', s'.code hash = some row' ∧ row.Older row' :=
  h ⟨.authorizationCodes, hash⟩ row hrow

theorem grant {id : GrantId} {row : TokenGrant} (hrow : s.grant id = some row) :
    ∃ row', s'.grant id = some row' ∧ row.Older row' :=
  h ⟨.tokenGrants, id⟩ row hrow

theorem refreshToken {hash : TokenHash} {row : RefreshToken}
    (hrow : s.refreshToken hash = some row) :
    ∃ row', s'.refreshToken hash = some row' ∧ row.Older row' :=
  h ⟨.refreshTokens, hash⟩ row hrow

end Rows.Ages

variable {table : Table}

/-- A statement that updates a table ages the rows when its `SET` ages what it is
applied to. -/
theorem ages_update {A : Ageing database} {wanted : ℕ → table.Row → Bool}
    {set : table.Row → table.Row} {s : Rows}
    (hset : ∀ id row, s ⟨table, id⟩ = some row → wanted id row = true →
      A.older ⟨table, id⟩ (some row) (some (set row))) :
    A.Ages s (s.after (Layout.update (L := layout) table wanted set s)) := by
  rintro ⟨table', id⟩
  by_cases htable : table' = table
  · subst htable
    cases hwritten : Layout.update (L := layout) table' wanted set s ⟨table', id⟩ with
    | none =>
      rw [Rows.after_of_none hwritten]
      exact A.refl _ _
    | some =>
      obtain ⟨row, hrow, hwanted, rfl⟩ := Layout.update_eq_some (L := layout) hwritten
      rw [Rows.after_of_some hwritten, hrow]
      exact hset id row hrow hwanted
  · rw [Rows.after_of_none (Layout.update_of_ne (L := layout) htable id)]
    exact A.refl _ _

/-- A statement that inserts ages the rows. -/
theorem ages_insert {A : Ageing database} {id : ℕ} {row : table.Row} {s : Rows}
    (hnew : A.older ⟨table, id⟩ none (some row)) :
    A.Ages s (s.after (Layout.insert (L := layout) table id row s)) := by
  rintro ⟨table', id'⟩
  by_cases hkey : table' = table ∧ id' = id
  · obtain ⟨rfl, rfl⟩ := hkey
    cases hrow : s ⟨table', id'⟩ with
    | none =>
      rw [Rows.after_of_some (Layout.insert_of_free (L := layout) hrow)]
      exact hnew
    | some =>
      rw [Rows.after_of_none (Layout.insert_of_taken (L := layout) hrow), hrow]
      exact A.refl _ _
  · have hnone : Layout.insert (L := layout) table id row s ⟨table', id'⟩ = none := by
      by_cases htable : table' = table
      · subst htable
        exact Layout.insert_other fun hid ↦ hkey ⟨rfl, hid⟩
      · exact Layout.insert_of_ne htable id'
    rw [Rows.after_of_none hnone]
    exact A.refl _ _

/-- The methods that age the rows whatever they find: all but the two that attach
something to a row. -/
def Op.AgesRows : Op → Bool
  | .refreshTokenAttachReplacement .. | .authorizationCodeAttachGrant .. => false
  | _ => true

private theorem older_of {id : ℕ} {le : table.Row → table.Row → Prop}
    (hle : ∀ a b, ageing.older ⟨table, id⟩ a b ↔ StaysAnd le a b) {row row' : table.Row}
    (h : le row row') : ageing.older ⟨table, id⟩ (some row) (some row') := by
  rw [hle]
  rintro _ ⟨rfl⟩
  exact ⟨row', rfl, h⟩

private theorem ages_of_revoke {wanted : GrantId → TokenGrant → Bool} {revokedAt : Time}
    {s : Rows} :
    s.Ages (s.after (Op.revokeUnrevoked (fun id row ↦ wanted id row) revokedAt s)) := by
  refine ages_update fun id row hrow hwanted ↦ older_of (fun _ _ ↦ Iff.rfl) ⟨rfl, ?_⟩
  simp only [Bool.and_eq_true, Option.isNone_iff_eq_none] at hwanted
  exact .of_none hwanted.2 _

/-- Each of these methods ages the rows. -/
theorem Op.ages_effect {op : Op} (hop : op.AgesRows = true) (s : Rows) :
    s.Ages (s.after (op.effect s)) := by
  cases op with
  | tick =>
    exact ages_update fun id row _ _ ↦ Nat.le_add_right _ _
  | subjectSetEnabled => exact ages_update fun _ _ _ _ ↦ trivial
  | refreshTokenCreate | tokenGrantCreate | authorizationCodeCreate | sessionCreate
  | authenticationSessionCreate => exact ages_insert fun _ h ↦ by simp at h
  | refreshTokenConsume =>
    refine ages_update fun _ row _ hwanted ↦ older_of (fun _ _ ↦ Iff.rfl) ⟨rfl, ?_, .refl _⟩
    simp only [refreshTokenConsumable, Bool.and_eq_true, Option.isNone_iff_eq_none] at hwanted
    exact .of_none hwanted.2.1 _
  | tokenGrantRevoke => exact ages_of_revoke
  | tokenGrantRevokeForSession =>
    refine ages_update fun _ row _ _ ↦ older_of (fun _ _ ↦ Iff.rfl) ⟨rfl, fun x hx ↦ ?_⟩
    simp [hx]
  | tokenGrantRevokeForSessions =>
    refine ages_update fun _ row _ _ ↦ older_of (fun _ _ ↦ Iff.rfl) ⟨rfl, fun x hx ↦ ?_⟩
    simp [hx]
  | tokenGrantRevokeForSubjectClient => exact ages_of_revoke
  | tokenGrantRevokeForSubject => exact ages_of_revoke
  | tokenGrantRevokeForActor => exact ages_of_revoke
  | authorizationCodeConsume =>
    refine ages_update fun _ row _ hwanted ↦ older_of (fun _ _ ↦ Iff.rfl) ⟨rfl, ?_, .refl _⟩
    simp only [codeConsumable, Bool.and_eq_true, Option.isNone_iff_eq_none] at hwanted
    exact .of_none hwanted.2.1 _
  | sessionTouch =>
    exact ages_update fun _ _ _ _ ↦ older_of (fun _ _ ↦ Iff.rfl) ⟨rfl, rfl, rfl⟩
  | sessionEnd =>
    exact ages_update fun _ _ _ _ ↦ older_of (fun _ _ ↦ Iff.rfl) ⟨rfl, rfl, rfl⟩
  | sessionEndAll =>
    exact ages_update fun _ _ _ _ ↦ older_of (fun _ _ ↦ Iff.rfl) ⟨rfl, rfl, rfl⟩
  | sessionEndMany =>
    exact ages_update fun _ _ _ _ ↦ older_of (fun _ _ ↦ Iff.rfl) ⟨rfl, rfl, rfl⟩
  | authenticationSessionConsume =>
    refine ages_update fun _ row _ hwanted ↦ older_of (fun _ _ ↦ Iff.rfl) ⟨rfl, rfl, ?_⟩
    simp only [Bool.and_eq_true, Option.isNone_iff_eq_none] at hwanted
    exact .of_none hwanted.2 _
  | authenticationSessionRecordSatisfied =>
    exact ages_update fun _ row _ _ ↦ older_of (fun _ _ ↦ Iff.rfl) ⟨rfl, rfl, .refl _⟩
  | authenticationSessionBindSubject =>
    exact ages_update fun _ row _ _ ↦ older_of (fun _ _ ↦ Iff.rfl) ⟨rfl, rfl, .refl _⟩
  | authenticationSessionRecordAuthenticated =>
    exact ages_update fun _ row _ _ ↦ older_of (fun _ _ ↦ Iff.rfl) ⟨rfl, rfl, .refl _⟩
  | authenticationSessionSetWebauthnChallenge =>
    exact ages_update fun _ row _ _ ↦ older_of (fun _ _ ↦ Iff.rfl) ⟨rfl, rfl, .refl _⟩
  | authenticationSessionClaimWebauthnChallenge =>
    exact ages_update fun _ row _ _ ↦ older_of (fun _ _ ↦ Iff.rfl) ⟨rfl, rfl, .refl _⟩
  | authenticationSessionResetProgress =>
    exact ages_update fun _ row _ _ ↦ older_of (fun _ _ ↦ Iff.rfl) ⟨rfl, rfl, .refl _⟩
  | refreshTokenAttachReplacement => simp [AgesRows] at hop
  | authorizationCodeAttachGrant => simp [AgesRows] at hop
  | _ => exact Ageing.Ages.refl (A := ageing) s

theorem ages_attachReplacement (hash replacedBy : TokenHash) {s : Rows}
    (hnone : ∀ row, s.refreshToken hash = some row → row.replacedBy = none) :
    s.Ages (s.after (Op.effect (.refreshTokenAttachReplacement hash replacedBy) s)) := by
  refine ages_update fun id row hrow hwanted ↦
    older_of (fun _ _ ↦ Iff.rfl) ⟨rfl, .refl _, .of_none ?_ _⟩
  obtain rfl : id = hash := by simpa using hwanted
  exact hnone row hrow

theorem ages_attachGrant (hash : TokenHash) (grantId : GrantId) {s : Rows}
    (hnone : ∀ row, s.code hash = some row → row.grantId = none) :
    s.Ages (s.after (Op.effect (.authorizationCodeAttachGrant hash grantId) s)) := by
  refine ages_update fun id row hrow hwanted ↦
    older_of (fun _ _ ↦ Iff.rfl) ⟨rfl, .refl _, .of_none ?_ _⟩
  obtain rfl : id = hash := by simpa using hwanted
  exact hnone row hrow

section Rules

variable {A : Ageing database} {P : Rows → Prop} {R : Rules database Failure} {w : Writes database}
  {s : Rows} {α : Type} {post : α → Writes database → Rows → Prop} {op : Op}

theorem wp_reading (hR : A.Governs P R) (hop : op.effect = fun _ _ ↦ none)
    {f : op.Answer → Tx α}
    (h : ∀ (s' : Rows) a, A.Rely w s s' → P s' → op.Answers (s'.after w) a →
      (f a).wp R w s' post) :
    (query op >>= f).wp R w s post := by
  refine hR.wp_ask fun s' a hrely hs' _ _ ha ↦ ?_
  rw [show database.effect op = _ from hop]
  exact h s' a hrely hs' ha

/-- The rule of a method that writes, and what follows it: what it writes is given, and
ages the rows it sees. -/
theorem wp_writing (hR : A.Governs P R) {f : op.Answer → Tx α}
    (hages : A.Ages s (s.after w))
    (h : ∀ (s' : Rows) a, A.Rely w s s' → P s' → op.Answers (s'.after w) a →
      ∃ later, op.effect (s'.after w) = later ∧
        A.Ages (s'.after w) ((s'.after w).after (op.effect (s'.after w))) ∧
        (A.Ages s' (s'.after (w.andThen later)) → (f a).wp R (w.andThen later) s' post)) :
    (query op >>= f).wp R w s post := by
  refine hR.wp_ask fun s' a hrely hs' _ _ ha ↦ ?_
  obtain ⟨later, rfl, hlater, hnext⟩ := h s' a hrely hs' ha
  exact hnext ((hrely.laidOver hages).andThen hlater)

theorem wp_writing_first (hR : A.Governs P R) {f : op.Answer → Tx α}
    (h : ∀ (s' : Rows) a, A.Rely Writes.nothing s s' → P s' → op.Answers s' a →
      ∃ later, op.effect s' = later ∧ A.Ages s' (s'.after (op.effect s')) ∧
        (A.Ages s' (s'.after later) → (f a).wp R later s' post)) :
    (query op >>= f).wp R Writes.nothing s post := by
  refine wp_writing hR (.refl _) fun s' a hrely hs' ha ↦ ?_
  obtain ⟨later, hlater, hages, hnext⟩ := h s' a hrely hs' ha
  refine ⟨later, hlater, hages, ?_⟩
  rw [Writes.nothing_andThen]
  exact hnext

theorem wp_committing (hR : A.Governs P R) {f : Unit → Tx α}
    (h : ∀ s' : Rows, A.Rely w s s' → P s' →
      R.owesCommit s' w ∧ (f ()).wp R Writes.nothing (s'.after w) post) :
    (Program.endTransaction >>= f).wp R w s post := by
  rw [Program.wp_bind]
  exact fun s' hrely _ ↦ h s' (hR _ _ _ hrely).1 (hR _ _ _ hrely).2

end Rules

section Alone

variable {P : Rows → Prop} {owes : Failure → Rows → Prop} {w : Writes database} {s : Rows}
  {α : Type} {post : α → Writes database → Rows → Prop} {op : Op} {f : op.Answer → Tx α}

theorem wp_query_alone
    (h : ∀ a w', op.Answers (s.after w) a →
      s.after w' = (s.after w).after (op.effect (s.after w)) →
      (f a).wp (.alone P owes) w' s post) :
    (query op >>= f).wp (.alone P owes) w s post :=
  wp_ask_alone h

theorem wp_reading_alone (hop : op.reads = true)
    (h : ∀ a, op.Answers (s.after w) a → (f a).wp (.alone P owes) w s post) :
    (query op >>= f).wp (.alone P owes) w s post :=
  wp_read_alone (oracle.effect_of_reads op _ hop) h

end Alone

theorem only_runAll {Q : Op → Prop} {ops : List Op} (hops : ∀ op ∈ ops, Q op) :
    (runAll ops).Only Q := by
  induction ops with
  | nil => trivial
  | cons op _ ih =>
    exact only_bind (only_ask (hops op List.mem_cons_self)) fun _ ↦
      ih fun op' hop' ↦ hops op' (List.mem_cons_of_mem _ hop')

end Odudu.ProtocolOidc
