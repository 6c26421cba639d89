import Odudu.OneTimeTokens.Ledger
import Odudu.ProtocolOidc.RefreshRotation
import Odudu.ProtocolOidc.RowsAge

/-!
# Refresh token families

The refresh tokens of a grant as a family of one-time tokens, and what a rotation leaves
behind whatever the others do while it runs, as long as they only age the rows.
-/

set_option autoImplicit false

namespace Odudu.ProtocolOidc

open ReadCommitted Program OneTimeTokens

/-- What a refresh token's row puts on record of it. -/
def RefreshToken.entry (row : RefreshToken) : Entry TokenHash GrantId :=
  ⟨row.grantId, row.usedAt.isSome, row.replacedBy⟩

/-- The ledger the refresh tokens keep. -/
def Rows.ledger (s : Rows) : Ledger TokenHash GrantId :=
  fun hash ↦ (s.refreshToken hash).map RefreshToken.entry

/-- The refresh tokens are in order, and each belongs to a grant that exists. -/
structure Rows.FamiliesInOrder (s : Rows) : Prop where
  ledger : s.ledger.InOrder
  hasGrant : ∀ {hash row}, s.refreshToken hash = some row → ∃ grant, s.grant row.grantId = some grant

/-- Two sets of writes agree but for one table. -/
def AwayFrom (table : Table) (w w' : Writes database) : Prop :=
  ∀ table' id, table' ≠ table → w ⟨table', id⟩ = w' ⟨table', id⟩

theorem AwayFrom.refl (table : Table) (w : Writes database) : AwayFrom table w w :=
  fun _ _ _ ↦ rfl

/-- A row of the grants in which `revoked_at` is set. -/
def Rows.Revoked (s : Rows) (grantId : GrantId) : Prop :=
  ∃ grant, s.grant grantId = some grant ∧ grant.revokedAt.isSome

variable {grantId : GrantId}

theorem Rows.Revoked.ages {s s' : Rows} (h : s.Revoked grantId)
    (hages : s.Ages s') : s'.Revoked grantId := by
  obtain ⟨grant, hgrant, hrevoked⟩ := h
  obtain ⟨grant', hgrant', hage⟩ := hages.grant hgrant
  exact ⟨grant', hgrant', hage.revokedAt.isSome hrevoked⟩

/-- A token issued. -/
abbrev issuing (hash : TokenHash) (row : RefreshToken) : Writes database :=
  Layout.put (L := layout) .refreshTokens hash (some row)

/-- A token spent. -/
abbrev spending (hash : TokenHash) (row : RefreshToken) (usedAt : Time) : Writes database :=
  Layout.put (L := layout) .refreshTokens hash (some { row with usedAt := some usedAt })

/-- What a rotation leaves behind, by its outcome: its writes over the rows, those on
sessions apart.  `P` is what is known of the rows while it runs. -/
inductive Rotation (P : Rows → Prop) (r : RotationRequest) :
    RotationOutcome → Writes database → Rows → Prop where
  /-- There is no such token, or it has expired unused. -/
  | unknown {w : Writes database} {s : Rows} (hread : ∃ s₁ : Rows, P s₁ ∧
        ∀ row, s₁.refreshToken r.presentedHash = some row → row.usedAt = none)
      (hw : w = Writes.nothing) : Rotation P r .unknown w s
  /-- The presented token was used before: nothing but its grant is written, and its grant
  is revoked. -/
  | reused {w : Writes database} {s : Rows} {row : RefreshToken} {subjectId : Option SubjectId}
      (hrow : s.refreshToken r.presentedHash = some row) (hused : row.usedAt.isSome)
      (hw : ∀ k, k ≠ ⟨.tokenGrants, row.grantId⟩ → w k = none)
      (hrevoked : (s.after w).Revoked row.grantId) :
      Rotation P r (.reused row.grantId subjectId) w s
  /-- The family is over: the presented token is spent. -/
  | revoked {w : Writes database} {s : Rows} {row : RefreshToken} {usedAt : Time}
      (hrow : s.refreshToken r.presentedHash = some row) (hunused : row.usedAt = none)
      (hw : AwayFrom .sessions w (spending r.presentedHash row usedAt)) :
      Rotation P r .revoked w s
  /-- The presented token is spent and has its successor, and its grant was not revoked
  when it was read. -/
  | rotated {w : Writes database} {s : Rows} {row : RefreshToken} {usedAt expiresAt : Time}
      {grant : TokenGrant} (hread : ∃ s₁ : Rows, P s₁ ∧ s₁.grant row.grantId = some grant ∧
        grant.revokedAt = none)
      (hrow : s.refreshToken r.presentedHash = some row) (hunused : row.usedAt = none)
      (hfree : s.refreshToken r.nextHash = none)
      (hspent : w ⟨.refreshTokens, r.presentedHash⟩ =
        some (some { row with usedAt := some usedAt, replacedBy := some r.nextHash }))
      (hnew : w ⟨.refreshTokens, r.nextHash⟩ = some (some ⟨row.grantId, expiresAt, none, none⟩))
      (hw : ∀ k : layout.Key, k.1 ≠ .sessions → k ≠ ⟨.refreshTokens, r.presentedHash⟩ →
        k ≠ ⟨.refreshTokens, r.nextHash⟩ → w k = none) :
      Rotation P r (.rotated row.grantId grant r.nextHash) w s

variable {P : Rows → Prop} {r : RotationRequest} {R : Rules database Failure} {w : Writes database}
  {s s' : Rows} {outcome : RotationOutcome}

/-- What a rotation leaves behind is so still when others have committed. -/
theorem Rotation.of_rely (h : Rotation P r outcome w s)
    (hrely : ageing.Rely w s s') : Rotation P r outcome w s' := by
  cases h with
  | unknown hread hw => exact .unknown hread hw
  | reused hrow hused hw hrevoked =>
    obtain ⟨row', hrow', hage⟩ := (aged hrely).refreshToken hrow
    rw [← hage.grantId] at hw hrevoked ⊢
    exact .reused hrow' (hage.usedAt.isSome hused) hw (hrevoked.ages (agedSeen hrely))
  | revoked hrow hunused hw =>
    have hlocked : w ⟨.refreshTokens, r.presentedHash⟩ = some _ :=
      (hw .refreshTokens r.presentedHash (by decide)).trans (Layout.put_self (L := layout))
    exact .revoked ((hrely.locked _ _ hlocked).trans hrow) hunused hw
  | rotated hread hrow hunused hfree hspent hnew hw =>
    exact .rotated hread ((hrely.locked _ _ hspent).trans hrow) hunused
      ((hrely.locked _ _ hnew).trans hfree) hspent hnew hw

theorem revoke_eq_none {revokedAt : Time} {k : layout.Key}
    (hk : k ≠ ⟨.tokenGrants, grantId⟩) :
    Op.effect (.tokenGrantRevoke grantId revokedAt) s k = none := by
  obtain ⟨table, id⟩ := k
  simp only [Op.effect, Op.revokeUnrevoked]
  by_cases htable : table = .tokenGrants
  · subst htable
    have hid : id ≠ grantId := fun h ↦ hk (h ▸ rfl)
    cases hrow : s ⟨.tokenGrants, id⟩ with
    | none => exact Layout.update_of_none (L := layout) hrow
    | some => exact Layout.update_of_unwanted (L := layout) hrow (by simp [hid])
  · exact Layout.update_of_ne (L := layout) htable id

theorem revoked_of_revoke (revokedAt : Time) {grant : TokenGrant}
    (hgrant : s.grant grantId = some grant) :
    (s.after (Op.effect (.tokenGrantRevoke grantId revokedAt) s)).Revoked grantId := by
  simp only [Op.effect, Op.revokeUnrevoked]
  by_cases hrevoked : grant.revokedAt = none
  · refine ⟨{ grant with revokedAt := some revokedAt }, ?_, rfl⟩
    exact Rows.after_of_some (Layout.update_of_wanted (L := layout) hgrant (by simp [hrevoked]))
  · refine ⟨grant, ?_, Option.isSome_iff_ne_none.mpr hrevoked⟩
    refine (Rows.after_of_none ?_).trans hgrant
    exact Layout.update_of_unwanted (L := layout) hgrant
      (by simpa [Option.isSome_iff_ne_none] using hrevoked)

/-- What is owed for a rotation. -/
abbrev Rotated (P : Rows → Prop) (r : RotationRequest) (outcome : RotationOutcome)
    (w : Writes database) (s : Rows) : Prop :=
  s.Ages (s.after w) ∧ Rotation P r outcome w s

section Rotating

variable (hR : ageing.Governs P R) (hP : ∀ s, P s → s.FamiliesInOrder)

include hR hP

theorem wp_detectReuse : (detectReuse r).wp R Writes.nothing s (Rotated P r) := by
  unfold detectReuse
  refine wp_reading hR rfl fun s₁ existing hrely₁ hs₁ hexisting ↦ ?_
  cases existing with
  | none =>
    refine ⟨.refl _, .unknown ⟨s₁, hs₁, fun row hrow ↦ ?_⟩ rfl⟩
    exact absurd ((Option.some.inj hexisting).symm.trans hrow) (by simp)
  | some row =>
    have hrow : s₁.refreshToken r.presentedHash = some row := Option.some.inj hexisting
    cases hused : row.usedAt with
    | none =>
      simp only [hused]
      refine ⟨.refl _, .unknown ⟨s₁, hs₁, fun row' hrow' ↦ ?_⟩ rfl⟩
      obtain rfl : row = row' := Option.some.inj (hrow.symm.trans hrow')
      exact hused
    | some usedAt =>
      simp only [hused]
      refine wp_reading hR rfl fun s₂ family hrely₂ _ _ ↦ ?_
      refine wp_writing_first hR fun s₃ _ hrely₃ hs₃ _ ↦
        ⟨_, rfl, Op.ages_effect rfl _, fun hages₃ ↦ ?_⟩
      obtain ⟨row', hrow', hage⟩ := (aged (hrely₂.trans hrely₃)).refreshToken hrow
      obtain ⟨grant, hgrant⟩ := (hP _ hs₃).hasGrant hrow'
      rw [← hage.grantId] at hages₃ ⊢
      exact ⟨hages₃, .reused hrow' (hage.usedAt.isSome (by simp [hused]))
        (fun k hk ↦ revoke_eq_none hk) (revoked_of_revoke r.now hgrant)⟩

omit hP in
/-- Touching a session writes sessions alone. -/
theorem wp_touchSession {sessionId : Option SessionId} {lifespans : SessionLifespans}
    {now : Time} {post : Bool → Writes database → Rows → Prop} (hages : s.Ages (s.after w))
    (hpost : ∀ alive w' (s' : Rows), AwayFrom .sessions w' w → ageing.Rely w s s' →
      s'.Ages (s'.after w') → post alive w' s') :
    (touchSession sessionId lifespans now).wp R w s post := by
  unfold touchSession
  cases sessionId with
  | none => exact hpost true w s (.refl _ _) (.refl _ _) hages
  | some =>
    refine wp_reading hR rfl fun s₁ session hrely₁ _ _ ↦ ?_
    cases session with
    | none => exact hpost false w s₁ (.refl _ _) hrely₁ (hrely₁.laidOver hages)
    | some =>
      refine wp_writing hR (hrely₁.laidOver hages) fun s₂ _ hrely₂ _ _ ↦
        ⟨_, rfl, Op.ages_effect rfl _, fun hages₂ ↦ ?_⟩
      refine hpost true _ s₂ (fun table id htable ↦ ?_) (hrely₁.trans hrely₂) hages₂
      exact Writes.andThen_of_none (Layout.update_of_ne (L := layout) htable id)

omit hP in
/-- The successor of a token that was just spent. -/
theorem wp_issueSuccessor {row : RefreshToken} {usedAt : Time} {grant : TokenGrant}
    (hinternal : ∀ s, R.owesThrow .internal s)
    (hread : ∃ s₁ : Rows, P s₁ ∧ s₁.grant row.grantId = some grant ∧ grant.revokedAt = none)
    (hrow : s.refreshToken r.presentedHash = some row) (hunused : row.usedAt = none)
    (hunreplaced : row.replacedBy = none) (hages : s.Ages (s.after w))
    (hw : AwayFrom .sessions w (spending r.presentedHash row usedAt)) :
    (issueSuccessor r row.grantId grant).wp R w s (Rotated P r) := by
  have hlocked : w ⟨.refreshTokens, r.presentedHash⟩ = some _ :=
    (hw .refreshTokens r.presentedHash (by decide)).trans (Layout.put_self (L := layout))
  unfold issueSuccessor
  refine wp_writing hR hages fun s₁ created hrely₁ _ hcreated ↦ ?_
  cases created with
  | false => exact ⟨_, rfl, Op.ages_effect rfl _, fun _ s' _ ↦ hinternal s'⟩
  | true =>
    have hfree : (s₁.after w).refreshToken r.nextHash = none :=
      Option.isNone_iff_eq_none.mp (Option.some.inj hcreated)
    have hseen : (s₁.after w).refreshToken r.presentedHash = some _ := Rows.after_of_some hlocked
    have hne : r.nextHash ≠ r.presentedHash := by
      intro heq
      rw [heq, hseen] at hfree
      simp at hfree
    have hnone : w ⟨.refreshTokens, r.nextHash⟩ = none :=
      (hw .refreshTokens r.nextHash (by decide)).trans (Layout.put_other (L := layout) hne)
    refine ⟨_, effect_refreshTokenCreate _ hfree, Op.ages_effect rfl _, fun hages₁ ↦ ?_⟩
    -- what is pending now of the two tokens
    have hspent : (w.andThen (issuing r.nextHash (successor r row.grantId grant)))
        ⟨.refreshTokens, r.presentedHash⟩ = some _ :=
      (Writes.andThen_of_none (Layout.put_other (L := layout) hne.symm)).trans hlocked
    have hnew : (w.andThen (issuing r.nextHash (successor r row.grantId grant)))
        ⟨.refreshTokens, r.nextHash⟩ = some _ :=
      Writes.andThen_of_some (Layout.put_self (L := layout))
    refine wp_writing hR hages₁ fun s₂ _ hrely₂ _ _ ↦ ?_
    have hseen₂ : (s₂.after _).refreshToken r.presentedHash = some _ := Rows.after_of_some hspent
    refine ⟨_, effect_refreshTokenAttachReplacement hseen₂, ?_, fun hages₂ ↦ ⟨hages₂, ?_⟩⟩
    · refine ages_attachReplacement r.presentedHash r.nextHash fun row' hrow' ↦ ?_
      obtain rfl : _ = row' := Option.some.inj (hseen₂.symm.trans hrow')
      exact hunreplaced
    have hheld : s₂.refreshToken r.presentedHash = some row :=
      (hrely₂.locked _ _ hspent).trans ((hrely₁.locked _ _ hlocked).trans hrow)
    have hstill : s₂.refreshToken r.nextHash = none :=
      (hrely₂.locked _ _ hnew).trans ((Rows.after_of_none hnone).symm.trans hfree)
    refine .rotated hread hheld hunused hstill
      (Writes.andThen_of_some (Layout.put_self (L := layout)))
      ((Writes.andThen_of_none (Layout.put_other (L := layout) hne)).trans hnew)
      fun k hsessions hpresented hnext ↦ ?_
    rw [Writes.andThen_of_none (Layout.put_of_key_ne (L := layout) hpresented),
      Writes.andThen_of_none (Layout.put_of_key_ne (L := layout) hnext), hw k.1 k.2 hsessions]
    exact Layout.put_of_key_ne (L := layout) hpresented

omit hP in
/-- What becomes of a token that was just spent. -/
theorem wp_rotateConsumed {row : RefreshToken} {usedAt : Time}
    (hinternal : ∀ s, R.owesThrow .internal s)
    (hrow : s.refreshToken r.presentedHash = some row) (hunused : row.usedAt = none)
    (hunreplaced : row.replacedBy = none)
    (hages : s.Ages (s.after (spending r.presentedHash row usedAt))) :
    (rotateConsumed r { row with usedAt := some usedAt }).wp R
      (spending r.presentedHash row usedAt) s (Rotated P r) := by
  unfold rotateConsumed
  refine wp_reading hR rfl fun s₁ grant hrely₁ hs₁ hgrant ↦ ?_
  cases grant with
  | none => exact fun s' _ ↦ hinternal s'
  | some grant =>
    have hheld : s₁.refreshToken r.presentedHash = some row :=
      (hrely₁.locked _ _ (Layout.put_self (L := layout))).trans hrow
    cases hrevoked : grant.revokedAt with
    | some =>
      simp only [hrevoked]
      exact ⟨hrely₁.laidOver hages, .revoked hheld hunused (.refl _ _)⟩
    | none =>
      simp only [hrevoked]
      rw [wp_bind]
      refine wp_touchSession hR (hrely₁.laidOver hages) fun alive w' s' haway hrely hages' ↦ ?_
      have hheld' : s'.refreshToken r.presentedHash = some row :=
        (hrely.locked _ _ (Layout.put_self (L := layout))).trans hheld
      cases alive with
      | false => exact ⟨hages', .revoked hheld' hunused haway⟩
      | true =>
        have hgrant' : s₁.grant row.grantId = some grant :=
          (Rows.after_of_none (Layout.put_of_ne (L := layout) (by decide) _)).symm.trans (Option.some.inj hgrant)
        exact wp_issueSuccessor hR hinternal ⟨s₁, hs₁, hgrant', hrevoked⟩
          hheld' hunused hunreplaced hages' haway

/-- A rotation, whatever the others do meanwhile. -/
theorem wp_rotateRefreshToken (hinternal : ∀ (s₁ s₂ : Rows) row, P s₁ →
      s₁.refreshToken r.presentedHash = some row → row.usedAt = none →
      R.owesThrow .internal s₂) :
    (rotateRefreshToken r).wp R Writes.nothing s (Rotated P r) := by
  unfold rotateRefreshToken
  refine wp_reading hR rfl fun s₁ transactionStart _ _ _ ↦ ?_
  refine wp_writing_first hR fun s₂ consumed _ hs₂ hconsumed ↦ ?_
  have hconsumed : consumed = ((s₂.refreshToken r.presentedHash).filter
    (Op.refreshTokenConsumable transactionStart)).map _ := (Option.some.inj hconsumed).symm
  cases hfilter : (s₂.refreshToken r.presentedHash).filter
    (Op.refreshTokenConsumable transactionStart) with
  | none =>
    rw [hfilter] at hconsumed
    subst hconsumed
    exact ⟨_, effect_refreshTokenConsume_none hfilter, Op.ages_effect rfl _,
      fun _ ↦ wp_detectReuse hR hP⟩
  | some row =>
    rw [hfilter] at hconsumed
    subst hconsumed
    obtain ⟨hrow, hok⟩ := Option.filter_eq_some_iff.mp hfilter
    have hunused : row.usedAt = none := by
      simp only [Op.refreshTokenConsumable, Bool.and_eq_true, Option.isNone_iff_eq_none] at hok
      exact hok.1
    have hunreplaced : row.replacedBy = none := by
      by_contra hreplaced
      obtain ⟨next, hnext⟩ := Option.ne_none_iff_exists'.mp hreplaced
      have hspent := ((hP _ hs₂).ledger.succeeded
        (show s₂.ledger r.presentedHash = some row.entry by simp [Rows.ledger, hrow]) hnext).1
      simp [RefreshToken.entry, hunused] at hspent
    exact ⟨_, effect_refreshTokenConsume hrow hok, Op.ages_effect rfl _,
      wp_rotateConsumed hR (fun s' ↦ hinternal s₂ s' row hs₂ hrow hunused) hrow hunused hunreplaced⟩

end Rotating

variable {hash : TokenHash}

theorem Rows.ledger_of_some {row : RefreshToken}
    (h : s.refreshToken hash = some row) : s.ledger hash = some row.entry := by
  simp [Rows.ledger, h]

theorem Rows.ledger_of_none (h : s.refreshToken hash = none) :
    s.ledger hash = none := by
  simp [Rows.ledger, h]

theorem Rows.ledger_unwritten (h : w ⟨.refreshTokens, hash⟩ = none) :
    (s.after w).ledger hash = s.ledger hash :=
  congrArg (Option.map RefreshToken.entry) (Rows.after_of_none h)

theorem Rows.ledger_written {row : RefreshToken}
    (h : w ⟨.refreshTokens, hash⟩ = some (some row)) :
    (s.after w).ledger hash = some row.entry :=
  Rows.ledger_of_some (Rows.after_of_some h)

/-- A rotation moves the ledger, and opens no family. -/
theorem Rotation.move {Known : GrantId → Prop} (h : Rotation P r outcome w s) :
    Move Known s.ledger (s.after w).ledger := by
  cases h with
  | unknown _ hw =>
    subst hw
    exact .keep fun _ ↦ rfl
  | reused _ _ hw =>
    exact .keep fun hash ↦ Rows.ledger_unwritten (hw _ (by simp))
  | @revoked w s row usedAt hrow hunused hw =>
    refine .spend (Rows.ledger_of_some hrow) (by simp [RefreshToken.entry, hunused])
      (Rows.ledger_written ((hw _ _ (by decide)).trans (Layout.put_self (L := layout))))
      fun hash hne ↦ Rows.ledger_unwritten ?_
    exact (hw _ _ (by decide)).trans (Layout.put_other (L := layout) hne)
  | @rotated w s row usedAt expiresAt grant hread hrow hunused hfree hspent hnew hw =>
    exact .rotate (Rows.ledger_of_some hrow) (by simp [RefreshToken.entry, hunused])
      (Rows.ledger_of_none hfree) (Rows.ledger_written hspent) (Rows.ledger_written hnew)
      fun hash hpresented hnext ↦ Rows.ledger_unwritten
        (hw _ (by simp) (by simpa using hpresented) (by simpa using hnext))

/-- A rotation writes sessions, tokens and grants: no code. -/
theorem Rotation.codes (h : Rotation P r outcome w s)
    (hash : TokenHash) : w ⟨.authorizationCodes, hash⟩ = none := by
  cases h with
  | unknown _ hw =>
    subst hw
    rfl
  | reused _ _ hw => exact hw _ (by simp)
  | revoked _ _ hw =>
    exact (hw _ _ (by decide)).trans (Layout.put_of_ne (L := layout) (by decide) _)
  | rotated _ _ _ _ _ _ hw => exact hw _ (by simp) (by simp) (by simp)

/-- The families are in order after a move that opens families of existing grants only. -/
theorem Rows.FamiliesInOrder.move (h : s.FamiliesInOrder) (hages : s.Ages s')
    (hmove : Move (fun grantId ↦ ∃ grant, s'.grant grantId = some grant) s.ledger s'.ledger) :
    s'.FamiliesInOrder where
  ledger := h.ledger.move hmove
  hasGrant := by
    intro hash row hrow
    refine hmove.known (fun t e hheld ↦ ?_) hash row.entry (Rows.ledger_of_some hrow)
    obtain ⟨row, hrow, rfl⟩ := Option.map_eq_some_iff.mp hheld
    obtain ⟨grant, hgrant⟩ := h.hasGrant hrow
    obtain ⟨grant', hgrant', -⟩ := hages.grant hgrant
    exact ⟨grant', hgrant'⟩

theorem Rotated.inOrder (h : Rotated P r outcome w s)
    (hs : s.FamiliesInOrder) : (s.after w).FamiliesInOrder :=
  hs.move h.1 h.2.move

end Odudu.ProtocolOidc
