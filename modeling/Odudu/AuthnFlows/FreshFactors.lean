import Odudu.AuthnFlows.FactorRuns
import Odudu.ReadCommitted.Scenes

/-!
# Fresh codes are accepted

An attempt that nothing intervenes in ends as its step decides: what the step verified, its
update finds unspent.  A code of an unspent step, an unspent recovery code and an assertion
whose counter moves on are then accepted (`Fresh.accepted`), and with what holds of any
interleaving this is `single_use`.
-/

set_option autoImplicit false

namespace Odudu.AuthnFlows.FactorUses

open ProtocolOidc ReadCommitted Program

section Alone

variable {V : Primitives} {attempt : Attempt} {s : Credentials} {subjectId : SubjectId}

/-- Nothing commits between its statements, and it does not throw. -/
abbrev Undisturbed : Rules factorDatabase FactorFailure := .alone (fun _ ↦ True) fun _ _ ↦ False

theorem mapM_toRecord_of_isSome {rows : List (CredentialId × CredentialRow)}
    (h : ∀ row ∈ rows, (toRecord row).isSome = true) :
    ∃ records, rows.mapM toRecord = some records := by
  induction rows with
  | nil => exact ⟨[], rfl⟩
  | cons row _ ih =>
    obtain ⟨record, hrecord⟩ := Option.isSome_iff_exists.mp (h row List.mem_cons_self)
    obtain ⟨records, hrecords⟩ := ih fun row' hrow' ↦ h row' (List.mem_cons_of_mem _ hrow')
    exact ⟨record :: records, by simp [List.mapM_cons, hrecord, hrecords]⟩

variable {record : CredentialRecord}

theorem id_of_toRecord {id : CredentialId} {row : CredentialRow}
    (h : toRecord (id, row) = some record) : record.id = id := by
  obtain ⟨secret, -, rfl⟩ := Option.map_eq_some_iff.mp h
  rfl

/-- What is listed are the records of the rows there are. -/
def Lists (s : Credentials) (subjectId : SubjectId) (type : CredentialType)
    (records : List CredentialRecord) : Prop :=
  ∀ record, record ∈ records ↔ ∃ row, s record.id = some row ∧ row.subjectId = subjectId ∧
    row.secretData.type = type ∧ toRecord (record.id, row) = some record

theorem wp_listFor {type : CredentialType}
    {post : List CredentialRecord → Writes factorDatabase → Credentials → Prop}
    (hparse : ∀ id row, s id = some row → row.subjectId = subjectId →
      row.secretData.type = type → (toRecord (id, row)).isSome = true)
    (h : ∀ records, Lists s subjectId type records → post records Writes.nothing s) :
    (listFor subjectId type).wp Undisturbed Writes.nothing s post := by
  refine wp_read_alone rfl fun rows hanswer ↦ ?_
  have hrows : ∀ row ∈ rows, (toRecord row).isSome = true := by
    rintro ⟨id, row⟩ hrow
    obtain ⟨hfound, hsubject, htype⟩ := (hanswer id row).mp hrow
    exact hparse id row hfound hsubject htype
  obtain ⟨records, hrecords⟩ := mapM_toRecord_of_isSome hrows
  rw [hrecords]
  refine h records fun record ↦ ?_
  have hmem : record ∈ records ↔ some record ∈ rows.map toRecord := by
    rw [map_toRecord_of_mapM hrecords]
    simp
  rw [hmem, List.mem_map]
  constructor
  · rintro ⟨⟨id, row⟩, hrow, hrecord⟩
    obtain rfl := id_of_toRecord hrecord
    obtain ⟨hfound, hsubject, htype⟩ := (hanswer _ row).mp hrow
    exact ⟨row, hfound, hsubject, htype, hrecord⟩
  · rintro ⟨row, hfound, hsubject, htype, hrecord⟩
    exact ⟨(record.id, row), (hanswer _ row).mpr ⟨hfound, hsubject, htype⟩, hrecord⟩

theorem wp_byLookupKey {id : CredentialId} {row : CredentialRow}
    {lookupKey : String}
    {post : Option CredentialRecord → Writes factorDatabase → Credentials → Prop}
    (hrow : s id = some row) (hlookup : row.lookupKey = some lookupKey)
    (hsole : ∀ id' row', s id' = some row' → row'.lookupKey = some lookupKey → id' = id)
    (hrecord : toRecord (id, row) = some record) (h : post (some record) Writes.nothing s) :
    (byLookupKey lookupKey).wp Undisturbed Writes.nothing s post := by
  refine wp_read_alone rfl fun found hanswer ↦ ?_
  cases found with
  | none => exact absurd hlookup (hanswer id row hrow)
  | some found =>
    obtain ⟨id', row'⟩ := found
    have hid : id' = id := hsole id' row' hanswer.1 hanswer.2
    subst hid
    obtain rfl := Option.some.inj (hrow.symm.trans hanswer.1)
    simp only [hrecord]
    exact h

theorem wp_spend {use : Use} (hopen : Open s use)
    {post : FactorOutcome → Writes factorDatabase → Credentials → Prop}
    (h : ∀ w, post (.accepted subjectId (some use)) w s) :
    (onCredentials (.update use attempt.now) >>= fun landed ↦
      (pure (settled subjectId use landed) : FactorTx FactorOutcome)).wp Undisturbed
        Writes.nothing s post := by
  refine wp_ask_alone fun landed w' hanswer _ ↦ ?_
  obtain rfl : landed = (updated s use attempt.now).isSome := hanswer
  rw [isSome_updated_iff.mpr hopen]
  exact h w'

/-- What an undisturbed attempt is answered, whatever its reads list first. -/
theorem answered_of_wp {outcome : FactorOutcome} {result : Except FactorFailure FactorOutcome}
    {s' : Credentials}
    (h : (attempt.body V).wp Undisturbed Writes.nothing s fun answered _ _ ↦ answered = outcome)
    (hends : (attempt.body V).Ends Writes.nothing s result s') : result = .ok outcome := by
  have hpromised := ends_of_wp hends trivial h
  cases result with
  | ok =>
    obtain ⟨-, -, -, rfl, -⟩ := hpromised
    rfl
  | error => exact hpromised.2.elim

variable {id : CredentialId} {row : CredentialRow}
  {result : Except FactorFailure FactorOutcome} {s' : Credentials}

/-- The code of a step of the window that the only secret of the subject has not spent. -/
structure FreshTotp (V : Primitives) (s : Credentials) (attempt : Attempt)
    (subjectId : SubjectId) (id : CredentialId) : Prop where
  factor : attempt.factor = .totp
  bound : attempt.boundTo = some subjectId
  unlocked : attempt.locked = false
  fresh : ∃ row secret lastStep code step, s id = some row ∧ row.subjectId = subjectId ∧
    row.secretData = .totp secret (some lastStep) ∧ attempt.input.code = some code ∧
    (code.length = 6 ∧ code.toList.all Char.isDigit = true) ∧
    step ∈ [totpCounter attempt.now - 1, totpCounter attempt.now, totpCounter attempt.now + 1] ∧
    lastStep < step ∧ V.totpCode secret step = code
  sole : ∀ id' row', s id' = some row' → row'.subjectId = subjectId →
    row'.secretData.type = .totp → id' = id

/-- A code that is not spent is accepted where nothing else is under way. -/
theorem FreshTotp.accepted (h : FreshTotp V s attempt subjectId id)
    (hends : (attempt.body V).Ends Writes.nothing s result s') :
    ∃ step, result = .ok (.accepted subjectId (some (.totp id step))) := by
  obtain ⟨hfactor, hbound, hunlocked, ⟨row, secret, lastStep, code, within, hrow, hsubject, hdata,
    hcode, hshape, hwindow, hlater, hof⟩, hsole⟩ := h
  obtain ⟨step, hverified⟩ := Option.isSome_iff_exists.mp
    (verifyTotp_isSome_iff.mpr ⟨hshape, within, hwindow, hlater, hof⟩)
  refine ⟨step, ?_⟩
  refine answered_of_wp ?_ hends
  have hrecord : toRecord (id, row) = some ⟨id, subjectId, .totp secret lastStep, row.rpId⟩ := by
    simp [toRecord, hdata, parseCredentialSecret, hsubject]
  unfold Attempt.body
  rw [hfactor]
  simp only [runOtpStep, refusedWhileLocked, hunlocked, hbound, hcode, Bool.and_false,
    Bool.false_eq_true, if_false]
  rw [wp_bind, storedTotpFor, wp_bind]
  refine wp_listFor (fun id' row' hrow' hsubject' htype ↦ ?_) fun records hrecords ↦ ?_
  · obtain rfl := hsole id' row' hrow' hsubject' htype
    obtain rfl := Option.some.inj (hrow.symm.trans hrow')
    rw [hrecord]
    rfl
  · have hlisted : ⟨id, subjectId, .totp secret lastStep, row.rpId⟩ ∈ records :=
      (hrecords _).mpr ⟨row, hrow, hsubject, by rw [hdata]; rfl, hrecord⟩
    have honly : ∀ record ∈ records, toRecord (id, row) = some record := by
      intro record hmem
      obtain ⟨row', hrow', hsubject', htype, hrecord'⟩ := (hrecords record).mp hmem
      have hid := hsole record.id row' hrow' hsubject' htype
      rw [hid] at hrow' hrecord'
      obtain rfl := Option.some.inj (hrow.symm.trans hrow')
      exact hrecord'
    obtain ⟨first, rest, rfl⟩ := List.exists_cons_of_ne_nil (List.ne_nil_of_mem hlisted)
    obtain rfl := Option.some.inj (hrecord.symm.trans (honly first List.mem_cons_self))
    have hopen : Open s (.totp id step) :=
      ⟨row, hrow, by rw [hdata]; exact finds_of_verifyTotp hverified⟩
    have hstep : totpStep V (some code) (some subjectId) (some ⟨secret, some lastStep⟩)
        attempt.now = .success subjectId step := by
      simp [totpStep, hverified]
    simp only [List.head?_cons, Option.bind_some, CredentialRecord.asTotp, wp_pure,
      Option.map_some, hstep]
    exact wp_spend hopen fun _ ↦ rfl

/-- The codes of a subject are the rows there are. -/
theorem mem_asRecoveryCode_iff {records : List CredentialRecord}
    (hrecords : Lists s subjectId .recoveryCode records) {code : StoredRecoveryCode} :
    code ∈ records.filterMap CredentialRecord.asRecoveryCode ↔
      ∃ row, s code.id = some row ∧ row.subjectId = subjectId ∧
        row.secretData = .recoveryCode code.hash code.usedAt := by
  rw [List.mem_filterMap]
  constructor
  · rintro ⟨record, hrecord, hcode⟩
    obtain ⟨row, hrow, hsubject, -, hparsed⟩ := (hrecords record).mp hrecord
    obtain ⟨secret, hsecret, heq⟩ := Option.map_eq_some_iff.mp hparsed
    have hdata := parseCredentialSecret_eq_some_iff.mp hsecret
    unfold CredentialRecord.asRecoveryCode at hcode
    rw [← heq] at hcode hrow
    split at hcode
    case h_1 hash usedAt hkind =>
      obtain rfl := Option.some.inj hcode
      obtain rfl : secret = .recoveryCode hash usedAt := hkind
      exact ⟨row, hrow, hsubject, hdata⟩
    case h_2 => exact nomatch hcode
  · rintro ⟨row, hrow, hsubject, hdata⟩
    refine ⟨⟨code.id, subjectId, .recoveryCode code.hash code.usedAt, row.rpId⟩,
      (hrecords _).mpr ⟨row, hrow, hsubject, ?_, ?_⟩, rfl⟩
    · rw [hdata]
      rfl
    · simp [toRecord, hdata, parseCredentialSecret, hsubject]

/-- The only code of the subject that is what was submitted, not spent. -/
structure FreshRecoveryCode (V : Primitives) (s : Credentials) (attempt : Attempt)
    (subjectId : SubjectId) (id : CredentialId) : Prop where
  factor : attempt.factor = .recoveryCode
  bound : attempt.boundTo = some subjectId
  unlocked : attempt.locked = false
  offered : recoveryCodeOffered V attempt.input = true
  fresh : ∃ row hash submitted, s id = some row ∧ row.subjectId = subjectId ∧
    row.secretData = .recoveryCode hash none ∧
    submitted = String.ofList (normaliseRecoveryCode V (attempt.input.recoveryCode.getD "")) ∧
    V.verifyPassword hash submitted = true ∧
    ∀ id' row' hash' usedAt, s id' = some row' → row'.subjectId = subjectId →
      row'.secretData = .recoveryCode hash' usedAt → V.verifyPassword hash' submitted = true →
        id' = id

theorem FreshRecoveryCode.accepted (h : FreshRecoveryCode V s attempt subjectId id)
    (hends : (attempt.body V).Ends Writes.nothing s result s') :
    result = .ok (.accepted subjectId (some (.recoveryCode id))) := by
  obtain ⟨hfactor, hbound, hunlocked, hoffered, row, hash, submitted, hrow, hsubject, hdata,
    hsubmitted, hmatches, hsole⟩ := h
  refine answered_of_wp ?_ hends
  unfold Attempt.body
  rw [hfactor]
  simp only [runRecoveryStep, refusedWhileLocked, hunlocked, hbound, Bool.and_false,
    Bool.false_eq_true, if_false]
  rw [wp_bind, storedRecoveryCodesFor, wp_bind]
  refine wp_listFor (fun id' row' _ _ htype ↦ ?_) fun records hrecords ↦ ?_
  · unfold toRecord
    cases hsecret : row'.secretData with
    | recoveryCode => rfl
    | totp | webauthn =>
      rw [hsecret] at htype
      exact nomatch htype
  · have hfound : (records.filterMap CredentialRecord.asRecoveryCode).find?
        (fun stored ↦ V.verifyPassword stored.hash submitted) = some ⟨id, hash, none⟩ := by
      have hlisted : ⟨id, hash, none⟩ ∈ records.filterMap CredentialRecord.asRecoveryCode :=
        (mem_asRecoveryCode_iff hrecords).mpr ⟨row, hrow, hsubject, hdata⟩
      obtain ⟨code, hcode⟩ := Option.isSome_iff_exists.mp
        ((List.find?_isSome (p := fun stored ↦ V.verifyPassword stored.hash submitted)).mpr
          ⟨_, hlisted, hmatches⟩)
      rw [hcode]
      obtain ⟨row', hrow', hsubject', hdata'⟩ :=
        (mem_asRecoveryCode_iff hrecords).mp (List.mem_of_find?_eq_some hcode)
      have hverified := List.find?_some
        (p := fun stored : StoredRecoveryCode ↦ V.verifyPassword stored.hash submitted) hcode
      have hid : code.id = id :=
        hsole code.id row' code.hash code.usedAt hrow' hsubject' hdata' hverified
      obtain rfl := Option.some.inj (hrow.symm.trans (hid ▸ hrow'))
      obtain ⟨hhash, hused⟩ := SecretData.recoveryCode.inj (hdata'.symm.trans hdata)
      obtain ⟨codeId, codeHash, usedAt⟩ := code
      simp only at hid hhash hused
      rw [hid, hhash, hused]
    have hstep : recoveryStep V attempt.input (some subjectId)
        (records.filterMap CredentialRecord.asRecoveryCode) = .success subjectId id := by
      simp only [recoveryStep, hoffered, Bool.not_true, Bool.false_eq_true, if_false, ← hsubmitted,
        hfound, Option.isSome_none]
    have hopen : Open s (.recoveryCode id) := ⟨row, hrow, by rw [hdata]; rfl⟩
    have hmatched : ¬ mismatched attempt subjectId := fun h ↦ h.2 hbound
    simp only [wp_pure, hstep, if_neg hmatched]
    exact wp_spend hopen fun _ ↦ rfl

/-- An assertion by the passkey it names, at its address and for the challenge, whose counter
moves on. -/
structure FreshPasskey (V : Primitives) (s : Credentials) (attempt : Attempt)
    (subjectId : SubjectId) (id : CredentialId) : Prop where
  factor : attempt.factor = .webauthn
  bound : attempt.boundTo = none ∨ attempt.boundTo = some subjectId
  fresh : ∃ row credentialId signed publicKey stored counter challenge relyingParty,
    s id = some row ∧ row.subjectId = subjectId ∧ row.lookupKey = some credentialId ∧
    row.secretData = .webauthn publicKey (some stored) ∧
    (∀ id' row', s id' = some row' → row'.lookupKey = some credentialId → id' = id) ∧
    attempt.input.assertion = some (.response credentialId signed) ∧
    attempt.expectedChallenge = some challenge ∧ attempt.relyingParty = some relyingParty ∧
    row.rpId.or attempt.baseRelyingPartyId = some relyingParty.id ∧
    V.verifyAssertion relyingParty challenge signed publicKey = some counter ∧
    (stored < counter ∨ stored = 0 ∧ counter = 0)

theorem FreshPasskey.accepted (h : FreshPasskey V s attempt subjectId id)
    (hends : (attempt.body V).Ends Writes.nothing s result s') :
    ∃ counter, result = .ok (.accepted subjectId (some (.webauthn id counter))) := by
  obtain ⟨hfactor, hbound, row, credentialId, signed, publicKey, stored, counter, challenge,
    relyingParty, hrow, rfl, hlookup, hdata, hsole, hassertion, hchallenge, hrelyingParty, hrpId,
    hverified, hlater⟩ := h
  have hadvanced : counterAdvanced stored counter = true := by
    unfold counterAdvanced
    split_ifs with hzero
    · rfl
    · exact decide_eq_true (by omega)
  refine ⟨counter, ?_⟩
  refine answered_of_wp ?_ hends
  unfold Attempt.body
  rw [hfactor]
  have hoffered : assertionOffered attempt.input = true := by
    simp [assertionOffered, hassertion]
  simp only [runPasskeyStep, hoffered, Bool.not_true, Bool.false_eq_true, if_false, hassertion,
    passkeyCredentialFor, assertedCredentialId]
  rw [wp_bind, wp_bind]
  have hrecord : toRecord (id, row) =
      some ⟨id, row.subjectId, .webauthn publicKey stored, row.rpId⟩ := by
    simp [toRecord, hdata, parseCredentialSecret]
  refine wp_byLookupKey hrow hlookup hsole hrecord ?_
  have hstep : passkeyStep V (some (.response credentialId signed))
      (some ⟨id, row.subjectId, publicKey, stored, row.rpId.or attempt.baseRelyingPartyId⟩)
      attempt.expectedChallenge attempt.relyingParty = .success row.subjectId id counter := by
    simp [passkeyStep, hchallenge, hrelyingParty, hrpId, hverified, hadvanced]
  have hmatched : ¬ mismatched attempt row.subjectId := by
    rintro ⟨hnamed, hother⟩
    rcases hbound with hnone | hsame
    · exact hnamed hnone
    · exact hother hsame
  have hopen : Open s (.webauthn id counter) := by
    refine ⟨row, hrow, ?_⟩
    rw [hdata]
    exact (counterAdvanced_eq_finds publicKey stored counter).symm.trans hadvanced
  simp only [Option.bind_some, CredentialRecord.asPasskey, wp_pure, hstep, if_neg hmatched]
  exact wp_spend hopen fun _ ↦ rfl

/-- An attempt with a credential that its subject has not used up. -/
def Fresh (V : Primitives) (s : Credentials) (attempt : Attempt) (subjectId : SubjectId)
    (id : CredentialId) : Prop :=
  FreshTotp V s attempt subjectId id ∨ FreshRecoveryCode V s attempt subjectId id ∨
    FreshPasskey V s attempt subjectId id

theorem Fresh.accepted (h : Fresh V s attempt subjectId id)
    (hends : (attempt.body V).Ends Writes.nothing s result s') :
    ∃ use, use.id = id ∧ result = .ok (.accepted subjectId (some use)) := by
  rcases h with htotp | hcode | hpasskey
  · obtain ⟨step, hresult⟩ := htotp.accepted hends
    exact ⟨_, rfl, hresult⟩
  · exact ⟨_, rfl, hcode.accepted hends⟩
  · obtain ⟨counter, hresult⟩ := hpasskey.accepted hends
    exact ⟨_, rfl, hresult⟩

theorem not_lost (hends : (attempt.body V).Ends Writes.nothing s result s') (use : Use) :
    result ≠ .ok (.lost use) := by
  rintro rfl
  obtain ⟨c, hreaches, -, hhistory⟩ := reaches_of_turns
    (@Turns.turn (factorAttempts V) (fun _ _ _ ↦ True) s s s' [] attempt _ .start trivial hends)
  have hordered := ordered_of_reaches hreaches
  rw [hhistory] at hordered
  obtain ⟨b, hb, -⟩ := hordered.overtaken _ [] List.suffix_rfl use rfl
  exact nomatch hb

end Alone

/-- In every run, on any credentials: of the steps of one secret a later one is accepted after
an earlier one, no recovery code is accepted twice, and no signature counter but zero is;
nothing is accepted that was spent before; and what an attempt verified and lost had been
overtaken by another that was accepted.  Where nothing intervenes in an attempt it loses
nothing, and what is fresh is accepted. -/
theorem single_use (V : Primitives) (start : Credentials) {c : Config (factorAttempts V)}
    (hreaches : Reaches .free (Config.start start) c) :
    (c.history.Pairwise fun later earlier ↦ ∀ id step step',
      spentBy earlier = some (.totp id step) → spentBy later = some (.totp id step') →
        step < step') ∧
    (c.history.Pairwise fun later earlier ↦ ∀ id,
      spentBy earlier = some (.recoveryCode id) → spentBy later ≠ some (.recoveryCode id)) ∧
    (c.history.Pairwise fun later earlier ↦ ∀ id counter, counter ≠ 0 →
      spentBy earlier = some (.webauthn id counter) →
        spentBy later ≠ some (.webauthn id counter)) ∧
    (∀ a ∈ c.history, ∀ use, spentBy a = some use → Open start use) ∧
    (∀ a earlier, a :: earlier <:+ c.history → ∀ use, lostBy a = some use →
      ∃ b ∈ earlier, ∃ use', spentBy b = some use' ∧ use'.id = use.id ∧ ¬ use'.Precedes use) ∧
    ∀ attempt s result s', (attempt.body V).Ends Writes.nothing s result s' →
      (∀ use, result ≠ .ok (.lost use)) ∧
      ∀ subjectId id, Fresh V s attempt subjectId id →
        ∃ use, use.id = id ∧ result = .ok (.accepted subjectId (some use)) := by
  obtain ⟨horder, hwasOpen, hovertaken⟩ := ordered_of_reaches hreaches
  refine ⟨?_, ?_, ?_, hwasOpen, hovertaken, fun attempt s result s' hends ↦
    ⟨not_lost hends, fun subjectId id hfresh ↦ hfresh.accepted hends⟩⟩
  · refine horder.imp fun hfollows id step step' hearlier hlater ↦ ?_
    exact hfollows _ _ hearlier hlater rfl
  · refine horder.imp fun hfollows id hearlier hlater ↦ ?_
    exact hfollows _ _ hearlier hlater rfl
  · refine horder.imp fun hfollows id counter hcounter hearlier hlater ↦ ?_
    have hprecedes : counter < counter ∨ counter = 0 ∧ counter = 0 :=
      hfollows _ _ hearlier hlater rfl
    omega

/-- Every assertion verifies, with the counter seven. -/
def counting : Primitives where
  verifyPassword := fun _ _ ↦ false
  normalisePassword := id
  totpCode := fun _ _ ↦ "000000"
  verifyAssertion := fun _ _ _ _ ↦ some 7
  toUpperCase := id

/-- One passkey, at the counter six. -/
def onePasskey : Credentials := fun id ↦
  if id = 1 then some ⟨1, .webauthn "key" (some 6), some "passkey", none⟩ else none

/-- It is asserted. -/
def asserted : Attempt where
  factor := .webauthn
  boundTo := none
  input := { AdvanceInput.nothing with assertion := some (.response "passkey" "signed") }
  now := 0
  locked := false
  expectedChallenge := some 0
  relyingParty := some ⟨"host", "https://host"⟩
  baseRelyingPartyId := some "host"

/-- Looks a passkey up where there is one row. -/
def lookedUp (rows : Credentials) (lookupKey : String) :
    Option (Option (CredentialId × CredentialRow)) :=
  match rows 1 with
  | some row => if row.lookupKey = some lookupKey then some (some (1, row)) else none
  | none => none

def passkeyOracle : Oracle factorDatabase where
  answer := fun op rows ↦
    match op with
    | .listFor .. => none
    | .byLookupKey lookupKey => lookedUp rows lookupKey
    | .update use at_ => some (updated rows use at_).isSome
  reads := fun op ↦
    match op with
    | .update .. => false
    | _ => true
  right := by
    intro op rows a h
    cases op with
    | listFor => exact nomatch h
    | update => exact (Option.some.inj h).symm
    | byLookupKey lookupKey =>
      change lookedUp rows lookupKey = some a at h
      unfold lookedUp at h
      split at h
      case h_1 row hrow =>
        split_ifs at h with hlookup
        obtain rfl := Option.some.inj h
        exact ⟨hrow, hlookup⟩
      case h_2 => exact nomatch h
  effect_of_reads := by
    intro op rows h
    cases op with
    | update => exact nomatch h
    | listFor | byLookupKey => rfl

/-- One assertion comes twice, and both are looked up before either is accepted. -/
def assertedTwice : List (Cue (factorAttempts counting)) :=
  [.begins asserted, .begins asserted, .reads 0 1, .reads 1 1, .ends 0, .ends 1]

/-- The first is accepted, and the second has lost to it. -/
theorem single_use_assertedTwice :
    ∃ c : Config (factorAttempts counting), Reaches .free (Config.start onePasskey) c ∧
      c.history.map spentBy = [none, some (.webauthn 1 7)] ∧
      c.history.map lostBy = [some (.webauthn 1 7), none] ∧
      ∀ a ∈ c.history, ∀ use, spentBy a = some use → Open onePasskey use := by
  have hplay : ((Scene.playAll .free passkeyOracle (.start onePasskey) assertedTwice).map
      fun m ↦ (m.history.map spentBy, m.history.map lostBy)) =
        some ([none, some (.webauthn 1 7)], [some (.webauthn 1 7), none]) := by
    decide
  obtain ⟨m, hplayed, hm⟩ := Option.map_eq_some_iff.mp hplay
  obtain ⟨hspent, hlost⟩ := Prod.mk.inj hm
  have hreaches := Scene.reaches_of_start hplayed
  obtain ⟨-, -, -, hopen, -⟩ := single_use counting onePasskey hreaches
  exact ⟨m.config, hreaches, hspent, hlost, hopen⟩

end Odudu.AuthnFlows.FactorUses
