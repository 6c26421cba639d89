import Odudu.AuthnFlows.SpentSecrets
import Odudu.ReadCommitted.RelyGuarantee

/-!
# Runs of attempts at a second factor

Any number of attempts beside one another, on any credentials.  Every attempt reads, and
verifies only what was open when it read, so what its update finds spent was spent by another
since (`Commits`); and what is committed stays spent.  In every run the uses of one credential
follow one another, and a use that was verified and lost had been overtaken
(`ordered_of_reaches`).
-/

set_option autoImplicit false

namespace Odudu.AuthnFlows.FactorUses

open ProtocolOidc ReadCommitted Program

/-! ### What an attempt commits -/

/-- The use an answer accepted. -/
def spentBy {V : Primitives} (a : Answered (factorAttempts V)) : Option Use :=
  match a.result with
  | .ok (.accepted _ spent) => spent
  | _ => none

/-- The use an answer had verified and lost. -/
def lostBy {V : Primitives} (a : Answered (factorAttempts V)) : Option Use :=
  match a.result with
  | .ok (.lost use) => some use
  | _ => none

/-- An update would find a row to put the use in. -/
def Open (rows : Credentials) (use : Use) : Prop :=
  ∃ row, rows use.id = some row ∧ use.finds row.secretData = true

theorem isSome_updated_iff {rows : Credentials} {use : Use} {at_ : Time} :
    (updated rows use at_).isSome = true ↔ Open rows use := by
  unfold updated Open
  cases rows use.id with
  | none => simp
  | some row => by_cases hfinds : use.finds row.secretData = true <;> simp [hfinds]

/-- What an accepted use commits: its row, as the update puts it. -/
structure Puts (s : Credentials) (use : Use) (at_ : Time) (w : Writes factorDatabase) : Prop where
  isOpen : Open s use
  written : w = putRow use.id (updated s use at_)

/-- What an attempt may commit. -/
def Commits (start : Credentials) (attempt : Attempt) (s : Credentials)
    (w : Writes factorDatabase) : FactorOutcome → Prop
  | .accepted _ (some use) => Puts s use attempt.now w
  | .lost use => w = Writes.nothing ∧ Open start use ∧ ¬ Open s use
  | _ => w = Writes.nothing

section Rows

variable {s start : Credentials} {use use' : Use} {at_ : Time} {w : Writes factorDatabase}

/-- A row that is put is the one that was found, with the use set. -/
theorem Puts.row (h : Puts s use at_ w) :
    ∃ row, s use.id = some row ∧ use.finds row.secretData = true ∧
      w.laidOver s = Function.update s use.id
        (some { row with secretData := use.set at_ row.secretData }) := by
  obtain ⟨⟨row, hrow, hfinds⟩, rfl⟩ := h
  refine ⟨row, hrow, hfinds, ?_⟩
  have hupdated : updated s use at_ =
      some { row with secretData := use.set at_ row.secretData } := by
    simp [updated, hrow, hfinds]
  funext id
  rw [hupdated]
  by_cases hid : id = use.id
  · subst hid
    simp [Writes.laidOver, putRow]
  · simp [Writes.laidOver, putRow, hid]

/-- A use that is not open at the start is not open later. -/
theorem Puts.not_open (h : Puts s use at_ w) (hclosed : ¬ Open s use') :
    ¬ Open (w.laidOver s) use' := by
  obtain ⟨row, hrow, hfinds, hrows⟩ := h.row
  rintro ⟨row', hrow', hfinds'⟩
  rw [hrows] at hrow'
  by_cases hid : use'.id = use.id
  · rw [hid, Function.update_self] at hrow'
    obtain rfl := Option.some.inj hrow'
    have hspent : use'.finds row.secretData = false := by
      rw [← Bool.not_eq_true]
      exact fun hopen ↦ hclosed ⟨row, hid ▸ hrow, hopen⟩
    exact absurd hfinds' (by simp [finds_set hspent hfinds])
  · rw [Function.update_of_ne hid] at hrow'
    exact hclosed ⟨row', hrow', hfinds'⟩

end Rows

/-- What is spent, whatever is committed, stays spent. -/
theorem Commits.not_open {start s : Credentials} {attempt : Attempt} {w : Writes factorDatabase}
    {outcome : FactorOutcome} (h : Commits start attempt s w outcome) {use : Use}
    (hclosed : ¬ Open s use) : ¬ Open (w.laidOver s) use := by
  have hstill : w = Writes.nothing → ¬ Open (w.laidOver s) use := by
    rintro rfl
    exact hclosed
  cases outcome with
  | accepted _ spent =>
    cases spent with
    | none => exact hstill h
    | some => exact Puts.not_open h hclosed
  | challenge | refused => exact hstill h
  | lost => exact hstill h.1

/-- What is spent at the start stays so. -/
def factorContract (V : Primitives) (start : Credentials) : Contract (factorAttempts V) where
  Inv := fun s ↦ ∀ use, ¬ Open start use → ¬ Open s use
  Guar := fun _ attempt s w outcome ↦ ∃ answered, outcome = some answered ∧
    Commits start attempt s w answered
  Thrown := fun _ _ _ _ ↦ True
  kept := by
    rintro t attempt s w outcome hinv ⟨answered, -, hcommits⟩ use hclosed
    exact hcommits.not_open (hinv use hclosed)

/-! ### Every attempt -/

section Attempts

variable {V : Primitives} {start : Credentials} {attempt : Attempt} {t : ℕ}

abbrev Stands {α : Type} (V : Primitives) (start : Credentials) (t : ℕ) (attempt : Attempt)
    (P : Contract.Known (factorAttempts V)) (p : FactorTx α)
    (Q : α → Contract.Known (factorAttempts V)) : Prop :=
  (factorContract V start).Stands .free t attempt P p Q

/-- Nothing is written. -/
def Idle (V : Primitives) : Contract.Known (factorAttempts V) := fun w _ ↦ w = Writes.nothing

theorem stable_idle : (factorContract V start).Stable (Idle V) :=
  Contract.stable_of_writes fun w ↦ w = Writes.nothing

variable {outcome : FactorOutcome} {s : Credentials}

theorem ends_idle
    (houtcome : ∀ s, Commits start attempt s Writes.nothing outcome) {w : Writes factorDatabase}
    (h : Idle V w s) :
    (factorContract V start).Ends .free t attempt outcome w s :=
  Contract.ends_of_stable stable_idle
    (fun _ s _ hidle _ ↦ ⟨outcome, rfl, hidle ▸ houtcome s⟩) h

theorem stands_idle
    (houtcome : ∀ s, Commits start attempt s Writes.nothing outcome) :
    Stands V start t attempt (Idle V) (pure outcome)
      ((factorContract V start).Ends .free t attempt) :=
  Contract.stands_pure fun _ _ _ hidle ↦ ends_idle houtcome hidle

/-- What an update leaves of a use the step verified. -/
def Tried (V : Primitives) (start : Credentials) (use : Use) (at_ : Time) (landed : Bool) :
    Contract.Known (factorAttempts V) := fun w s ↦
  if landed = true then Puts s use at_ w else w = Writes.nothing ∧ Open start use ∧ ¬ Open s use

variable {use : Use}

theorem stable_tried {at_ : Time} {landed : Bool} :
    (factorContract V start).Stable (Tried V start use at_ landed) := by
  intro t attempt s w w' outcome hinv hguar hapart htried
  obtain ⟨answered, -, hcommits⟩ := hguar
  cases landed with
  | false =>
    obtain ⟨hnothing, hstart, hclosed⟩ := htried
    exact ⟨hnothing, hstart, hcommits.not_open hclosed⟩
  | true =>
    obtain ⟨⟨row, hrow, hfinds⟩, hwritten⟩ : Puts s use at_ w := htried
    have hupdated : updated s use at_ =
        some { row with secretData := use.set at_ row.secretData } := by
      simp [updated, hrow, hfinds]
    have hlocked : w use.id = some (updated s use at_) := by
      rw [hwritten, hupdated]
      simp [putRow]
    have hsame : w'.laidOver s use.id = s use.id := hapart.laidOver_eq hlocked s
    refine ⟨⟨row, hsame.trans hrow, hfinds⟩, ?_⟩
    rw [hwritten]
    unfold updated
    rw [hsame]

theorem stands_update {at_ : Time} (hopen : Open start use) :
    Stands V start t attempt (Idle V) (onCredentials (.update use at_))
      (Tried V start use at_) := by
  refine Contract.stands_ask stable_idle fun w s landed hinv hidle hanswer ↦ ?_
  obtain rfl : w = Writes.nothing := hidle
  obtain rfl : landed = (updated s use at_).isSome := hanswer
  rw [Writes.nothing_andThen, Writes.nothing_laidOver]
  unfold Tried
  split_ifs with hlanded
  · exact ⟨isSome_updated_iff.mp hlanded, rfl⟩
  · have hclosed : ¬ Open s use := fun h ↦ hlanded (isSome_updated_iff.mpr h)
    have hnone : updated s use at_ = none := by simpa using hlanded
    refine ⟨?_, hopen, hclosed⟩
    funext id
    simp [FactorOp.written, putRow, hnone]

variable {subjectId : SubjectId}

theorem stands_settled {landed : Bool} :
    Stands V start t attempt (Tried V start use attempt.now landed)
      (pure (settled subjectId use landed)) ((factorContract V start).Ends .free t attempt) := by
  refine Contract.stands_pure fun w s _ htried ↦ ?_
  refine Contract.ends_of_stable stable_tried (fun w s _ htried _ ↦ ⟨_, rfl, ?_⟩) htried
  cases landed with
  | false | true => exact htried

/-- What a record says is unspent was so at the start. -/
def Seen (start : Credentials) (record : CredentialRecord) : Prop :=
  ∀ use : Use, use.id = record.id →
    use.finds (serializeCredentialSecret record.secret) = true → Open start use

theorem seen_of_toRecord (hinv : ∀ use, ¬ Open start use → ¬ Open s use)
    {id : CredentialId} {row : CredentialRow} (hrow : s id = some row) {record : CredentialRecord}
    (hrecord : toRecord (id, row) = some record) : Seen start record := by
  intro use hid hfinds
  obtain ⟨secret, hsecret, rfl⟩ := Option.map_eq_some_iff.mp hrecord
  have hdata : row.secretData = serializeCredentialSecret secret :=
    parseCredentialSecret_eq_some_iff.mp hsecret
  by_contra hclosed
  refine hinv use hclosed ⟨row, ?_, ?_⟩
  · rw [hid]
    exact hrow
  · rw [hdata]
    exact hfinds

variable {P : Contract.Known (factorAttempts V)}

theorem stands_parsed {α : Type} {record : Option α}
    {Q : α → Contract.Known (factorAttempts V)}
    (h : ∀ a, record = some a → ∀ w s, P w s → Q a w s) :
    Stands V start t attempt P (parsed record) Q := by
  cases record with
  | none => exact Contract.stands_throw fun _ ↦ trivial
  | some a => exact Contract.stands_pure fun w s _ hP ↦ h a rfl w s hP

theorem map_toRecord_of_mapM {rows : List (CredentialId × CredentialRow)}
    {records : List CredentialRecord} (h : rows.mapM toRecord = some records) :
    rows.map toRecord = records.map some := by
  induction rows generalizing records with
  | nil =>
    obtain rfl := Option.some.inj h
    rfl
  | cons _ _ ih =>
    rw [List.mapM_cons] at h
    obtain ⟨record, hrecord, hrest⟩ := Option.bind_eq_some_iff.mp h
    obtain ⟨rest, hmapped, hpure⟩ := Option.bind_eq_some_iff.mp hrest
    obtain rfl := Option.some.inj hpure
    simp [hrecord, ih hmapped]

/-- The records of rows. -/
def recordsOf (rows : List (CredentialId × CredentialRow)) : Set CredentialRecord :=
  {record | ∃ row ∈ rows, toRecord row = some record}

/-- What was read is of rows that were open at the start. -/
def Read {α : Type} (V : Primitives) (start : Credentials) (records : α → Set CredentialRecord)
    (found : α) : Contract.Known (factorAttempts V) := fun w _ ↦
  w = Writes.nothing ∧ ∀ record ∈ records found, Seen start record

theorem stands_listFor {type : CredentialType} :
    Stands V start t attempt (Idle V) (listFor subjectId type)
      (Read V start fun records ↦ {record | record ∈ records}) := by
  have hrows : Stands V start t attempt (Idle V) (onCredentials (.listFor subjectId type))
      (Read V start recordsOf) := by
    refine Contract.stands_ask stable_idle fun w s rows hinv hidle hanswer ↦ ?_
    obtain rfl : w = Writes.nothing := hidle
    refine ⟨Writes.nothing_andThen _, ?_⟩
    rintro record ⟨⟨id, row⟩, hrow, hrecord⟩
    exact seen_of_toRecord hinv ((hanswer id row).mp hrow).1 hrecord
  refine Contract.stands_bind hrows fun rows ↦ stands_parsed fun records hrecords w s hread ↦ ?_
  refine ⟨hread.1, fun record hrecord ↦ hread.2 record ?_⟩
  have hmapped : some record ∈ rows.map toRecord := by
    rw [map_toRecord_of_mapM hrecords]
    exact List.mem_map_of_mem hrecord
  exact List.mem_map.mp hmapped

theorem stands_byLookupKey {lookupKey : String} :
    Stands V start t attempt (Idle V) (byLookupKey lookupKey)
      (Read V start fun record ↦ {found | record = some found}) := by
  have hrow : Stands V start t attempt (Idle V) (onCredentials (.byLookupKey lookupKey))
      fun row ↦ Read V start recordsOf row.toList := by
    refine Contract.stands_ask stable_idle fun w s row hinv hidle hanswer ↦ ?_
    obtain rfl : w = Writes.nothing := hidle
    refine ⟨Writes.nothing_andThen _, ?_⟩
    rintro record ⟨⟨id, row⟩, hmem, hrecord⟩
    obtain rfl := Option.mem_toList.mp hmem
    exact seen_of_toRecord hinv hanswer.1 hrecord
  refine Contract.stands_bind hrow fun row ↦ ?_
  cases row with
  | none =>
    exact Contract.stands_pure fun w s _ hread ↦ ⟨hread.1, fun record hrecord ↦ nomatch hrecord⟩
  | some row =>
    have hparsed : Stands V start t attempt (Read V start recordsOf (some row).toList)
        (parsed (toRecord row)) fun record w _ ↦ w = Writes.nothing ∧ Seen start record :=
      stands_parsed fun record hrecord w s hread ↦
        ⟨hread.1, hread.2 record ⟨row, List.mem_singleton_self row, hrecord⟩⟩
    refine Contract.stands_bind hparsed fun record ↦ Contract.stands_pure fun w s _ hseen ↦ ?_
    refine ⟨hseen.1, fun found hfound ↦ ?_⟩
    obtain rfl := Option.some.inj hfound
    exact hseen.2

theorem stands_storedTotpFor {subjectId : Option SubjectId} :
    Stands V start t attempt (Idle V) (storedTotpFor subjectId)
      fun stored w _ ↦ w = Writes.nothing ∧ ∀ totp, stored = some totp →
        ∃ lastStep, totp.secret.lastStep = some lastStep ∧
          ∀ step, (Use.totp totp.id step).finds (.totp totp.secret.secret (some lastStep)) = true →
            Open start (.totp totp.id step) := by
  cases subjectId with
  | none => exact Contract.stands_pure fun w s _ hidle ↦ ⟨hidle, fun _ hnone ↦ nomatch hnone⟩
  | some =>
    refine Contract.stands_bind stands_listFor fun records ↦ Contract.stands_pure
      fun w s _ hread ↦ ⟨hread.1, fun totp htotp ↦ ?_⟩
    obtain ⟨record, hrecord, hsecret⟩ := Option.bind_eq_some_iff.mp htotp
    have hseen := hread.2 record (List.mem_of_mem_head? hrecord)
    unfold CredentialRecord.asTotp at hsecret
    split at hsecret
    case h_1 secret lastStep hdata =>
      obtain rfl := Option.some.inj hsecret
      refine ⟨lastStep, rfl, fun step hfinds ↦ hseen _ rfl ?_⟩
      rw [hdata]
      exact hfinds
    case h_2 => exact nomatch hsecret

theorem stands_storedRecoveryCodesFor {subjectId : Option SubjectId} :
    Stands V start t attempt (Idle V) (storedRecoveryCodesFor subjectId)
      fun codes w _ ↦ w = Writes.nothing ∧ ∀ code ∈ codes, code.usedAt = none →
        Open start (.recoveryCode code.id) := by
  cases subjectId with
  | none => exact Contract.stands_pure fun w s _ hidle ↦ ⟨hidle, fun _ hmem ↦ nomatch hmem⟩
  | some =>
    refine Contract.stands_bind stands_listFor fun records ↦ Contract.stands_pure
      fun w s _ hread ↦ ⟨hread.1, fun code hcode hunused ↦ ?_⟩
    obtain ⟨record, hrecord, hsecret⟩ := List.mem_filterMap.mp hcode
    have hseen := hread.2 record hrecord
    unfold CredentialRecord.asRecoveryCode at hsecret
    split at hsecret
    case h_1 hash usedAt hdata =>
      obtain rfl := Option.some.inj hsecret
      refine hseen _ rfl ?_
      rw [hdata]
      exact Option.isNone_iff_eq_none.mpr hunused
    case h_2 => exact nomatch hsecret

theorem stands_passkeyCredentialFor {assertion : Option Assertion} {base : Option String} :
    Stands V start t attempt (Idle V) (passkeyCredentialFor assertion base)
      fun credential w _ ↦ w = Writes.nothing ∧ ∀ passkey, credential = some passkey →
        ∀ counter, counterAdvanced passkey.counter counter = true →
          Open start (.webauthn passkey.id counter) := by
  unfold passkeyCredentialFor
  cases assertedCredentialId assertion with
  | none => exact Contract.stands_pure fun w s _ hidle ↦ ⟨hidle, fun _ hnone ↦ nomatch hnone⟩
  | some =>
    refine Contract.stands_bind stands_byLookupKey fun record ↦ Contract.stands_pure
      fun w s _ hread ↦ ⟨hread.1, fun passkey hpasskey counter hadvanced ↦ ?_⟩
    obtain ⟨record, rfl, hsecret⟩ := Option.bind_eq_some_iff.mp hpasskey
    have hseen := hread.2 record rfl
    unfold CredentialRecord.asPasskey at hsecret
    split at hsecret
    case h_1 publicKey stored hdata =>
      obtain rfl := Option.some.inj hsecret
      refine hseen _ rfl ?_
      rw [hdata]
      exact (counterAdvanced_eq_finds publicKey stored counter).symm.trans hadvanced
    case h_2 => exact nomatch hsecret

theorem stands_answered
    (hP : ∀ w s, P w s → w = Writes.nothing)
    (houtcome : ∀ s, Commits start attempt s Writes.nothing outcome) :
    Stands V start t attempt P (pure outcome) ((factorContract V start).Ends .free t attempt) :=
  Contract.stands_pure fun w s _ h ↦ ends_idle houtcome (hP w s h)

theorem stands_spend
    (hP : ∀ w s, P w s → w = Writes.nothing ∧ Open start use) :
    Stands V start t attempt P
      (onCredentials (.update use attempt.now) >>= fun landed ↦
        pure (settled subjectId use landed))
      ((factorContract V start).Ends .free t attempt) := by
  intro w s hinv h
  obtain ⟨hidle, hopen⟩ := hP w s h
  exact Contract.stands_bind (stands_update hopen) (fun _ ↦ stands_settled) w s hinv hidle

theorem stands_runOtpStep : Stands V start t attempt (Idle V) (runOtpStep V attempt)
    ((factorContract V start).Ends .free t attempt) := by
  unfold runOtpStep
  refine Contract.stands_ite (fun _ ↦ stands_idle fun _ ↦ rfl) fun _ ↦ ?_
  refine Contract.stands_bind stands_storedTotpFor fun stored ↦ ?_
  split
  case h_1 => exact stands_answered (fun _ _ h ↦ h.1) fun _ ↦ rfl
  case h_2 => exact stands_answered (fun _ _ h ↦ h.1) fun _ ↦ rfl
  case h_3 => exact stands_answered (fun _ _ h ↦ h.1) fun _ ↦ rfl
  case h_4 subjectId step totp hstep =>
    refine stands_spend fun w s h ↦ ⟨h.1, ?_⟩
    obtain ⟨code, totp', -, htotp, hverified⟩ := verified_of_totpStep hstep
    obtain rfl := Option.some.inj htotp
    obtain ⟨lastStep, hlast, hopen⟩ := h.2 totp rfl
    rw [hlast] at hverified
    exact hopen step (finds_of_verifyTotp hverified)

theorem stands_runRecoveryStep : Stands V start t attempt (Idle V) (runRecoveryStep V attempt)
    ((factorContract V start).Ends .free t attempt) := by
  unfold runRecoveryStep
  refine Contract.stands_ite (fun _ ↦ stands_idle fun _ ↦ rfl) fun _ ↦ ?_
  refine Contract.stands_bind stands_storedRecoveryCodesFor fun codes ↦ ?_
  split
  case h_1 => exact stands_answered (fun _ _ h ↦ h.1) fun _ ↦ rfl
  case h_2 => exact stands_answered (fun _ _ h ↦ h.1) fun _ ↦ rfl
  case h_3 subjectId credentialId hstep =>
    refine Contract.stands_ite (fun _ ↦ stands_answered (fun _ _ h ↦ h.1) fun _ ↦ rfl) fun _ ↦ ?_
    refine stands_spend fun w s h ↦ ⟨h.1, ?_⟩
    obtain ⟨code, hcode, hunused, rfl⟩ := unused_of_recoveryStep hstep
    exact h.2 code hcode hunused

theorem stands_runPasskeyStep : Stands V start t attempt (Idle V) (runPasskeyStep V attempt)
    ((factorContract V start).Ends .free t attempt) := by
  unfold runPasskeyStep
  refine Contract.stands_ite (fun _ ↦ stands_idle fun _ ↦ rfl) fun _ ↦ ?_
  refine Contract.stands_bind stands_passkeyCredentialFor fun credential ↦ ?_
  split
  case h_1 => exact stands_answered (fun _ _ h ↦ h.1) fun _ ↦ rfl
  case h_2 subjectId credentialId counter hstep =>
    refine Contract.stands_ite (fun _ ↦ stands_answered (fun _ _ h ↦ h.1) fun _ ↦ rfl) fun _ ↦ ?_
    refine stands_spend fun w s h ↦ ⟨h.1, ?_⟩
    obtain ⟨passkey, rfl, rfl, hadvanced⟩ := advanced_of_passkeyStep hstep
    exact h.2 passkey rfl counter hadvanced

theorem safe_attempt (hinv : (factorContract V start).Inv s) :
    (factorContract V start).Safe .free t attempt (attempt.body V) Writes.nothing s := by
  have hidle : Idle V Writes.nothing s := rfl
  unfold Attempt.body
  split
  · exact Contract.safe_of_stands stands_runOtpStep hinv hidle
  · exact Contract.safe_of_stands stands_runPasskeyStep hinv hidle
  · exact Contract.safe_of_stands stands_runRecoveryStep hinv hidle

end Attempts

/-! ### Runs -/

/-- The answers of a run: of two uses of a credential the later follows the earlier, every use
was open at the start, and what was verified and lost had been overtaken. -/
structure Ordered {V : Primitives} (start : Credentials)
    (history : List (Answered (factorAttempts V))) : Prop where
  order : history.Pairwise fun later earlier ↦ ∀ use use', spentBy earlier = some use →
    spentBy later = some use' → use.id = use'.id → use.Precedes use'
  wasOpen : ∀ a ∈ history, ∀ use, spentBy a = some use → Open start use
  overtaken : ∀ a earlier, a :: earlier <:+ history → ∀ use, lostBy a = some use →
    ∃ b ∈ earlier, ∃ use', spentBy b = some use' ∧ use'.id = use.id ∧ ¬ use'.Precedes use

/-- The rows hold what was accepted. -/
structure Holding {V : Primitives} (start s : Credentials)
    (history : List (Answered (factorAttempts V))) : Prop where
  ordered : Ordered start history
  closed : ∀ use, ¬ Open start use → ¬ Open s use
  behind : ∀ a ∈ history, ∀ use, spentBy a = some use →
    ∃ row, s use.id = some row ∧ Behind row.secretData use
  made : ∀ id, s id = start id ∨ ∃ a ∈ history, ∃ use row, spentBy a = some use ∧ use.id = id ∧
    s id = some row ∧ Made row.secretData use

section Runs

variable {V : Primitives} {start s : Credentials} {history : List (Answered (factorAttempts V))}
  {t : ℕ} {attempt : Attempt}

theorem holding_start : Holding start start ([] : List (Answered (factorAttempts V))) where
  ordered := {
    order := .nil
    wasOpen := by simp
    overtaken := fun a earlier hsuffix ↦ absurd (List.suffix_nil.mp hsuffix) (by simp) }
  closed := fun _ hclosed ↦ hclosed
  behind := by simp
  made := fun _ ↦ Or.inl rfl

variable {a : Answered (factorAttempts V)}

/-- An answer that accepts nothing and loses nothing. -/
theorem Ordered.quiet (h : Ordered start history)
    (hspent : spentBy a = none)
    (hlost : ∀ use, lostBy a = some use → ∃ b ∈ history, ∃ use', spentBy b = some use' ∧
      use'.id = use.id ∧ ¬ use'.Precedes use) : Ordered start (a :: history) where
  order := by
    refine .cons (fun b _ use use' _ hlater ↦ ?_) h.order
    exact nomatch hspent.symm.trans hlater
  wasOpen := by
    intro b hb use huse
    rcases List.mem_cons.mp hb with rfl | hold
    · exact nomatch hspent.symm.trans huse
    · exact h.wasOpen b hold use huse
  overtaken := by
    intro b earlier hsuffix use huse
    rcases List.suffix_cons_iff.mp hsuffix with heq | hold
    · obtain ⟨rfl, rfl⟩ := List.cons.inj heq
      exact hlost use huse
    · exact h.overtaken b earlier hold use huse

theorem Holding.quiet (h : Holding start s history)
    (hspent : spentBy a = none)
    (hlost : ∀ use, lostBy a = some use → Open start use ∧ ¬ Open s use) :
    Holding start s (a :: history) where
  ordered := by
    refine h.ordered.quiet hspent fun use huse ↦ ?_
    obtain ⟨hstart, hnow⟩ := hlost use huse
    rcases h.made use.id with hsame | ⟨b, hb, use', row, huse', hid, hrow, hmade⟩
    · obtain ⟨row, hrow, hfinds⟩ := hstart
      exact absurd ⟨row, hsame.trans hrow, hfinds⟩ hnow
    · refine ⟨b, hb, use', huse', hid, not_precedes_of_finds hmade ?_⟩
      rw [← Bool.not_eq_true]
      exact fun hfinds ↦ hnow ⟨row, hrow, hfinds⟩
  closed := h.closed
  behind := by
    intro b hb use huse
    rcases List.mem_cons.mp hb with rfl | hold
    · exact nomatch hspent.symm.trans huse
    · exact h.behind b hold use huse
  made := by
    intro id
    rcases h.made id with hsame | ⟨b, hb, use, row, huse, hrest⟩
    · exact Or.inl hsame
    · exact Or.inr ⟨b, List.mem_cons_of_mem _ hb, use, row, huse, hrest⟩

variable {w : Writes factorDatabase}

/-- What the rows have behind them, they have behind them after an update. -/
theorem Puts.behind {use use' : Use} {at_ : Time}
    (h : Puts s use' at_ w) (hbehind : ∃ row, s use.id = some row ∧ Behind row.secretData use) :
    ∃ row, w.laidOver s use.id = some row ∧ Behind row.secretData use := by
  obtain ⟨row, hrow, hfinds, hrows⟩ := h.row
  obtain ⟨row', hrow', hold⟩ := hbehind
  rw [hrows]
  by_cases hid : use.id = use'.id
  · rw [hid] at hrow' ⊢
    obtain rfl := Option.some.inj (hrow.symm.trans hrow')
    exact ⟨_, Function.update_self .., hold.set hfinds⟩
  · exact ⟨row', (Function.update_of_ne hid ..).trans hrow', hold⟩

/-- An accepted use is put on record, and those before it stay closed. -/
theorem Holding.spent (h : Holding start s history) {use : Use}
    {at_ : Time} (huse : spentBy a = some use) (hlost : lostBy a = none)
    (hputs : Puts s use at_ w) : Holding start (w.laidOver s) (a :: history) where
  ordered := by
    obtain ⟨row, hrow, hfinds⟩ := hputs.isOpen
    refine ⟨.cons (fun b hb used use' hused huse' hid ↦ ?_) h.ordered.order, ?_, ?_⟩
    · obtain rfl := Option.some.inj (huse.symm.trans huse')
      obtain ⟨row', hrow', hbehind⟩ := h.behind b hb used hused
      rw [hid] at hrow'
      obtain rfl := Option.some.inj (hrow.symm.trans hrow')
      exact precedes_of_finds hbehind hfinds
    · intro b hb used hused
      rcases List.mem_cons.mp hb with rfl | hold
      · obtain rfl := Option.some.inj (huse.symm.trans hused)
        by_contra hclosed
        exact h.closed use hclosed hputs.isOpen
      · exact h.ordered.wasOpen b hold used hused
    · intro b earlier hsuffix used hused
      rcases List.suffix_cons_iff.mp hsuffix with heq | hold
      · obtain ⟨rfl, rfl⟩ := List.cons.inj heq
        exact nomatch hlost.symm.trans hused
      · exact h.ordered.overtaken b earlier hold used hused
  closed := fun used hclosed ↦ hputs.not_open (h.closed used hclosed)
  behind := by
    intro b hb used hused
    rcases List.mem_cons.mp hb with rfl | hold
    · obtain rfl := Option.some.inj (huse.symm.trans hused)
      obtain ⟨row, hrow, hfinds, hrows⟩ := hputs.row
      rw [hrows]
      exact ⟨_, Function.update_self .., (made_set hfinds).behind⟩
    · exact hputs.behind (h.behind b hold used hused)
  made := by
    intro id
    obtain ⟨row, hrow, hfinds, hrows⟩ := hputs.row
    rw [hrows]
    by_cases hid : id = use.id
    · subst hid
      exact Or.inr ⟨a, List.mem_cons_self, use, _, huse, rfl, Function.update_self ..,
        made_set hfinds⟩
    · rw [Function.update_of_ne hid]
      rcases h.made id with hsame | ⟨b, hb, used, row', hused, hrest⟩
      · exact Or.inl hsame
      · exact Or.inr ⟨b, List.mem_cons_of_mem _ hb, used, row', hused, hrest⟩

/-- A commit keeps the answers in order. -/
theorem Holding.commit (h : Holding start s history)
    {outcome : FactorOutcome} (hcommits : Commits start attempt s w outcome) :
    Holding start (w.laidOver s) (⟨t, attempt, .ok outcome⟩ :: history) := by
  have hquiet : ∀ a : Answered (factorAttempts V), w = Writes.nothing → spentBy a = none →
      lostBy a = none → Holding start (w.laidOver s) (a :: history) := by
    rintro a rfl hspent hlost
    exact h.quiet hspent fun use huse ↦ nomatch hlost.symm.trans huse
  cases outcome with
  | accepted _ spent =>
    cases spent with
    | none => exact hquiet _ hcommits rfl rfl
    | some => exact h.spent rfl rfl hcommits
  | challenge | refused => exact hquiet _ hcommits rfl rfl
  | lost =>
    obtain ⟨rfl, hstart, hnow⟩ := hcommits
    refine h.quiet rfl fun use' huse ↦ ?_
    obtain rfl := Option.some.inj huse
    exact ⟨hstart, hnow⟩

/-- In every run the answers are in order. -/
theorem ordered_of_reaches {c : Config (factorAttempts V)}
    (hreaches : Reaches .free (Config.start start) c) : Ordered start c.history := by
  have hheld : Holding start c.rows c.history := by
    refine Contract.invariant (K := factorContract V start) (fun t attempt s _ hinv ↦
      safe_attempt hinv) (P := Holding start) (fun s history s' history' heffect h ↦ ?_)
      (Contract.sound_start fun _ hclosed ↦ hclosed) hreaches holding_start
    cases heffect with
    | part _ hguar =>
      obtain ⟨_, hnone, -⟩ := hguar
      exact nomatch hnone
    | commit _ hguar =>
      obtain ⟨answered, hsome, hcommits⟩ := hguar
      obtain rfl := Option.some.inj hsome
      exact h.commit hcommits
    | refuse => exact h.quiet rfl fun _ hlost ↦ nomatch hlost
  exact hheld.ordered

end Runs

end Odudu.AuthnFlows.FactorUses
