import Odudu.ProtocolAdmin.IdempotencyRuns

/-!
# A key runs its request once

After any interleaving of keyed calls the rows of the keys are what the answers say was
recorded (`Kept.rows`).  The windows of one slot do not overlap, and within the window of
the row last recorded in a slot nothing runs: a call is in flight or a replay
(`keyed_calls_run_once`).

The window that counts is that of the row last recorded.  A call whose clock is behind may
fall in the window of an earlier row, which a call whose clock was ahead has since replaced,
and is then answered with the later response (`replay_of_replaced_row`).
-/

set_option autoImplicit false

namespace Odudu.ProtocolAdmin

open ReadCommitted Program IdempotencyInput

variable {work : Database} {hashes : TextHashes}

/-- The row a call was answered with having recorded in a slot. -/
def recordedRow (slot : IdempotencySlot) (a : Answered (keyedCalls work hashes)) :
    Option IdempotencyRow :=
  match a.result with
  | .ok (.fresh response true) =>
    if a.call.input.slot = slot then some (a.call.input.row response) else none
  | _ => none

/-- The row that the latest call to record one in a slot recorded there. -/
def lastRecorded (slot : IdempotencySlot) (history : List (Answered (keyedCalls work hashes))) :
    Option IdempotencyRow :=
  history.findSome? (recordedRow slot)

/-- What a call of a tenant that recorded a row took for now. -/
def recordedAt (tenantId : String) (a : Answered (keyedCalls work hashes)) : Option Instant :=
  match a.result with
  | .ok (.fresh _ true) =>
    if a.call.input.slot.tenantId = tenantId then some a.call.input.now else none
  | _ => none

/-- What the latest call of a tenant to record a row took for now. -/
def lastRecordedAt (tenantId : String) (history : List (Answered (keyedCalls work hashes))) :
    Option Instant :=
  history.findSome? (recordedAt tenantId)

/-- What the rows of the keys are, and what was answered of them. -/
structure Kept (s : Store (keyedDatabase work)) (history : List (Answered (keyedCalls work hashes))) :
    Prop where
  rows : ∀ slot, (keyRows s).slot slot = lastRecorded slot history
  /-- The windows of a slot do not overlap. -/
  windows : history.Pairwise fun later earlier ↦ ∀ slot row row',
    recordedRow slot earlier = some row → recordedRow slot later = some row' →
      row.expiresAt ≤ row'.createdAt
  /-- Within the window of the row last recorded a call is in flight or a replay. -/
  replays : ∀ b before, b :: before <:+ history → ∀ row,
    lastRecorded b.call.input.slot before = some row → b.call.input.now < row.expiresAt →
      b.result = .ok .inFlight ∨ b.result = .ok (replay row b.call.input)
  room : ∀ tenantId t, (∀ now, lastRecordedAt tenantId history = some now → now ≤ t) →
    ((keyRows s).live tenantId t).encard ≤ IDEMPOTENCY_MAX_LIVE_KEYS

variable {s s' : Store (keyedDatabase work)} {history : List (Answered (keyedCalls work hashes))}
  {a : Answered (keyedCalls work hashes)}

/-- An answer that no response was recorded. -/
def Unrecorded (a : Answered (keyedCalls work hashes)) : Prop :=
  ∀ response, a.result ≠ .ok (.fresh response true)

theorem Unrecorded.recordedRow (h : Unrecorded a) (slot : IdempotencySlot) :
    recordedRow slot a = none := by
  unfold ProtocolAdmin.recordedRow
  split
  · exact absurd (by assumption) (h _)
  · rfl

theorem Unrecorded.lastRecorded (h : Unrecorded a) (slot : IdempotencySlot) :
    lastRecorded slot (a :: history) = lastRecorded slot history := by
  rw [ProtocolAdmin.lastRecorded, List.findSome?_cons, h.recordedRow slot]
  rfl

theorem Unrecorded.lastRecordedAt (h : Unrecorded a) (tenantId : String) :
    lastRecordedAt tenantId (a :: history) = lastRecordedAt tenantId history := by
  have hnone : recordedAt tenantId a = none := by
    unfold recordedAt
    split
    · exact absurd (by assumption) (h _)
    · rfl
  rw [ProtocolAdmin.lastRecordedAt, List.findSome?_cons, hnone]
  rfl

variable {slot : IdempotencySlot} {row : IdempotencyRow}

/-- A row that is recorded expires no earlier than it is created. -/
theorem createdAt_le_expiresAt
    (h : recordedRow slot a = some row) : row.createdAt ≤ row.expiresAt := by
  unfold recordedRow at h
  split at h
  · split at h
    · obtain rfl := Option.some.inj h
      exact Nat.le_add_right _ _
    · exact nomatch h
  · exact nomatch h

theorem kept_start (hrows : ∀ slot, (keyRows s).slot slot = none) :
    Kept s ([] : List (Answered (keyedCalls work hashes))) where
  rows := hrows
  windows := .nil
  replays := by
    intro b before hsuffix
    exact nomatch List.eq_nil_of_suffix_nil hsuffix
  room := by
    intro tenantId t _
    have hnone : (keyRows s).live tenantId t = ∅ := by
      refine Set.eq_empty_of_forall_notMem fun slot hslot ↦ ?_
      obtain ⟨-, row, hrow, -⟩ := hslot
      rw [hrows slot] at hrow
      exact nomatch hrow
    rw [hnone, Set.encard_empty]
    exact zero_le

/-- An answer with nothing recorded, when what the slots hold is as it was. -/
theorem Kept.unrecorded (h : Kept s history) (ha : Unrecorded a)
    (hrows : ∀ slot, (keyRows s').slot slot = (keyRows s).slot slot)
    (hreplay : ∀ row, (keyRows s).slot a.call.input.slot = some row →
      a.call.input.now < row.expiresAt →
        a.result = .ok .inFlight ∨ a.result = .ok (replay row a.call.input)) :
    Kept s' (a :: history) where
  rows := fun slot ↦ by rw [hrows, ha.lastRecorded, h.rows]
  windows := by
    refine List.pairwise_cons.mpr ⟨fun earlier _ slot row row' _ hrow' ↦ ?_, h.windows⟩
    rw [ha.recordedRow slot] at hrow'
    exact nomatch hrow'
  replays := by
    intro b before hsuffix row hrow hlive
    rcases List.suffix_cons_iff.mp hsuffix with heq | hbefore
    · obtain ⟨rfl, rfl⟩ := List.cons.inj heq
      exact hreplay row ((h.rows _).trans hrow) hlive
    · exact h.replays b before hbefore row hrow hlive
  room := by
    intro tenantId t hlater
    have hsame : (keyRows s').live tenantId t = (keyRows s).live tenantId t := by
      ext slot
      simp only [IdempotencyRows.live, Set.mem_ofPred_eq, hrows]
    rw [hsame]
    refine h.room tenantId t fun now hnow ↦ hlater now ?_
    rw [ha.lastRecordedAt]
    exact hnow

/-- What a slot held before is over by the end of the window last recorded. -/
theorem Kept.expired (h : Kept s history)
    (ha : a ∈ history) (hrow : recordedRow slot a = some row) :
    ∃ last, lastRecorded slot history = some last ∧ row.expiresAt ≤ last.expiresAt := by
  have hwindows := h.windows
  clear h
  induction history with
  | nil => exact nomatch ha
  | cons b history ih =>
    obtain ⟨hfirst, hrest⟩ := List.pairwise_cons.mp hwindows
    cases hb : recordedRow slot b with
    | none =>
      have hlast : lastRecorded slot (b :: history) = lastRecorded slot history := by
        rw [lastRecorded, List.findSome?_cons, hb]
        rfl
      rw [hlast]
      rcases List.mem_cons.mp ha with rfl | hbefore
      · rw [hrow] at hb
        exact nomatch hb
      · exact ih hbefore hrest
    | some last =>
      refine ⟨last, by rw [lastRecorded, List.findSome?_cons, hb], ?_⟩
      rcases List.mem_cons.mp ha with rfl | hbefore
      · obtain rfl := Option.some.inj (hrow.symm.trans hb)
        exact le_rfl
      · exact (hfirst a hbefore slot row last hrow hb).trans (createdAt_le_expiresAt hb)

/-- The answer of a call that recorded its response. -/
abbrev answeredFresh (t : ℕ) (call : KeyedCall work) (response : IdempotentResponse) :
    Answered (keyedCalls work hashes) :=
  ⟨t, call, .ok (.fresh response true)⟩

variable {call : KeyedCall work}

/-- A row recorded in a free slot of a tenant with room. -/
theorem Kept.recorded (h : Kept s history) (t : ℕ)
    {response : IdempotentResponse}
    (hown : (keyRows s').slot call.input.slot = some (call.input.row response))
    (hrest : ∀ slot, slot ≠ call.input.slot → (keyRows s').slot slot = (keyRows s).slot slot)
    (hfree : call.input.Free s) (hroom : call.input.Roomy s) :
    Kept s' (answeredFresh t call response :: history) where
  rows := by
    intro slot
    by_cases hslot : call.input.slot = slot
    · subst hslot
      simp [lastRecorded, recordedRow, hown]
    · rw [hrest slot (Ne.symm hslot), h.rows]
      simp [lastRecorded, recordedRow, hslot]
  windows := by
    refine List.pairwise_cons.mpr ⟨fun earlier hearlier slot row row' hrow hrow' ↦ ?_, h.windows⟩
    obtain ⟨last, hlast, hle⟩ := h.expired hearlier hrow
    obtain ⟨rfl, rfl⟩ : call.input.slot = slot ∧ call.input.row response = row' := by
      simpa [recordedRow] using hrow'
    exact hle.trans (hfree last ((h.rows _).trans hlast))
  replays := by
    intro b before hsuffix row hrow hlive
    rcases List.suffix_cons_iff.mp hsuffix with heq | hbefore
    · obtain ⟨rfl, rfl⟩ := List.cons.inj heq
      exact absurd (hfree row ((h.rows _).trans hrow)) (Nat.not_le.mpr hlive)
    · exact h.replays b before hbefore row hrow hlive
  room := by
    intro tenantId t' hlater
    by_cases htenant : call.input.slot.tenantId = tenantId
    · subst htenant
      have hnow : call.input.now ≤ t' := hlater _ (by simp [lastRecordedAt, recordedAt])
      -- Beside the new row, what is live later was live when it was counted.
      have hsub : (keyRows s').live call.input.slot.tenantId t' ⊆
          insert call.input.slot ((keyRows s).live call.input.slot.tenantId call.input.now) := by
        rintro slot ⟨htenant, row, hrow, hlive⟩
        by_cases hslot : slot = call.input.slot
        · exact Or.inl hslot
        · rw [hrest slot hslot] at hrow
          exact Or.inr ⟨htenant, row, hrow, lt_of_le_of_lt hnow hlive⟩
      refine (Set.encard_le_encard hsub).trans ((Set.encard_insert_le _ _).trans ?_)
      exact Order.add_one_le_of_lt hroom
    · have hsame : (keyRows s').live tenantId t' = (keyRows s).live tenantId t' := by
        ext slot
        by_cases hslot : slot = call.input.slot
        · subst hslot
          simp [IdempotencyRows.live, htenant]
        · simp only [IdempotencyRows.live, Set.mem_ofPred_eq, hrest slot hslot]
      rw [hsame]
      refine h.room tenantId t' fun now hnow ↦ hlater now ?_
      rw [lastRecordedAt, List.findSome?_cons, recordedAt, if_neg htenant]
      exact hnow

/-- What a step of a run does to the rows and the answers keeps what is known of them. -/
theorem kept_event {s s' : Store (keyedDatabase work)}
    {history history' : List (Answered (keyedCalls work hashes))}
    (hevent : (keyedOutline work hashes).Event (s, history) (s', history'))
    (h : Kept s history) : Kept s' history' := by
  cases hevent with
  | part _ hfits => exact absurd rfl (Stage.plain hfits |>.1 _)
  | @commit t call outcome w _ _ hinv hfits hmay =>
    have hsame : ∀ slot, w (slotKey slot) = none →
        (keyRows (w.laidOver s)).slot slot = (keyRows s).slot slot :=
      fun slot hnone ↦ Writes.laidOver_of_none hnone s
    cases Stage.ending hfits with
    | recorded _ _ hwrote hrest hfree hroom =>
      exact h.recorded t (Writes.laidOver_of_some hwrote s)
        (fun slot hslot ↦ hsame slot (hrest slot hslot)) hfree hroom
    | skipped _ _ hnone hfree =>
      refine h.unrecorded (by simp [Unrecorded]) (fun slot ↦ hsame slot (hnone slot))
        fun row hrow hlive ↦ ?_
      exact absurd (hfree row hrow) (Nat.not_le.mpr hlive)
    | full hrows hfree =>
      refine h.unrecorded (by simp [Unrecorded]) (fun slot ↦ by rw [hrows]) fun row hrow hlive ↦ ?_
      exact absurd (hfree row hrow) (Nat.not_le.mpr hlive)
    | found _ hrows hrow =>
      refine h.unrecorded ?_ (fun slot ↦ by rw [hrows]) fun row' hrow' _ ↦ ?_
      · intro response
        simp only [replay, ne_eq, Except.ok.injEq]
        split <;> exact nofun
      · obtain rfl := Option.some.inj (hrow.symm.trans hrow')
        exact Or.inr rfl
    | missed hrows =>
      exact h.unrecorded (by simp [Unrecorded]) (fun slot ↦ by rw [hrows])
        fun row _ _ ↦ Or.inl rfl
  | refuse _ hfits =>
    refine h.unrecorded (by simp [Unrecorded]) (fun slot ↦ rfl) fun row hrow hlive ↦ ?_
    exact absurd (hfits.free nofun nofun row hrow) (Nat.not_le.mpr hlive)

theorem success_of_store {status : ℕ} {body : String} {withinTransaction : Bool}
    (h : responseVerdict status body withinTransaction = .store) : 200 ≤ status ∧ status ≤ 299 := by
  unfold responseVerdict at h
  split at h
  · exact nomatch h
  · simp_all

theorem not_skip_of_success {status : ℕ} {body : String} (hlow : 200 ≤ status)
    (hhigh : status ≤ 299) : responseVerdict status body true ≠ .skip := by
  unfold responseVerdict
  rw [if_neg (by simp; omega)]
  split <;> exact nofun

/-- What a fresh answer says of the response. -/
def Judged (a : Answered (keyedCalls work hashes)) : Prop :=
  ∀ response stored, a.result = .ok (.fresh response stored) →
    (stored = true → responseVerdict response.status response.body true = .store) ∧
      (stored = false → a.call.run.WithinTransaction →
        responseVerdict response.status response.body true = .skip)

theorem judged_event {s s' : Store (keyedDatabase work)}
    {history history' : List (Answered (keyedCalls work hashes))}
    (hevent : (keyedOutline work hashes).Event (s, history) (s', history'))
    (h : ∀ a ∈ history, Judged a) : ∀ a ∈ history', Judged a := by
  cases hevent with
  | part => exact h
  | commit _ hfits =>
    refine List.forall_mem_cons.mpr ⟨fun response stored hresult ↦ ?_, h⟩
    cases Stage.ending hfits with
    | recorded _ hstore =>
      cases hresult
      exact ⟨fun _ ↦ hstore, nofun⟩
    | skipped _ hskip =>
      cases hresult
      exact ⟨nofun, fun _ ↦ hskip⟩
    | full | missed => cases hresult
    | found =>
      simp only [replay, Except.ok.injEq] at hresult
      split at hresult <;> exact nomatch hresult
  | refuse => exact List.forall_mem_cons.mpr ⟨nofun, h⟩

theorem Ending.rows_of_full {outcome : IdempotencyResult}
    {w : Writes (keyedDatabase work)} {s : Store (keyedDatabase work)}
    (h : Ending call outcome w s) (houtcome : outcome = .capacity) : w.laidOver s = s := by
  cases h with
  | recorded | skipped | missed => exact nomatch houtcome
  | full hrows | found _ hrows => exact hrows

section Runs

variable {rows : Store (keyedDatabase work)} {c : Config (keyedCalls work hashes)}
  (hc : Reaches .free (Config.start rows) c)

include hc

theorem outlined_of_reaches : (keyedOutline work hashes).Outlined c :=
  (Outline.outlined_start trivial).reaches hc

theorem kept_of_reaches (hrows : ∀ slot, (keyRows rows).slot slot = none) :
    Kept c.rows c.history :=
  Outline.invariant (fun _ _ _ _ ↦ kept_event) (Outline.outlined_start trivial) hc
    (kept_start hrows)

/-- In every run a response is stored as its verdict says. -/
theorem judged_of_reaches : ∀ a ∈ c.history, Judged a :=
  Outline.invariant (P := fun _ history ↦ ∀ a ∈ history, Judged a) (fun _ _ _ _ ↦ judged_event)
    (Outline.outlined_start trivial) hc (by simp [Config.start])

/-- A call over capacity, or one that throws, leaves the rows as they are. -/
theorem rows_of_undone {c' : Config (keyedCalls work hashes)} (hstep : Step .free c c')
    {a : Answered (keyedCalls work hashes)} (hhistory : c'.history = a :: c.history)
    (ha : a.result = .ok .capacity ∨ ∃ failure, a.result = .error failure) : c'.rows = c.rows := by
  have hfits := (outlined_of_reaches hc).fits
  cases hstep with
  | begin | run | savepoint | rollbackTo | refuse | lose => rfl
  | part hrunning => exact absurd rfl ((Stage.plain (hfits _ _ hrunning)).1 _)
  | commit hrunning =>
    obtain ⟨rfl, -⟩ := List.cons.inj hhistory
    rcases ha with hfull | ⟨failure, hfailed⟩
    · exact (Stage.ending (hfits _ _ hrunning)).rows_of_full (Except.ok.inj hfull)
    · exact nomatch hfailed

end Runs

/-- Over any interleaving of keyed calls: every success whose work was in the transaction
was recorded, in a window that no other of its slot overlaps; a call within the window last
recorded is in flight or a replay, and none that is under way there is at its work; a slot
holds what was last recorded in it, which only a success was; a call over capacity, or one
that throws, leaves every row as it was; and a tenant's live rows are within the limit, from
the instant the latest of them was recorded at. -/
theorem keyed_calls_run_once {rows : Store (keyedDatabase work)}
    (hrows : ∀ slot, (keyRows rows).slot slot = none) {c : Config (keyedCalls work hashes)}
    (hc : Reaches .free (Config.start rows) c) :
    (∀ a ∈ c.history, ∀ response stored, a.result = .ok (.fresh response stored) →
      a.call.run.WithinTransaction → 200 ≤ response.status → response.status ≤ 299 →
        stored = true) ∧
    (c.history.Pairwise fun later earlier ↦ ∀ slot row row',
      recordedRow slot earlier = some row → recordedRow slot later = some row' →
        row.expiresAt ≤ row'.createdAt) ∧
    (∀ b before, b :: before <:+ c.history → ∀ row,
      lastRecorded b.call.input.slot before = some row → b.call.input.now < row.expiresAt →
        b.result = .ok .inFlight ∨ b.result = .ok (replay row b.call.input)) ∧
    (∀ t r row, c.running t = some r → lastRecorded r.call.input.slot c.history = some row →
      r.call.input.now < row.expiresAt → ∀ op next, r.program ≠ .stmt (.inr op) next) ∧
    (∀ slot, (keyRows c.rows).slot slot = lastRecorded slot c.history) ∧
    (∀ a ∈ c.history, ∀ response, a.result = .ok (.fresh response true) →
      200 ≤ response.status ∧ response.status ≤ 299) ∧
    (∀ a c', Step .free c c' → c'.history = a :: c.history →
      (a.result = .ok .capacity ∨ ∃ failure, a.result = .error failure) → c'.rows = c.rows) ∧
    ∀ tenantId t, (∀ now, lastRecordedAt tenantId c.history = some now → now ≤ t) →
      ((keyRows c.rows).live tenantId t).encard ≤ IDEMPOTENCY_MAX_LIVE_KEYS := by
  have hkept := kept_of_reaches hc hrows
  have hjudged := judged_of_reaches hc
  refine ⟨?_, hkept.windows, hkept.replays, ?_, hkept.rows, ?_, ?_, hkept.room⟩
  · intro a ha response stored hresult hwithin hlow hhigh
    cases stored with
    | true => rfl
    | false =>
      have hskip := (hjudged a ha response false hresult).2 rfl hwithin
      exact absurd hskip (not_skip_of_success hlow hhigh)
  · intro t r row hrunning hrow hlive op next hprogram
    have hfits := (outlined_of_reaches hc).fits t r hrunning
    change Stage hashes r.call r.program r.pending c.rows at hfits
    rw [hprogram] at hfits
    exact absurd (hfits.free nofun nofun row ((hkept.rows _).trans hrow)) (Nat.not_le.mpr hlive)
  · intro a ha response hresult
    exact success_of_store ((hjudged a ha response true hresult).1 rfl)
  · intro a c' hstep hhistory ha
    exact rows_of_undone hc hstep hhistory ha

section Examples

variable {input : IdempotencyInput} {s : Store (keyedDatabase work)}

theorem exists_count (live : Set IdempotencySlot) :
    ∃ n : ℕ, (n : ℕ∞) = min (IDEMPOTENCY_MAX_LIVE_KEYS : ℕ∞) live.encard :=
  ENat.ne_top_iff_exists.mp (ne_top_of_le_ne_top (ENat.natCast_ne_top _) (min_le_left _ _))

variable {w : Writes (keyedDatabase work)}

/-- A free slot is found empty. -/
private theorem find_of_free (hw : input.Exclusive hashes w s)
    (hfree : input.Free s) :
    (keyedDatabase work).Answers (.inl (.find input.slot input.now)) (w.laidOver s) none := by
  change none = ((keyRows (w.laidOver s)).slot input.slot).filter _
  rw [Stage.slot_laidOver hw]
  cases hrow : (keyRows s).slot input.slot with
  | none => rfl
  | some row => rw [Option.filter_some_neg (by simpa using hfree row hrow)]

/-- A call that has written no row of a key counts the committed ones. -/
private theorem count_of_exclusive {n : ℕ}
    (hw : input.Exclusive hashes w s)
    (hn : (n : ℕ∞) = min (IDEMPOTENCY_MAX_LIVE_KEYS : ℕ∞)
      ((keyRows s).live input.slot.tenantId input.now).encard) :
    (keyedDatabase work).Answers
      (.inl (.countLive input.slot.tenantId input.now IDEMPOTENCY_MAX_LIVE_KEYS))
        (w.laidOver s) n := by
  change (n : ℕ∞) = min _ ((keyRows (w.laidOver s)).live _ _).encard
  rw [Stage.live_laidOver hw]
  exact hn

/-- Alone, a call with a free slot and room records a response that may be kept. -/
theorem ends_recorded (hashes : TextHashes) {response : IdempotentResponse}
    (hstore : responseVerdict response.status response.body true = .store)
    (hfree : input.Free s) (hroom : input.Roomy s) :
    ∃ s', (withIdempotency hashes input (.done response true : KeyedWork work)).Ends
      Writes.nothing s (.ok (.fresh response true)) s' := by
  obtain ⟨n, hn⟩ := exists_count ((keyRows s).live input.slot.tenantId input.now)
  have hbelow : atCapacity n = false := by
    have hlt : (n : ℕ∞) < (IDEMPOTENCY_MAX_LIVE_KEYS : ℕ∞) := hn ▸ lt_of_le_of_lt (min_le_right _ _) hroom
    simpa [atCapacity] using Nat.cast_lt.mp hlt
  refine Ends.exists_stmt (a := true) trivial ?_
  rw [Stage.andThen_read (fun _ ↦ rfl)]
  refine Ends.exists_stmt (a := ()) trivial ?_
  have hlocked := (@Stage.exclusive_of_lockKey work hashes input s).1
  simp only [Writes.nothing_laidOver]
  generalize Writes.nothing.andThen _ = w at hlocked ⊢
  refine Ends.exists_stmt (a := none) (find_of_free hlocked hfree) ?_
  rw [Stage.andThen_read (fun _ ↦ rfl)]
  refine Ends.exists_stmt (a := n) (count_of_exclusive hlocked hn) ?_
  rw [Stage.andThen_read (fun _ ↦ rfl)]
  change ∃ s', Ends (if atCapacity n then _ else settle hashes input response true) w s _ s'
  rw [hbelow, if_neg Bool.false_ne_true, settle, hstore]
  refine Ends.exists_stmt (a := ()) trivial ?_
  have hcounting := (@Stage.exclusive_andThen_lockCapacity _ _ _ _ _ (w.laidOver s) hlocked).1
  generalize w.andThen _ = w' at hcounting ⊢
  refine Ends.exists_stmt (a := n) (count_of_exclusive hcounting hn) ?_
  rw [Stage.andThen_read (fun _ ↦ rfl)]
  change ∃ s', Ends (if atCapacity n then _ else recordResponse input response) w' s _ s'
  rw [hbelow, if_neg Bool.false_ne_true]
  exact Ends.exists_stmt (a := ()) trivial ⟨_, .done⟩

/-- Alone, a call that finds a live row is answered with what it replays. -/
theorem ends_replay (hashes : TextHashes) (run : KeyedWork work) {row : IdempotencyRow}
    (hrow : (keyRows s).slot input.slot = some row) (hlive : input.now < row.expiresAt) :
    ∃ s', (withIdempotency hashes input run).Ends Writes.nothing s (.ok (replay row input)) s' := by
  refine Ends.exists_stmt (a := true) trivial ?_
  rw [Stage.andThen_read (fun _ ↦ rfl)]
  refine Ends.exists_stmt (a := ()) trivial ?_
  have hlocked := (@Stage.exclusive_of_lockKey work hashes input s).1
  simp only [Writes.nothing_laidOver]
  generalize Writes.nothing.andThen _ = w at hlocked ⊢
  refine Ends.exists_stmt (a := some row) ?_ ⟨_, .done⟩
  change some row = ((keyRows (w.laidOver s)).slot input.slot).filter _
  rw [Stage.slot_laidOver hlocked, hrow, Option.filter_some_pos (by simpa using hlive)]

/-- A database in which there is no work to do. -/
abbrev noWork : Database where
  Key := Empty
  Cell := fun k ↦ nomatch k
  Op := Empty
  Answer := fun op ↦ nomatch op
  Answers := fun op ↦ nomatch op
  effect := fun op ↦ nomatch op

/-- All texts hashed to one number. -/
def oneHash : TextHashes := ⟨fun _ ↦ 0, fun _ ↦ 0⟩

/-- No key on record. -/
def noKeys : Store (keyedDatabase noWork)
  | .inl _ => none
  | .inr k => nomatch k

/-- A group is created by one administrator, at this instant. -/
def creation (now : Instant) : IdempotencyInput where
  slot := ⟨"acme", "k1", "POST /groups"⟩
  fingerprint := "f1"
  now

def created (body : String) : IdempotentResponse := ⟨201, body, []⟩

/-- A creation that answers with this body. -/
def creating (now : Instant) (body : String) : KeyedCall noWork :=
  ⟨creation now, .done (created body) true⟩

theorem roomy_of_expired
    (h : ∀ slot row, (keyRows s).slot slot = some row → row.expiresAt ≤ input.now) :
    input.Roomy s := by
  have hnone : (keyRows s).live input.slot.tenantId input.now = ∅ := by
    refine Set.eq_empty_of_forall_notMem fun slot hslot ↦ ?_
    obtain ⟨-, row, hrow, hlive⟩ := hslot
    exact absurd (h slot row hrow) (Nat.not_le.mpr hlive)
  rw [Roomy, hnone, Set.encard_empty]
  exact Nat.cast_lt.mpr (show 0 < IDEMPOTENCY_MAX_LIVE_KEYS by decide)

/-- What a turn after the row last recorded in any slot has expired is answered. -/
theorem turn_recorded {history : List (Answered (keyedCalls noWork oneHash))}
    {s : Store (keyedDatabase noWork)}
    (hturns : Turns (keyedCalls noWork oneHash) (fun _ _ _ ↦ True) noKeys s history)
    (now : Instant) (body : String) (hbody : body.utf8ByteSize ≤ IDEMPOTENCY_MAX_BODY_BYTES)
    (hexpired : ∀ slot row, lastRecorded slot history = some row → row.expiresAt ≤ now) :
    ∃ s', Turns (keyedCalls noWork oneHash) (fun _ _ _ ↦ True) noKeys s'
      (⟨history.length, creating now body, .ok (.fresh (created body) true)⟩ :: history) := by
  obtain ⟨c, hc, rfl, rfl⟩ := reaches_of_turns hturns
  have hrows := (kept_of_reaches hc fun _ ↦ rfl).rows
  have hpast : ∀ slot row, (keyRows c.rows).slot slot = some row → row.expiresAt ≤ now :=
    fun slot row hrow ↦ hexpired slot row ((hrows slot).symm.trans hrow)
  have hstore : responseVerdict (created body).status (created body).body true = .store := by
    simp [responseVerdict, created, Nat.not_lt.mpr hbody]
  obtain ⟨s', hends⟩ := @ends_recorded noWork (creation now) c.rows oneHash (created body) hstore
    (fun row hrow ↦ hpast _ row hrow) (roomy_of_expired hpast)
  exact ⟨s', .turn hturns trivial hends⟩

/-- The creation that was recorded first. -/
abbrev firstCreation : Answered (keyedCalls noWork oneHash) :=
  ⟨0, creating 0 "one", .ok (.fresh (created "one") true)⟩

/-- The creation that was recorded a window later. -/
abbrev laterCreation : Answered (keyedCalls noWork oneHash) :=
  ⟨1, creating (IDEMPOTENCY_WINDOW_SECONDS * 1000) "two", .ok (.fresh (created "two") true)⟩

/-- What a later creation's row has a repeat by this clock answered with. -/
abbrev repeatedCreation (now : Instant) : Answered (keyedCalls noWork oneHash) :=
  ⟨2, creating now "three", .ok (replay
    ((creation (IDEMPOTENCY_WINDOW_SECONDS * 1000)).row (created "two")) (creation now))⟩

/-- Two creations a window apart, and a repeat. -/
theorem turn_replayed (now : Instant) (hnow : now < 2 * (IDEMPOTENCY_WINDOW_SECONDS * 1000)) :
    ∃ s, Turns (keyedCalls noWork oneHash) (fun _ _ _ ↦ True) noKeys s
      [repeatedCreation now, laterCreation, firstCreation] := by
  obtain ⟨s₁, hfirst⟩ := turn_recorded .start 0 "one" (by decide) nofun
  obtain ⟨s₂, hlater⟩ := turn_recorded hfirst (IDEMPOTENCY_WINDOW_SECONDS * 1000) "two"
    (by decide) (by
      intro slot row hrow
      by_cases hslot : (creation 0).slot = slot
      · obtain rfl : (creation 0).row (created "one") = row := by
          simpa [lastRecorded, recordedRow, creating, hslot] using hrow
        exact Nat.le_of_eq (Nat.zero_add _)
      · simp [lastRecorded, recordedRow, creating, hslot] at hrow)
  obtain ⟨c, hc, rfl, hhistory⟩ := reaches_of_turns hlater
  have hrow : (keyRows c.rows).slot (creation now).slot =
      some ((creation (IDEMPOTENCY_WINDOW_SECONDS * 1000)).row (created "two")) := by
    rw [(kept_of_reaches hc fun _ ↦ rfl).rows, hhistory]
    rfl
  obtain ⟨s₃, hends⟩ := @ends_replay noWork (creation now) c.rows oneHash
    (.done (created "three") true) _ hrow (lt_of_lt_of_eq hnow (Nat.two_mul _))
  exact ⟨s₃, .turn hlater trivial hends⟩

/-- Two creations recorded a window apart, and one answered from the later. -/
theorem keyed_calls_run_once_repeated : ∃ c : Config (keyedCalls noWork oneHash),
    c.history = [repeatedCreation 1, laterCreation, firstCreation] ∧
    (c.history.Pairwise fun later earlier ↦ ∀ slot row row',
      recordedRow slot earlier = some row → recordedRow slot later = some row' →
        row.expiresAt ≤ row'.createdAt) ∧
    ∀ slot, (keyRows c.rows).slot slot = lastRecorded slot c.history := by
  obtain ⟨s, hturns⟩ := turn_replayed 1 (by decide)
  obtain ⟨c, hc, -, hhistory⟩ := reaches_of_turns hturns
  obtain ⟨-, hwindows, -, -, hrows, -⟩ :=
    keyed_calls_run_once (fun _ ↦ rfl) hc
  exact ⟨c, hhistory, hwindows, hrows⟩

/-- A call whose clock is behind is answered with the response of a later window. -/
theorem replay_of_replaced_row : ¬ ∀ (work : Database) (hashes : TextHashes)
    (rows : Store (keyedDatabase work)) (c : Config (keyedCalls work hashes)),
    (∀ slot, (keyRows rows).slot slot = none) → Reaches .free (Config.start rows) c →
      ∀ b before a response, b :: before <:+ c.history → a ∈ before →
        a.result = .ok (.fresh response true) → b.call.input.slot = a.call.input.slot →
          b.call.input.fingerprint = a.call.input.fingerprint →
            a.call.input.now ≤ b.call.input.now → b.call.input.now < a.call.input.expiresAt →
              b.result = .ok .inFlight ∨ b.result = .ok (.stored response) := by
  intro hclaim
  have replayed : replay ((creation (IDEMPOTENCY_WINDOW_SECONDS * 1000)).row (created "two"))
      (creation 1) = .stored (created "two") := if_pos rfl
  obtain ⟨s, hturns⟩ := turn_replayed 1 (by decide)
  obtain ⟨c, hc, -, hhistory⟩ := reaches_of_turns hturns
  have hlate := hclaim noWork oneHash noKeys c (fun _ ↦ rfl) hc
  rw [hhistory] at hlate
  rcases hlate _ _ firstCreation (created "one") List.suffix_rfl (by simp) rfl rfl rfl (by decide)
    (by decide) with h | h
  · exact nomatch replayed.symm.trans (Except.ok.inj h)
  · have hresponse := IdempotencyResult.stored.inj (replayed.symm.trans (Except.ok.inj h))
    simp [created] at hresponse

end Examples

end Odudu.ProtocolAdmin
