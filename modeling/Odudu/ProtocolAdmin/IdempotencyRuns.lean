import Odudu.ProtocolAdmin.Idempotency
import Odudu.ReadCommitted.Chronicles

/-!
# Keyed calls beside one another

What the rows of the keys are after any interleaving of keyed calls: `lastRecorded`, the
row of the latest call that was answered with a response it recorded.  `Stage` says where a
call is and what holds of the rows there: from the moment it has found nothing live in its
slot until it is over, it holds the key's lock and nothing comes to be live there.

The instants the calls take for now are not in the order of the calls, nor need any of them
be the time.
-/

set_option autoImplicit false

namespace Odudu.ProtocolAdmin

open ReadCommitted Program

variable {work : Database} {hashes : TextHashes}

/-- Whatever the work finds, all it wrote went through the transaction. -/
def KeyedWork.WithinTransaction : KeyedWork work → Prop
  | done _ withinTransaction => withinTransaction = true
  | throw => True
  | stmt _ next => ∀ answer, (next answer).WithinTransaction

/-- The rows of the keys. -/
def keyRows (s : Store (keyedDatabase work)) : IdempotencyRows := fun k ↦ s (.inl k)

/-- The row of a slot among all the rows. -/
abbrev slotKey (slot : IdempotencySlot) : (keyedDatabase work).Key := .inl ⟨.idempotencyKeys, slot⟩

namespace IdempotencyInput

variable (hashes) (input : IdempotencyInput)

/-- The row of the key's lock. -/
abbrev keyLock : (keyedDatabase work).Key := .inl ⟨.keyLocks, hashes.keyLock input.slot⟩

/-- The row of the tenant's capacity lock. -/
abbrev capacityLock : (keyedDatabase work).Key :=
  .inl ⟨.capacityLocks, hashes.hashtext input.slot.tenantId⟩

/-- The call holds the key's lock, and has written no row of a key. -/
structure Exclusive (w : Writes (keyedDatabase work)) (s : Store (keyedDatabase work)) : Prop where
  locked : w (input.keyLock hashes) = some (s (input.keyLock hashes))
  unwritten : ∀ slot, w (slotKey slot) = none

/-- The slot holds nothing live. -/
def Free (s : Store (keyedDatabase work)) : Prop :=
  ∀ row, (keyRows s).slot input.slot = some row → row.expiresAt ≤ input.now

/-- The tenant has room for another live key. -/
def Roomy (s : Store (keyedDatabase work)) : Prop :=
  ((keyRows s).live input.slot.tenantId input.now).encard < IDEMPOTENCY_MAX_LIVE_KEYS

/-- What the locks a call holds keep as it was. -/
structure Still (w : Writes (keyedDatabase work)) (s s' : Store (keyedDatabase work)) : Prop where
  lock : (w (input.keyLock hashes)).isSome → s' (input.keyLock hashes) = s (input.keyLock hashes)
  slot : (w (input.keyLock hashes)).isSome →
    (keyRows s').slot input.slot = (keyRows s).slot input.slot
  live : (w (input.capacityLock hashes)).isSome →
    (keyRows s').live input.slot.tenantId input.now =
      (keyRows s).live input.slot.tenantId input.now

variable {hashes input} {w : Writes (keyedDatabase work)} {s s' : Store (keyedDatabase work)}

theorem Exclusive.isSome (h : input.Exclusive hashes w s) : (w (input.keyLock hashes)).isSome := by
  simp [h.locked]

theorem Exclusive.still (h : input.Exclusive hashes w s) (hs : input.Still hashes w s s') :
    input.Exclusive hashes w s' where
  locked := by rw [h.locked, hs.lock h.isSome]
  unwritten := h.unwritten

theorem Free.still (h : input.Free s) (hw : (w (input.keyLock hashes)).isSome)
    (hs : input.Still hashes w s s') : input.Free s' := by
  intro row hrow
  rw [hs.slot hw] at hrow
  exact h row hrow

theorem Roomy.still (h : input.Roomy s) (hw : (w (input.capacityLock hashes)).isSome)
    (hs : input.Still hashes w s s') : input.Roomy s' := by
  rw [Roomy, hs.live hw]
  exact h

end IdempotencyInput

open IdempotencyInput

/-- Where a call is, with what it has written, over the committed rows. -/
inductive Stage (hashes : TextHashes) (call : KeyedCall work) :
    KeyedTx work IdempotencyResult → Writes (keyedDatabase work) →
      Store (keyedDatabase work) → Prop where
  | begun {p w s} (hp : p = withIdempotency hashes call.input call.run)
      (hw : w = Writes.nothing) : Stage hashes call p w s
  | got {p w s} (hp : p = onKeys (.lockKey (hashes.keyLock call.input.slot)) >>= fun _ ↦
        lookUp hashes call.input call.run)
      (hw : w = Writes.nothing) : Stage hashes call p w s
  | locked {p w s} (hp : p = lookUp hashes call.input call.run)
      (hw : call.input.Exclusive hashes w s)
      (honly : ∀ k, k ≠ call.input.keyLock hashes → w k = none) : Stage hashes call p w s
  | admitted {p w s} (hp : p = runFresh hashes call.input call.run)
      (hw : call.input.Exclusive hashes w s)
      (honly : ∀ k, k ≠ call.input.keyLock hashes → w k = none) (hfree : call.input.Free s) :
      Stage hashes call p w s
  | running {p w s} (run : KeyedWork work)
      (hp : p = run.program >>= fun r ↦ settle hashes call.input r.1 r.2)
      (hwithin : call.run.WithinTransaction → run.WithinTransaction)
      (hw : call.input.Exclusive hashes w s) (hfree : call.input.Free s) : Stage hashes call p w s
  | settling {p w s} (response : IdempotentResponse)
      (hstore : responseVerdict response.status response.body true = .store)
      (hp : p = countAgain call.input response)
      (hw : call.input.Exclusive hashes w s)
      (hcapacity : (w (call.input.capacityLock hashes)).isSome) (hfree : call.input.Free s) :
      Stage hashes call p w s
  | counted {p w s} (response : IdempotentResponse)
      (hstore : responseVerdict response.status response.body true = .store)
      (hp : p = recordResponse call.input response)
      (hw : call.input.Exclusive hashes w s)
      (hcapacity : (w (call.input.capacityLock hashes)).isSome) (hfree : call.input.Free s)
      (hroom : call.input.Roomy s) : Stage hashes call p w s
  | recorded {p w s} (response : IdempotentResponse)
      (hstore : responseVerdict response.status response.body true = .store)
      (hp : p = .done (.fresh response true))
      (hlock : (w (call.input.keyLock hashes)).isSome)
      (hcapacity : (w (call.input.capacityLock hashes)).isSome)
      (hwrote : w (slotKey call.input.slot) = some (some (call.input.row response)))
      (hrest : ∀ slot, slot ≠ call.input.slot → w (slotKey slot) = none)
      (hfree : call.input.Free s) (hroom : call.input.Roomy s) : Stage hashes call p w s
  | failing {p w s} (failure : KeyedFailure) (hp : p = .throw failure)
      (hw : call.input.Exclusive hashes w s) (hfree : call.input.Free s) : Stage hashes call p w s
  | full {p w s} (hp : p = .done .capacity) (hw : call.input.Exclusive hashes w s)
      (honly : ∀ k, k ≠ call.input.keyLock hashes → w k = none) (hfree : call.input.Free s) :
      Stage hashes call p w s
  | found {p w s} (row : IdempotencyRow) (hp : p = .done (replay row call.input))
      (hw : call.input.Exclusive hashes w s)
      (honly : ∀ k, k ≠ call.input.keyLock hashes → w k = none)
      (hrow : (keyRows s).slot call.input.slot = some row)
      (hlive : call.input.now < row.expiresAt) : Stage hashes call p w s
  | missed {p w s} (hp : p = .done .inFlight) (hw : w = Writes.nothing) : Stage hashes call p w s

namespace Stage

variable {call call' : KeyedCall work} {p p' : KeyedTx work IdempotencyResult}
  {w w' : Writes (keyedDatabase work)} {s s' : Store (keyedDatabase work)}

/-- A call stays where it is when what its locks keep is as it was. -/
theorem still (h : Stage hashes call p w s) (hs : call.input.Still hashes w s s') :
    Stage hashes call p w s' := by
  cases h with
  | begun hp hw => exact .begun hp hw
  | got hp hw => exact .got hp hw
  | locked hp hw honly => exact .locked hp (hw.still hs) honly
  | admitted hp hw honly hfree =>
    exact .admitted hp (hw.still hs) honly (hfree.still hw.isSome hs)
  | running run hp hwithin hw hfree => exact .running run hp hwithin (hw.still hs) (hfree.still hw.isSome hs)
  | settling response hstore hp hw hcapacity hfree =>
    exact .settling response hstore hp (hw.still hs) hcapacity (hfree.still hw.isSome hs)
  | counted response hstore hp hw hcapacity hfree hroom =>
    exact .counted response hstore hp (hw.still hs) hcapacity (hfree.still hw.isSome hs)
      (hroom.still hcapacity hs)
  | recorded response hstore hp hlock hcapacity hwrote hrest hfree hroom =>
    exact .recorded response hstore hp hlock hcapacity hwrote hrest (hfree.still hlock hs)
      (hroom.still hcapacity hs)
  | failing failure hp hw hfree => exact .failing failure hp (hw.still hs) (hfree.still hw.isSome hs)
  | full hp hw honly hfree => exact .full hp (hw.still hs) honly (hfree.still hw.isSome hs)
  | found row hp hw honly hrow hlive =>
    refine .found row hp (hw.still hs) honly ?_ hlive
    rw [hs.slot hw.isSome]
    exact hrow
  | missed hp hw => exact .missed hp hw

/-- A call that writes the row of a key holds its locks. -/
theorem wrote (h : Stage hashes call p w s) {slot : IdempotencySlot}
    (hslot : w (slotKey slot) ≠ none) :
    slot = call.input.slot ∧ (w (call.input.keyLock hashes)).isSome ∧
      (w (call.input.capacityLock hashes)).isSome := by
  cases h with
  | begun _ hw | got _ hw | missed _ hw =>
    subst hw
    exact absurd rfl hslot
  | locked _ hw _ | admitted _ hw _ _ | running _ _ _ hw _ | settling _ _ _ hw _ _
  | counted _ _ _ hw _ _ _ | failing _ _ hw _ | full _ hw _ _
  | found _ _ hw => exact absurd (hw.unwritten slot) hslot
  | recorded _ _ _ hlock hcapacity _ hrest =>
    by_cases hsame : slot = call.input.slot
    · exact ⟨hsame, hlock, hcapacity⟩
    · exact absurd (hrest slot hsame) hslot

/-- What another call commits leaves what a call's locks keep. -/
theorem still_of_apart (h : Stage hashes call p w s) (hapart : w.Apart w') :
    call'.input.Still hashes w' s (w.laidOver s) := by
  have hlocked : ∀ k : (keyedDatabase work).Key, (w' k).isSome → w k = none := by
    intro k hk
    rcases hapart k with hnone | hnone
    · exact hnone
    · simp [hnone] at hk
  constructor
  · intro hlock
    exact Writes.laidOver_of_none (hlocked _ hlock) s
  · intro hlock
    by_cases hslot : w (slotKey call'.input.slot) = none
    · exact Writes.laidOver_of_none hslot s
    · -- Both calls would hold the lock of the one slot.
      obtain ⟨hsame, hheld, -⟩ := h.wrote hslot
      have hnone := hlocked _ hlock
      rw [keyLock, hsame] at hnone
      rw [keyLock, hnone] at hheld
      simp at hheld
  · intro hlock
    ext slot
    by_cases hslot : w (slotKey slot) = none
    · have hrow : (keyRows (w.laidOver s)).slot slot = (keyRows s).slot slot :=
        Writes.laidOver_of_none hslot s
      simp only [IdempotencyRows.live, Set.mem_ofPred_eq, hrow]
    · -- Both calls would hold the capacity lock of the one tenant.
      obtain ⟨rfl, -, hheld⟩ := h.wrote hslot
      have hnone := hlocked _ hlock
      constructor
      all_goals
        rintro ⟨htenant, -⟩
        rw [capacityLock, ← htenant] at hnone
        rw [capacityLock, hnone] at hheld
        simp at hheld

variable {input : IdempotencyInput}

/-- A call holds the key's lock once it has taken it. -/
theorem exclusive_of_lockKey (s : Store (keyedDatabase work)) :
    input.Exclusive hashes
        (Writes.nothing.andThen ((keyedDatabase work).effect
          (.inl (.lockKey (hashes.keyLock input.slot))) s)) s ∧
      ∀ k, k ≠ input.keyLock hashes →
        Writes.nothing.andThen ((keyedDatabase work).effect
          (.inl (.lockKey (hashes.keyLock input.slot))) s) k = none := by
  rw [Writes.nothing_andThen]
  refine ⟨⟨?_, fun slot ↦ ?_⟩, ?_⟩
  · exact @Layout.put_self idempotencyLayout _ .keyLocks _ (hashes.keyLock input.slot) _
  · exact @Layout.put_of_ne idempotencyLayout _ .keyLocks .idempotencyKeys _
      (hashes.keyLock input.slot) (s (input.keyLock hashes)) (by decide) slot
  · rintro (k | k) hk
    · exact Layout.put_of_key_ne (L := idempotencyLayout) fun heq ↦ hk (congrArg Sum.inl heq)
    · rfl

/-- A statement that writes no row of the keys leaves the call the lock it holds. -/
private theorem exclusive_andThen {later : Writes (keyedDatabase work)}
    (hw : input.Exclusive hashes w s) (hlater : ∀ k, later (.inl k) = none) :
    input.Exclusive hashes (w.andThen later) s where
  locked := by rw [Writes.andThen_of_none (hlater _), hw.locked]
  unwritten := fun slot ↦ by rw [Writes.andThen_of_none (hlater _), hw.unwritten slot]

/-- Reading leaves what is written as it was. -/
theorem andThen_read {op : IdempotencyOp}
    (hop : ∀ rows, op.effect rows = fun _ ↦ none) (s : Store (keyedDatabase work)) :
    w.andThen ((keyedDatabase work).effect (.inl op) s) = w := by
  have hnone : (keyedDatabase work).effect (.inl op) s = Writes.nothing := by
    funext k
    cases k with
    | inl k => exact congrFun (hop _) k
    | inr => rfl
  rw [hnone, Writes.andThen_nothing]

theorem slot_laidOver (hw : input.Exclusive hashes w s) (slot : IdempotencySlot) :
    (keyRows (w.laidOver s)).slot slot = (keyRows s).slot slot :=
  Writes.laidOver_of_none (hw.unwritten slot) s

theorem live_laidOver (hw : input.Exclusive hashes w s) (tenantId : String)
    (now : Instant) :
    (keyRows (w.laidOver s)).live tenantId now = (keyRows s).live tenantId now := by
  ext slot
  simp only [IdempotencyRows.live, Set.mem_ofPred_eq, slot_laidOver hw slot]

/-- Fewer than the limit are live where a count up to the limit is not at capacity. -/
private theorem roomy_of_count {n : ℕ}
    (hcount : (n : ℕ∞) = min (IDEMPOTENCY_MAX_LIVE_KEYS : ℕ∞)
      ((keyRows s).live input.slot.tenantId input.now).encard)
    (hroom : atCapacity n = false) : input.Roomy s := by
  have hlt : n < IDEMPOTENCY_MAX_LIVE_KEYS := by
    simpa [atCapacity] using hroom
  have hlt' : (n : ℕ∞) < (IDEMPOTENCY_MAX_LIVE_KEYS : ℕ∞) := Nat.cast_lt.mpr hlt
  rw [hcount] at hlt'
  rcases min_lt_iff.mp hlt' with h | h
  · exact absurd h (lt_irrefl _)
  · exact h

/-- The capacity lock is taken beside the key's. -/
theorem exclusive_andThen_lockCapacity
    {seen : Store (keyedDatabase work)} (hw : input.Exclusive hashes w s) :
    input.Exclusive hashes (w.andThen ((keyedDatabase work).effect
        (.inl (.lockCapacity (hashes.hashtext input.slot.tenantId))) seen)) s ∧
      (w.andThen ((keyedDatabase work).effect
        (.inl (.lockCapacity (hashes.hashtext input.slot.tenantId))) seen)
          (input.capacityLock hashes)).isSome := by
  have hother : ∀ k : idempotencyLayout.Key, k.1 ≠ .capacityLocks →
      (keyedDatabase work).effect
        (.inl (.lockCapacity (hashes.hashtext input.slot.tenantId))) seen (.inl k) = none :=
    fun k hk ↦ Layout.put_of_ne (L := idempotencyLayout) hk k.2
  refine ⟨⟨?_, fun slot ↦ ?_⟩, ?_⟩
  · rw [Writes.andThen_of_none (hother _ (by simp)), hw.locked]
  · rw [Writes.andThen_of_none (hother _ (by simp)), hw.unwritten slot]
  · rw [Writes.andThen_of_some (@Layout.put_self idempotencyLayout _ .capacityLocks _
      (hashes.hashtext input.slot.tenantId) _)]
    rfl

private theorem upserted_of_free (hfree : input.Free s)
    (response : IdempotentResponse) :
    IdempotencyOp.upserted ((keyRows s).slot input.slot) (input.row response) =
      some (input.row response) := by
  cases hrow : (keyRows s).slot input.slot with
  | none => rfl
  | some row => exact if_pos (hfree row hrow)

/-- The program is one transaction, with no part of it to roll back to. -/
theorem plain (h : Stage hashes call p w s) :
    (∀ next, p ≠ .commit next) ∧ (∀ next, p ≠ .savepoint next) ∧
      ∀ saved next, p ≠ .rollbackTo saved next := by
  cases h with
  | begun hp _ | got hp _ | locked hp _ _ | admitted hp _ _ _ | settling _ _ hp _ _ _
  | counted _ _ hp _ _ _ _ | recorded _ _ hp _ _ _ _ _ _ | failing _ hp _ _ | full hp _ _ _
  | found _ hp _ _ _ _ | missed hp _ =>
    subst hp
    exact ⟨nofun, nofun, nofun⟩
  | running run hp =>
    subst hp
    cases run with
    | done response withinTransaction =>
      change (∀ next, settle hashes call.input response withinTransaction ≠ _) ∧
        (∀ next, settle hashes call.input response withinTransaction ≠ _) ∧
          ∀ saved next, settle hashes call.input response withinTransaction ≠ _
      rw [settle]
      cases responseVerdict response.status response.body withinTransaction <;>
        exact ⟨nofun, nofun, nofun⟩
    | throw | stmt => exact ⟨nofun, nofun, nofun⟩

private theorem store_of_verdict {status : ℕ} {body : String} {withinTransaction : Bool}
    (h : responseVerdict status body withinTransaction = .store) :
    responseVerdict status body true = .store := by
  cases withinTransaction with
  | true => exact h
  | false => simp [responseVerdict] at h

/-- What a call's own statement comes to. -/
theorem run {op : (keyedDatabase work).Op}
    {next : (keyedDatabase work).Answer op → KeyedTx work IdempotencyResult}
    {a : (keyedDatabase work).Answer op} (h : Stage hashes call (.stmt op next) w s)
    (ha : (keyedDatabase work).Answers op (w.laidOver s) a) :
    Stage hashes call (next a) (w.andThen ((keyedDatabase work).effect op (w.laidOver s))) s := by
  cases h with
  | begun hp hw =>
    subst hw
    cases hp
    rw [andThen_read (fun _ ↦ rfl)]
    cases a with
    | false => exact .missed rfl rfl
    | true => exact .got rfl rfl
  | got hp hw =>
    subst hw
    cases hp
    obtain ⟨hexclusive, honly⟩ := @exclusive_of_lockKey work hashes call.input s
    exact .locked rfl hexclusive honly
  | locked hp hw honly =>
    cases hp
    rw [andThen_read (fun _ ↦ rfl)]
    have hfound : a = ((keyRows s).slot call.input.slot).filter
        fun row ↦ decide (call.input.now < row.expiresAt) := by
      rw [← slot_laidOver hw call.input.slot]
      exact ha
    clear ha
    cases a with
    | none =>
      refine .admitted rfl hw honly fun row hrow ↦ ?_
      rw [hrow] at hfound
      by_contra hlive
      rw [Option.filter_some_pos (by simpa using hlive)] at hfound
      exact nomatch hfound
    | some row =>
      obtain ⟨hrow, hlive⟩ := Option.filter_eq_some_iff.mp hfound.symm
      exact .found row rfl hw honly hrow (by simpa using hlive)
  | admitted hp hw honly hfree =>
    cases hp
    rw [andThen_read (fun _ ↦ rfl)]
    change Stage hashes call (if atCapacity a then _ else _) w s
    cases atCapacity a with
    | true => exact .full rfl hw honly hfree
    | false => exact .running call.run rfl id hw hfree
  | running run hp hwithin hw hfree =>
    cases run with
    | done response withinTransaction =>
      change _ = settle hashes call.input response withinTransaction at hp
      rw [settle] at hp
      cases hverdict : responseVerdict response.status response.body withinTransaction with
      | skip | tooLarge =>
        rw [hverdict] at hp
        cases hp
      | store =>
        rw [hverdict] at hp
        cases hp
        obtain ⟨hexclusive, hcapacity⟩ := exclusive_andThen_lockCapacity hw
        exact .settling response (store_of_verdict hverdict) rfl hexclusive hcapacity hfree
    | throw => cases hp
    | stmt _ run =>
      cases hp
      exact .running (run a) rfl (fun h ↦ hwithin h a) (exclusive_andThen hw fun _ ↦ rfl) hfree
  | settling response hstore hp hw hcapacity hfree =>
    cases hp
    rw [andThen_read (fun _ ↦ rfl)]
    change Stage hashes call (if atCapacity a then _ else _) w s
    cases hfull : atCapacity a with
    | true => exact .failing .capacity rfl hw hfree
    | false =>
      refine .counted response hstore rfl hw hcapacity hfree (roomy_of_count ?_ hfull)
      rw [← live_laidOver hw]
      exact ha
  | counted response hstore hp hw hcapacity hfree hroom =>
    cases hp
    have hslot : w.andThen ((keyedDatabase work).effect
        (.inl (.insert call.input.slot (call.input.row response))) (w.laidOver s))
          (slotKey call.input.slot) = some (some (call.input.row response)) := by
      refine Writes.andThen_of_some ?_
      rw [← upserted_of_free hfree response, ← slot_laidOver hw call.input.slot]
      exact @Layout.put_self idempotencyLayout _ .idempotencyKeys _ call.input.slot _
    have hother : ∀ k : idempotencyLayout.Key, k ≠ ⟨.idempotencyKeys, call.input.slot⟩ →
        w.andThen ((keyedDatabase work).effect
          (.inl (.insert call.input.slot (call.input.row response))) (w.laidOver s)) (.inl k) =
        w (.inl k) := fun k hk ↦
      Writes.andThen_of_none (Layout.put_of_key_ne (L := idempotencyLayout) hk)
    refine .recorded response hstore rfl ?_ ?_ hslot (fun slot hne ↦ ?_) hfree hroom
    · rw [hother _ (by simp)]
      exact hw.isSome
    · rw [hother _ (by simp)]
      exact hcapacity
    · rw [hother _ fun heq ↦ hne (by simpa using heq)]
      exact hw.unwritten slot
  | failing _ hp _ _ | recorded _ _ hp _ _ _ _ _ _ | full hp _ _ _ | found _ hp _ _ _ _
  | missed hp => cases hp

end Stage

/-- What a call that is over has written and found, by its answer. -/
inductive Ending (call : KeyedCall work) :
    IdempotencyResult → Writes (keyedDatabase work) → Store (keyedDatabase work) → Prop where
  | recorded {w s} (response : IdempotentResponse)
      (hstore : responseVerdict response.status response.body true = .store)
      (hwrote : w (slotKey call.input.slot) = some (some (call.input.row response)))
      (hrest : ∀ slot, slot ≠ call.input.slot → w (slotKey slot) = none)
      (hfree : call.input.Free s) (hroom : call.input.Roomy s) :
      Ending call (.fresh response true) w s
  | skipped {w s} (response : IdempotentResponse)
      (hskip : call.run.WithinTransaction →
        responseVerdict response.status response.body true = .skip)
      (hnone : ∀ slot, w (slotKey slot) = none) (hfree : call.input.Free s) :
      Ending call (.fresh response false) w s
  | full {w s} (hsame : w.laidOver s = s) (hfree : call.input.Free s) : Ending call .capacity w s
  | found {w s} (row : IdempotencyRow) (hsame : w.laidOver s = s)
      (hrow : (keyRows s).slot call.input.slot = some row)
      (hlive : call.input.now < row.expiresAt) : Ending call (replay row call.input) w s
  | missed {w s} (hsame : w.laidOver s = s) : Ending call .inFlight w s

/-- A call that has only taken the key's lock leaves the rows as they are. -/
private theorem laidOver_of_lock {input : IdempotencyInput} {w : Writes (keyedDatabase work)}
    {s : Store (keyedDatabase work)} (hw : input.Exclusive hashes w s)
    (honly : ∀ k, k ≠ input.keyLock hashes → w k = none) : w.laidOver s = s := by
  funext k
  by_cases hk : k = input.keyLock hashes
  · subst hk
    exact Writes.laidOver_of_some hw.locked s
  · exact Writes.laidOver_of_none (honly k hk) s

/-- A call that is over has written and found what it answers. -/
theorem Stage.ending {call : KeyedCall work} {outcome : IdempotencyResult}
    {w : Writes (keyedDatabase work)} {s : Store (keyedDatabase work)}
    (h : Stage hashes call (.done outcome) w s) : Ending call outcome w s := by
  cases h with
  | begun hp _ | got hp _ | locked hp _ _ | admitted hp _ _ _ | settling _ _ hp _ _ _
  | counted _ _ hp _ _ _ _ | failing _ hp _ _ => cases hp
  | running run hp hwithin hw hfree =>
    cases run with
    | done response withinTransaction =>
      change _ = settle hashes call.input response withinTransaction at hp
      rw [settle] at hp
      cases hverdict : responseVerdict response.status response.body withinTransaction with
      | skip =>
        rw [hverdict] at hp
        cases hp
        refine .skipped response (fun h ↦ ?_) hw.unwritten hfree
        obtain rfl : withinTransaction = true := hwithin h
        exact hverdict
      | tooLarge | store =>
        rw [hverdict] at hp
        cases hp
    | throw | stmt => cases hp
  | recorded response hstore hp _ _ hwrote hrest hfree hroom =>
    cases hp
    exact .recorded response hstore hwrote hrest hfree hroom
  | full hp hw honly hfree =>
    cases hp
    exact .full (laidOver_of_lock hw honly) hfree
  | found row hp hw honly hrow hlive =>
    cases hp
    exact .found row (laidOver_of_lock hw honly) hrow hlive
  | missed hp hw =>
    cases hp
    subst hw
    exact .missed rfl

/-- A call that is neither over nor at a statement on the keys had found nothing live in its
slot. -/
theorem Stage.free {call : KeyedCall work} {p : KeyedTx work IdempotencyResult}
    {w : Writes (keyedDatabase work)} {s : Store (keyedDatabase work)}
    (h : Stage hashes call p w s) (hdone : ∀ outcome, p ≠ .done outcome)
    (hkeys : ∀ op next, p ≠ .stmt (.inl op) next) : call.input.Free s := by
  cases h with
  | begun hp _ | got hp _ | locked hp _ _ => exact absurd hp (hkeys _ _)
  | missed hp _ | found _ hp _ _ _ _ => exact absurd hp (hdone _)
  | admitted _ _ _ hfree | settling _ _ _ _ _ hfree | counted _ _ _ _ _ hfree _
  | recorded _ _ _ _ _ _ _ hfree _ | full _ _ _ hfree | running _ _ _ _ hfree
  | failing _ _ _ hfree => exact hfree

/-- Keyed calls within their stages. -/
def keyedOutline (work : Database) (hashes : TextHashes) :
    Outline (keyedCalls work hashes) .free where
  Inv := fun _ ↦ True
  Fits := fun call p w s ↦ Stage hashes call p w s
  begins := fun _ _ _ ↦ .begun rfl rfl
  runs := fun _ h _ ha ↦ h.run ha
  parts := fun _ h _ ↦ absurd rfl (h.plain.1 _)
  saves := fun h ↦ absurd rfl (h.plain.2.1 _)
  restores := fun h ↦ absurd rfl (h.plain.2.2 _ _)
  commits := fun _ _ _ ↦ trivial
  partsApart := fun _ h _ _ _ ↦ absurd rfl (h.plain.1 _)
  commitsApart := fun _ h _ h' hapart ↦ h'.still (h.still_of_apart hapart)

end Odudu.ProtocolAdmin
