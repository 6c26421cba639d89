import Mathlib.Order.Interval.Finset.Nat

/-!
# Queued rows

The rows of the two queues, mail to be sent (`email_outbox`) and logouts to be delivered
(`backchannel_logout_deliveries`), and what the statements of their repositories do to one
(`repository/outbox.ts`, `repository/logout-deliveries.ts`).  A row is claimed for one
attempt at a time, which moves out the instant at which it may be claimed again.

What a message says is left out, and so are the rows that retention deletes.  A claim takes
any of the rows that are due, up to its limit: which of them it passes over is up to the
others that claim.
-/

set_option autoImplicit false

namespace Odudu.Outbox

/-- A row of a queue.  Instants are in milliseconds. -/
structure QueueRow where
  tenantId : String
  nextAttemptAt : ℕ
  /-- `sent_at`, or `delivered_at`. -/
  sentAt : Option ℕ
  attempts : ℕ
  lastError : Option String

/-- The rows, by their ids. -/
abbrev Rows := String → Option QueueRow

/-- A row as it was claimed. -/
structure Claimed where
  id : String
  /-- Its attempts, this one included. -/
  attempts : ℕ
  deriving DecidableEq

namespace QueueRow

/-- The row may be claimed. -/
def due (maxAttempts now : ℕ) (row : QueueRow) : Bool :=
  row.sentAt.isNone && decide (row.attempts < maxAttempts) && decide (row.nextAttemptAt ≤ now)

def claim (now leaseSeconds : ℕ) (row : QueueRow) : QueueRow :=
  { row with attempts := row.attempts + 1, nextAttemptAt := now + leaseSeconds * 1000 }

/-- `markSent`, or `markDelivered`. -/
def markSent (now : ℕ) (row : QueueRow) : QueueRow :=
  { row with sentAt := some now, lastError := none }

def markFailed (error : String) (nextAttemptAt : ℕ) (row : QueueRow) : QueueRow :=
  { row with lastError := some error, nextAttemptAt }

def markAbandoned (maxAttempts : ℕ) (error : String) (now : ℕ) (row : QueueRow) : QueueRow :=
  { row with attempts := maxAttempts, lastError := some error, nextAttemptAt := now }

theorem due_iff {maxAttempts now : ℕ} {row : QueueRow} :
    row.due maxAttempts now = true ↔
      row.sentAt = none ∧ row.attempts < maxAttempts ∧ row.nextAttemptAt ≤ now := by
  simp [due, and_assoc]

end QueueRow

namespace Rows

/-- A message that is queued. -/
def enqueue (id tenantId : String) (nextAttemptAt : ℕ) (rows : Rows) : Rows :=
  Function.update rows id (some ⟨tenantId, nextAttemptAt, none, 0, none⟩)

/-- Whether a claim may take these rows, which are the tenant's and due. -/
def offers (rows : Rows) (tenantId : String) (maxAttempts limit now : ℕ) (ids : List String) :
    Bool :=
  decide ids.Nodup && decide (ids.length ≤ limit) && ids.all fun id ↦
    (rows id).any fun row ↦ row.tenantId == tenantId && row.due maxAttempts now

/-- The rows after a claim. -/
def claim (now leaseSeconds : ℕ) (ids : List String) (rows : Rows) : Rows :=
  fun id ↦ if id ∈ ids then (rows id).map (QueueRow.claim now leaseSeconds) else rows id

/-- What a claim returns. -/
def claimed (rows : Rows) (ids : List String) : List Claimed :=
  ids.map fun id ↦ ⟨id, ((rows id).map QueueRow.attempts).getD 0 + 1⟩

/-- `UPDATE ... WHERE id = ... AND sent_at IS NULL`. -/
def updateUnsent (id : String) (change : QueueRow → QueueRow) (rows : Rows) : Rows :=
  Function.update rows id
    ((rows id).map fun row ↦ if row.sentAt.isNone then change row else row)

variable {rows : Rows} {id id' tenantId : String} {row : QueueRow}

theorem enqueue_of_some (hfree : rows id = none) (now : ℕ) (hrow : rows id' = some row) :
    rows.enqueue id tenantId now id' = some row := by
  have hne : id' ≠ id := by
    rintro rfl
    exact nomatch hfree.symm.trans hrow
  rw [enqueue, Function.update_of_ne hne, hrow]

theorem of_enqueue {nextAttemptAt : ℕ}
    (hrow : rows.enqueue id tenantId nextAttemptAt id' = some row) :
    rows id' = some row ∨ row.attempts = 0 := by
  by_cases hid : id' = id
  · subst hid
    obtain rfl : _ = row := by simpa [Rows.enqueue] using hrow
    exact .inr rfl
  · exact .inl (by simpa [Rows.enqueue, hid] using hrow)

variable {ids : List String}

theorem offers_iff {maxAttempts limit now : ℕ} :
    rows.offers tenantId maxAttempts limit now ids = true ↔
      ids.Nodup ∧ ids.length ≤ limit ∧ ∀ id ∈ ids, ∃ row, rows id = some row ∧
        row.tenantId = tenantId ∧ row.due maxAttempts now = true := by
  simp [offers, Option.any_eq_true, and_assoc]

theorem claim_of_notMem {now leaseSeconds : ℕ} (h : id ∉ ids) :
    rows.claim now leaseSeconds ids id = rows id :=
  if_neg h

theorem claim_of_mem {now leaseSeconds : ℕ} (h : id ∈ ids)
    (hrow : rows id = some row) :
    rows.claim now leaseSeconds ids id = some (row.claim now leaseSeconds) := by
  simp [claim, h, hrow]

variable {m : Claimed}

theorem mem_claimed (h : m ∈ rows.claimed ids)
    (hrow : rows m.id = some row) : m.id ∈ ids ∧ m.attempts = row.attempts + 1 := by
  obtain ⟨id, hid, rfl⟩ := List.mem_map.mp h
  exact ⟨hid, by simp [hrow]⟩

theorem id_mem_of_mem_claimed (h : m ∈ rows.claimed ids) :
    m.id ∈ ids := by
  obtain ⟨id, hid, rfl⟩ := List.mem_map.mp h
  exact hid

theorem map_id_claimed (ids : List String) : (rows.claimed ids).map Claimed.id = ids := by
  simp [claimed, Function.comp_def]

variable {change : QueueRow → QueueRow}

theorem updateUnsent_of_ne (h : id' ≠ id) :
    rows.updateUnsent id change id' = rows id' :=
  Function.update_of_ne h ..

theorem updateUnsent_self (hrow : rows id = some row)
    (hunsent : row.sentAt = none) : rows.updateUnsent id change id = some (change row) := by
  simp [updateUnsent, hrow, hunsent]

variable {maxAttempts limit now leaseSeconds : ℕ}

theorem claim_of_sent
    (hoffers : rows.offers tenantId maxAttempts limit now ids = true) (hrow : rows id = some row)
    (hsent : row.sentAt ≠ none) : rows.claim now leaseSeconds ids id = some row := by
  have hid : id ∉ ids := by
    intro hmem
    obtain ⟨-, -, hdue⟩ := offers_iff.mp hoffers
    obtain ⟨row', hrow', -, hdue'⟩ := hdue id hmem
    obtain rfl := Option.some.inj (hrow.symm.trans hrow')
    exact hsent (QueueRow.due_iff.mp hdue').1
  rw [claim_of_notMem hid, hrow]

theorem updateUnsent_of_sent (hrow : rows id' = some row)
    (hsent : row.sentAt ≠ none) : rows.updateUnsent id change id' = some row := by
  by_cases hid : id' = id
  · subst hid
    simp [updateUnsent, hrow, hsent]
  · rw [updateUnsent_of_ne hid, hrow]

/-- The attempt is counted on its row. -/
def Counts (rows : Rows) (m : Claimed) : Prop :=
  ∃ row, rows m.id = some row ∧ 1 ≤ m.attempts ∧ m.attempts ≤ row.attempts

/-- No row is taken away, or has fewer attempts than before. -/
def Grows (rows rows' : Rows) : Prop :=
  ∀ id row, rows id = some row → ∃ row', rows' id = some row' ∧ row.attempts ≤ row'.attempts

/-- A row that was sent stays as it is. -/
def Settled (rows rows' : Rows) : Prop :=
  ∀ id row, rows id = some row → row.sentAt ≠ none → rows' id = some row

theorem Counts.grows {rows' : Rows} (h : rows.Counts m) (hgrows : rows.Grows rows') :
    rows'.Counts m := by
  obtain ⟨row, hrow, hone, hle⟩ := h
  obtain ⟨row', hrow', hmore⟩ := hgrows m.id row hrow
  exact ⟨row', hrow', hone, hle.trans hmore⟩

theorem grows_of_kept {rows' : Rows} (h : ∀ id row, rows id = some row → rows' id = some row) :
    rows.Grows rows' :=
  fun id row hrow ↦ ⟨row, h id row hrow, le_rfl⟩

theorem claim_grows (now leaseSeconds : ℕ) (ids : List String) :
    rows.Grows (rows.claim now leaseSeconds ids) := by
  intro id row hrow
  by_cases hid : id ∈ ids
  · exact ⟨_, claim_of_mem hid hrow, Nat.le_succ _⟩
  · exact ⟨row, (claim_of_notMem hid).trans hrow, le_rfl⟩

theorem updateUnsent_grows
    (hchange : ∀ row, rows id = some row → row.attempts ≤ (change row).attempts) :
    rows.Grows (rows.updateUnsent id change) := by
  intro id' row hrow
  by_cases hid : id' = id
  · subst hid
    by_cases hunsent : row.sentAt = none
    · exact ⟨_, updateUnsent_self hrow hunsent, hchange row hrow⟩
    · exact ⟨row, updateUnsent_of_sent hrow hunsent, le_rfl⟩
  · exact ⟨row, (updateUnsent_of_ne hid).trans hrow, le_rfl⟩

theorem updateUnsent_bounded {maxAttempts : ℕ}
    (hbounded : ∀ id row, rows id = some row → row.attempts ≤ maxAttempts)
    (hchange : ∀ row, (change row).attempts ≤ max row.attempts maxAttempts) (id' : String)
    (row : QueueRow) (hrow : rows.updateUnsent id change id' = some row) :
    row.attempts ≤ maxAttempts := by
  by_cases hid : id' = id
  · subst hid
    obtain ⟨row', hrow', rfl⟩ : ∃ row', rows id' = some row' ∧
        (if row'.sentAt.isNone then change row' else row') = row := by
      simpa [updateUnsent] using hrow
    have hle := hbounded id' row' hrow'
    have hle' := hchange row'
    split
    · omega
    · exact hle
  · exact hbounded id' row (by rwa [updateUnsent_of_ne hid] at hrow)

/-- A claim is an attempt that was not counted before. -/
theorem claimed_counts
    (hoffers : rows.offers tenantId maxAttempts limit now ids = true)
    (hm : m ∈ rows.claimed ids) :
    ¬rows.Counts m ∧ (rows.claim now leaseSeconds ids).Counts m := by
  obtain ⟨-, -, hdue⟩ := offers_iff.mp hoffers
  obtain ⟨row, hrow, -⟩ := hdue m.id (id_mem_of_mem_claimed hm)
  obtain ⟨hid, hattempts⟩ := mem_claimed hm hrow
  constructor
  · rintro ⟨row', hrow', -, hle⟩
    obtain rfl := Option.some.inj (hrow.symm.trans hrow')
    omega
  · refine ⟨_, claim_of_mem hid hrow, by omega, ?_⟩
    rw [hattempts]
    exact le_rfl

theorem nodup_claimed (h : ids.Nodup) : (rows.claimed ids).Nodup :=
  List.Nodup.of_map Claimed.id (by rwa [map_id_claimed])

end Rows

/-- One sender at a time: a row is handed over as often as it may be attempted at most, and a
sender that holds a row, and has yet to hand it over or to record what became of it, holds it
alone, unsent, and as the sender claimed it.  `rows` is what a sender finds. -/
structure OneSender {Sender : Type} (maxAttempts : ℕ) (rows : Sender → Rows)
    (handed : List Claimed) (Holds : Sender → Claimed → Prop) : Prop where
  attempts : ∀ id, (handed.filter fun m ↦ m.id = id).length ≤ maxAttempts
  held : ∀ {sender m}, Holds sender m → ∃ row, rows sender m.id = some row ∧
    row.sentAt = none ∧ row.attempts = m.attempts
  alone : ∀ {sender sender' m m'}, Holds sender m → Holds sender' m' → m.id = m'.id →
    sender = sender'

/-- Attempts that are not repeated, and are numbered from one up, are as many as the highest
number at most. -/
theorem length_attempts_le {handed : List Claimed} {maxAttempts : ℕ} (hnodup : handed.Nodup)
    (hbound : ∀ m ∈ handed, 1 ≤ m.attempts ∧ m.attempts ≤ maxAttempts) (id : String) :
    (handed.filter fun m ↦ m.id = id).length ≤ maxAttempts := by
  have hattempts : ((handed.filter fun m ↦ m.id = id).map Claimed.attempts).Nodup := by
    refine List.Nodup.map_on ?_ (hnodup.filter _)
    intro m hm m' hm' hsame
    have hid : m.id = id := by simpa using (List.mem_filter.mp hm).2
    have hid' : m'.id = id := by simpa using (List.mem_filter.mp hm').2
    cases m
    cases m'
    simp_all
  have hsubset : ((handed.filter fun m ↦ m.id = id).map Claimed.attempts).toFinset ⊆
      Finset.Icc 1 maxAttempts := by
    intro n hn
    obtain ⟨m, hm, rfl⟩ := List.mem_map.mp (List.mem_toFinset.mp hn)
    exact Finset.mem_Icc.mpr (hbound m (List.mem_filter.mp hm).1)
  have hcard := Finset.card_le_card hsubset
  rw [List.toFinset_card_of_nodup hattempts, List.length_map, Nat.card_Icc] at hcard
  exact hcard

end Odudu.Outbox
