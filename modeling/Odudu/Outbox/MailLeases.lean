import Odudu.Outbox.MailPasses

/-!
# Leases on the mail queue

A claim takes a row out of the queue for a lease, counted from the `now` of the pass that
claims.  As long as no other claim takes the row from a pass that has had it for a lease and
is still going, the pass finds the row as it claimed it.
-/

set_option autoImplicit false

namespace Odudu.Outbox.SendPending

variable {options : SendPendingOptions} {s s' s₀ : State} {l : Label}

/-- No pass still holds, a lease or more after its `now`, a row that is being claimed. -/
def InLease (s : State) : Label → Prop
  | .claimBatch _ _ ids => ∀ n p, s.passes n = some p → ∀ m ∈ p.claimed, m.id ∈ ids →
      s.clock < p.now + outboxClaimLeaseSeconds * 1000
  | _ => True

/-- Any passes, in any order, each step taken under `P`. -/
def Reaches (options : SendPendingOptions) (P : State → Label → Prop) : State → State → Prop :=
  Relation.ReflTransGen fun s s' ↦ ∃ l, P s l ∧ step options s l = some s'

variable {P : State → Label → Prop}

theorem reaches_of_run {labels : List Label}
    (hP : ∀ l ∈ labels, ∀ s, P s l) (h : run options s labels = some s') :
    Reaches options P s s' := by
  induction labels generalizing s with
  | nil =>
    obtain rfl := Option.some.inj h
    exact .refl
  | cons l _ ih =>
    obtain ⟨s₁, hstep, hrest⟩ := Option.bind_eq_some_iff.mp h
    have hl : P s l := hP l List.mem_cons_self s
    exact .head ⟨l, hl, hstep⟩ (ih (fun l' hl' ↦ hP l' (List.mem_cons_of_mem _ hl')) hrest)

/-- A sent row stays as it is, whatever the passes do. -/
theorem settled_of_step (hs : InPlace s) (h : step options s l = some s') :
    s.rows.Settled s'.rows := by
  intro id row hrow hsent
  cases (act_of_step hs h).1 with
  | pause hrows => exact hrows id row hrow
  | claim _ _ hoffers hs' =>
    subst hs'
    exact Rows.claim_of_sent hoffers hrow hsent
  | handOver _ _ _ hs' =>
    subst hs'
    exact hrow
  | record _ _ _ hs' =>
    subst hs'
    exact Rows.updateUnsent_of_sent hrow hsent

/-- A pass finds the rows it holds as it claimed them, and no other pass holds one. -/
structure Leased (s : State) : Prop where
  row : ∀ n p, s.passes n = some p → ∀ m ∈ p.claimed, ∃ row, s.rows m.id = some row ∧
    row.sentAt = none ∧ row.attempts = m.attempts ∧
    row.nextAttemptAt = p.now + outboxClaimLeaseSeconds * 1000
  ids : ∀ n p, s.passes n = some p → (p.claimed.map Claimed.id).Nodup
  apart : ∀ n p n' p', s.passes n = some p → s.passes n' = some p' → ∀ m ∈ p.claimed,
    ∀ m' ∈ p'.claimed, m.id = m'.id → n = n'

namespace Leased

variable (hs : Leased s)

include hs

/-- Passes that hold no more than before, where what they still hold is as it was. -/
theorem drops (hdrops : Drops s s')
    (hrows : ∀ n p', s'.passes n = some p' → ∀ m ∈ p'.claimed, ∀ row, s.rows m.id = some row →
      s'.rows m.id = some row) : Leased s' where
  row := by
    intro n p' hp' m hm
    rcases hdrops n p' hp' with hempty | ⟨p, hp, hnow, hclaimed, -⟩
    · simp [hempty] at hm
    · obtain ⟨row, hrow, hkept⟩ := hs.row n p hp m (hclaimed.subset hm)
      exact ⟨row, hrows n p' hp' m hm row hrow, hnow ▸ hkept⟩
  ids := by
    intro n p' hp'
    rcases hdrops n p' hp' with hempty | ⟨p, hp, -, hclaimed, -⟩
    · simp [hempty]
    · exact (hs.ids n p hp).sublist (hclaimed.sublist.map _)
  apart := by
    intro n p₁ n' p₂ hp₁ hp₂ m hm m' hm' hid
    rcases hdrops n p₁ hp₁ with hempty | ⟨p, hp, -, hclaimed, -⟩
    · simp [hempty] at hm
    rcases hdrops n' p₂ hp₂ with hempty' | ⟨p', hp', -, hclaimed', -⟩
    · simp [hempty'] at hm'
    exact hs.apart n p n' p' hp hp' m (hclaimed.subset hm) m' (hclaimed'.subset hm') hid

variable {tenantId : String} {ids : List String} {p : Pass} {n : ℕ}

/-- A row that is due is nobody's, if the claim comes within the leases. -/
theorem notMem_of_offers (hplace : InPlace s)
    (hp : s.passes n = some p)
    (hoffers : s.rows.offers tenantId options.maxAttempts options.batchSize p.now ids = true)
    (hlease : InLease s (.claimBatch n tenantId ids)) {n' : ℕ} {p' : Pass} {m : Claimed}
    (hp' : s.passes n' = some p') (hm : m ∈ p'.claimed) : m.id ∉ ids := by
  intro hid
  obtain ⟨row, hrow, -, -, hnext⟩ := hs.row n' p' hp' m hm
  obtain ⟨-, -, hdue⟩ := Rows.offers_iff.mp hoffers
  obtain ⟨row', hrow', -, hdue'⟩ := hdue m.id hid
  obtain rfl := Option.some.inj (hrow.symm.trans hrow')
  have hearly : row.nextAttemptAt ≤ p.now := (QueueRow.due_iff.mp hdue').2.2
  have hpast : p.now ≤ s.clock := (hplace n p hp).1
  have hlate : s.clock < p'.now + outboxClaimLeaseSeconds * 1000 := hlease n' p' hp' m hm hid
  omega

/-- In its lease a claim takes no row that another pass holds. -/
theorem claim (hplace : InPlace s)
    (hp : s.passes n = some p)
    (hoffers : s.rows.offers tenantId options.maxAttempts options.batchSize p.now ids = true)
    (hlease : InLease s (.claimBatch n tenantId ids)) : Leased (s.claimBatch n p ids) := by
  have hpass : ∀ n' p', (s.claimBatch n p ids).passes n' = some p' →
      (n' = n ∧ p'.now = p.now ∧ p'.claimed = s.rows.claimed ids) ∨
      (n' ≠ n ∧ s.passes n' = some p') := by
    intro n' p' hp'
    rcases passes_setPass hp' with ⟨hn, hset⟩ | hold
    · obtain rfl := Option.some.inj hset
      exact .inl ⟨hn, rfl, rfl⟩
    · exact .inr hold
  have hfree : ∀ n' p', s.passes n' = some p' → ∀ m ∈ p'.claimed, m.id ∉ ids :=
    fun _ _ hp' _ hm ↦ hs.notMem_of_offers hplace hp hoffers hlease hp' hm
  obtain ⟨hids, -, hdue⟩ := Rows.offers_iff.mp hoffers
  constructor
  · intro n' p' hp' m hm
    rcases hpass n' p' hp' with ⟨-, hnow, hclaimed⟩ | ⟨-, hold⟩
    · rw [hclaimed] at hm
      obtain ⟨row, hrow, -, hdue'⟩ := hdue m.id (Rows.id_mem_of_mem_claimed hm)
      obtain ⟨hid, hattempts⟩ := Rows.mem_claimed hm hrow
      refine ⟨_, Rows.claim_of_mem hid hrow, (QueueRow.due_iff.mp hdue').1, hattempts.symm, ?_⟩
      rw [hnow]
      rfl
    · obtain ⟨row, hrow, hkept⟩ := hs.row n' p' hold m hm
      refine ⟨row, ?_, hkept⟩
      exact (Rows.claim_of_notMem (hfree n' p' hold m hm)).trans hrow
  · intro n' p' hp'
    rcases hpass n' p' hp' with ⟨-, -, hclaimed⟩ | ⟨-, hold⟩
    · rw [hclaimed, Rows.map_id_claimed]
      exact hids
    · exact hs.ids n' p' hold
  · intro n₁ p₁ n₂ p₂ hp₁ hp₂ m hm m' hm' hid
    rcases hpass n₁ p₁ hp₁ with ⟨h₁, -, hclaimed₁⟩ | ⟨h₁, hold₁⟩ <;>
      rcases hpass n₂ p₂ hp₂ with ⟨h₂, -, hclaimed₂⟩ | ⟨h₂, hold₂⟩
    · exact h₁.trans h₂.symm
    · have hmem : m.id ∈ ids := Rows.id_mem_of_mem_claimed (hclaimed₁ ▸ hm)
      exact absurd (hid ▸ hmem) (hfree n₂ p₂ hold₂ m' hm')
    · have hmem : m'.id ∈ ids := Rows.id_mem_of_mem_claimed (hclaimed₂ ▸ hm')
      exact absurd (hid ▸ hmem) (hfree n₁ p₁ hold₁ m hm)
    · exact hs.apart n₁ p₁ n₂ p₂ hold₁ hold₂ m hm m' hm' hid

/-- What is recorded of a message is recorded on its row alone, which no pass holds after. -/
theorem record {refused : Option String} {message : Claimed}
    {rest : List Claimed} (hp : s.passes n = some p) (hclaimed : p.claimed = message :: rest)
    (hunsent : p.unsent = rest) :
    Leased { s.setPass n (some p.next) with
      rows := s.rows.updateUnsent message.id (p.mark options message refused) } := by
  refine hs.drops (.of_setPass rfl ?_) ?_
  · rintro p' ⟨⟩
    exact .inr ⟨p, hp, rfl, List.tail_suffix _, by simp [hclaimed, hunsent]⟩
  intro n' p' hp' m hm row hrow
  have hne : m.id ≠ message.id := by
    intro hid
    have hmessage : message ∈ p.claimed := by simp [hclaimed]
    rcases passes_setPass hp' with ⟨rfl, hset⟩ | ⟨hn, hold⟩
    · obtain rfl := Option.some.inj hset
      have hrest : m ∈ rest := by simpa [Pass.next, hclaimed] using hm
      have hnodup := hs.ids n' p hp
      rw [hclaimed, List.map_cons, List.nodup_cons] at hnodup
      exact hnodup.1 (hid ▸ List.mem_map_of_mem hrest)
    · exact hn (hs.apart n' p' n p hold hp m hm message hmessage hid)
  exact (Rows.updateUnsent_of_ne hne).trans hrow

theorem act (hplace : InPlace s) (hlease : InLease s l) (h : Act options s s' l) :
    Leased s' := by
  cases h with
  | pause hrows _ hdrops =>
    exact hs.drops hdrops fun _ _ _ m _ row hrow ↦ hrows m.id row hrow
  | claim hp _ hoffers hs' => exact hs' ▸ hs.claim hplace hp hoffers hlease
  | @handOver n refused p message rest hp hclaimed hunsent hs' =>
    subst hs'
    refine hs.drops (.of_setPass rfl ?_) fun _ _ _ _ _ _ hrow ↦ hrow
    rintro p' ⟨⟩
    refine .inr ⟨p, hp, rfl, List.suffix_rfl, ?_⟩
    rw [hunsent]
    simp [Pass.unsent, hclaimed]
  | record hp hclaimed hunsent hs' => exact hs' ▸ hs.record hp hclaimed hunsent

end Leased

theorem Reaches.inPlace (hstart : Start s₀)
    (h : Reaches options P s₀ s) : InPlace s := by
  induction h with
  | refl =>
    obtain ⟨-, hpasses, -⟩ := hstart
    intro n p hp
    simp [hpasses] at hp
  | tail _ hstep ih =>
    obtain ⟨l, -, hl⟩ := hstep
    exact (act_of_step ih hl).2

theorem Reaches.counted (hstart : Start s₀)
    (h : Reaches options P s₀ s) : Counted options s := by
  induction h with
  | refl => exact counted_of_start hstart
  | tail hrun hstep ih =>
    obtain ⟨l, -, hl⟩ := hstep
    exact ih.act (act_of_step (Reaches.inPlace hstart hrun) hl).1

theorem Reaches.leased (hstart : Start s₀) (h : Reaches options InLease s₀ s) : Leased s := by
  induction h with
  | refl =>
    have hnone : ∀ n p, s₀.passes n ≠ some p := by simp [hstart.2.1]
    exact ⟨fun n p hp ↦ absurd hp (hnone n p), fun n p hp ↦ absurd hp (hnone n p),
      fun n p _ _ hp ↦ absurd hp (hnone n p)⟩
  | tail hrun hstep ih =>
    obtain ⟨l, hlease, hl⟩ := hstep
    have hplace : InPlace _ := Reaches.inPlace hstart hrun
    exact ih.act hplace hlease (act_of_step hplace hl).1

/-- A pass that holds a message. -/
def Holds (s : State) (n : ℕ) (m : Claimed) : Prop :=
  ∃ p, s.passes n = some p ∧ m ∈ p.claimed

/-- No row is handed over more often than it may be attempted, whatever the passes do. -/
theorem Reaches.attempts_le (hstart : Start s₀)
    (h : Reaches options P s₀ s) (id : String) :
    (s.handed.filter fun m ↦ m.id = id).length ≤ options.maxAttempts := by
  have hs : Counted options s := h.counted hstart
  refine length_attempts_le hs.nodup (fun m hm ↦ ?_) id
  obtain ⟨row, hrow, hone, hle⟩ := hs.handed m hm
  exact ⟨hone, hle.trans (hs.bounded m.id row hrow)⟩

theorem Reaches.oneSender (hstart : Start s₀) (h : Reaches options InLease s₀ s) :
    OneSender options.maxAttempts (fun _ ↦ s.rows) s.handed (Holds s) where
  attempts := h.attempts_le hstart
  held := by
    rintro n m ⟨p, hp, hm⟩
    obtain ⟨row, hrow, hsent, hattempts, -⟩ := (h.leased hstart).row n p hp m hm
    exact ⟨row, hrow, hsent, hattempts⟩
  alone := by
    rintro n n' m m' ⟨p, hp, hm⟩ ⟨p', hp', hm'⟩ hid
    exact (h.leased hstart).apart n p n' p' hp hp' m hm m' hm' hid

end Odudu.Outbox.SendPending
