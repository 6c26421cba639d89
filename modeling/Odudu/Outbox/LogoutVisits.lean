import Odudu.Outbox.SendLogouts

/-!
# What the visits of the logout queue hold

A visit locks the rows it claims to its end, so that no other visit holds one of them, and it
finds them as it claimed them.  As long as no visit that handed something over is rolled
back, the attempts a visit makes are counted when others find the rows again.
-/

set_option autoImplicit false

namespace Odudu.Outbox.SendLogouts

variable {options : LogoutSenderOptions} {s s' s₀ : State} {l : Label}

/-- What one step does. -/
inductive Act (options : LogoutSenderOptions) (s s' : State) : Label → Prop
  | wait {l : Label} (hrows : ∀ id row, s.rows id = some row → s'.rows id = some row)
      (hnew : ∀ id row, s'.rows id = some row → s.rows id = some row ∨ row.attempts = 0)
      (hlocks : s'.locks = s.locks) (hvisits : s'.visits = s.visits)
      (hhanded : s'.handed = s.handed) : Act options s s' l
  | claim {n now : ℕ} {tenantId : String} {ids : List String} (hfree : s.visits n = none)
      (hunlocked : ∀ id ∈ ids, s.locks id = none)
      (hoffers : s.rows.offers tenantId backchannelLogoutMaxAttempts options.batchSize now ids =
        true) (hs' : s' = s.claimDue options n now ids) :
      Act options s s' (.claimDue n now tenantId ids)
  | fail {n : ℕ} {error : String} {v : Visit} {row : Claimed} {rest : List Claimed}
      (hv : s.visits n = some v) (hclaimed : v.claimed = row :: rest) (hanswer : v.answer = none)
      (hs' : s' = s.setVisit n (some { v with answer := some (.threw error) })) :
      Act options s s' (.tokenFor n error)
  | handOver {n : ℕ} {answer : Answer} {v : Visit} {row : Claimed} {rest : List Claimed}
      (hv : s.visits n = some v) (hclaimed : v.claimed = row :: rest) (hanswer : v.answer = none)
      (hs' : s' = { s.setVisit n
          (some { v with answer := some answer, handed := row :: v.handed }) with
        handed := row :: s.handed }) : Act options s s' (.transport n answer)
  | mark {n : ℕ} {answer : Answer} {v : Visit} {row : Claimed} {rest : List Claimed}
      (hv : s.visits n = some v) (hclaimed : v.claimed = row :: rest)
      (hanswer : v.answer = some answer)
      (hs' : s' = s.setVisit n (some
        { v with
          own := v.own.updateUnsent row.id (mark v.now answer)
          claimed := rest
          answer := none })) : Act options s s' (.mark n)
  | commit {n : ℕ} {v : Visit} (hv : s.visits n = some v)
      (hs' : s' = { s.release n with rows := s.view n }) : Act options s s' (.commit n)
  | rollback {n : ℕ} {v : Visit} (hv : s.visits n = some v) (hs' : s' = s.release n) :
      Act options s s' (.rollback n)

/-- A step of the queue is one of the acts. -/
theorem act_of_step (h : step options s l = some s') : Act options s s' l := by
  cases l with
  | tick =>
    obtain rfl := Option.some.inj h
    exact .wait (fun _ _ hrow ↦ hrow) (fun _ _ hrow ↦ .inl hrow) rfl rfl rfl
  | enqueue id =>
    obtain ⟨hfree, rfl⟩ : s.rows id = none ∧ _ = s' := by simpa [step] using h
    exact .wait (fun _ _ hrow ↦ Rows.enqueue_of_some hfree _ hrow)
      (fun _ _ hrow ↦ Rows.of_enqueue hrow) rfl rfl rfl
  | claimDue n now _ ids =>
    obtain ⟨⟨hfree, -, hunlocked, hoffers⟩, rfl⟩ : (s.visits n = none ∧ now ≤ s.clock ∧
        (∀ id ∈ ids, s.locks id = none) ∧ _ = true) ∧ _ = s' := by simpa [step] using h
    exact .claim hfree hunlocked hoffers rfl
  | tokenFor =>
    obtain ⟨v, hv, hfail⟩ := Option.bind_eq_some_iff.mp h
    split at hfail
    · next row rest hanswer hclaimed => exact .fail hv hclaimed hanswer (Option.some.inj hfail).symm
    · cases hfail
  | transport =>
    obtain ⟨v, hv, hsend⟩ := Option.bind_eq_some_iff.mp h
    split at hsend
    · next row rest hanswer hclaimed =>
      exact .handOver hv hclaimed hanswer (Option.some.inj hsend).symm
    · cases hsend
  | mark =>
    obtain ⟨v, hv, hmark⟩ := Option.bind_eq_some_iff.mp h
    split at hmark
    · next answer row rest hanswer hclaimed =>
      exact .mark hv hclaimed hanswer (Option.some.inj hmark).symm
    · cases hmark
  | commit n =>
    obtain ⟨v, hv, -, rfl⟩ : ∃ v, s.visits n = some v ∧ v.claimed = [] ∧ _ = s' := by
      simpa [step, Option.bind_eq_some_iff] using h
    exact .commit hv rfl
  | rollback =>
    obtain ⟨v, hv, hs'⟩ := Option.bind_eq_some_iff.mp h
    exact .rollback hv (Option.some.inj hs').symm

theorem mark_attempts {now : ℕ} {answer : Answer} {row : QueueRow}
    (h : row.attempts ≤ backchannelLogoutMaxAttempts) :
    row.attempts ≤ (mark now answer row).attempts ∧
      (mark now answer row).attempts ≤ backchannelLogoutMaxAttempts := by
  cases answer with
  | response =>
    simp only [mark]
    split_ifs
    · exact ⟨le_rfl, h⟩
    · exact ⟨h, le_rfl⟩
    · exact ⟨le_rfl, h⟩
  | threw => exact ⟨le_rfl, h⟩

@[simp]
theorem setVisit_visits_self (n : ℕ) (v : Option Visit) : (s.setVisit n v).visits n = v := by
  simp [State.setVisit]

theorem setVisit_visits_of_ne {n n' : ℕ} (h : n' ≠ n) (v : Option Visit) :
    (s.setVisit n v).visits n' = s.visits n' := by
  simp [State.setVisit, h]

/-- What a visit that goes on has locked: the row as it is committed, which was not delivered,
and the row as the transaction left it. -/
def OnHold (rows own : Rows) (id : String) : Prop :=
  ∃ row row', rows id = some row ∧ row.sentAt = none ∧ own id = some row' ∧
    row.attempts ≤ row'.attempts ∧ row'.attempts ≤ backchannelLogoutMaxAttempts

theorem onHold_mark {rows own : Rows} {now : ℕ} {answer : Answer} (id' : String) {id : String}
    (h : OnHold rows own id) : OnHold rows (own.updateUnsent id' (mark now answer)) id := by
  obtain ⟨row, row', hrow, hsent, hown, hle, hbound⟩ := h
  by_cases hid : id = id'
  · subst hid
    by_cases hunsent : row'.sentAt = none
    · obtain ⟨hmore, hmax⟩ := @mark_attempts now answer row' hbound
      exact ⟨row, _, hrow, hsent, Rows.updateUnsent_self hown hunsent, hle.trans hmore, hmax⟩
    · exact ⟨row, row', hrow, hsent, Rows.updateUnsent_of_sent hown hunsent, hle, hbound⟩
  · exact ⟨row, row', hrow, hsent, (Rows.updateUnsent_of_ne hid).trans hown, hle, hbound⟩

/-- A delivery that is claimed and unresolved: its row is locked and as it was claimed. -/
def AsClaimed (s : State) (n : ℕ) (own : Rows) (m : Claimed) : Prop :=
  s.locks m.id = some n ∧ 1 ≤ m.attempts ∧
    ∃ row, own m.id = some row ∧ row.sentAt = none ∧ row.attempts = m.attempts

/-- Locks are a visit's that goes on, which finds what it claimed. -/
structure Locked (s : State) : Prop where
  bounded : ∀ id row, s.rows id = some row → row.attempts ≤ backchannelLogoutMaxAttempts
  lock : ∀ id n, s.locks id = some n → ∃ v, s.visits n = some v ∧ OnHold s.rows v.own id
  claimed : ∀ n v, s.visits n = some v → ∀ m ∈ v.claimed, AsClaimed s n v.own m
  ids : ∀ n v, s.visits n = some v → (v.claimed.map Claimed.id).Nodup

theorem locked_of_start (h : Start s) : Locked s := by
  obtain ⟨hrows, hlocks, hvisits, -⟩ := h
  have hnone : ∀ n v, s.visits n ≠ some v := by simp [hvisits]
  constructor
  · simp [hrows]
  · simp [hlocks]
  · exact fun n v hv ↦ absurd hv (hnone n v)
  · exact fun n v hv ↦ absurd hv (hnone n v)

namespace Locked

variable (hs : Locked s)

include hs

theorem claim {n now : ℕ} {tenantId : String} {ids : List String} (hfree : s.visits n = none)
    (hunlocked : ∀ id ∈ ids, s.locks id = none)
    (hoffers : s.rows.offers tenantId backchannelLogoutMaxAttempts options.batchSize now ids =
      true) : Locked (s.claimDue options n now ids) := by
  obtain ⟨hids, -, hdue⟩ := Rows.offers_iff.mp hoffers
  have hother : ∀ {id n'}, s.locks id = some n' → id ∉ ids ∧ n' ≠ n := by
    intro id n' hlock
    constructor
    · intro hid
      exact nomatch (hunlocked id hid).symm.trans hlock
    · rintro rfl
      obtain ⟨v, hv, -⟩ := hs.lock id n' hlock
      exact nomatch hfree.symm.trans hv
  constructor
  · exact hs.bounded
  · intro id n' hlock
    by_cases hid : id ∈ ids
    · obtain rfl : n = n' := by simpa [State.claimDue, hid] using hlock
      obtain ⟨row, hrow, -, hdue'⟩ := hdue id hid
      obtain ⟨hsent, hattempts, -⟩ := QueueRow.due_iff.mp hdue'
      refine ⟨_, setVisit_visits_self .., row, _, hrow, hsent, Rows.claim_of_mem hid hrow, ?_, ?_⟩
      · exact Nat.le_succ _
      · exact hattempts
    · have hlock' : s.locks id = some n' := by simpa [State.claimDue, hid] using hlock
      obtain ⟨v, hv, hhold⟩ := hs.lock id n' hlock'
      exact ⟨v, (setVisit_visits_of_ne (hother hlock').2 _).trans hv, hhold⟩
  · intro n' v hv m hm
    by_cases hn : n' = n
    · subst hn
      obtain rfl : _ = v := by simpa [State.claimDue] using hv
      have hid : m.id ∈ ids := Rows.id_mem_of_mem_claimed hm
      obtain ⟨row, hrow, -, hdue'⟩ := hdue m.id hid
      have hattempts := (Rows.mem_claimed hm hrow).2
      refine ⟨by simp [State.claimDue, hid], by omega, _, Rows.claim_of_mem hid hrow, ?_,
        hattempts.symm⟩
      exact (QueueRow.due_iff.mp hdue').1
    · have hv' : s.visits n' = some v := by simpa [State.claimDue, State.setVisit, hn] using hv
      obtain ⟨hlock, hkept⟩ := hs.claimed n' v hv' m hm
      refine ⟨?_, hkept⟩
      simpa [State.claimDue, (hother hlock).1] using hlock
  · intro n' v hv
    by_cases hn : n' = n
    · subst hn
      obtain rfl : _ = v := by simpa [State.claimDue] using hv
      simpa [Rows.map_id_claimed] using hids
    · exact hs.ids n' v (by simpa [State.claimDue, State.setVisit, hn] using hv)

variable {n : ℕ} {v : Visit}

/-- A visit goes on, with no more than it held, and with the rows of that as they were. -/
theorem goesOn (v' : Visit) (hv : s.visits n = some v)
    (hhold : ∀ id, OnHold s.rows v.own id → OnHold s.rows v'.own id)
    (hclaimed : v'.claimed <:+ v.claimed)
    (hkept : ∀ m ∈ v'.claimed, v'.own m.id = v.own m.id) (handed : List Claimed) :
    Locked { s.setVisit n (some v') with handed } where
  bounded := hs.bounded
  lock := by
    intro id n' hlock
    obtain ⟨w, hw, hold⟩ := hs.lock id n' hlock
    by_cases hn : n' = n
    · subst hn
      obtain rfl := Option.some.inj (hv.symm.trans hw)
      exact ⟨v', setVisit_visits_self .., hhold id hold⟩
    · exact ⟨w, (setVisit_visits_of_ne hn _).trans hw, hold⟩
  claimed := by
    intro n' w hw m hm
    by_cases hn : n' = n
    · subst hn
      obtain rfl : v' = w := by simpa using hw
      obtain ⟨hlock, hone, row, hrow, hrest⟩ := hs.claimed n' v hv m (hclaimed.subset hm)
      exact ⟨hlock, hone, row, (hkept m hm).trans hrow, hrest⟩
    · exact hs.claimed n' w (by simpa [setVisit_visits_of_ne hn] using hw) m hm
  ids := by
    intro n' w hw
    by_cases hn : n' = n
    · subst hn
      obtain rfl : v' = w := by simpa using hw
      exact (hs.ids n' v hv).sublist (hclaimed.sublist.map _)
    · exact hs.ids n' w (by simpa [setVisit_visits_of_ne hn] using hw)

/-- A visit ends.  The rows it locked are as it left them, or as they were. -/
theorem release {rows : Rows}
    (hrows : ∀ id, s.locks id ≠ some n → rows id = s.rows id)
    (hbounded : ∀ id row, rows id = some row → row.attempts ≤ backchannelLogoutMaxAttempts) :
    Locked { s.release n with rows } := by
  have hlocks : ∀ {id n'}, (s.release n).locks id = some n' →
      s.locks id = some n' ∧ s.locks id ≠ some n := by
    intro id n' hlock
    by_cases hid : s.locks id = some n
    · simp [State.release, hid] at hlock
    · exact ⟨by simpa [State.release, hid] using hlock, hid⟩
  have hvisits : ∀ {n' v}, (s.release n).visits n' = some v → n' ≠ n ∧ s.visits n' = some v := by
    intro n' v hv
    by_cases hn : n' = n
    · subst hn
      simp [State.release] at hv
    · exact ⟨hn, by simpa [State.release, State.setVisit, hn] using hv⟩
  constructor
  · exact hbounded
  · intro id n' hlock
    obtain ⟨hlock', hne⟩ := hlocks hlock
    obtain ⟨v, hv, hhold⟩ := hs.lock id n' hlock'
    have hn : n' ≠ n := fun h ↦ hne (h ▸ hlock')
    refine ⟨v, by simpa [State.release, State.setVisit, hn] using hv, ?_⟩
    change OnHold rows v.own id
    unfold OnHold
    rw [hrows id hne]
    exact hhold
  · intro n' v hv m hm
    obtain ⟨hn, hv'⟩ := hvisits hv
    obtain ⟨hlock, hkept⟩ := hs.claimed n' v hv' m hm
    refine ⟨?_, hkept⟩
    simpa [State.release, hlock] using hn
  · intro n' v hv
    exact hs.ids n' v (hvisits hv).2

theorem view_bounded (hv : s.visits n = some v) (id : String)
    (row : QueueRow) (hrow : s.view n id = some row) :
    row.attempts ≤ backchannelLogoutMaxAttempts := by
  by_cases hlock : s.locks id = some n
  · obtain ⟨w, hw, -, row', -, -, hown, -, hbound⟩ := hs.lock id n hlock
    obtain rfl := Option.some.inj (hv.symm.trans hw)
    obtain rfl : row' = row := by simpa [State.view, hlock, hv, hown] using hrow
    exact hbound
  · exact hs.bounded id row (by simpa [State.view, hlock] using hrow)

/-- What a visit commits has the attempts it found, and more. -/
theorem view_grows (hv : s.visits n = some v) : s.rows.Grows (s.view n) := by
  intro id row hrow
  by_cases hlock : s.locks id = some n
  · obtain ⟨w, hw, row₀, row', hrow₀, -, hown, hle, -⟩ := hs.lock id n hlock
    obtain rfl := Option.some.inj (hv.symm.trans hw)
    obtain rfl := Option.some.inj (hrow.symm.trans hrow₀)
    exact ⟨row', by simp [State.view, hlock, hv, hown], hle⟩
  · exact ⟨row, by simpa [State.view, hlock] using hrow, le_rfl⟩

/-- Every act leaves a visit the rows that it claimed. -/
theorem act (h : Act options s s' l) : Locked s' := by
  cases h with
  | wait hrows hnew hlocks hvisits =>
    constructor
    · intro id row hrow
      rcases hnew id row hrow with hold | hzero
      · exact hs.bounded id row hold
      · omega
    · intro id n hlock
      obtain ⟨v, hv, row, row', hrow, hrest⟩ := hs.lock id n (hlocks ▸ hlock)
      exact ⟨v, hvisits ▸ hv, row, row', hrows id row hrow, hrest⟩
    · intro n v hv m hm
      obtain ⟨hlock, hkept⟩ := hs.claimed n v (hvisits ▸ hv) m hm
      exact ⟨hlocks ▸ hlock, hkept⟩
    · exact fun n v hv ↦ hs.ids n v (hvisits ▸ hv)
  | claim hfree hunlocked hoffers hs' => exact hs' ▸ hs.claim hfree hunlocked hoffers
  | @fail n error v row rest hv hclaimed hanswer hs' =>
    subst hs'
    exact hs.goesOn { v with answer := some (.threw error) } hv (fun _ h ↦ h) List.suffix_rfl (fun _ _ ↦ rfl) s.handed
  | @handOver n answer v row rest hv hclaimed hanswer hs' =>
    subst hs'
    exact hs.goesOn { v with answer := some answer, handed := row :: v.handed } hv
      (fun _ h ↦ h) List.suffix_rfl (fun _ _ ↦ rfl) _
  | @mark n answer v row rest hv hclaimed hanswer hs' =>
    subst hs'
    refine hs.goesOn _ hv (fun _ h ↦ onHold_mark row.id h) ?_ ?_ s.handed
    · exact hclaimed ▸ List.suffix_cons row rest
    · intro m hm
      have hnodup := hs.ids n v hv
      rw [hclaimed, List.map_cons, List.nodup_cons] at hnodup
      have hne : m.id ≠ row.id := fun hid ↦ hnodup.1 (hid ▸ List.mem_map_of_mem hm)
      exact Rows.updateUnsent_of_ne hne
  | commit hv hs' =>
    subst hs'
    exact hs.release (fun id hlock ↦ by simp [State.view, hlock]) (hs.view_bounded hv)
  | rollback _ hs' =>
    subst hs'
    exact hs.release (fun _ _ ↦ rfl) hs.bounded

/-- A delivered row stays as it is, whatever the visits do. -/
theorem settled (h : Act options s s' l) : s.rows.Settled s'.rows := by
  intro id row hrow hsent
  cases h with
  | wait hrows => exact hrows id row hrow
  | @commit n v hv hs' =>
    subst hs'
    have hlock : s.locks id ≠ some n := by
      intro hlock
      obtain ⟨-, -, row', -, hrow', hunsent, -⟩ := hs.lock id n hlock
      obtain rfl := Option.some.inj (hrow.symm.trans hrow')
      exact hsent hunsent
    simpa [State.view, hlock] using hrow
  | claim _ _ _ hs' | fail _ _ _ hs' | handOver _ _ _ hs' | mark _ _ _ hs' | rollback _ hs' =>
    subst hs'
    exact hrow

end Locked

end Odudu.Outbox.SendLogouts
