import Odudu.Outbox.LogoutVisits

/-!
# Attempts at a logout

An attempt is counted in the transaction that makes it.  As long as no transaction that made
one is rolled back, none is made twice, and a row gets no more of them than it may.
-/

set_option autoImplicit false

namespace Odudu.Outbox.SendLogouts

variable {options : LogoutSenderOptions} {s s' s₀ : State} {l : Label}

/-- Only a visit that has handed nothing over is rolled back. -/
def KeepsAttempts (s : State) : Label → Prop
  | .rollback n => ∀ v, s.visits n = some v → v.handed = []
  | _ => True

/-- An attempt that is counted by a visit that goes on. -/
def CountedBy (s : State) (m : Claimed) : Prop :=
  ∃ n v, s.visits n = some v ∧ m ∈ v.handed ∧ s.locks m.id = some n ∧ v.own.Counts m

structure Counted (s : State) : Prop where
  handed : ∀ m ∈ s.handed, s.rows.Counts m ∨ CountedBy s m
  nodup : s.handed.Nodup
  fresh : ∀ n v, s.visits n = some v → ∀ m ∈ v.unsent, m ∉ s.handed

theorem Visit.unsent_suffix (v : Visit) : v.unsent <:+ v.claimed := by
  unfold Visit.unsent
  split
  · exact List.tail_suffix _
  · exact List.suffix_rfl

theorem counted_of_start (h : Start s) : Counted s := by
  obtain ⟨-, -, -, hhanded⟩ := h
  constructor <;> simp [hhanded]

namespace Counted

variable (hs : Counted s) (hlocked : Locked s)

include hs

variable {v : Visit} {n : ℕ}

/-- A visit goes on, and hands nothing over. -/
theorem goesOn (v' : Visit) (hv : s.visits n = some v)
    (hgrows : v.own.Grows v'.own) (hhanded : v'.handed = v.handed)
    (hunsent : v'.unsent <:+ v.unsent) : Counted (s.setVisit n (some v')) where
  handed := by
    intro m hm
    rcases hs.handed m hm with hrows | ⟨n', w, hw, hmem, hlock, hcounts⟩
    · exact .inl hrows
    · right
      by_cases hn : n' = n
      · subst hn
        obtain rfl := Option.some.inj (hv.symm.trans hw)
        exact ⟨n', v', setVisit_visits_self .., hhanded ▸ hmem, hlock, hcounts.grows hgrows⟩
      · exact ⟨n', w, (setVisit_visits_of_ne hn _).trans hw, hmem, hlock, hcounts⟩
  nodup := hs.nodup
  fresh := by
    intro n' w hw m hm
    by_cases hn : n' = n
    · subst hn
      obtain rfl : v' = w := by simpa using hw
      exact hs.fresh n' v hv m (hunsent.subset hm)
    · exact hs.fresh n' w (by simpa [setVisit_visits_of_ne hn] using hw) m hm

/-- A visit ends.  The attempts it made are counted on the rows it leaves, if it made any. -/
theorem release {rows : Rows} (hv : s.visits n = some v)
    (hgrows : s.rows.Grows rows)
    (hcounts : ∀ m ∈ v.handed, s.locks m.id = some n → v.own.Counts m → rows.Counts m) :
    Counted { s.release n with rows } where
  handed := by
    intro m hm
    rcases hs.handed m hm with hrows | ⟨n', w, hw, hmem, hlock, hown⟩
    · exact .inl (hrows.grows hgrows)
    by_cases hn : n' = n
    · subst hn
      obtain rfl := Option.some.inj (hv.symm.trans hw)
      exact .inl (hcounts m hmem hlock hown)
    · refine .inr ⟨n', w, by simpa [State.release, State.setVisit, hn] using hw, hmem, ?_, hown⟩
      simpa [State.release, hlock] using hn
  nodup := hs.nodup
  fresh := by
    intro n' w hw
    have hn : n' ≠ n := by
      rintro rfl
      simp [State.release] at hw
    exact hs.fresh n' w (by simpa [State.release, State.setVisit, hn] using hw)

theorem claim {n now : ℕ} {tenantId : String} {ids : List String} (hfree : s.visits n = none)
    (hunlocked : ∀ id ∈ ids, s.locks id = none)
    (hoffers : s.rows.offers tenantId backchannelLogoutMaxAttempts options.batchSize now ids =
      true) : Counted (s.claimDue options n now ids) where
  handed := by
    intro m hm
    rcases hs.handed m hm with hrows | ⟨n', v, hv, hmem, hlock, hcounts⟩
    · exact .inl hrows
    · right
      have hn : n' ≠ n := by
        rintro rfl
        exact nomatch hfree.symm.trans hv
      have hid : m.id ∉ ids := fun hid ↦ nomatch (hunlocked _ hid).symm.trans hlock
      exact ⟨n', v, (setVisit_visits_of_ne hn _).trans hv, hmem,
        by simpa [State.claimDue, hid] using hlock, hcounts⟩
  nodup := hs.nodup
  fresh := by
    intro n' v hv m hm hhanded
    by_cases hn : n' = n
    · subst hn
      obtain rfl : _ = v := by simpa [State.claimDue] using hv
      -- An attempt that was counted is another, and a row that is locked is not claimed.
      have hclaimed : m ∈ s.rows.claimed ids := hm
      rcases hs.handed m hhanded with hrows | ⟨n, v, hv, hmem, hlock, hcounts⟩
      · exact (@Rows.claimed_counts s.rows tenantId ids m _ _ _ 0 hoffers hclaimed).1 hrows
      · have hnone := hunlocked m.id (Rows.id_mem_of_mem_claimed hclaimed)
        exact nomatch hnone.symm.trans hlock
    · exact hs.fresh n' v (by simpa [State.claimDue, State.setVisit, hn] using hv) m hm hhanded

include hlocked

theorem handOver {answer : Answer} {row : Claimed} {rest : List Claimed}
    (hv : s.visits n = some v) (hclaimed : v.claimed = row :: rest) (hanswer : v.answer = none) :
    Counted { s.setVisit n (some { v with answer := some answer, handed := row :: v.handed }) with
      handed := row :: s.handed } := by
  have hunsent : row ∈ v.unsent := by simp [Visit.unsent, hanswer, hclaimed]
  obtain ⟨hlock, hone, qrow, hown, -, hattempts⟩ :=
    hlocked.claimed n v hv row (by simp [hclaimed])
  constructor
  · intro m hm
    rcases List.mem_cons.mp hm with rfl | hm
    · exact .inr ⟨n, _, setVisit_visits_self .., List.mem_cons_self, hlock, qrow, hown, hone,
        hattempts.ge⟩
    rcases hs.handed m hm with hrows | ⟨n', w, hw, hmem, hlock', hcounts⟩
    · exact .inl hrows
    · right
      by_cases hn : n' = n
      · subst hn
        obtain rfl := Option.some.inj (hv.symm.trans hw)
        exact ⟨n', _, setVisit_visits_self .., List.mem_cons_of_mem _ hmem, hlock', hcounts⟩
      · exact ⟨n', w, (setVisit_visits_of_ne hn _).trans hw, hmem, hlock', hcounts⟩
  · exact List.nodup_cons.mpr ⟨hs.fresh n v hv row hunsent, hs.nodup⟩
  · intro n' w hw m hm
    suffices m ≠ row ∧ m ∉ s.handed by simpa using this
    by_cases hn : n' = n
    · subst hn
      obtain rfl : _ = w := by simpa using hw
      have hrest : m ∈ rest := by simpa [Visit.unsent, hclaimed] using hm
      have hnodup := hlocked.ids n' v hv
      rw [hclaimed, List.map_cons, List.nodup_cons] at hnodup
      refine ⟨?_, hs.fresh n' v hv m (by simp [Visit.unsent, hanswer, hclaimed, hrest])⟩
      rintro rfl
      exact hnodup.1 (List.mem_map_of_mem hrest)
    · have hw' : s.visits n' = some w := by simpa [setVisit_visits_of_ne hn] using hw
      refine ⟨?_, hs.fresh n' w hw' m hm⟩
      rintro rfl
      have hlock' := (hlocked.claimed n' w hw' m (w.unsent_suffix.subset hm)).1
      exact hn (Option.some.inj (hlock'.symm.trans hlock))

theorem act (hkeeps : KeepsAttempts s l) (h : Act options s s' l) : Counted s' := by
  cases h with
  | wait hrows _ hlocks hvisits hhanded =>
    constructor
    · intro m hm
      rcases hs.handed m (hhanded ▸ hm) with hcounts | ⟨n, v, hv, hmem, hlock, hown⟩
      · exact .inl (hcounts.grows (Rows.grows_of_kept hrows))
      · exact .inr ⟨n, v, hvisits ▸ hv, hmem, hlocks ▸ hlock, hown⟩
    · exact hhanded ▸ hs.nodup
    · exact fun n v hv ↦ hhanded ▸ hs.fresh n v (hvisits ▸ hv)
  | claim hfree hunlocked hoffers hs' => exact hs' ▸ hs.claim hfree hunlocked hoffers
  | @fail n error v row rest hv hclaimed hanswer hs' =>
    subst hs'
    refine hs.goesOn { v with answer := some (.threw error) } hv
      (Rows.grows_of_kept fun _ _ h ↦ h) rfl ?_
    simpa [Visit.unsent, hanswer] using List.tail_suffix v.claimed
  | handOver hv hclaimed hanswer hs' => exact hs' ▸ hs.handOver hlocked hv hclaimed hanswer
  | @mark n answer v row rest hv hclaimed hanswer hs' =>
    subst hs'
    refine hs.goesOn _ hv (Rows.updateUnsent_grows fun qrow hrow ↦ ?_) rfl ?_
    · have hlock := (hlocked.claimed n v hv row (by simp [hclaimed])).1
      obtain ⟨w, hw, -, row', -, -, hown, -, hbound⟩ := hlocked.lock row.id n hlock
      obtain rfl := Option.some.inj (hv.symm.trans hw)
      obtain rfl := Option.some.inj (hown.symm.trans hrow)
      exact (mark_attempts hbound).1
    · simp [Visit.unsent, hanswer, hclaimed]
  | @commit n v hv hs' =>
    subst hs'
    refine hs.release hv (hlocked.view_grows hv) fun m _ hlock hown ↦ ?_
    obtain ⟨row, hrow, hone, hle⟩ := hown
    exact ⟨row, by simp [State.view, hlock, hv, hrow], hone, hle⟩
  | @rollback n v hv hs' =>
    subst hs'
    refine hs.release hv (Rows.grows_of_kept fun _ _ h ↦ h) fun m hm ↦ ?_
    have hnone : v.handed = [] := hkeeps v hv
    simp [hnone] at hm

end Counted

/-- Any visits, in any order, each step taken under `P`. -/
def Reaches (options : LogoutSenderOptions) (P : State → Label → Prop) : State → State → Prop :=
  Relation.ReflTransGen fun s s' ↦ ∃ l, P s l ∧ step options s l = some s'

variable {P : State → Label → Prop}

theorem reaches_of_run {labels : List Label}
    (hP : ∀ l ∈ labels, ∀ s, P s l) (h : run options s labels = some s') :
    Reaches options P s s' := by
  induction labels generalizing s with
  | nil =>
    obtain rfl := Option.some.inj h
    exact .refl
  | cons l _ ih =>
    obtain ⟨s₁, hstep, hrest⟩ := Option.bind_eq_some_iff.mp h
    have hl : P s l := hP l List.mem_cons_self s
    exact .head ⟨l, hl, hstep⟩ (ih (fun l' hl' ↦ hP l' (List.mem_cons_of_mem _ hl')) hrest)

theorem Reaches.locked (hstart : Start s₀)
    (h : Reaches options P s₀ s) : Locked s := by
  induction h with
  | refl => exact locked_of_start hstart
  | tail _ hstep ih =>
    obtain ⟨l, -, hl⟩ := hstep
    exact ih.act (act_of_step hl)

theorem Reaches.counted (hstart : Start s₀) (h : Reaches options KeepsAttempts s₀ s) :
    Counted s := by
  induction h with
  | refl => exact counted_of_start hstart
  | tail hrun hstep ih =>
    obtain ⟨l, hkeeps, hl⟩ := hstep
    exact ih.act (Reaches.locked hstart hrun) hkeeps (act_of_step hl)

/-- A visit that holds a delivery. -/
def Holds (s : State) (n : ℕ) (m : Claimed) : Prop :=
  ∃ v, s.visits n = some v ∧ m ∈ v.claimed

theorem Reaches.oneSender (hstart : Start s₀) (h : Reaches options KeepsAttempts s₀ s) :
    OneSender backchannelLogoutMaxAttempts s.view s.handed (Holds s) where
  attempts := by
    have hs : Counted s := h.counted hstart
    have hlocked : Locked s := h.locked hstart
    refine length_attempts_le hs.nodup fun m hm ↦ ?_
    rcases hs.handed m hm with ⟨row, hrow, hone, hle⟩ | ⟨n, v, hv, -, hlock, row, hrow, hone, hle⟩
    · exact ⟨hone, hle.trans (hlocked.bounded m.id row hrow)⟩
    · have hview : s.view n m.id = some row := by simp [State.view, hlock, hv, hrow]
      exact ⟨hone, hle.trans (hlocked.view_bounded hv m.id row hview)⟩
  held := by
    rintro n m ⟨v, hv, hm⟩
    obtain ⟨hlock, -, row, hrow, hrest⟩ := (h.locked hstart).claimed n v hv m hm
    exact ⟨row, by simp [State.view, hlock, hv, hrow], hrest⟩
  alone := by
    rintro n n' m m' ⟨v, hv, hm⟩ ⟨v', hv', hm'⟩ hid
    have hlock := ((h.locked hstart).claimed n v hv m hm).1
    have hlock' := ((h.locked hstart).claimed n' v' hv' m' hm').1
    rw [hid] at hlock
    exact Option.some.inj (hlock.symm.trans hlock')

end Odudu.Outbox.SendLogouts
