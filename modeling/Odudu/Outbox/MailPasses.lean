import Odudu.Outbox.SendPending

/-!
# What the passes over the mail queue hold

What a step can do to the rows, to what the passes hold and to what was handed over
(`Act`), and from it what holds in every run: a row's attempts are counted before they are
made, so that no more are made than it may have, and a row that was sent stays as it is.
-/

set_option autoImplicit false

namespace Odudu.Outbox.SendPending

variable {options : SendPendingOptions} {s s' : State} {l : Label}

/-- Every pass holds what it held, or less, or it holds nothing. -/
def Drops (s s' : State) : Prop :=
  ∀ n p', s'.passes n = some p' → p'.claimed = [] ∨
    ∃ p, s.passes n = some p ∧ p'.now = p.now ∧ p'.claimed <:+ p.claimed ∧ p'.unsent <:+ p.unsent

/-- What one step does. -/
inductive Act (options : SendPendingOptions) (s s' : State) : Label → Prop
  | pause {l : Label} (hrows : ∀ id row, s.rows id = some row → s'.rows id = some row)
      (hnew : ∀ id row, s'.rows id = some row → s.rows id = some row ∨ row.attempts = 0)
      (hdrops : Drops s s') (hhanded : s'.handed = s.handed) : Act options s s' l
  | claim {n : ℕ} {tenantId : String} {ids : List String} {p : Pass}
      (hp : s.passes n = some p) (hempty : p.claimed = [])
      (hoffers : s.rows.offers tenantId options.maxAttempts options.batchSize p.now ids = true)
      (hs' : s' = s.claimBatch n p ids) : Act options s s' (.claimBatch n tenantId ids)
  | handOver {n : ℕ} {refused : Option String} {p : Pass} {message : Claimed}
      {rest : List Claimed} (hp : s.passes n = some p) (hclaimed : p.claimed = message :: rest)
      (hunsent : p.unsent = message :: rest)
      (hs' : s' = { s.setPass n (some { p with stage := .answered refused }) with
        handed := message :: s.handed }) : Act options s s' (.send n refused)
  | record {n : ℕ} {refused : Option String} {p : Pass} {message : Claimed}
      {rest : List Claimed} (hp : s.passes n = some p) (hclaimed : p.claimed = message :: rest)
      (hunsent : p.unsent = rest)
      (hs' : s' = { s.setPass n (some p.next) with
        rows := s.rows.updateUnsent message.id (p.mark options message refused) }) :
      Act options s s' (.write n true)

variable {q : Option Pass}

theorem passes_setPass {n n' : ℕ} {p' : Pass}
    (h : Function.update s.passes n q n' = some p') :
    n' = n ∧ q = some p' ∨ n' ≠ n ∧ s.passes n' = some p' := by
  by_cases hn : n' = n
  · subst hn
    exact .inl ⟨rfl, by simpa using h⟩
  · exact .inr ⟨hn, by simpa [hn] using h⟩

theorem Drops.of_eq (h : s'.passes = s.passes) : Drops s s' := by
  intro n p' hp'
  rw [h] at hp'
  exact Or.inr ⟨p', hp', rfl, List.suffix_rfl, List.suffix_rfl⟩

variable {n : ℕ}

theorem Drops.of_setPass
    (hpasses : s'.passes = Function.update s.passes n q)
    (hq : ∀ p', q = some p' → p'.claimed = [] ∨ ∃ p, s.passes n = some p ∧ p'.now = p.now ∧
      p'.claimed <:+ p.claimed ∧ p'.unsent <:+ p.unsent) : Drops s s' := by
  intro n' p' hp'
  rw [hpasses] at hp'
  rcases passes_setPass hp' with ⟨rfl, hset⟩ | ⟨-, hold⟩
  · exact hq p' hset
  · exact Or.inr ⟨p', hold, rfl, List.suffix_rfl, List.suffix_rfl⟩

@[simp]
theorem Pass.unsent_next (p : Pass) : p.next.unsent = p.claimed.tail := by
  by_cases htail : p.claimed.tail = [] <;> simp [Pass.next, Pass.unsent, htail]

/-- A pass began in the past, and holds nothing between two tenants. -/
def InPlace (s : State) : Prop :=
  ∀ n p, s.passes n = some p → p.now ≤ s.clock ∧ (p.stage = .visiting → p.claimed = [])

theorem InPlace.setPass (hs : InPlace s) (hclock : s'.clock = s.clock)
    (hpasses : s'.passes = Function.update s.passes n q)
    (hq : ∀ p, q = some p → p.now ≤ s.clock ∧ (p.stage = .visiting → p.claimed = [])) :
    InPlace s' := by
  intro n' p hp
  rw [hpasses] at hp
  rw [hclock]
  rcases passes_setPass hp with ⟨-, hset⟩ | ⟨-, hold⟩
  · exact hq p hset
  · exact hs n' p hold

theorem Act.idle
    (hq : ∀ p', q = some p' → p'.claimed = [] ∨ ∃ p, s.passes n = some p ∧ p'.now = p.now ∧
      p'.claimed <:+ p.claimed ∧ p'.unsent <:+ p.unsent) : Act options s (s.setPass n q) l :=
  .pause (fun _ _ hrow ↦ hrow) (fun _ _ hrow ↦ .inl hrow) (.of_setPass rfl hq) rfl

theorem InPlace.dropped (hs : InPlace s) :
    Act options s (s.setPass n none) l ∧ InPlace (s.setPass n none) :=
  ⟨.idle (by rintro _ ⟨⟩), hs.setPass rfl rfl (by rintro _ ⟨⟩)⟩

/-- A step of the queue is one of the four acts, and leaves every pass in place. -/
theorem act_of_step (hs : InPlace s) (h : step options s l = some s') :
    Act options s s' l ∧ InPlace s' := by
  cases l with
  | tick =>
    obtain rfl := Option.some.inj h
    refine ⟨.pause (fun _ _ hrow ↦ hrow) (fun _ _ hrow ↦ .inl hrow) (.of_eq rfl) rfl,
      fun n p hp ↦ ?_⟩
    exact ⟨(hs n p hp).1.trans (Nat.le_add_right ..), (hs n p hp).2⟩
  | enqueue id =>
    obtain ⟨hfree, rfl⟩ : s.rows id = none ∧ _ = s' := by simpa [step] using h
    exact ⟨.pause (fun _ _ hrow ↦ Rows.enqueue_of_some hfree _ hrow)
      (fun _ _ hrow ↦ Rows.of_enqueue hrow) (.of_eq rfl) rfl, hs⟩
  | sendPending n =>
    obtain ⟨-, rfl⟩ : s.passes n = none ∧ _ = s' := by simpa [step] using h
    refine ⟨.idle (by rintro p' ⟨⟩; exact .inl rfl), hs.setPass rfl rfl ?_⟩
    rintro p ⟨⟩
    exact ⟨le_rfl, fun _ ↦ rfl⟩
  | claimBatch n _ ids =>
    obtain ⟨p, hp, ⟨hstage, hoffers⟩, rfl⟩ :
        ∃ p, s.passes n = some p ∧ (p.stage = .visiting ∧ _ = true) ∧ _ = s' := by
      simpa [step, Option.bind_eq_some_iff] using h
    refine ⟨.claim hp ((hs n p hp).2 hstage) hoffers rfl, hs.setPass rfl rfl ?_⟩
    rintro p' ⟨⟩
    refine ⟨(hs n p hp).1, fun hstage ↦ ?_⟩
    have hnone : ids = [] := by
      by_contra hids
      simp [hids] at hstage
    simp [hnone, Rows.claimed]
  | resolveSender n resolved =>
    obtain ⟨p, hp, hstage, rfl⟩ : ∃ p, s.passes n = some p ∧ p.stage = .resolvingSender ∧ _ = s' := by
      simpa [step, Option.bind_eq_some_iff] using h
    refine ⟨.idle ?_, hs.setPass rfl rfl ?_⟩
    all_goals
      rintro p' ⟨⟩
      cases resolved
    · exact .inl rfl
    · exact .inr ⟨p, hp, rfl, List.suffix_rfl, by simp [Pass.unsent, hstage]⟩
    · exact ⟨(hs n p hp).1, fun _ ↦ rfl⟩
    · exact ⟨(hs n p hp).1, fun hstage ↦ by cases hstage⟩
  | send n =>
    obtain ⟨p, hp, hsend⟩ := Option.bind_eq_some_iff.mp h
    split at hsend
    · next message rest hstage hclaimed =>
      obtain rfl := Option.some.inj hsend
      refine ⟨.handOver hp hclaimed (by simp [Pass.unsent, hstage, hclaimed]) rfl,
        hs.setPass rfl rfl ?_⟩
      rintro p' ⟨⟩
      exact ⟨(hs n p hp).1, fun hstage ↦ by cases hstage⟩
    · cases hsend
  | write n written =>
    obtain ⟨p, hp, hwrite⟩ := Option.bind_eq_some_iff.mp h
    split at hwrite
    · next refused message rest hstage hclaimed =>
      obtain rfl := Option.some.inj hwrite
      refine ⟨?_, hs.setPass rfl rfl ?_⟩
      · cases written with
        | true => exact .record hp hclaimed (by simp [Pass.unsent, hstage, hclaimed]) rfl
        | false =>
          refine .idle ?_
          rintro p' ⟨⟩
          have hunsent : p.unsent = p.next.unsent := by
            rw [Pass.unsent_next]
            simp [Pass.unsent, hstage]
          exact .inr ⟨p, hp, rfl, List.tail_suffix _, hunsent ▸ List.suffix_rfl⟩
      · rintro p' ⟨⟩
        refine ⟨(hs n p hp).1, fun hstage ↦ ?_⟩
        by_contra hmore
        simp only [Pass.next] at hstage hmore
        simp [hmore] at hstage
    · cases hwrite
  | finish n =>
    obtain ⟨p, hp, -, rfl⟩ : ∃ p, s.passes n = some p ∧ p.stage = .visiting ∧ _ = s' := by
      simpa [step, Option.bind_eq_some_iff] using h
    exact hs.dropped
  | crash =>
    obtain ⟨p, hp, hs'⟩ := Option.bind_eq_some_iff.mp h
    obtain rfl := Option.some.inj hs'
    exact hs.dropped

/-- Attempts are counted before they are made, and none is made twice. -/
structure Counted (options : SendPendingOptions) (s : State) : Prop where
  bounded : ∀ id row, s.rows id = some row → row.attempts ≤ options.maxAttempts
  handed : ∀ m ∈ s.handed, s.rows.Counts m
  nodup : s.handed.Nodup
  held : ∀ n p, s.passes n = some p → ∀ m ∈ p.claimed, s.rows.Counts m
  fresh : ∀ n p, s.passes n = some p → p.unsent.Nodup ∧ ∀ m ∈ p.unsent, m ∉ s.handed
  apart : ∀ n p n' p', s.passes n = some p → s.passes n' = some p' →
    ∀ m ∈ p.unsent, m ∈ p'.unsent → n = n'

theorem Pass.unsent_suffix (p : Pass) : p.unsent <:+ p.claimed := by
  unfold Pass.unsent
  split
  · exact List.tail_suffix _
  · exact List.suffix_rfl

theorem Pass.attempts_mark {p : Pass} (m : Claimed) (refused : Option String) (row : QueueRow) :
    (p.mark options m refused row).attempts = row.attempts := by
  cases refused <;> rfl

theorem counted_of_start (h : Start s) : Counted options s := by
  obtain ⟨hrows, hpasses, hhanded⟩ := h
  constructor <;> simp [hrows, hpasses, hhanded]

namespace Counted

variable (hs : Counted options s)

include hs

/-- Where the rows keep their attempts, passes that hold no more than before have the same
attempts to make. -/
theorem pause (hgrows : s.rows.Grows s'.rows)
    (hbounded : ∀ id row, s'.rows id = some row → row.attempts ≤ options.maxAttempts)
    (hdrops : Drops s s') (hhanded : s'.handed = s.handed) : Counted options s' where
  bounded := hbounded
  handed := by
    intro m hm
    exact (hs.handed m (hhanded ▸ hm)).grows hgrows
  nodup := hhanded ▸ hs.nodup
  held := by
    intro n p' hp' m hm
    rcases hdrops n p' hp' with hempty | ⟨p, hp, -, hclaimed, -⟩
    · simp [hempty] at hm
    · exact (hs.held n p hp m (hclaimed.subset hm)).grows hgrows
  fresh := by
    intro n p' hp'
    rw [hhanded]
    rcases hdrops n p' hp' with hempty | ⟨p, hp, -, -, hunsent⟩
    · have hnil : p'.unsent = [] := List.suffix_nil.mp (hempty ▸ p'.unsent_suffix)
      simp [hnil]
    · obtain ⟨hnodup, hfresh⟩ := hs.fresh n p hp
      exact ⟨hnodup.sublist hunsent.sublist, fun m hm ↦ hfresh m (hunsent.subset hm)⟩
  apart := by
    intro n p₁ n' p₂ hp₁ hp₂ m hm₁ hm₂
    rcases hdrops n p₁ hp₁ with hempty | ⟨p, hp, -, -, hunsent⟩
    · have hnil : p₁.unsent = [] := List.suffix_nil.mp (hempty ▸ p₁.unsent_suffix)
      simp [hnil] at hm₁
    rcases hdrops n' p₂ hp₂ with hempty' | ⟨p', hp', -, -, hunsent'⟩
    · have hnil : p₂.unsent = [] := List.suffix_nil.mp (hempty' ▸ p₂.unsent_suffix)
      simp [hnil] at hm₂
    exact hs.apart n p n' p' hp hp' m (hunsent.subset hm₁) (hunsent'.subset hm₂)

/-- A claim counts one attempt for each message. -/
theorem claim {n : ℕ} {tenantId : String} {ids : List String} {p : Pass}
    (hoffers : s.rows.offers tenantId options.maxAttempts options.batchSize p.now ids = true) :
    Counted options (s.claimBatch n p ids) := by
  have hgrows : s.rows.Grows (s.claimBatch n p ids).rows :=
    Rows.claim_grows _ _ _
  have hnew : ∀ m ∈ s.rows.claimed ids, ¬s.rows.Counts m ∧
      (s.claimBatch n p ids).rows.Counts m := fun m hm ↦ Rows.claimed_counts hoffers hm
  -- Of a pass: it is the one that claimed, or it is as it was.
  have hpass : ∀ n' p', (s.claimBatch n p ids).passes n' = some p' →
      (n' = n ∧ p'.claimed = s.rows.claimed ids ∧ p'.unsent <:+ s.rows.claimed ids) ∨
      (n' ≠ n ∧ s.passes n' = some p') := by
    intro n' p' hp'
    rcases passes_setPass hp' with ⟨hn, hset⟩ | hold
    · obtain rfl := Option.some.inj hset
      exact .inl ⟨hn, rfl, Pass.unsent_suffix _⟩
    · exact .inr hold
  obtain ⟨hids, -, hdue⟩ := Rows.offers_iff.mp hoffers
  constructor
  · intro id row hrow
    by_cases hid : id ∈ ids
    · obtain ⟨row', hrow', -, hdue'⟩ := hdue id hid
      obtain rfl : row'.claim _ _ = row := by
        simpa [State.claimBatch, Rows.claim_of_mem hid hrow'] using hrow
      exact (QueueRow.due_iff.mp hdue').2.1
    · exact hs.bounded id row (by simpa [State.claimBatch, Rows.claim_of_notMem hid] using hrow)
  · exact fun m hm ↦ (hs.handed m hm).grows hgrows
  · exact hs.nodup
  · intro n' p' hp' m hm
    rcases hpass n' p' hp' with ⟨-, hclaimed, -⟩ | ⟨-, hold⟩
    · exact (hnew m (hclaimed ▸ hm)).2
    · exact (hs.held n' p' hold m hm).grows hgrows
  · intro n' p' hp'
    rcases hpass n' p' hp' with ⟨-, -, hunsent⟩ | ⟨-, hold⟩
    · refine ⟨(Rows.nodup_claimed hids).sublist hunsent.sublist, fun m hm hhanded ↦ ?_⟩
      exact (hnew m (hunsent.subset hm)).1 (hs.handed m hhanded)
    · exact hs.fresh n' p' hold
  · intro n₁ p₁ n₂ p₂ hp₁ hp₂ m hm₁ hm₂
    rcases hpass n₁ p₁ hp₁ with ⟨h₁, -, hunsent₁⟩ | ⟨h₁, hold₁⟩ <;>
      rcases hpass n₂ p₂ hp₂ with ⟨h₂, -, hunsent₂⟩ | ⟨h₂, hold₂⟩
    · exact h₁.trans h₂.symm
    · exact absurd (hs.held n₂ p₂ hold₂ m (p₂.unsent_suffix.subset hm₂))
        (hnew m (hunsent₁.subset hm₁)).1
    · exact absurd (hs.held n₁ p₁ hold₁ m (p₁.unsent_suffix.subset hm₁))
        (hnew m (hunsent₂.subset hm₂)).1
    · exact hs.apart n₁ p₁ n₂ p₂ hold₁ hold₂ m hm₁ hm₂

/-- A message handed over was counted before, and is not handed over again. -/
theorem handOver {n : ℕ} {refused : Option String} {p : Pass} {message : Claimed}
    {rest : List Claimed} (hp : s.passes n = some p) (hclaimed : p.claimed = message :: rest)
    (hunsent : p.unsent = message :: rest) :
    Counted options { s.setPass n (some { p with stage := .answered refused }) with
      handed := message :: s.handed } := by
  have hpass : ∀ n' p', (s.setPass n (some { p with stage := .answered refused })).passes n' =
      some p' → (n' = n ∧ p'.claimed = p.claimed ∧ p'.unsent = rest) ∨
        (n' ≠ n ∧ s.passes n' = some p') := by
    intro n' p' hp'
    rcases passes_setPass hp' with ⟨hn, hset⟩ | hold
    · obtain rfl := Option.some.inj hset
      exact .inl ⟨hn, rfl, by simp [Pass.unsent, hclaimed]⟩
    · exact .inr hold
  obtain ⟨hnodup, hfresh⟩ := hs.fresh n p hp
  rw [hunsent] at hnodup hfresh
  have hmessage : s.rows.Counts message := hs.held n p hp message (by simp [hclaimed])
  constructor
  · exact hs.bounded
  · intro m hm
    rcases List.mem_cons.mp hm with rfl | hm
    · exact hmessage
    · exact hs.handed m hm
  · exact List.nodup_cons.mpr ⟨hfresh message (by simp), hs.nodup⟩
  · intro n' p' hp' m hm
    rcases hpass n' p' hp' with ⟨-, hsame, -⟩ | ⟨-, hold⟩
    · exact hs.held n p hp m (hsame ▸ hm)
    · exact hs.held n' p' hold m hm
  · intro n' p' hp'
    rcases hpass n' p' hp' with ⟨-, -, hrest⟩ | ⟨hn, hold⟩
    · rw [hrest]
      refine ⟨(List.nodup_cons.mp hnodup).2, fun m hm ↦ ?_⟩
      have hne : m ≠ message := fun h ↦ (List.nodup_cons.mp hnodup).1 (h ▸ hm)
      simpa [hne] using hfresh m (List.mem_cons_of_mem _ hm)
    · refine ⟨(hs.fresh n' p' hold).1, fun m hm ↦ ?_⟩
      have hne : m ≠ message := by
        rintro rfl
        exact hn (hs.apart n' p' n p hold hp m hm (by simp [hunsent]))
      simpa [hne] using (hs.fresh n' p' hold).2 m hm
  · intro n₁ p₁ n₂ p₂ hp₁ hp₂ m hm₁ hm₂
    have hold : ∀ n' p', (s.setPass n (some { p with stage := .answered refused })).passes n' =
        some p' → m ∈ p'.unsent → ∃ q, s.passes n' = some q ∧ m ∈ q.unsent := by
      intro n' p' hp' hm
      rcases hpass n' p' hp' with ⟨rfl, -, hrest⟩ | ⟨-, hold⟩
      · exact ⟨p, hp, by simp [hunsent, hrest ▸ hm]⟩
      · exact ⟨p', hold, hm⟩
    obtain ⟨q₁, hq₁, hq₁m⟩ := hold n₁ p₁ hp₁ hm₁
    obtain ⟨q₂, hq₂, hq₂m⟩ := hold n₂ p₂ hp₂ hm₂
    exact hs.apart n₁ q₁ n₂ q₂ hq₁ hq₂ m hq₁m hq₂m

theorem act (h : Act options s s' l) : Counted options s' := by
  cases h with
  | pause hrows hnew hdrops hhanded =>
    refine hs.pause (Rows.grows_of_kept hrows) ?_ hdrops hhanded
    intro id row hrow
    rcases hnew id row hrow with hold | hzero
    · exact hs.bounded id row hold
    · omega
  | claim _ _ hoffers hs' => exact hs' ▸ hs.claim hoffers
  | handOver hp hclaimed hunsent hs' => exact hs' ▸ hs.handOver hp hclaimed hunsent
  | @record n refused p message rest hp hclaimed hunsent hs' =>
    subst hs'
    refine hs.pause (Rows.updateUnsent_grows fun row _ ↦ (p.attempts_mark ..).ge) ?_
      (.of_setPass rfl ?_) rfl
    · exact Rows.updateUnsent_bounded hs.bounded fun row ↦
        (p.attempts_mark message refused row).le.trans (Nat.le_max_left ..)
    · rintro p' ⟨⟩
      exact .inr ⟨p, hp, rfl, List.tail_suffix _, by simp [hclaimed, hunsent]⟩

end Counted

end Odudu.Outbox.SendPending
