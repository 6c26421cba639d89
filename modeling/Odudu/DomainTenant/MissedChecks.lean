import Odudu.DomainTenant.Rechecks

/-!
# The misses that fail a domain

A row's count is never above the misses counted since a pass last settled a match for it
(`Counted`), as long as a match that is settled on a count of zero finds it still zero
(`countStands`): a match is only written where the page had read a count above zero.
-/

set_option autoImplicit false

namespace Odudu.DomainTenant.Rechecks

variable {Id Tenant Host : Type}

/-! ### Statements -/

section Statements

variable {rows : List (DomainRow Id Tenant Host)} {key : Tenant × Id}

/-- Rows after statements that change nothing but the address. -/
def Readdressed (rows rows' : List (DomainRow Id Tenant Host)) : Prop :=
  ∃ f : DomainRow Id Tenant Host → DomainRow Id Tenant Host,
    (∀ row, f row = { row with canonical := (f row).canonical }) ∧ rows' = rows.map f

theorem Readdressed.refl (rows : List (DomainRow Id Tenant Host)) : Readdressed rows rows :=
  ⟨id, fun _ ↦ rfl, (List.map_id rows).symm⟩

variable [DecidableEq Tenant]

theorem readdressed_clearCanonical (rows : List (DomainRow Id Tenant Host)) (tenantId : Tenant) :
    Readdressed rows (clearCanonical rows tenantId) := by
  refine ⟨_, fun row ↦ ?_, rfl⟩
  split
  · rfl
  · rfl

variable [DecidableEq Id] {rows' : List (DomainRow Id Tenant Host)}

theorem readdressed_setCanonical
    (h : setCanonical rows key = some rows') : Readdressed rows rows' := by
  unfold setCanonical at h
  split_ifs at h
  refine ⟨_, fun row ↦ ?_, (Option.some.inj h).symm⟩
  split
  · rfl
  · split
    · rfl
    · rfl

variable {tenantId : Tenant}

theorem readdressed_switchRows [DecidableEq Host] {next : Option (DomainRow Id Tenant Host)}
    (h : switchRows rows tenantId next = some rows') :
    Readdressed rows rows' := by
  cases next with
  | none =>
    rw [← Option.some.inj h]
    exact readdressed_clearCanonical rows tenantId
  | some => exact readdressed_setCanonical h

/-- A switch changes nothing but the address. -/
theorem readdressed_switchCanonical [DecidableEq Host] {hasBase : Bool} {s : Store Id Tenant Host}
    {seen : Option Id} {target : Option Id} {now : ℕ}
    {precondition : Option (DomainRow Id Tenant Host) → Bool} :
    Readdressed s.rows
      (switchCanonical hasBase s seen tenantId target now precondition).2.rows := by
  unfold switchCanonical
  split
  · exact Readdressed.refl s.rows
  · simp only
    split
    · exact Readdressed.refl s.rows
    · split
      · exact Readdressed.refl s.rows
      · split
        · exact Readdressed.refl s.rows
        · split
          · exact Readdressed.refl s.rows
          · split
            · exact Readdressed.refl s.rows
            · rename_i hrows
              exact readdressed_switchRows hrows

variable {row : DomainRow Id Tenant Host}

theorem get_spec (h : get rows key = some row) :
    row ∈ rows ∧ row.key = key :=
  ⟨List.mem_of_find?_eq_some h, by simpa using List.find?_some h⟩

theorem isSome_get (h : row ∈ rows) (hkey : row.key = key) :
    (get rows key).isSome = true := by
  unfold get
  rw [List.find?_isSome]
  exact ⟨row, h, decide_eq_true hkey⟩

theorem mem_updateOwn {set : DomainRow Id Tenant Host → DomainRow Id Tenant Host}
    (h : row ∈ updateOwn rows key set) :
    (∃ old ∈ rows, old.key = key ∧ row = set old) ∨ (row ∈ rows ∧ row.key ≠ key) := by
  obtain ⟨old, hold, rfl⟩ := List.mem_map.mp h
  by_cases hkey : old.key = key
  · rw [if_pos hkey]
    exact Or.inl ⟨old, hold, hkey, rfl⟩
  · rw [if_neg hkey]
    exact Or.inr ⟨hold, hkey⟩

theorem isSome_get_of_recordCheck {rows : List (DomainRow Id Tenant Host)} {key : Tenant × Id}
    {passed : Bool} {found : DomainRow Id Tenant Host}
    (h : get (recordCheck rows key passed) key = some found) : (get rows key).isSome = true := by
  obtain ⟨hmem, hkey⟩ := get_spec h
  rcases mem_updateOwn hmem with ⟨old, hold, hsame, -⟩ | ⟨-, hother⟩
  · exact isSome_get hold hsame
  · exact absurd hkey hother

end Statements

/-! ### Counts -/

section Counts

variable [DecidableEq Id] [DecidableEq Tenant]

/-- The misses of a row that were counted since a pass last settled a match for it. -/
def missesSince (key : Tenant × Id) : List (Event Id Tenant) → ℕ
  | [] => 0
  | .missed other :: older => (if other = key then 1 else 0) + missesSince key older
  | .matched other :: older => if other = key then 0 else missesSince key older
  | .failed _ :: older => missesSince key older

/-- Every row that failed did so on as many misses as the threshold, with no match between. -/
def Unbroken (threshold : ℕ) : List (Event Id Tenant) → Prop
  | [] => True
  | .failed key :: older => threshold ≤ missesSince key older ∧ Unbroken threshold older
  | _ :: older => Unbroken threshold older

instance decidableUnbroken (threshold : ℕ) :
    DecidablePred (@Unbroken Id Tenant _ _ threshold)
  | [] => inferInstanceAs (Decidable True)
  | .failed key :: older =>
    have := decidableUnbroken threshold older
    inferInstanceAs (Decidable (threshold ≤ missesSince key older ∧ Unbroken threshold older))
  | .missed _ :: older => decidableUnbroken threshold older
  | .matched _ :: older => decidableUnbroken threshold older

/-- No count is above the misses since the last match. -/
def Counted (rows : List (DomainRow Id Tenant Host)) (history : List (Event Id Tenant)) : Prop :=
  ∀ row ∈ rows, row.failedChecks ≤ missesSince row.key history

variable {rows rows' : List (DomainRow Id Tenant Host)} {history : List (Event Id Tenant)}
  {key : Tenant × Id}

theorem Counted.readdressed (h : Counted rows history) (hrows : Readdressed rows rows') :
    Counted rows' history := by
  obtain ⟨f, hf, rfl⟩ := hrows
  intro row hrow
  obtain ⟨old, hold, rfl⟩ := List.mem_map.mp hrow
  rw [hf old]
  exact h old hold

theorem Counted.updateOwn (h : Counted rows history)
    {set : DomainRow Id Tenant Host → DomainRow Id Tenant Host}
    (hset : ∀ row, (set row).key = row.key ∧ (set row).failedChecks ≤ row.failedChecks) :
    Counted (updateOwn rows key set) history := by
  intro row hrow
  rcases mem_updateOwn hrow with ⟨old, hold, -, rfl⟩ | ⟨hold, -⟩
  · rw [(hset old).1]
    exact (hset old).2.trans (h old hold)
  · exact h row hold

theorem missesSince_missed (key other : Tenant × Id) (history : List (Event Id Tenant)) :
    missesSince key history ≤ missesSince key (.missed other :: history) :=
  Nat.le_add_left _ _

/-- The events of a counted miss, and the count it leaves. -/
theorem Counted.miss (h : Counted rows history) :
    Counted (recordCheck rows key false)
      ((if (get rows key).isSome then [.missed key] else []) ++ history) := by
  intro row hrow
  rcases mem_updateOwn hrow with ⟨old, hold, hkey, rfl⟩ | ⟨hold, hkey⟩
  · rw [if_pos (isSome_get hold hkey)]
    have hcount := h old hold
    have hsame : (DomainRow.key { old with failedChecks := old.failedChecks + 1 }) = key := hkey
    rw [hkey] at hcount
    simp only [Bool.false_eq_true, if_false, List.singleton_append, missesSince]
    rw [hsame, if_pos rfl]
    omega
  · have hcount := h row hold
    split
    · exact hcount.trans (missesSince_missed _ _ _)
    · exact hcount

theorem Counted.matched (h : Counted rows history)
    (hzero : ∀ row ∈ rows', row.key = key → row.failedChecks = 0)
    (hothers : ∀ row ∈ rows', row.key ≠ key → row ∈ rows) :
    Counted rows' (.matched key :: history) := by
  intro row hrow
  by_cases hkey : row.key = key
  · rw [hzero row hrow hkey]
    exact Nat.zero_le _
  · have hcount := h row (hothers row hrow hkey)
    rw [missesSince, if_neg fun hsame ↦ hkey hsame.symm]
    exact hcount

theorem Counted.delete (h : Counted rows history) : Counted (delete rows key) history :=
  fun row hrow ↦ h row (List.mem_of_mem_filter hrow)

theorem unbroken_missed {threshold : ℕ} (h : Unbroken threshold history) (missed : Bool) :
    Unbroken threshold ((if missed then [.missed key] else []) ++ history) := by
  cases missed with
  | true | false => exact h

end Counts

/-! ### Settled results -/

section Settle

variable [DecidableEq Id] [DecidableEq Tenant] [DecidableEq Host] {cfg : Config}
  {s : Store Id Tenant Host} {row : DomainRow Id Tenant Host} {luck : Luck Id} {now : ℕ}

/-- A miss is counted, and either that is all but for the address, or the row, found verified and
at its threshold, is failed. -/
theorem countMiss_cases (cfg : Config) (s : Store Id Tenant Host) (row : DomainRow Id Tenant Host)
    (luck : Luck Id) (now : ℕ) :
    ∃ rows, Readdressed (recordCheck s.rows row.key false) rows ∧
      (((countMiss cfg s row luck now).1.failed = false ∧
          (countMiss cfg s row luck now).2.rows = rows) ∨
        ∃ found, get (recordCheck s.rows row.key false) row.key = some found ∧
          cfg.threshold ≤ found.failedChecks ∧ (countMiss cfg s row luck now).1.failed = true ∧
            (countMiss cfg s row luck now).2.rows = markFailed rows row.key) := by
  unfold countMiss
  simp only
  split
  · exact ⟨_, Readdressed.refl _, Or.inl ⟨rfl, rfl⟩⟩
  · rename_i found hfound
    split
    · exact ⟨_, Readdressed.refl _, Or.inl ⟨rfl, rfl⟩⟩
    · rename_i hreached
      have hthreshold : cfg.threshold ≤ found.failedChecks :=
        Nat.le_of_not_lt fun hbelow ↦ hreached (Or.inr hbelow)
      split
      · split
        · exact ⟨_, readdressed_switchCanonical, Or.inl ⟨rfl, rfl⟩⟩
        · exact ⟨_, readdressed_switchCanonical, Or.inr ⟨found, hfound, hthreshold, rfl, rfl⟩⟩
      · exact ⟨_, Readdressed.refl _, Or.inr ⟨found, hfound, hthreshold, rfl, rfl⟩⟩

theorem counted_countMiss {history : List (Event Id Tenant)} (h : Counted s.rows history)
    (hunbroken : Unbroken cfg.threshold history) :
    Counted (countMiss cfg s row luck now).2.rows
        (missEvents s row.key (countMiss cfg s row luck now).1 ++ history) ∧
      Unbroken cfg.threshold
        (missEvents s row.key (countMiss cfg s row luck now).1 ++ history) := by
  obtain ⟨rows, hrows, hdone⟩ := countMiss_cases cfg s row luck now
  have hmissed := @Counted.miss _ _ _ _ _ _ _ row.key h
  rcases hdone with ⟨hfailed, hafter⟩ | ⟨found, hfound, hthreshold, hfailed, hafter⟩
  · rw [hafter, missEvents, hfailed]
    exact ⟨hmissed.readdressed hrows, unbroken_missed hunbroken _⟩
  · have hsome := isSome_get_of_recordCheck hfound
    rw [if_pos hsome] at hmissed
    rw [hafter, missEvents, hfailed, if_pos hsome]
    constructor
    · exact (hmissed.readdressed hrows).updateOwn fun row ↦ ⟨rfl, Nat.le_refl _⟩
    · obtain ⟨hmem, hkey⟩ := get_spec hfound
      have hcount := hmissed found hmem
      rw [hkey] at hcount
      exact ⟨hthreshold.trans hcount, hunbroken⟩

end Settle

/-! ### Runs -/

section Runs

variable [DecidableEq Id] [DecidableEq Tenant] [LinearOrder Host] {cfg : Config}
  {s s' : State Id Tenant Host}

/-- Whether a match that the page had read no misses of still finds none. -/
def countStands (s : State Id Tenant Host) : Act Id Tenant Host → Bool
  | .settle k _ _ =>
    match (s.passes k).bind fun pass ↦ pass.pending.head? with
    | none => true
    | some looked =>
      if looked.outcome = .matching ∧ looked.row.failedChecks = 0 then
        s.store.rows.all fun row ↦ row.key ≠ looked.row.key || row.failedChecks = 0
      else true
  | _ => true

/-- A condition on each step of a run, in the state that the step is taken in. -/
def Along (cfg : Config) (p : State Id Tenant Host → Act Id Tenant Host → Bool) :
    List (Act Id Tenant Host) → State Id Tenant Host → Bool
  | [], _ => true
  | act :: acts, s => p s act && ((step cfg s act).map (Along cfg p acts)).getD true

/-- What each step that meets the condition keeps, a run of such steps keeps. -/
theorem run_induction {p : State Id Tenant Host → Act Id Tenant Host → Bool}
    {I : State Id Tenant Host → Prop} {acts : List (Act Id Tenant Host)}
    (hkeeps : ∀ {s s' : State Id Tenant Host}, ∀ act ∈ acts, I s → p s act = true →
      step cfg s act = some s' → I s') {s s' : State Id Tenant Host} (h : I s)
    (hp : Along cfg p acts s = true) (hrun : run cfg acts s = some s') : I s' := by
  induction acts generalizing s with
  | nil => rwa [← Option.some.inj hrun]
  | cons act _ ih =>
    obtain ⟨middle, hstep, hrest⟩ := Option.bind_eq_some_iff.mp hrun
    rw [Along, Bool.and_eq_true, hstep] at hp
    exact ih (fun act hact ↦ hkeeps act (List.mem_cons_of_mem _ hact))
      (hkeeps act List.mem_cons_self h hp.1 hstep) hp.2 hrest

variable {history : List (Event Id Tenant)}

/-- A check that is settled leaves no count above the misses since the last match. -/
theorem counted_settle {looked : Looked Id Tenant Host} {luck : Luck Id} {now : ℕ}
    {st : Store Id Tenant Host}
    (h : Counted st.rows history) (hunbroken : Unbroken cfg.threshold history)
    (hstands : looked.outcome = .matching → looked.row.failedChecks = 0 →
      ∀ row ∈ st.rows, row.key = looked.row.key → row.failedChecks = 0) :
    Counted (settle cfg st looked luck now).1.rows
        ((settle cfg st looked luck now).2 ++ history) ∧
      Unbroken cfg.threshold ((settle cfg st looked luck now).2 ++ history) := by
  unfold settle
  cases houtcome : looked.outcome with
  | indeterminate => exact ⟨h, hunbroken⟩
  | absent =>
    simp only
    split
    · exact ⟨h, hunbroken⟩
    · exact counted_countMiss h hunbroken
  | matching =>
    simp only
    split
    · split
      · exact ⟨h, hunbroken⟩
      · refine ⟨h.matched ?_ ?_, hunbroken⟩
        · intro row hrow hkey
          rcases mem_updateOwn hrow with ⟨old, -, -, rfl⟩ | ⟨-, hother⟩
          · rfl
          · exact absurd hkey hother
        · intro row hrow hkey
          rcases mem_updateOwn hrow with ⟨old, -, hsame, rfl⟩ | ⟨hold, -⟩
          · exact absurd hsame hkey
          · exact hold
    · rename_i hcount
      refine ⟨h.matched ?_ fun _ hrow _ ↦ hrow, hunbroken⟩
      exact fun row hrow hkey ↦ hstands houtcome (Nat.eq_zero_of_not_pos hcount) row hrow hkey

theorem counted_verifyRows {rows : List (DomainRow Id Tenant Host)}
    {key : Tenant × Id} {state : DomainState}
    {found : TxtOutcome} (h : Counted rows history) (hunbroken : Unbroken cfg.threshold history) :
    Counted (verifyRows rows key state found).1 ((verifyRows rows key state found).2 ++ history) ∧
      Unbroken cfg.threshold ((verifyRows rows key state found).2 ++ history) := by
  unfold verifyRows
  split
  · exact ⟨h, hunbroken⟩
  · cases found with
    | indeterminate => exact ⟨h, hunbroken⟩
    | absent => exact ⟨h.miss, unbroken_missed hunbroken _⟩
    | matching =>
      refine ⟨?_, hunbroken⟩
      show Counted ((markVerified rows key).getD rows) history
      unfold markVerified
      split_ifs
      · exact h
      · rw [Option.getD_some]
        exact h.updateOwn fun row ↦ ⟨rfl, Nat.zero_le _⟩

theorem counted_insert {rows rows' : List (DomainRow Id Tenant Host)}
    {id : Id} {tenantId : Tenant} {host : Host}
    (h : Counted rows history) (hrows : insert rows id tenantId host = some rows') :
    Counted rows' history := by
  unfold insert at hrows
  split_ifs at hrows
  rw [← Option.some.inj hrows]
  intro row hrow
  rcases List.mem_cons.mp hrow with rfl | hrow
  · exact Nat.zero_le _
  · exact h row hrow

/-- One step keeps the counts. -/
theorem counted_step {act : Act Id Tenant Host} (h : Counted s.store.rows s.history)
    (hunbroken : Unbroken cfg.threshold s.history) (hstands : countStands s act = true)
    (hstep : step cfg s act = some s') :
    Counted s'.store.rows s'.history ∧ Unbroken cfg.threshold s'.history := by
  cases steps_of_step hstep with
  | start | page | finish | verifyRead => exact ⟨h, hunbroken⟩
  | settle hpass hpending =>
    rename_i looked pending
    refine counted_settle h hunbroken fun hmatching hzero row hrow hkey ↦ ?_
    simp only [countStands, hpass, hpending, Option.bind_some, List.head?_cons, hmatching, hzero,
      and_self, if_true, List.all_eq_true] at hstands
    have hrow' := hstands row hrow
    simpa [hkey] using hrow'
  | verifyWrite => exact counted_verifyRows h hunbroken
  | register hrows => exact ⟨counted_insert h hrows, hunbroken⟩
  | remove => exact ⟨h.delete, hunbroken⟩
  | switch => exact ⟨h.readdressed readdressed_switchCanonical, hunbroken⟩

/-- A run whose settled matches find the counts that were read fails no row but on an unbroken
run of misses. -/
theorem counted_run (acts : List (Act Id Tenant Host)) (s s' : State Id Tenant Host)
    (h : Counted s.store.rows s.history) (hunbroken : Unbroken cfg.threshold s.history)
    (hstands : Along cfg countStands acts s = true) (hrun : run cfg acts s = some s') :
    Counted s'.store.rows s'.history ∧ Unbroken cfg.threshold s'.history :=
  run_induction (I := fun s ↦ Counted s.store.rows s.history ∧ Unbroken cfg.threshold s.history)
    (fun _ _ hs hstands hstep ↦ counted_step hs.1 hs.2 hstands hstep) ⟨h, hunbroken⟩ hstands hrun

end Runs

end Odudu.DomainTenant.Rechecks
