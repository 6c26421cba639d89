import Odudu.DomainTenant.RecheckWalks

/-!
# When a recheck fails a domain

What a recheck keeps in every run (`PagesHold`, `WalksOnce`, `PassesEnd`, `FailedOff`,
`StaysVerified`), and that a domain fails only on an unbroken run of misses in a run whose
settled matches find the counts that were read.  A match is settled without a write where the
page read no misses, though a verification that was under way may have counted one since
(`overlooked_miss`).
-/

set_option autoImplicit false

namespace Odudu.DomainTenant.Rechecks

variable {Id Tenant Host : Type} [DecidableEq Id] [DecidableEq Tenant]

/-! ### Failing -/

section Failing

variable {rows : List (DomainRow Id Tenant Host)} {key : Tenant × Id}
  {row : DomainRow Id Tenant Host}

theorem failed_of_markFailed (h : row ∈ markFailed rows key)
    (hkey : row.key = key) : row.state = .failed ∧ row.canonical = false := by
  rcases mem_updateOwn h with ⟨old, -, -, rfl⟩ | ⟨-, hother⟩
  · exact ⟨rfl, rfl⟩
  · exact absurd hkey hother

theorem mem_recordCheck (h : row ∈ rows) (passed : Bool) :
    { row with failedChecks := if passed then 0 else row.failedChecks + 1 } ∈
      recordCheck rows row.key passed :=
  List.mem_map.mpr ⟨row, h, if_pos rfl⟩

/-- A check changes nothing of which row is canonical. -/
theorem canonical_recordCheck (rows : List (DomainRow Id Tenant Host)) (key : Tenant × Id)
    (passed : Bool) (tenantId : Tenant) :
    (canonical (recordCheck rows key passed) tenantId).map DomainRow.id =
      (canonical rows tenantId).map DomainRow.id := by
  unfold canonical recordCheck updateOwn
  rw [List.find?_map, Option.map_map]
  have hsame : ((fun row : DomainRow Id Tenant Host ↦
      decide (row.tenantId = tenantId) && row.canonical) ∘ fun row ↦
        if row.key = key then
          { row with failedChecks := if passed then 0 else row.failedChecks + 1 }
        else row) = fun row ↦ decide (row.tenantId = tenantId) && row.canonical := by
    funext row
    by_cases hkey : row.key = key <;> simp [hkey]
  have hid : (DomainRow.id ∘ fun row : DomainRow Id Tenant Host ↦
        if row.key = key then
          { row with failedChecks := if passed then 0 else row.failedChecks + 1 }
        else row) = DomainRow.id := by
    funext row
    by_cases hkey : row.key = key <;> simp [hkey]
  rw [hsame, hid]

theorem failed_of_missEvents {s : Store Id Tenant Host} {counted : Tenant × Id} {done : Done}
    (h : .failed key ∈ missEvents s counted done) : done.failed = true ∧ key = counted := by
  unfold missEvents at h
  rcases List.mem_append.mp h with h | h
  · split at h
    · rename_i hfailed
      exact ⟨hfailed, Event.failed.inj (List.mem_singleton.mp h)⟩
    · exact absurd h List.not_mem_nil
  · split at h
    · exact nomatch List.mem_singleton.mp h
    · exact absurd h List.not_mem_nil

variable [DecidableEq Host] {cfg : Config} {s : Store Id Tenant Host} {now : ℕ}
  {looked : Looked Id Tenant Host}

/-- A row that a settled result fails is failed and not canonical. -/
theorem failed_settle {luck : Luck Id}
    (h : .failed key ∈ (settle cfg s looked luck now).2)
    (hrow : row ∈ (settle cfg s looked luck now).1.rows) (hkey : row.key = key) :
    row.state = .failed ∧ row.canonical = false := by
  unfold settle at h hrow
  cases houtcome : looked.outcome with
  | indeterminate =>
    rw [houtcome] at h
    exact absurd h List.not_mem_nil
  | matching =>
    rw [houtcome] at h
    simp only at h
    split_ifs at h
    · exact absurd h List.not_mem_nil
    · exact nomatch List.mem_singleton.mp h
    · exact nomatch List.mem_singleton.mp h
  | absent =>
    rw [houtcome] at h hrow
    simp only at h hrow
    split_ifs at h hrow
    · exact absurd h List.not_mem_nil
    · obtain ⟨hfailed, hsame⟩ := failed_of_missEvents h
      obtain ⟨rows', -, hdone⟩ := countMiss_cases cfg s looked.row luck now
      rcases hdone with ⟨hkept, -⟩ | ⟨found, -, -, -, hafter⟩
      · rw [hkept] at hfailed
        exact absurd hfailed Bool.false_ne_true
      · rw [hafter] at hrow
        exact failed_of_markFailed hrow (hkey.trans hsame)

/-- The switch of a failing row's tenant cannot be made. -/
def SwitchFails (s : Store Id Tenant Host) (row : DomainRow Id Tenant Host) (luck : Luck Id) :
    Prop :=
  luck = .thrown ∨ ∃ seen, luck = .overtaken seen ∧
    seen ≠ (canonical s.rows row.tenantId).map DomainRow.id

theorem fallBack_overtaken {seen : Option Id}
    (h : seen ≠ (canonical s.rows row.tenantId).map DomainRow.id) :
    fallBack s row (.overtaken seen) now = (.conflict, s) := by
  unfold fallBack switchCanonical
  simp only [Luck.seen, Bool.not_true, Bool.false_eq_true, if_false]
  rw [if_pos h]

/-- A miss whose switch is overtaken is counted and changes nothing else. -/
theorem countMiss_overtaken {row found : DomainRow Id Tenant Host} {seen : Option Id}
    (hfound : get (recordCheck s.rows row.key false) row.key = some found)
    (hcanonical : found.canonical = true)
    (h : seen ≠ (canonical s.rows row.tenantId).map DomainRow.id) :
    (countMiss cfg s row (.overtaken seen) now).2.rows = recordCheck s.rows row.key false := by
  unfold countMiss
  simp only [hfound, hcanonical, if_true]
  split
  · rfl
  · rw [fallBack_overtaken (by rwa [canonical_recordCheck])]
    rfl

/-- A canonical row whose switch cannot be made stays verified and canonical. -/
theorem verified_settle (hdistinct : Distinct s.rows)
    {luck : Luck Id} (hfails : SwitchFails s looked.row luck)
    (hrow : row ∈ s.rows) (hkey : row.key = looked.row.key)
    (hcanonical : row.canonical = true) (hverified : row.state = .verified) :
    ∃ row' ∈ (settle cfg s looked luck now).1.rows,
      row'.key = row.key ∧ row'.state = .verified ∧ row'.canonical = true := by
  have hchecked (passed : Bool) : ∃ row' ∈ recordCheck s.rows looked.row.key passed,
      row'.key = row.key ∧ row'.state = .verified ∧ row'.canonical = true := by
    refine ⟨{ row with failedChecks := if passed then 0 else row.failedChecks + 1 }, ?_, rfl,
      hverified, hcanonical⟩
    rw [← hkey]
    exact mem_recordCheck hrow passed
  have hsame : ∃ row' ∈ s.rows, row'.key = row.key ∧ row'.state = .verified ∧
      row'.canonical = true := ⟨row, hrow, rfl, hverified, hcanonical⟩
  unfold settle
  split
  · exact hsame
  · split
    · split
      · exact hsame
      · exact hchecked true
    · exact hsame
  · split
    · exact hsame
    · rename_i hthrown
      obtain ⟨seen, rfl, hseen⟩ := hfails.resolve_left hthrown
      have hfound : get (recordCheck s.rows looked.row.key false) looked.row.key =
          some { row with failedChecks := row.failedChecks + 1 } := by
        rw [← hkey]
        exact (hdistinct.recordCheck false).get (mem_recordCheck hrow false)
      have hafter : (countMiss cfg s looked.row (.overtaken seen) now).2.rows =
          recordCheck s.rows looked.row.key false :=
        countMiss_overtaken hfound hcanonical hseen
      rw [hafter]
      exact hchecked false

end Failing

/-! ### What every run keeps -/

section Runs

variable [LinearOrder Host] {cfg : Config} {s s' : State Id Tenant Host}

/-- A page in which more than half of the answers say nothing changes nothing. -/
def PagesHold (cfg : Config) (s : State Id Tenant Host) : Prop :=
  ∀ k looked s', step cfg s (.page k looked) = some s' →
    looked.length < (looked.filter fun l ↦ l.outcome = .indeterminate).length * 2 →
      s'.store = s.store ∧ s'.history = s.history ∧
        ∃ pass, s'.passes k = some pass ∧ pass.pending = []

/-- A pass that starts has looked up, when it ends, each host that stayed verified once. -/
def WalksOnce (cfg : Config) (s : State Id Tenant Host) : Prop :=
  ∀ k host acts s₀ s₁ s₂, step cfg s (.start k) = some s₀ → run cfg acts s₀ = some s₁ →
    step cfg s₁ (.finish k) = some s₂ → .finish k ∉ acts →
      Along cfg (stays host) acts s₀ = true →
        ∃ pass, s₁.passes k = some pass ∧ pass.looked.count host = 1

/-- While no host is added, a pass that starts takes a bounded number of steps, and can always
take its next. -/
def PassesEnd (cfg : Config) (s : State Id Tenant Host) : Prop :=
  ∀ k acts s₀ s₁, step cfg s (.start k) = some s₀ → run cfg acts s₀ = some s₁ →
    .finish k ∉ acts → Along cfg (addsNone cfg) acts s₀ = true →
      (acts.filter (isOfPass k)).length ≤ 2 * (verifiedHosts s.store.rows).length + 1 ∧
        ∃ act, (isOfPass k act = true ∨ act = .finish k) ∧ (step cfg s₁ act).isSome = true

/-- A row that a transaction fails is off its tenant's address with it. -/
def FailedOff (cfg : Config) (s : State Id Tenant Host) : Prop :=
  ∀ k luck now s' key events, step cfg s (.settle k luck now) = some s' →
    s'.history = events ++ s.history → .failed key ∈ events →
      ∀ row ∈ s'.store.rows, row.key = key → row.state = .failed ∧ row.canonical = false

/-- A canonical row whose switch cannot be made stays verified. -/
def StaysVerified (cfg : Config) (s : State Id Tenant Host) : Prop :=
  ∀ k luck now s' pass looked pending, s.passes k = some pass → pass.pending = looked :: pending →
    step cfg s (.settle k luck now) = some s' → SwitchFails s.store looked.row luck →
      ∀ row ∈ s.store.rows, row.key = looked.row.key → row.canonical = true →
        row.state = .verified →
          ∃ row' ∈ s'.store.rows, row'.key = row.key ∧ row'.state = .verified ∧
            row'.canonical = true

theorem pagesHold (cfg : Config) (s : State Id Tenant Host) : PagesHold cfg s := by
  intro k looked s' hstep hmost
  cases steps_of_step hstep with
  | @page _ _ pass hpass hpending hlast hlooked =>
    refine ⟨rfl, rfl, _, setPass_self s k _, ?_⟩
    unfold turned
    split
    · exact hpending
    · exact if_neg (Nat.not_le.mpr hmost)

theorem walksOnce (hdistinct : Distinct s.store.rows) : WalksOnce cfg s :=
  fun _ _ _ _ _ _ hstart hrun hfinish hacts hstays ↦
    looked_once hdistinct hstart hrun hfinish hacts hstays

theorem passesEnd (hdistinct : Distinct s.store.rows) : PassesEnd cfg s := by
  intro k acts s₀ s₁ hstart hrun hacts hnone
  obtain ⟨pass, hpass, hbound⟩ := pass_ends hdistinct hstart hrun hacts hnone
  exact ⟨hbound, pass_continues hpass⟩

theorem failedOff (cfg : Config) (s : State Id Tenant Host) : FailedOff cfg s := by
  intro k luck now s' key events hstep hevents hfailed row hrow hkey
  cases steps_of_step hstep with
  | settle =>
    rw [← List.append_cancel_right hevents] at hfailed
    exact failed_settle hfailed hrow hkey

theorem staysVerified (hdistinct : Distinct s.store.rows) : StaysVerified cfg s := by
  intro k luck now s' pass looked pending hpass hpending hstep hfails row hrow hkey hcanonical
    hverified
  cases steps_of_step hstep with
  | settle hpass' hpending' =>
    obtain rfl := Option.some.inj (hpass.symm.trans hpass')
    obtain ⟨rfl, rfl⟩ := List.cons.inj (hpending.symm.trans hpending')
    exact verified_settle hdistinct hfails hrow hkey hcanonical hverified

/-- In a run whose settled matches find the counts that were read, a domain fails only on as many
misses as the threshold with no settled match between; and every run keeps the rest. -/
theorem domains_fail_on_unbroken_misses (cfg : Config) (acts : List (Act Id Tenant Host))
    (hrun : run cfg acts initial = some s) (hstands : Along cfg countStands acts initial = true) :
    Unbroken cfg.threshold s.history ∧ PagesHold cfg s ∧ WalksOnce cfg s ∧ PassesEnd cfg s ∧
      FailedOff cfg s ∧ StaysVerified cfg s := by
  have hdistinct : Distinct s.store.rows := distinct_run acts initial s List.Pairwise.nil hrun
  have hcounted := counted_run acts initial s (fun row hrow ↦ absurd hrow List.not_mem_nil)
    trivial hstands hrun
  exact ⟨hcounted.2, pagesHold cfg s, walksOnce hdistinct, passesEnd hdistinct, failedOff cfg s,
    staysVerified hdistinct⟩

/-- Two misses fail a domain. -/
def twice : Config := ⟨500, by decide, 2⟩

/-- A domain with a count of misses, as the page of a pass reads it. -/
def verifiedRow (failedChecks : ℕ) : DomainRow ℕ ℕ ℕ := ⟨1, 1, 1, .verified, failedChecks, false⟩

/-- A domain that is registered and verified, with a second verification still under way. -/
def verifiedTwice : List (Act ℕ ℕ ℕ) :=
  [.register 1 1 1, .verifyRead 0 (1, 1), .verifyRead 1 (1, 1), .verifyWrite 1 .matching]

/-- The verification counts a miss after the page of a pass was read and before its match is
settled; the next pass misses once. -/
def overlookedMiss : List (Act ℕ ℕ ℕ) :=
  verifiedTwice ++ [.start 0, .page 0 [⟨verifiedRow 0, .matching⟩], .verifyWrite 0 .absent,
    .settle 0 .calm 0, .finish 0, .start 0, .page 0 [⟨verifiedRow 1, .absent⟩],
    .settle 0 .calm 0, .finish 0]

/-- A pass settles a match, and one miss of a pass after it fails the domain at a threshold of
two. -/
theorem overlooked_miss :
    ∃ s, run twice overlookedMiss initial = some s ∧
      s.history = [.failed (1, 1), .missed (1, 1), .matched (1, 1), .missed (1, 1)] ∧
        ¬Unbroken twice.threshold s.history := by
  have hhistory : (run twice overlookedMiss initial).map State.history =
      some [.failed (1, 1), .missed (1, 1), .matched (1, 1), .missed (1, 1)] := by
    decide +kernel
  obtain ⟨s, hrun, hs⟩ := Option.map_eq_some_iff.mp hhistory
  refine ⟨s, hrun, hs, ?_⟩
  rw [hs]
  decide

/-- The verification counts its miss before the page is read, and two passes after the match miss
the domain. -/
def seenMiss : List (Act ℕ ℕ ℕ) :=
  verifiedTwice ++ [.verifyWrite 0 .absent, .start 0, .page 0 [⟨verifiedRow 1, .matching⟩],
    .settle 0 .calm 0, .finish 0, .start 0, .page 0 [⟨verifiedRow 0, .absent⟩],
    .settle 0 .calm 0, .finish 0, .start 0, .page 0 [⟨verifiedRow 1, .absent⟩],
    .settle 0 .calm 0, .finish 0]

theorem domains_fail_on_unbroken_misses_seen :
    ∃ s, run twice seenMiss initial = some s ∧
      s.history = [.failed (1, 1), .missed (1, 1), .missed (1, 1), .matched (1, 1),
        .missed (1, 1)] ∧ Unbroken twice.threshold s.history ∧ WalksOnce twice s := by
  have hhistory : (run twice seenMiss initial).map State.history =
      some [.failed (1, 1), .missed (1, 1), .missed (1, 1), .matched (1, 1), .missed (1, 1)] := by
    decide +kernel
  obtain ⟨s, hrun, hs⟩ := Option.map_eq_some_iff.mp hhistory
  have hkept := domains_fail_on_unbroken_misses twice seenMiss hrun (by decide +kernel)
  exact ⟨s, hrun, hs, hkept.1, hkept.2.2.1⟩

end Runs

end Odudu.DomainTenant.Rechecks
