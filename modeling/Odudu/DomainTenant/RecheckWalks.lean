import Mathlib.Data.List.Perm.Subperm
import Odudu.DomainTenant.MissedChecks

/-!
# The walk of a recheck

A pass reads pages of a table that changes under it.  The hosts of verified rows are each of one
row (`Distinct`), so a host that stays verified is on one page of the pass, and of it once
(`Covers`); and each page, result and end of a pass counts down to its last (`remaining`).
-/

set_option autoImplicit false

namespace Odudu.DomainTenant.Rechecks

variable {Id Tenant Host : Type}

/-! ### Keys and verified hosts are of one row -/

/-- No two rows have a key, and no two verified rows a host. -/
def Distinct (rows : List (DomainRow Id Tenant Host)) : Prop :=
  rows.Pairwise fun a b ↦ a.key ≠ b.key ∧
    (isVerified a = true → isVerified b = true → a.host ≠ b.host)

section Distinct

variable {rows : List (DomainRow Id Tenant Host)} {key : Tenant × Id}

theorem Distinct.map (h : Distinct rows) {f : DomainRow Id Tenant Host → DomainRow Id Tenant Host}
    (hf : ∀ row, (f row).key = row.key ∧ (f row).host = row.host ∧
      (isVerified (f row) = true → isVerified row = true)) : Distinct (rows.map f) := by
  unfold Distinct
  rw [List.pairwise_map]
  refine h.imp ?_
  rintro a b ⟨hkey, hhost⟩
  obtain ⟨hakey, hahost, haverified⟩ := hf a
  obtain ⟨hbkey, hbhost, hbverified⟩ := hf b
  constructor
  · rwa [hakey, hbkey]
  · intro ha hb
    rw [hahost, hbhost]
    exact hhost (haverified ha) (hbverified hb)

/-- The hosts of verified rows. -/
def verifiedHosts (rows : List (DomainRow Id Tenant Host)) : List Host :=
  (rows.filter isVerified).map DomainRow.host

theorem mem_verifiedHosts {host : Host} :
    host ∈ verifiedHosts rows ↔ ∃ row ∈ rows, isVerified row = true ∧ row.host = host := by
  unfold verifiedHosts
  simp only [List.mem_map, List.mem_filter, and_assoc]

theorem Distinct.nodup (h : Distinct rows) : (verifiedHosts rows).Nodup := by
  unfold verifiedHosts
  rw [List.Nodup, List.pairwise_map, List.pairwise_filter]
  exact h.imp fun hab ha hb ↦ hab.2 ha hb

theorem Distinct.eq_of_key (h : Distinct rows) {row other : DomainRow Id Tenant Host}
    (hrow : row ∈ rows) (hother : other ∈ rows) (hkey : row.key = other.key) : row = other := by
  have hkeys : (rows.map DomainRow.key).Nodup := by
    rw [List.Nodup, List.pairwise_map]
    exact h.imp And.left
  exact List.inj_on_of_nodup_map hkeys hrow hother hkey

variable {rows' : List (DomainRow Id Tenant Host)}

theorem Distinct.readdressed (h : Distinct rows)
    (hrows : Readdressed rows rows') : Distinct rows' := by
  obtain ⟨f, hf, rfl⟩ := hrows
  refine h.map fun row ↦ ?_
  rw [hf row]
  exact ⟨rfl, rfl, fun hverified ↦ hverified⟩

variable [DecidableEq Id] [DecidableEq Tenant]

theorem Distinct.updateOwn (h : Distinct rows)
    {set : DomainRow Id Tenant Host → DomainRow Id Tenant Host}
    (hset : ∀ row, (set row).key = row.key ∧ (set row).host = row.host ∧
      (isVerified (set row) = true → isVerified row = true)) :
    Distinct (updateOwn rows key set) := by
  refine h.map fun row ↦ ?_
  split
  · exact hset row
  · exact ⟨rfl, rfl, fun hverified ↦ hverified⟩

theorem Distinct.delete (h : Distinct rows) : Distinct (delete rows key) := h.filter _

theorem Distinct.get (h : Distinct rows) {row : DomainRow Id Tenant Host} (hrow : row ∈ rows) :
    get rows row.key = some row := by
  have hsome : (Rechecks.get rows row.key).isSome = true := by
    unfold Rechecks.get
    rw [List.find?_isSome]
    exact ⟨row, hrow, decide_eq_true rfl⟩
  obtain ⟨found, hfound⟩ := Option.isSome_iff_exists.mp hsome
  have hmem : found ∈ rows := List.mem_of_find?_eq_some hfound
  have hkey : found.key = row.key := by
    simpa using List.find?_some hfound
  rw [hfound, h.eq_of_key hmem hrow hkey]

theorem Distinct.recordCheck (h : Distinct rows) (passed : Bool) :
    Distinct (recordCheck rows key passed) :=
  h.updateOwn fun _ ↦ ⟨rfl, rfl, fun hverified ↦ hverified⟩

theorem Distinct.markFailed (h : Distinct rows) : Distinct (markFailed rows key) :=
  h.updateOwn fun _ ↦ ⟨rfl, rfl, fun hverified ↦ nomatch hverified⟩

variable [DecidableEq Host]

theorem Distinct.insert (h : Distinct rows) {id : Id}
    {tenantId : Tenant} {host : Host} (hrows : insert rows id tenantId host = some rows') :
    Distinct rows' := by
  unfold Rechecks.insert at hrows
  split_ifs at hrows with hlimit htaken
  rw [← Option.some.inj hrows]
  refine List.pairwise_cons.mpr ⟨fun other hother ↦ ⟨fun hkey ↦ htaken ?_, fun hverified ↦ ?_⟩, h⟩
  · rw [List.any_eq_true]
    refine ⟨other, hother, ?_⟩
    rw [Bool.or_eq_true]
    exact Or.inl (decide_eq_true (congrArg Prod.snd hkey).symm)
  · exact nomatch hverified

/-- The index of verified hosts refuses a second row of a host. -/
theorem Distinct.markVerified (h : Distinct rows)
    (hrows : markVerified rows key = some rows') : Distinct rows' := by
  unfold Rechecks.markVerified at hrows
  split_ifs at hrows with helsewhere
  rw [← Option.some.inj hrows]
  have hfree {row other : DomainRow Id Tenant Host} (hrow : row ∈ rows) (hkey : row.key = key)
      (hother : other ∈ rows) (hverified : isVerified other = true) (hapart : other.key ≠ key) :
      row.host ≠ other.host := by
    intro hhost
    refine helsewhere ?_
    unfold verifiedElsewhere
    simp only [List.any_eq_true, Bool.and_eq_true, decide_eq_true_eq]
    exact ⟨row, hrow, hkey, other, hother, ⟨hapart, of_decide_eq_true hverified⟩, hhost.symm⟩
  unfold Distinct Rechecks.updateOwn
  rw [List.pairwise_map]
  refine h.imp_of_mem ?_
  rintro a b ha hb ⟨hkeys, hhosts⟩
  by_cases hakey : a.key = key
  · have hbkey : b.key ≠ key := fun hbkey ↦ hkeys (hakey.trans hbkey.symm)
    rw [if_pos hakey, if_neg hbkey]
    exact ⟨hkeys, fun _ hverified ↦ @hfree a b ha hakey hb hverified hbkey⟩
  · rw [if_neg hakey]
    by_cases hbkey : b.key = key
    · rw [if_pos hbkey]
      exact ⟨hkeys, fun hverified _ ↦ (@hfree b a hb hbkey ha hverified hakey).symm⟩
    · rw [if_neg hbkey]
      exact ⟨hkeys, hhosts⟩

theorem Distinct.countMiss (cfg : Config) {s : Store Id Tenant Host} (h : Distinct s.rows)
    (row : DomainRow Id Tenant Host) (luck : Luck Id) (now : ℕ) :
    Distinct (countMiss cfg s row luck now).2.rows := by
  obtain ⟨rows, hrows, hdone⟩ := countMiss_cases cfg s row luck now
  have hcounted := (h.recordCheck false).readdressed hrows
  rcases hdone with ⟨-, hafter⟩ | ⟨found, -, -, -, hafter⟩
  · rwa [hafter]
  · rw [hafter]
    exact hcounted.markFailed

theorem Distinct.settle (cfg : Config) {s : Store Id Tenant Host} (h : Distinct s.rows)
    (looked : Looked Id Tenant Host) (luck : Luck Id) (now : ℕ) :
    Distinct (settle cfg s looked luck now).1.rows := by
  unfold Rechecks.settle
  split
  · exact h
  · split
    · split
      · exact h
      · exact h.recordCheck true
    · exact h
  · split
    · exact h
    · exact h.countMiss cfg looked.row luck now

theorem Distinct.verifyRows (h : Distinct rows) (state : DomainState) (found : TxtOutcome) :
    Distinct (verifyRows rows key state found).1 := by
  unfold Rechecks.verifyRows
  split
  · exact h
  · cases found with
    | indeterminate => exact h
    | absent => exact h.recordCheck false
    | matching =>
      show Distinct ((Rechecks.markVerified rows key).getD rows)
      cases hrows : Rechecks.markVerified rows key with
      | none => exact h
      | some => exact h.markVerified hrows

end Distinct

section Steps

variable [DecidableEq Id] [DecidableEq Tenant] [LinearOrder Host] {cfg : Config}
  {s s' : State Id Tenant Host}

/-- No step gives two rows one key, or two verified rows one host. -/
theorem distinct_step {act : Act Id Tenant Host} (h : Distinct s.store.rows)
    (hstep : step cfg s act = some s') : Distinct s'.store.rows := by
  cases steps_of_step hstep with
  | start | page | finish | verifyRead => exact h
  | settle => exact h.settle cfg _ _ _
  | verifyWrite => exact h.verifyRows _ _
  | register hrows => exact h.insert hrows
  | remove => exact h.delete
  | switch => exact h.readdressed readdressed_switchCanonical

/-- So no run does. -/
theorem distinct_run (acts : List (Act Id Tenant Host)) :
    ∀ s s' : State Id Tenant Host, Distinct s.store.rows → run cfg acts s = some s' →
      Distinct s'.store.rows := by
  induction acts with
  | nil =>
    intro s s' h hrun
    rwa [← Option.some.inj hrun]
  | cons _ _ ih =>
    intro s s' h hrun
    obtain ⟨middle, hstep, hrest⟩ := Option.bind_eq_some_iff.mp hrun
    exact ih middle s' (distinct_step h hstep) hrest

end Steps

/-! ### Pages -/

section Pages

variable [LinearOrder Host] {rows : List (DomainRow Id Tenant Host)} {after : Option Host}
  {limit : ℕ}

/-- The rows of a page and of those after it, in the order of their hosts. -/
theorem exists_page (h : Distinct rows) (after : Option Host) (limit : ℕ) :
    ∃ rest, (verifiedDomainPage rows after limit ++ rest).Perm
        (rows.filter fun row ↦ isVerified row && isAfter after row.host) ∧
      (verifiedDomainPage rows after limit ++ rest).Pairwise (fun a b ↦ a.host < b.host) ∧
        (rest ≠ [] → (verifiedDomainPage rows after limit).length = limit) := by
  let found := rows.filter fun row ↦ isVerified row && isAfter after row.host
  let sorted := Listings.descending (fun row : DomainRow Id Tenant Host ↦
    OrderDual.toDual row.host) found
  have hsplit : verifiedDomainPage rows after limit ++ sorted.drop limit = sorted :=
    List.take_append_drop limit sorted
  have hnodup : (found.map fun row ↦ OrderDual.toDual row.host).Nodup := by
    rw [List.Nodup, List.pairwise_map, List.pairwise_filter]
    refine h.imp ?_
    rintro a b ⟨-, hhosts⟩ ha hb
    rw [Bool.and_eq_true] at ha hb
    exact fun hsame ↦ hhosts ha.1 hb.1 hsame
  refine ⟨sorted.drop limit, ?_, ?_, ?_⟩
  · rw [hsplit]
    exact Listings.descending_perm found
  · rw [hsplit]
    exact Listings.descending_descends hnodup
  · intro hrest
    have hlimit : limit < sorted.length := by
      by_contra hle
      exact hrest (List.drop_eq_nil_of_le (Nat.le_of_not_lt hle))
    exact List.length_take_of_le (Nat.le_of_lt hlimit)

theorem mem_page (h : Distinct rows) {row : DomainRow Id Tenant Host}
    (hrow : row ∈ verifiedDomainPage rows after limit) :
    row ∈ rows ∧ isVerified row = true ∧ isAfter after row.host = true := by
  obtain ⟨rest, hperm, -, -⟩ := exists_page h after limit
  have hmem := hperm.mem_iff.mp (List.mem_append_left _ hrow)
  rw [List.mem_filter, Bool.and_eq_true] at hmem
  exact hmem

theorem nodup_page (h : Distinct rows) :
    ((verifiedDomainPage rows after limit).map DomainRow.host).Nodup := by
  obtain ⟨rest, -, hsorted, -⟩ := exists_page h after limit
  rw [List.Nodup, List.pairwise_map]
  exact (List.pairwise_append.mp hsorted).1.imp ne_of_lt

theorem le_last (h : Distinct rows) {last row : DomainRow Id Tenant Host}
    (hlast : (verifiedDomainPage rows after limit).getLast? = some last)
    (hrow : row ∈ verifiedDomainPage rows after limit) : row.host ≤ last.host := by
  obtain ⟨rest, -, hsorted, -⟩ := exists_page h after limit
  obtain ⟨first, hfirst⟩ := List.getLast?_eq_some_iff.mp hlast
  have hpage := (List.pairwise_append.mp hsorted).1
  rw [hfirst] at hrow hpage
  rcases List.mem_append.mp hrow with hrow | hrow
  · exact ((List.pairwise_append.mp hpage).2.2 row hrow last List.mem_cons_self).le
  · rw [List.mem_singleton.mp hrow]

/-- A verified row after the position is on the page, or the page is full and ends before it. -/
theorem page_or_later (h : Distinct rows) {row : DomainRow Id Tenant Host} (hrow : row ∈ rows)
    (hverified : isVerified row = true) (hafter : isAfter after row.host = true) :
    row ∈ verifiedDomainPage rows after limit ∨
      (verifiedDomainPage rows after limit).length = limit ∧
        ∀ other ∈ verifiedDomainPage rows after limit, other.host < row.host := by
  obtain ⟨rest, hperm, hsorted, hfull⟩ := exists_page h after limit
  have hmem : row ∈ verifiedDomainPage rows after limit ++ rest := by
    rw [hperm.mem_iff, List.mem_filter, Bool.and_eq_true]
    exact ⟨hrow, hverified, hafter⟩
  rcases List.mem_append.mp hmem with hpage | hrest
  · exact Or.inl hpage
  · refine Or.inr ⟨hfull (List.ne_nil_of_mem hrest), fun other hother ↦ ?_⟩
    exact (List.pairwise_append.mp hsorted).2.2 other hother row hrest

/-- The verified rows after a position. -/
def rowsAfter (rows : List (DomainRow Id Tenant Host)) (after : Option Host) : ℕ :=
  (rows.filter fun row ↦ isVerified row && isAfter after row.host).length

/-- What is left after a page is what was left before, less the page. -/
theorem rowsAfter_last (h : Distinct rows) {last : DomainRow Id Tenant Host}
    (hlast : (verifiedDomainPage rows after limit).getLast? = some last) :
    rowsAfter rows (some last.host) + (verifiedDomainPage rows after limit).length ≤
      rowsAfter rows after := by
  obtain ⟨rest, hperm, hsorted, -⟩ := exists_page h after limit
  have hposition : isAfter after last.host = true :=
    (mem_page h (List.mem_of_getLast? hlast)).2.2
  have hbeyond : ∀ row : DomainRow Id Tenant Host, isAfter (some last.host) row.host = true →
      isAfter after row.host = true := by
    intro row hrow
    cases after with
    | none => rfl
    | some =>
      exact decide_eq_true ((of_decide_eq_true hposition).trans (of_decide_eq_true hrow))
  -- the rows after the last of the page are among those that the page left
  have hleft : rowsAfter rows (some last.host) =
      ((verifiedDomainPage rows after limit ++ rest).filter
        fun row ↦ isAfter (some last.host) row.host).length := by
    rw [(hperm.filter _).length_eq, List.filter_filter, rowsAfter]
    congr 1
    refine List.filter_congr fun row _ ↦ ?_
    cases hrow : isAfter (some last.host) row.host with
    | false => rw [Bool.and_false, Bool.false_and]
    | true => rw [hbeyond row hrow, Bool.and_true, Bool.true_and]
  have hnone : (verifiedDomainPage rows after limit).filter
      (fun row ↦ isAfter (some last.host) row.host) = [] := by
    rw [List.filter_eq_nil_iff]
    intro row hrow hbeyond
    exact absurd (of_decide_eq_true hbeyond) (not_lt.mpr (le_last h hlast hrow))
  rw [hleft, List.filter_append, hnone, List.nil_append]
  have hrest := List.length_filter_le (fun row ↦ isAfter (some last.host) row.host) rest
  have hall : rowsAfter rows after =
      (verifiedDomainPage rows after limit).length + rest.length := by
    rw [← List.length_append, hperm.length_eq, rowsAfter]
  omega

theorem rowsAfter_eq (rows : List (DomainRow Id Tenant Host)) (after : Option Host) :
    rowsAfter rows after = ((verifiedHosts rows).filter (isAfter after)).length := by
  unfold rowsAfter verifiedHosts
  rw [List.filter_map, List.length_map, List.filter_filter]
  congr 1
  exact List.filter_congr fun row _ ↦ Bool.and_comm _ _

theorem rowsAfter_le {rows rows' : List (DomainRow Id Tenant Host)} (hdistinct : Distinct rows')
    (h : verifiedHosts rows' ⊆ verifiedHosts rows) (after : Option Host) :
    rowsAfter rows' after ≤ rowsAfter rows after := by
  rw [rowsAfter_eq, rowsAfter_eq]
  refine (List.subperm_of_subset (hdistinct.nodup.filter _) ?_).length_le
  intro host hhost
  rw [List.mem_filter] at hhost ⊢
  exact ⟨h hhost.1, hhost.2⟩

end Pages

/-! ### A host that stays verified -/

section Covers

variable [LinearOrder Host] {cfg : Config} {host : Host}

/-- A host after the position of a pass is still to be looked up, and one that is not has been,
once. -/
def Covers (host : Host) (pass : Pass Id Tenant Host) : Prop :=
  (isAfter pass.after host = true → pass.looked.count host = 0 ∧ pass.last = false) ∧
    (isAfter pass.after host = false → pass.looked.count host = 1)

theorem count_looked {looked : List (Looked Id Tenant Host)}
    {page : List (DomainRow Id Tenant Host)} (h : (looked.map Looked.row).Perm page) :
    (looked.map fun l ↦ l.row.host).count host = (page.map DomainRow.host).count host := by
  have hhosts := (h.map DomainRow.host).count_eq host
  rwa [List.map_map] at hhosts

/-- A page keeps the walk of a verified host. -/
theorem covers_turned {rows : List (DomainRow Id Tenant Host)} {pass : Pass Id Tenant Host}
    {looked : List (Looked Id Tenant Host)} (hdistinct : Distinct rows)
    (hhost : host ∈ verifiedHosts rows) (h : Covers host pass)
    (hlooked : (looked.map Looked.row).Perm (verifiedDomainPage rows pass.after cfg.pageSize)) :
    Covers host (turned cfg pass (verifiedDomainPage rows pass.after cfg.pageSize) looked) := by
  obtain ⟨row, hrow, hverified, rfl⟩ := mem_verifiedHosts.mp hhost
  have hcount := @count_looked _ _ _ _ row.host _ _ hlooked
  have hlater := @page_or_later _ _ _ _ rows pass.after cfg.pageSize hdistinct row hrow hverified
  unfold turned
  cases hlast : (verifiedDomainPage rows pass.after cfg.pageSize).getLast? with
  | none =>
    -- an empty page comes after every verified host
    have hempty := List.getLast?_eq_none_iff.mp hlast
    refine ⟨fun hafter ↦ ?_, h.2⟩
    rcases hlater hafter with hmem | ⟨hlength, -⟩
    · rw [hempty] at hmem
      exact absurd hmem List.not_mem_nil
    · rw [hempty, List.length_nil] at hlength
      exact absurd hlength cfg.pageSize_pos.ne
  | some last =>
    have hposition := (mem_page hdistinct (List.mem_of_getLast? hlast)).2.2
    simp only [Covers, List.count_append, hcount]
    by_cases hmem : row ∈ verifiedDomainPage rows pass.after cfg.pageSize
    · have hafter := (mem_page hdistinct hmem).2.2
      have hbefore : isAfter (some last.host) row.host = false :=
        decide_eq_false (not_lt.mpr (le_last hdistinct hlast hmem))
      have honce : ((verifiedDomainPage rows pass.after cfg.pageSize).map
          DomainRow.host).count row.host = 1 :=
        List.count_eq_one_of_mem (nodup_page hdistinct) (List.mem_map_of_mem hmem)
      rw [hbefore, honce, (h.1 hafter).1]
      exact ⟨fun hpast ↦ absurd hpast Bool.false_ne_true, fun _ ↦ rfl⟩
    · have hnone : ((verifiedDomainPage rows pass.after cfg.pageSize).map
          DomainRow.host).count row.host = 0 := by
        rw [List.count_eq_zero]
        intro hsame
        obtain ⟨other, hother, hhosts⟩ := List.mem_map.mp hsame
        obtain ⟨hin, hother', -⟩ := mem_page hdistinct hother
        have hnodup := hdistinct.nodup
        have heq : other = row := by
          refine List.inj_on_of_nodup_map hnodup (List.mem_filter.mpr ⟨hin, hother'⟩)
            (List.mem_filter.mpr ⟨hrow, hverified⟩) hhosts
        exact hmem (heq ▸ hother)
      cases hafter : isAfter pass.after row.host with
      | true =>
        obtain ⟨hlength, hbelow⟩ := (hlater hafter).resolve_left hmem
        have hpast : isAfter (some last.host) row.host = true :=
          decide_eq_true (hbelow last (List.mem_of_getLast? hlast))
        rw [hpast, hnone, (h.1 hafter).1, hlength]
        refine ⟨fun _ ↦ ⟨rfl, ?_⟩, fun hbefore ↦ absurd hbefore.symm Bool.false_ne_true⟩
        exact decide_eq_false (Nat.lt_irrefl _)
      | false =>
        have hbefore : isAfter (some last.host) row.host = false := by
          cases hposition' : pass.after with
          | none =>
            rw [hposition'] at hafter
            exact absurd hafter.symm Bool.false_ne_true
          | some position =>
            rw [hposition'] at hafter hposition
            have hle : row.host ≤ position := not_lt.mp (of_decide_eq_false hafter)
            exact decide_eq_false (not_lt.mpr (hle.trans (of_decide_eq_true hposition).le))
        rw [hbefore, hnone, h.2 hafter]
        exact ⟨fun hpast ↦ absurd hpast Bool.false_ne_true, fun _ ↦ rfl⟩

end Covers

/-! ### The end of a pass -/

section Remaining

theorem length_settled (looked : List (Looked Id Tenant Host)) :
    (settled looked).length ≤ looked.length := by
  unfold settled
  simp only
  split
  · exact List.length_filter_le _ _
  · exact Nat.zero_le _

variable [LinearOrder Host] {cfg : Config} {s : State Id Tenant Host}

/-- What a pass still has to do: two steps at most for a row after its position, one for a
result, and a page that may be empty. -/
def remaining (s : State Id Tenant Host) (pass : Pass Id Tenant Host) : ℕ :=
  2 * rowsAfter s.store.rows pass.after + pass.pending.length + if pass.last then 0 else 1

/-- A page counts down what is left of its pass. -/
theorem remaining_turned {rows : List (DomainRow Id Tenant Host)} {pass : Pass Id Tenant Host}
    {looked : List (Looked Id Tenant Host)} (hdistinct : Distinct s.store.rows)
    (hrows : rows = verifiedDomainPage s.store.rows pass.after cfg.pageSize)
    (hlast : pass.last = false) (hpending : pass.pending = [])
    (hlooked : (looked.map Looked.row).Perm rows) :
    remaining s (turned cfg pass rows looked) < remaining s pass := by
  unfold remaining turned
  rw [hlast, hpending, hrows]
  have hlength : looked.length =
      (verifiedDomainPage s.store.rows pass.after cfg.pageSize).length := by
    rw [← hrows, ← hlooked.length_eq, List.length_map]
  cases hend : (verifiedDomainPage s.store.rows pass.after cfg.pageSize).getLast? with
  | none =>
    simp only [List.length_nil, if_true, Bool.false_eq_true, if_false]
    omega
  | some =>
    have hless := rowsAfter_last hdistinct hend
    have hsettled := length_settled looked
    have hsome : 0 < (verifiedDomainPage s.store.rows pass.after cfg.pageSize).length :=
      List.length_pos_of_mem (List.mem_of_getLast? hend)
    simp only [List.length_nil, Bool.false_eq_true, if_false]
    split
    · omega
    · omega

end Remaining

/-! ### Walks of a pass -/

section Walks

theorem setPass_self (s : State Id Tenant Host) (k : ℕ) (pass : Option (Pass Id Tenant Host)) :
    (s.setPass k pass).passes k = pass := Function.update_self _ _ _

theorem setPass_of_ne (s : State Id Tenant Host) {k other : ℕ} (h : k ≠ other)
    (pass : Option (Pass Id Tenant Host)) : (s.setPass other pass).passes k = s.passes k :=
  Function.update_of_ne h _ _

variable [DecidableEq Id] [DecidableEq Tenant] [LinearOrder Host] {cfg : Config}
  {s s' : State Id Tenant Host} {k : ℕ} {host : Host}

/-- A host is verified. -/
def stays (host : Host) (s : State Id Tenant Host) (_ : Act Id Tenant Host) : Bool :=
  decide (host ∈ verifiedHosts s.store.rows)

/-- Whether a step is one of a pass. -/
def isOfPass (k : ℕ) : Act Id Tenant Host → Bool
  | .page other _ | .settle other _ _ => other == k
  | _ => false

variable {pass : Pass Id Tenant Host} {act : Act Id Tenant Host}

/-- What a step that is not its end makes of a pass: nothing, or a page, or one result less. -/
theorem passes_step
    (hpass : s.passes k = some pass) (hact : act ≠ .finish k) (hstep : step cfg s act = some s') :
    isOfPass k act = false ∧ s'.passes k = some pass ∨
      isOfPass k act = true ∧ ∃ pass', s'.passes k = some pass' ∧
        ((pass.pending = [] ∧ pass.last = false ∧ ∃ looked,
          (looked.map Looked.row).Perm (verifiedDomainPage s.store.rows pass.after cfg.pageSize) ∧
          pass' = turned cfg pass (verifiedDomainPage s.store.rows pass.after cfg.pageSize) looked) ∨
        ∃ looked pending, pass.pending = looked :: pending ∧ pass' = { pass with pending }) := by
  cases steps_of_step hstep with
  | @start other hfree =>
    have hne : k ≠ other := by
      rintro rfl
      rw [hpass] at hfree
      exact nomatch hfree
    exact Or.inl ⟨rfl, (setPass_of_ne s hne _).trans hpass⟩
  | @page other looked pass' hpass' hpending hlast hlooked =>
    by_cases hne : k = other
    · subst hne
      obtain rfl := Option.some.inj (hpass.symm.trans hpass')
      exact Or.inr ⟨beq_self_eq_true k, _, setPass_self s k _,
        Or.inl ⟨hpending, hlast, looked, hlooked, rfl⟩⟩
    · exact Or.inl ⟨beq_eq_false_iff_ne.mpr (Ne.symm hne), (setPass_of_ne s hne _).trans hpass⟩
  | @settle other luck now pass' looked pending hpass' hpending =>
    by_cases hne : k = other
    · subst hne
      obtain rfl := Option.some.inj (hpass.symm.trans hpass')
      exact Or.inr ⟨beq_self_eq_true k, _, setPass_self s k _,
        Or.inr ⟨looked, pending, hpending, rfl⟩⟩
    · exact Or.inl ⟨beq_eq_false_iff_ne.mpr (Ne.symm hne), (setPass_of_ne s hne _).trans hpass⟩
  | @finish other pass' hpass' hpending hlast =>
    have hne : k ≠ other := by
      rintro rfl
      exact hact rfl
    exact Or.inl ⟨rfl, (setPass_of_ne s hne _).trans hpass⟩
  | verifyRead | verifyWrite | register | remove | switch => exact Or.inl ⟨rfl, hpass⟩

/-- A step that does not end a pass leaves it covering a verified host. -/
theorem covers_step
    (hdistinct : Distinct s.store.rows) (hpass : s.passes k = some pass)
    (hcovers : Covers host pass) (hact : act ≠ .finish k)
    (hhost : host ∈ verifiedHosts s.store.rows) (hstep : step cfg s act = some s') :
    ∃ pass', s'.passes k = some pass' ∧ Covers host pass' := by
  rcases passes_step hpass hact hstep with ⟨-, hpass'⟩ |
    ⟨-, pass', hpass', ⟨-, -, looked, hlooked, rfl⟩ | ⟨looked, pending, -, rfl⟩⟩
  · exact ⟨pass, hpass', hcovers⟩
  · exact ⟨_, hpass', covers_turned hdistinct hhost hcovers hlooked⟩
  · exact ⟨_, hpass', hcovers⟩

variable {acts : List (Act Id Tenant Host)}

/-- So does a run in which the host stays verified. -/
theorem covers_run
    (hdistinct : Distinct s.store.rows) (hpass : s.passes k = some pass)
    (hcovers : Covers host pass) (hacts : .finish k ∉ acts)
    (hstays : Along cfg (stays host) acts s = true) (hrun : run cfg acts s = some s') :
    ∃ pass', s'.passes k = some pass' ∧ Covers host pass' := by
  refine (run_induction (I := fun s ↦ Distinct s.store.rows ∧
    ∃ pass, s.passes k = some pass ∧ Covers host pass) ?_ ⟨hdistinct, pass, hpass, hcovers⟩
      hstays hrun).2
  rintro s s' act hact ⟨hdistinct, pass, hpass, hcovers⟩ hhost hstep
  exact ⟨distinct_step hdistinct hstep, covers_step hdistinct hpass hcovers
    (fun h ↦ hacts (h ▸ hact)) (of_decide_eq_true hhost) hstep⟩

/-- A host that stays verified from the start of a pass to its end is looked up once. -/
theorem looked_once {s₀ s₁ s₂ : State Id Tenant Host}
    (hdistinct : Distinct s.store.rows) (hstart : step cfg s (.start k) = some s₀)
    (hrun : run cfg acts s₀ = some s₁) (hfinish : step cfg s₁ (.finish k) = some s₂)
    (hacts : .finish k ∉ acts) (hstays : Along cfg (stays host) acts s₀ = true) :
    ∃ pass, s₁.passes k = some pass ∧ pass.looked.count host = 1 := by
  have hfresh : ∃ pass, s₀.passes k = some pass ∧ Covers host pass := by
    cases steps_of_step hstart with
    | start =>
      refine ⟨_, setPass_self s k _, fun _ ↦ ⟨rfl, rfl⟩, fun hafter ↦ ?_⟩
      exact absurd hafter.symm Bool.false_ne_true
  obtain ⟨pass, hpass, hcovers⟩ := hfresh
  obtain ⟨pass', hpass', hcovers'⟩ := covers_run (distinct_step hdistinct hstart) hpass hcovers
    hacts hstays hrun
  refine ⟨pass', hpass', ?_⟩
  cases steps_of_step hfinish with
  | @finish _ ended hended hpending hlast =>
    obtain rfl := Option.some.inj (hpass'.symm.trans hended)
    cases hafter : isAfter pass'.after host with
    | true =>
      have hnot := (hcovers'.1 hafter).2
      rw [hlast] at hnot
      exact absurd hnot.symm Bool.false_ne_true
    | false => exact hcovers'.2 hafter

/-- Whether a step adds no verified host. -/
def addsNone (cfg : Config) (s : State Id Tenant Host) (act : Act Id Tenant Host) : Bool :=
  ((step cfg s act).map fun s' ↦
    (verifiedHosts s'.store.rows).all (· ∈ verifiedHosts s.store.rows)).getD true

theorem subset_of_addsNone (h : addsNone cfg s act = true)
    (hstep : step cfg s act = some s') :
    verifiedHosts s'.store.rows ⊆ verifiedHosts s.store.rows := by
  unfold addsNone at h
  rw [hstep] at h
  simp only [Option.map_some, Option.getD_some, List.all_eq_true, decide_eq_true_eq] at h
  exact h

/-- One step counts down what is left of a pass when it is the pass's own, and adds to it in no
case, when no host is added. -/
theorem remaining_step
    (hdistinct : Distinct s.store.rows) (hpass : s.passes k = some pass)
    (hact : act ≠ .finish k) (hnone : addsNone cfg s act = true)
    (hstep : step cfg s act = some s') :
    ∃ pass', s'.passes k = some pass' ∧
      remaining s' pass' + (if isOfPass k act then 1 else 0) ≤ remaining s pass := by
  have hless (pass : Pass Id Tenant Host) : remaining s' pass ≤ remaining s pass := by
    have hafter : rowsAfter s'.store.rows pass.after ≤ rowsAfter s.store.rows pass.after :=
      rowsAfter_le (distinct_step hdistinct hstep) (subset_of_addsNone hnone hstep) pass.after
    unfold remaining
    omega
  rcases passes_step hpass hact hstep with ⟨hof, hpass'⟩ |
    ⟨hof, pass', hpass', ⟨hpending, hlast, looked, hlooked, rfl⟩ | ⟨looked, pending, hpending, rfl⟩⟩
  · refine ⟨pass, hpass', ?_⟩
    rw [hof]
    exact hless pass
  · refine ⟨_, hpass', ?_⟩
    rw [hof, if_pos rfl]
    exact (hless _).trans_lt (remaining_turned hdistinct rfl hlast hpending hlooked)
  · refine ⟨_, hpass', ?_⟩
    have hafter := hless pass
    unfold remaining at hafter ⊢
    rw [hof, if_pos rfl]
    rw [hpending, List.length_cons] at hafter ⊢
    simp only at hafter ⊢
    omega

/-- A pass takes no more turns than there are rows left to it. -/
theorem remaining_run (acts : List (Act Id Tenant Host)) :
    ∀ (s s' : State Id Tenant Host) (pass : Pass Id Tenant Host), Distinct s.store.rows →
      s.passes k = some pass → .finish k ∉ acts → Along cfg (addsNone cfg) acts s = true →
        run cfg acts s = some s' → ∃ pass', s'.passes k = some pass' ∧
          remaining s' pass' + (acts.filter (isOfPass k)).length ≤ remaining s pass := by
  induction acts with
  | nil =>
    intro s s' pass _ hpass _ _ hrun
    rw [← Option.some.inj hrun]
    exact ⟨pass, hpass, Nat.le_refl _⟩
  | cons act _ ih =>
    intro s s' pass hdistinct hpass hacts hnone hrun
    obtain ⟨middle, hstep, hrest⟩ := Option.bind_eq_some_iff.mp hrun
    rw [Along, Bool.and_eq_true, hstep] at hnone
    have hact : act ≠ .finish k := fun h ↦ hacts (h ▸ List.mem_cons_self)
    obtain ⟨pass', hpass', hdown⟩ := remaining_step hdistinct hpass hact hnone.1 hstep
    obtain ⟨last, hlast, hlater⟩ := ih middle s' pass' (distinct_step hdistinct hstep) hpass'
      (fun h ↦ hacts (List.mem_cons_of_mem _ h)) hnone.2 hrest
    refine ⟨last, hlast, ?_⟩
    rw [List.filter_cons]
    split at hdown
    · rename_i hof
      rw [if_pos hof, List.length_cons]
      omega
    · rename_i hof
      rw [if_neg hof]
      omega

/-- While no host is added, a pass takes a bounded number of steps. -/
theorem pass_ends {s₀ s₁ : State Id Tenant Host}
    (hdistinct : Distinct s.store.rows) (hstart : step cfg s (.start k) = some s₀)
    (hrun : run cfg acts s₀ = some s₁) (hacts : .finish k ∉ acts)
    (hnone : Along cfg (addsNone cfg) acts s₀ = true) :
    ∃ pass, s₁.passes k = some pass ∧
      (acts.filter (isOfPass k)).length ≤ 2 * (verifiedHosts s.store.rows).length + 1 := by
  cases steps_of_step hstart with
  | start =>
    obtain ⟨pass, hpass, hbound⟩ := remaining_run acts (s.setPass k (some ⟨none, [], [], false⟩))
      s₁ ⟨none, [], [], false⟩ hdistinct (setPass_self s k _) hacts hnone hrun
    have hall : (verifiedHosts s.store.rows).filter (isAfter none) = verifiedHosts s.store.rows :=
      List.filter_eq_self.mpr fun _ _ ↦ rfl
    have hstarted : remaining (s.setPass k (some ⟨none, [], [], false⟩)) ⟨none, [], [], false⟩ =
        2 * (verifiedHosts s.store.rows).length + 1 := by
      unfold remaining
      rw [rowsAfter_eq]
      show 2 * ((verifiedHosts s.store.rows).filter (isAfter none)).length + 0 + 1 = _
      rw [hall]
    exact ⟨pass, hpass, by omega⟩

/-- A pass can always take its next step. -/
theorem pass_continues (hpass : s.passes k = some pass) :
    ∃ act, (isOfPass k act = true ∨ act = .finish k) ∧ (step cfg s act).isSome = true := by
  cases hpending : pass.pending with
  | cons =>
    refine ⟨.settle k .calm 0, Or.inl (beq_self_eq_true k), ?_⟩
    simp only [step, hpass, hpending, Option.isSome_some]
  | nil =>
    cases hlast : pass.last with
    | true =>
      refine ⟨.finish k, Or.inr rfl, ?_⟩
      simp only [step, hpass, hpending, hlast, and_self, if_true, Option.isSome_some]
    | false =>
      let page := verifiedDomainPage s.store.rows pass.after cfg.pageSize
      let looked : List (Looked Id Tenant Host) := page.map fun row ↦ ⟨row, .matching⟩
      have hperm : (looked.map Looked.row).isPerm page = true := by
        rw [List.isPerm_iff, List.map_map]
        exact List.Perm.of_eq (List.map_id page)
      refine ⟨.page k looked, Or.inl (beq_self_eq_true k), ?_⟩
      simp only [step, hpass, hpending, hlast, true_and]
      rw [if_pos hperm]
      rfl

end Walks

end Odudu.DomainTenant.Rechecks
