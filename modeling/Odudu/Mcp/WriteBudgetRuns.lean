import Odudu.Mcp.WritePlaces
import Mathlib.Algebra.BigOperators.Group.Finset.Piecewise
import Mathlib.Algebra.Order.BigOperators.Group.Finset

/-!
# The write budget over runs

Any number of calls over one budget: it counts the places that are spent, one by one, and passes no
limit (`Reachable.accounted`).  With what each call keeps this is `write_places_kept`: a place is
spent as long as a write may have changed something, is given back once where nothing was, and each
call is recorded once.  That a spent place has always a write behind it does not hold
(`failed_read_keeps_its_place`).
-/

set_option autoImplicit false

namespace Odudu.Mcp.WriteBudgets

open Runs

variable {Input Body : Type} {limits : BudgetLimits} {params : ToolCall Input Body}
  {call : Call Body} {budget : MemoryWriteBudget}

/-! ### What the budget counts -/

/-- A place counts towards a limit; a create counts towards both. -/
def shareOf (place : Option BudgetKind) (limit : BudgetKind) : ℕ :=
  if place.any fun kind ↦ limit = .mutating || kind = .create then 1 else 0

def MemoryWriteBudget.count (budget : MemoryWriteBudget) : BudgetKind → ℕ
  | .mutating => budget.mutating
  | .create => budget.creates

def BudgetLimits.count (limits : BudgetLimits) : BudgetKind → ℕ
  | .mutating => limits.mutating
  | .create => limits.creates

theorem shareOf_none (limit : BudgetKind) : shareOf none limit = 0 := rfl

theorem count_release (budget : MemoryWriteBudget) (kind limit : BudgetKind) :
    (budget.release kind).count limit = budget.count limit - shareOf (some kind) limit := by
  cases kind <;> cases limit <;> rfl

variable {kind : BudgetKind}

theorem count_reserve (hroom : budget.hasRoom limits kind = true)
    (limit : BudgetKind) :
    (budget.reserve limits kind).count limit = budget.count limit + shareOf (some kind) limit := by
  rw [MemoryWriteBudget.reserve, if_pos hroom]
  cases kind <;> cases limit <;> rfl

theorem count_lt_of_hasRoom (hroom : budget.hasRoom limits kind = true)
    {limit : BudgetKind} (hshare : shareOf (some kind) limit ≠ 0) :
    budget.count limit < limits.count limit := by
  simp only [MemoryWriteBudget.hasRoom, Bool.not_eq_true', Bool.or_eq_false_iff,
    Bool.and_eq_false_iff, decide_eq_false_iff_not, not_le] at hroom
  cases limit with
  | mutating => exact hroom.1
  | create =>
    cases kind with
    | mutating => exact absurd rfl hshare
    | create => exact hroom.2.resolve_left (not_not.mpr rfl)

namespace Call

/-- The budget counts what it gave to a call and did not take back. -/
def Balanced (call call' : Call Body) (budget budget' : MemoryWriteBudget) : Prop :=
  ∀ limit, budget'.count limit + shareOf call.spent limit =
    budget.count limit + shareOf call'.spent limit

theorem balanced_of_spent {call call' : Call Body} (hspent : call'.spent = call.spent) :
    Balanced call call' budget budget := by
  intro limit
  rw [hspent]

/-- A reservation that is handled spends its place where there is room. -/
theorem balanced_admits {call : Call Body} {kind : BudgetKind} {failure : Option ReserveFailure}
    (stage : Admission → Stage Body) (hspent : call.spent = none)
    (hadmitted : (⟨stage .admitted, [], call.records⟩ : Call Body).spent = some kind)
    (hfull : (⟨stage .full, [], call.records⟩ : Call Body).spent = none)
    (hfailed : ∀ failure, (⟨stage (.failed failure), [], call.records⟩ : Call Body).spent = none) :
    Balanced call ⟨stage (admits limits budget kind failure).1, [], call.records⟩ budget
      (admits limits budget kind failure).2 := by
  intro limit
  rw [hspent, shareOf_none, Nat.add_zero]
  cases failure with
  | some => rw [admits, hfailed, shareOf_none, Nat.add_zero]
  | none =>
    by_cases hroom : budget.hasRoom limits kind = true
    · simp only [admits, if_pos hroom, hadmitted]
      exact count_reserve hroom limit
    · have hkept : budget.reserve limits kind = budget := if_neg hroom
      simp only [admits, if_neg hroom, hfull, hkept]
      rfl

theorem balanced_releases (h : call.Accounted params)
    (hspent : ∀ limit, shareOf call.spent limit ≤ budget.count limit) (takesBack : Bool) :
    Balanced call (call.releases budget takesBack).1 budget
      (call.releases budget takesBack).2 := by
  obtain ⟨stage, released, records⟩ := call
  rcases h.released with hnone | ⟨kind, hplace, tookBack, hgave⟩
  · obtain rfl : released = [] := hnone
    exact balanced_of_spent rfl
  · obtain rfl : released = [⟨kind, tookBack⟩] := hgave
    cases tookBack with
    | some => exact balanced_of_spent rfl
    | none =>
      cases takesBack with
      | false => exact balanced_of_spent rfl
      | true =>
        intro limit
        have hkind : (⟨stage, [⟨kind, none⟩], records⟩ : Call Body).spent = some kind := hplace
        have hback : (⟨stage, [⟨kind, some true⟩], records⟩ : Call Body).spent = none := rfl
        show (budget.release kind).count limit + _ = _ + shareOf _ limit
        have hle := hspent limit
        rw [hkind] at hle ⊢
        show _ = _ + shareOf (⟨stage, [⟨kind, some true⟩], records⟩ : Call Body).spent limit
        rw [hback, shareOf_none, count_release]
        omega

theorem spent_starts (params : ToolCall Input Body) (records : List RecordedToolCall) :
    (⟨starts params, [], records⟩ : Call Body).spent = none := by
  unfold starts
  split
  next => rfl
  next => cases spendOf params.tool params.input <;> rfl

theorem spent_hears (kind : BudgetKind) (admission : Admission) (records : List RecordedToolCall) :
    (⟨hears params kind admission, [], records⟩ : Call Body).spent =
      (⟨.reserving kind (some admission), [], records⟩ : Call Body).spent := by
  match admission with
  | .admitted => rfl
  | .full => rfl
  | .failed (.problem _) => rfl
  | .failed .other => rfl

theorem spent_ends (running : Running Body) (problem : Option ToolProblem) :
    ((⟨.executing running, [], []⟩ : Call Body).ends running problem).spent = running.place := by
  unfold ends
  obtain ⟨place, program, changed⟩ := running
  cases place with
  | none => rfl
  | some => dsimp only; split <;> rfl

/-- A step takes from the budget what it gives its call, and gives back what it takes from it. -/
theorem balanced_step (h : call.Accounted params)
    (hspent : ∀ limit, shareOf call.spent limit ≤ budget.count limit) (e : CallEvent Body) :
    Balanced call (call.step limits params budget e).1 budget
      (call.step limits params budget e).2 := by
  obtain ⟨stage, released, records⟩ := call
  unfold step
  split <;> rename_i heq <;> try subst heq
  next =>
    obtain ⟨rfl, rfl⟩ := h
    exact balanced_of_spent (spent_starts params [])
  next kind failure =>
    obtain ⟨rfl, rfl, -⟩ := h
    exact balanced_admits (fun admission ↦ .reserving kind (some admission)) rfl rfl rfl fun _ ↦ rfl
  next kind admission =>
    obtain ⟨rfl, rfl, -⟩ := h
    exact balanced_of_spent (spent_hears kind admission [])
  next kind admission =>
    refine balanced_of_spent ?_
    cases admission with
    | none => rfl
    | some admission => cases admission <;> rfl
  next running answer =>
    refine balanced_of_spent ?_
    simp only [spent, place, running.place_answers answer]
  next place result changed =>
    obtain ⟨rfl, rfl, hrunning⟩ := h
    exact balanced_of_spent (spent_ends _ _)
  next running => exact balanced_of_spent rfl
  next problem kind heard recorded failure =>
    obtain ⟨-, hheard⟩ := h
    cases heard with
    | true => cases hheard.1
    | false =>
      obtain rfl := hheard
      exact balanced_admits
        (fun admission ↦ .ended problem (.gaveUp kind (some admission) false) recorded)
        rfl rfl rfl fun _ ↦ rfl
  next problem kind recorded =>
    obtain ⟨-, rfl⟩ := h
    exact balanced_of_spent rfl
  next problem running recorded answer =>
    refine balanced_of_spent ?_
    simp only [spent, place, running.place_answers answer]
  next problem ending written =>
    refine balanced_of_spent ?_
    cases ending with
    | refused | ran => rfl
    | gaveUp _ heard =>
      cases heard with
      | none => rfl
      | some admission => cases admission <;> rfl
  next => exact balanced_releases h hspent _
  next => exact balanced_of_spent rfl

/-- No limit is passed. -/
def Bounded (limits : BudgetLimits) (budget : MemoryWriteBudget) : Prop :=
  ∀ limit, budget.count limit ≤ limits.count limit

theorem bounded_admits (h : Bounded limits budget) (kind : BudgetKind)
    (failure : Option ReserveFailure) : Bounded limits (admits limits budget kind failure).2 := by
  cases failure with
  | some => exact h
  | none =>
    intro limit
    show (budget.reserve limits kind).count limit ≤ _
    by_cases hroom : budget.hasRoom limits kind = true
    · rw [count_reserve hroom]
      by_cases hshare : shareOf (some kind) limit = 0
      · rw [hshare]
        exact h limit
      · have hlt := count_lt_of_hasRoom hroom hshare
        have hone : shareOf (some kind) limit ≤ 1 := by
          unfold shareOf
          split <;> decide
        omega
    · rw [MemoryWriteBudget.reserve, if_neg hroom]
      exact h limit

theorem bounded_releases (h : Bounded limits budget) (takesBack : Bool) :
    Bounded limits (call.releases budget takesBack).2 := by
  unfold releases
  split
  next kind earlier _ =>
    cases takesBack with
    | false => exact h
    | true =>
      intro limit
      show (budget.release kind).count limit ≤ _
      rw [count_release]
      exact (Nat.sub_le _ _).trans (h limit)
  next => exact h

/-- No event takes a budget past its limits. -/
theorem bounded_step (h : Bounded limits budget) (e : CallEvent Body) :
    Bounded limits (call.step limits params budget e).2 := by
  unfold step
  split
  case h_2 kind failure _ => exact bounded_admits h kind failure
  case h_8 problem kind heard recorded failure _ => exact bounded_admits h kind failure
  case h_12 => exact bounded_releases h _
  all_goals exact h

/-- How many of its own events are left at most until a call is answered. -/
def remaining (call : Call Body) : ℕ :=
  match call.stage with
  | .starting => 4
  | .reserving _ _ => 3
  | .executing _ => 2
  | .ended _ _ none => 1
  | .ended _ _ (some _) => 0

theorem remaining_starts (released : List Release) (records : List RecordedToolCall) :
    (⟨starts params, released, records⟩ : Call Body).remaining ≤ 3 := by
  unfold starts
  split
  next => exact Nat.le_of_ble_eq_true rfl
  next => cases spendOf params.tool params.input <;> exact Nat.le_of_ble_eq_true rfl

theorem remaining_hears (kind : BudgetKind) (admission : Admission) (released : List Release)
    (records : List RecordedToolCall) :
    (⟨hears params kind admission, released, records⟩ : Call Body).remaining ≤ 2 := by
  match admission with
  | .admitted => exact le_rfl
  | .full => exact Nat.le_of_ble_eq_true rfl
  | .failed (.problem _) => exact Nat.le_of_ble_eq_true rfl
  | .failed .other => exact Nat.le_of_ble_eq_true rfl

theorem remaining_ends (running : Running Body) (problem : Option ToolProblem) :
    (call.ends running problem).remaining = 1 := by
  unfold ends
  obtain ⟨place, program, changed⟩ := running
  cases place with
  | none => rfl
  | some => dsimp only; split <;> rfl

/-- Nothing that happens takes a call back. -/
theorem remaining_step_le (call : Call Body) (e : CallEvent Body) :
    (call.step limits params budget e).1.remaining ≤ call.remaining := by
  obtain ⟨stage, released, records⟩ := call
  unfold step
  split <;> rename_i heq <;> try subst heq
  next => exact (remaining_starts released records).trans (Nat.le_succ 3)
  next kind failure => exact le_rfl
  next kind admission =>
    exact (remaining_hears kind admission released records).trans (Nat.le_succ 2)
  next kind admission => exact Nat.le_of_ble_eq_true rfl
  next running answer => exact le_rfl
  next place result changed => exact (remaining_ends _ _).trans_le (Nat.le_succ 1)
  next running => exact Nat.le_succ 1
  next problem kind heard recorded failure => cases recorded <;> exact le_rfl
  next problem kind recorded => cases recorded <;> exact le_rfl
  next problem running recorded answer => cases recorded <;> exact le_rfl
  next problem ending written => exact Nat.le_succ 0
  next =>
    unfold releases
    split <;> exact le_rfl
  next => exact le_rfl

/-- An event that each call at a stage goes on with leaves less of it. -/
theorem remaining_step_lt {n : ℕ} {e : CallEvent Body} (h : call.remaining ≤ n + 1)
    (he : call.remaining = n + 1 → (call.step limits params budget e).1.remaining ≤ n) :
    (call.step limits params budget e).1.remaining ≤ n := by
  rcases h.eq_or_lt with heq | hlt
  · exact he heq
  · exact (remaining_step_le call e).trans (Nat.le_of_lt_succ hlt)

theorem remaining_le (call : Call Body) : call.remaining ≤ 4 := by
  unfold remaining
  split <;> decide

theorem remaining_step_starts (budget : MemoryWriteBudget) :
    (call.step limits params budget .starts).1.remaining ≤ 3 := by
  refine remaining_step_lt call.remaining_le fun hremaining ↦ ?_
  obtain ⟨stage, released, records⟩ := call
  match stage with
  | .starting => exact remaining_starts released records
  | .ended _ _ none => exact nomatch hremaining
  | .ended _ _ (some _) => exact nomatch hremaining

theorem remaining_step_givesUp (h : call.remaining ≤ 3) (budget : MemoryWriteBudget) :
    (call.step limits params budget .givesUp).1.remaining ≤ 2 := by
  refine remaining_step_lt h fun hremaining ↦ ?_
  obtain ⟨stage, released, records⟩ := call
  match stage with
  | .reserving _ none => exact Nat.le_succ 1
  | .reserving _ (some _) => exact Nat.le_succ 1
  | .ended _ _ none => exact nomatch hremaining
  | .ended _ _ (some _) => exact nomatch hremaining

theorem remaining_step_deadline (h : call.remaining ≤ 2) (budget : MemoryWriteBudget) :
    (call.step limits params budget .deadline).1.remaining ≤ 1 := by
  refine remaining_step_lt h fun hremaining ↦ ?_
  obtain ⟨stage, released, records⟩ := call
  match stage with
  | .executing _ => exact le_rfl
  | .ended _ _ none => exact nomatch hremaining
  | .ended _ _ (some _) => exact nomatch hremaining

theorem remaining_step_records (h : call.remaining ≤ 1) (budget : MemoryWriteBudget)
    (written : Bool) :
    (call.step limits params budget (.records written)).1.remaining ≤ 0 := by
  refine remaining_step_lt h fun hremaining ↦ ?_
  obtain ⟨stage, released, records⟩ := call
  match stage with
  | .ended _ .refused none => exact le_rfl
  | .ended _ (.ran _) none => exact le_rfl
  | .ended _ (.gaveUp _ none _) none => exact le_rfl
  | .ended _ (.gaveUp _ (some .admitted) true) none => exact le_rfl
  | .ended _ (.gaveUp _ (some .admitted) false) none => exact le_rfl
  | .ended _ (.gaveUp _ (some .full) _) none => exact le_rfl
  | .ended _ (.gaveUp _ (some (.failed _)) _) none => exact le_rfl

theorem answered_of_remaining (h : call.remaining ≤ 0) : call.answered = true := by
  obtain ⟨stage, released, records⟩ := call
  match stage with
  | .ended _ _ (some _) => rfl
  | .ended _ _ none => exact nomatch h

end Call

/-! ### Runs -/

section Runs

variable {Id : Type} {params : Id → ToolCall Input Body} {s : Calls Id Body}

/-- Every call is accounted for, and the budget counts the places that are spent. -/
structure Calls.Accounted (limits : BudgetLimits) (params : Id → ToolCall Input Body)
    (s : Calls Id Body) : Prop where
  calls : ∀ id, (s.call id).Accounted (params id)
  bounded : Call.Bounded limits s.budget
  /-- The calls that were made are among finitely many. -/
  counted : ∃ ids : Finset Id, (∀ id, (s.call id).spent ≠ none → id ∈ ids) ∧
    ∀ limit, s.budget.count limit = ∑ id ∈ ids, shareOf (s.call id).spent limit

/-- A call of those that are counted has its share. -/
theorem Calls.Accounted.share_le (h : s.Accounted limits params) (id : Id) (limit : BudgetKind) :
    shareOf (s.call id).spent limit ≤ s.budget.count limit := by
  obtain ⟨ids, hids, hcount⟩ := h.counted
  by_cases hspent : (s.call id).spent = none
  · rw [hspent, shareOf_none]
    exact Nat.zero_le _
  · rw [hcount]
    exact Finset.single_le_sum (f := fun id ↦ shareOf (s.call id).spent limit)
      (fun _ _ ↦ Nat.zero_le _) (hids id hspent)

/-- The places that are spent, and those of them of creates, are what the budget counts. -/
theorem Calls.Accounted.spenders (h : s.Accounted limits params) : ∃ spenders : Finset Id,
    (∀ id, id ∈ spenders ↔ (s.call id).spent.isSome) ∧ s.budget.mutating = spenders.card ∧
      s.budget.creates = (spenders.filter fun id ↦ (s.call id).spent = some .create).card := by
  obtain ⟨ids, hids, hcount⟩ := h.counted
  refine ⟨ids.filter fun id ↦ (s.call id).spent.isSome, fun id ↦ ?_, ?_, ?_⟩
  · rw [Finset.mem_filter, and_iff_right_iff_imp]
    intro hspent
    exact hids id (Option.isSome_iff_ne_none.mp hspent)
  · rw [Finset.card_filter]
    refine (hcount .mutating).trans (Finset.sum_congr rfl fun id _ ↦ ?_)
    cases (s.call id).spent <;> rfl
  · rw [Finset.filter_filter, Finset.card_filter]
    refine (hcount .create).trans (Finset.sum_congr rfl fun id _ ↦ ?_)
    match (s.call id).spent with
    | none => rfl
    | some .create => rfl
    | some .mutating => rfl

variable [DecidableEq Id]

theorem Calls.step_call_self (s : Calls Id Body) (id : Id) (e : CallEvent Body) :
    (s.step limits params (id, e)).call id =
      ((s.call id).step limits (params id) s.budget e).1 :=
  Function.update_self _ _ _

theorem Calls.step_call_of_ne (s : Calls Id Body) {id other : Id} (hother : other ≠ id)
    (e : CallEvent Body) : (s.step limits params (id, e)).call other = s.call other :=
  Function.update_of_ne hother _ _

theorem Calls.step_budget (s : Calls Id Body) (id : Id) (e : CallEvent Body) :
    (s.step limits params (id, e)).budget =
      ((s.call id).step limits (params id) s.budget e).2 :=
  rfl

/-- What one call does changes the shares of the others in nothing. -/
theorem Calls.Accounted.counted_step (h : s.Accounted limits params) (id : Id)
    (e : CallEvent Body) : ∃ ids : Finset Id,
      (∀ other, ((s.step limits params (id, e)).call other).spent ≠ none → other ∈ ids) ∧
      ∀ limit, (s.step limits params (id, e)).budget.count limit =
        ∑ other ∈ ids, shareOf ((s.step limits params (id, e)).call other).spent limit := by
  obtain ⟨ids, hids, hcount⟩ := h.counted
  refine ⟨insert id ids, fun other hspent ↦ ?_, fun limit ↦ ?_⟩
  · by_cases hother : other = id
    · rw [hother]
      exact Finset.mem_insert_self id ids
    · rw [s.step_call_of_ne hother] at hspent
      exact Finset.mem_insert_of_mem (hids other hspent)
  · have hbalanced : ((s.call id).step limits (params id) s.budget e).2.count limit +
        shareOf (s.call id).spent limit = s.budget.count limit +
        shareOf ((s.call id).step limits (params id) s.budget e).1.spent limit :=
      Call.balanced_step (h.calls id) (fun limit ↦ h.share_le id limit) e limit
    have hbefore : s.budget.count limit =
        ∑ other ∈ insert id ids, shareOf (s.call other).spent limit := by
      rw [hcount]
      refine Finset.sum_subset (Finset.subset_insert id ids) fun other _ hother ↦ ?_
      rw [not_not.mp (mt (hids other) hother)]
      rfl
    have hothers : ∑ other ∈ (insert id ids).erase id,
        shareOf ((s.step limits params (id, e)).call other).spent limit =
        ∑ other ∈ (insert id ids).erase id, shareOf (s.call other).spent limit := by
      refine Finset.sum_congr rfl fun other hother ↦ ?_
      rw [s.step_call_of_ne (Finset.ne_of_mem_erase hother)]
    have hmem := Finset.mem_insert_self id ids
    rw [← Finset.add_sum_erase _ _ hmem] at hbefore ⊢
    rw [hothers, s.step_call_self, s.step_budget]
    omega

/-- Every call stays accounted for, whatever the event. -/
theorem Calls.Accounted.step (h : s.Accounted limits params) (e : Id × CallEvent Body) :
    (s.step limits params e).Accounted limits params := by
  obtain ⟨id, e⟩ := e
  refine ⟨fun other ↦ ?_, Call.bounded_step h.bounded e, h.counted_step id e⟩
  by_cases hother : other = id
  · subst hother
    rw [s.step_call_self]
    exact Call.accounted_step (h.calls other) e
  · rw [s.step_call_of_ne hother]
    exact h.calls other

theorem Reachable.accounted (h : Reachable limits params s) : s.Accounted limits params := by
  refine Reached.invariant h ⟨fun _ ↦ ⟨rfl, rfl⟩, ?_, ∅, ?_, ?_⟩ fun s e hs _ ↦ hs.step e
  · intro limit
    cases limit <;> exact Nat.zero_le _
  · intro id hspent
    exact absurd rfl hspent
  · intro limit
    cases limit <;> rfl

/-- A call starts, waits for its place and for its tool as long as it does, and hands in its row. -/
def Calls.runsOut (limits : BudgetLimits) (params : Id → ToolCall Input Body) (s : Calls Id Body)
    (id : Id) (written : Bool) : Calls Id Body :=
  [.starts, .givesUp, .deadline, .records written].foldl
    (fun s e ↦ s.step limits params (id, e)) s

theorem Calls.answered_runsOut (s : Calls Id Body) (id : Id) (written : Bool) :
    ((s.runsOut limits params id written).call id).answered = true := by
  refine Call.answered_of_remaining ?_
  simp only [Calls.runsOut, List.foldl_cons, List.foldl_nil, Calls.step_call_self]
  have hstarted : ((s.call id).step limits (params id) s.budget .starts).1.remaining ≤ 3 :=
    Call.remaining_step_starts s.budget
  exact Call.remaining_step_records (Call.remaining_step_deadline
    (Call.remaining_step_givesUp hstarted _) _) _ written

theorem Calls.Accounted.runsOut (h : s.Accounted limits params) (id : Id) (written : Bool) :
    (s.runsOut limits params id written).Accounted limits params := by
  unfold Calls.runsOut
  exact (((h.step _).step _).step _).step _

/-- In every state that is reached, the place of each call is kept where a write may have changed
something and given back once where the call was refused or admitted too late; each call is
recorded once; and the budget counts the places that are spent, within its limits. -/
theorem write_places_kept (h : Reachable limits params s) :
    (∀ id, (s.call id).Exact (params id)) ∧
    (∀ id written, ((s.runsOut limits params id written).call id).records.length = 1) ∧
    (∃ spenders : Finset Id, (∀ id, id ∈ spenders ↔ (s.call id).spent.isSome) ∧
      s.budget.mutating = spenders.card ∧
      s.budget.creates = (spenders.filter fun id ↦ (s.call id).spent = some .create).card) ∧
    s.budget.mutating ≤ limits.mutating ∧ s.budget.creates ≤ limits.creates := by
  have haccounted := h.accounted
  refine ⟨fun id ↦ Call.exact_of_accounted (haccounted.calls id), fun id written ↦ ?_,
    haccounted.spenders, haccounted.bounded .mutating, haccounted.bounded .create⟩
  have hrecorded := (Call.exact_of_accounted ((haccounted.runsOut id written).calls id)).recorded
  rw [s.answered_runsOut id written] at hrecorded
  exact hrecorded

end Runs

/-! ### `update_theme_draft` -/

/-- A theme without a draft, which is saved whole. -/
def themeDraft : ThemeDraftConfig Unit Unit where
  name := "update_theme_draft"
  pattern := "/admin/tenants/:tenant/theme"
  refusal := "insufficient_scope"
  ifMatch := fun _ ↦ none
  hasDraft := fun _ ↦ some false
  fits := fun _ _ ↦ true
  answer := fun _ ↦ some ⟨100⟩

def updateThemeDraft : ToolCall Unit Unit where
  definition := .theme themeDraft (fun _ ↦ .success ()) fun _ ↦ true
  input := ()
  holdsWrite := some true

/-- The theme is read, and the admin API answers so. -/
def readAnswered (status : ℕ) : List (Unit × CallEvent Unit) :=
  [((), .starts), ((), .reserves none), ((), .hears),
    ((), .answers (.answered ⟨status, none, (), none⟩)), ((), .ends), ((), .records true)]

theorem reachable_readAnswered (status : ℕ) :
    Reachable WRITE_BUDGET (fun _ ↦ updateThemeDraft)
      ((readAnswered status).foldl (Calls.step WRITE_BUDGET fun _ ↦ updateThemeDraft) .new) :=
  reached_foldl _ ⟨trivial, trivial, trivial, trivial, trivial, trivial, trivial⟩

/-- The place is given back after the theme that was to be read was not found. -/
theorem write_places_kept_of_unfound :
    (((readAnswered 404).foldl (Calls.step WRITE_BUDGET fun _ ↦ updateThemeDraft) .new).call
      ()).released ≠ [] :=
  ((write_places_kept (reachable_readAnswered 404)).1 ()).given.mpr
    (.inr ⟨_, _, _, rfl, rfl, by decide⟩)

/-- The place stays spent after the theme could not be read, though no write was sent. -/
theorem failed_read_keeps_its_place :
    ¬∀ s : Calls Unit Unit, Reachable WRITE_BUDGET (fun _ ↦ updateThemeDraft) s →
      (s.call ()).answered = true →
        ((s.call ()).spent.isSome ↔ (s.call ()).mayHaveChanged = true) := by
  intro h
  have hfailed := h _ (reachable_readAnswered 500) rfl
  exact absurd (hfailed.mp rfl) (by decide)

end Odudu.Mcp.WriteBudgets
