import Odudu.DomainTenant.FailedDomains

/-!
# Issuers across switches of the canonical address

Whatever switches, failures and removals come between, an issuer that a tenant had at some instant
is its issuer still, or is retired no earlier than the tokens signed at that instant expire
(`issuers_stay_accepted`): the address of a tenant changes in a switch alone, which retires what it
leaves, and a second retirement never shortens the first.

`listRetired` reads the retirements whose expiry is ahead of the clock, a hundred of them at most;
of that limit nothing is said here.
-/

set_option autoImplicit false

namespace Odudu.DomainTenant.Rechecks

variable {Id Tenant Host : Type}

theorem find?_narrowed {α : Type} {p q : α → Bool} {rows : List α}
    (hq : ∀ row, q row = true → p row = true)
    (hfound : ∀ row, rows.find? p = some row → q row = true) : rows.find? q = rows.find? p := by
  induction rows with
  | nil => rfl
  | cons row rows ih =>
    by_cases hrow : p row = true
    · have hnarrow : q row = true := hfound row (List.find?_cons_of_pos hrow)
      rw [List.find?_cons_of_pos hrow, List.find?_cons_of_pos hnarrow]
    · rw [List.find?_cons_of_neg hrow, List.find?_cons_of_neg (mt (hq row) hrow)]
      exact ih fun row hrow' ↦ hfound row ((List.find?_cons_of_neg hrow).trans hrow')

section Addresses

variable [DecidableEq Tenant] {rows rows' : List (DomainRow Id Tenant Host)} {key : Tenant × Id}
  {tenantId other : Tenant}

/-- The address of a tenant: the host of its canonical row, or none for the path. -/
def addressOf (rows : List (DomainRow Id Tenant Host)) (tenantId : Tenant) : Option Host :=
  (canonical rows tenantId).map DomainRow.host

variable {row : DomainRow Id Tenant Host}

theorem canonical_spec (h : canonical rows tenantId = some row) :
    row ∈ rows ∧ row.tenantId = tenantId ∧ row.canonical = true :=
  ⟨List.mem_of_find?_eq_some h, by simpa using List.find?_some h⟩

theorem addressOf_map {f : DomainRow Id Tenant Host → DomainRow Id Tenant Host}
    (hf : ∀ row, (f row).host = row.host) :
    addressOf (rows.map f) tenantId = (rows.find? fun row ↦
      decide ((f row).tenantId = tenantId) && (f row).canonical).map DomainRow.host := by
  unfold addressOf canonical
  rw [List.find?_map, Option.map_map, show DomainRow.host ∘ f = DomainRow.host from funext hf]
  rfl

variable [DecidableEq Id]

/-- An update of a row that is not the tenant's address, or stays canonical. -/
theorem addressOf_updateOwn {set : DomainRow Id Tenant Host → DomainRow Id Tenant Host}
    (hset : ∀ row, (set row).tenantId = row.tenantId ∧ (set row).host = row.host ∧
      ((set row).canonical = true → row.canonical = true))
    (hkey : ∀ row, canonical rows tenantId = some row → row.key = key →
      (set row).canonical = true) :
    addressOf (updateOwn rows key set) tenantId = addressOf rows tenantId := by
  rw [updateOwn, addressOf_map fun row ↦ by split <;> [exact (hset row).2.1; rfl], addressOf,
    canonical]
  refine congrArg _ (find?_narrowed (fun row hrow ↦ ?_) fun row hfound ↦ ?_)
  · split_ifs at hrow
    · rw [Bool.and_eq_true, (hset row).1] at hrow
      exact Bool.and_eq_true .. ▸ ⟨hrow.1, (hset row).2.2 hrow.2⟩
    · exact hrow
  · obtain ⟨-, htenant, hcanonical⟩ := canonical_spec hfound
    split_ifs with hrow
    · simp [hset row, htenant, hkey row hfound hrow]
    · simp [htenant, hcanonical]

theorem addressOf_recordCheck (passed : Bool) :
    addressOf (recordCheck rows key passed) tenantId = addressOf rows tenantId :=
  addressOf_updateOwn (fun _ ↦ ⟨rfl, rfl, id⟩) fun _ hfound _ ↦ (canonical_spec hfound).2.2

theorem addressOf_markFailed
    (hrow : ∀ found, canonical rows tenantId = some found → found.key ≠ key) :
    addressOf (markFailed rows key) tenantId = addressOf rows tenantId :=
  addressOf_updateOwn (fun _ ↦ ⟨rfl, rfl, nofun⟩)
    fun found hfound hkey ↦ absurd hkey (hrow found hfound)

theorem addressOf_delete
    (hrow : ∀ found, canonical rows tenantId = some found → found.key ≠ key) :
    addressOf (delete rows key) tenantId = addressOf rows tenantId := by
  rw [addressOf, canonical, delete, List.find?_filter]
  exact congrArg _ (find?_narrowed (fun _ h ↦ (of_decide_eq_true h).2) fun found hfound ↦ by
    simp [hrow found hfound, canonical_spec hfound])

variable {next : Option (DomainRow Id Tenant Host)}

theorem get_of_nextOf {target : Option Id}
    (h : nextOf rows tenantId target = .ok next)
    (hrow : next = some row) : get rows (tenantId, row.id) = some row := by
  unfold nextOf at h
  split at h
  · exact nomatch (Except.ok.inj h).trans hrow
  · split at h
    · exact nomatch h
    · rename_i found hfound
      split_ifs at h
      obtain rfl := Option.some.inj ((Except.ok.inj h).trans hrow)
      rwa [show found.id = _ from congrArg Prod.snd (get_spec hfound).2]

/-- A switch gives its tenant the address of the row, and leaves the others theirs. -/
theorem addressOf_switchRows
    (hnext : ∀ row, next = some row → get rows (tenantId, row.id) = some row)
    (hrows : switchRows rows tenantId next = some rows') :
    addressOf rows' other =
      if other = tenantId then next.map DomainRow.host else addressOf rows other := by
  cases next with
  | none =>
    rw [← Option.some.inj hrows, clearCanonical, addressOf_map fun row ↦ by split <;> rfl]
    split_ifs with hother
    · refine congrArg _ (List.find?_eq_none.mpr fun row _ ↦ ?_)
      split_ifs <;> simp_all
    · refine congrArg _ (congrFun (congrArg _ (funext fun row ↦ ?_)) rows)
      split_ifs with hcleared
      · simp [hcleared, Ne.symm hother]
      · rfl
  | some next =>
    simp only [switchRows, setCanonical] at hrows
    split_ifs at hrows
    rw [← Option.some.inj hrows, addressOf_map fun row ↦ by split_ifs <;> rfl]
    split_ifs with hother
    · rw [← hnext next rfl, get]
      refine congrArg _ (congrFun (congrArg _ (funext fun row ↦ ?_)) rows)
      by_cases hkey : row.key = (tenantId, next.id)
      · have htenant : row.tenantId = tenantId := congrArg Prod.fst hkey
        simp [hkey, htenant, hother]
      · rw [if_neg hkey, decide_eq_false hkey]
        split_ifs <;> simp_all
    · refine congrArg _ (congrFun (congrArg _ (funext fun row ↦ ?_)) rows)
      by_cases hkey : row.key = (tenantId, next.id)
      · have htenant : row.tenantId = tenantId := congrArg Prod.fst hkey
        simp [hkey, htenant, Ne.symm hother]
      · rw [if_neg hkey]
        split_ifs with hcleared
        · simp [hcleared, Ne.symm hother]
        · rfl

end Addresses

/-! ### Acceptance -/

section Accepted

variable [DecidableEq Id] [DecidableEq Tenant] [DecidableEq Host] {s s' : Store Id Tenant Host}
  {tenantId : Tenant} {issuer : Option Host} {t : ℕ}

/-- The tenant's issuer, or one that is retired no earlier than what was signed at `t` expires. -/
def Accepted (s : Store Id Tenant Host) (tenantId : Tenant) (issuer : Option Host) (t : ℕ) : Prop :=
  addressOf s.rows tenantId = issuer ∨ ∃ expiresAt,
    s.retirements (tenantId, issuer) = some expiresAt ∧
      t + ACCESS_TOKEN_CEILING_SECONDS * 1000 ≤ expiresAt

variable {now : ℕ}

/-- A switch retires the issuer that the tenant leaves, and shortens no retirement but of the one
it goes to. -/
theorem Accepted.switchCanonical (h : Accepted s tenantId issuer t) {hasBase : Bool}
    {seen target : Option Id} {switched : Tenant} (hnow : t ≤ now)
    {precondition : Option (DomainRow Id Tenant Host) → Bool} :
    Accepted (switchCanonical hasBase s seen switched target now precondition).2 tenantId issuer
      t := by
  unfold Rechecks.switchCanonical
  split
  · exact h
  dsimp only
  split
  · exact h
  split
  · exact h
  split
  · exact h
  rename_i next hnext
  split
  · exact h
  split
  · exact h
  rename_i rows hrows
  have haddress : addressOf rows tenantId =
      if tenantId = switched then next.map DomainRow.host else addressOf s.rows tenantId :=
    addressOf_switchRows (fun _ ↦ get_of_nextOf hnext) hrows
  by_cases hback : (tenantId, issuer) = (switched, next.map DomainRow.host)
  · obtain ⟨rfl, rfl⟩ := Prod.mk.inj hback
    exact Or.inl (haddress.trans (if_pos rfl))
  by_cases hleft : (tenantId, issuer) = (switched, addressOf s.rows switched)
  · obtain ⟨rfl, rfl⟩ := Prod.mk.inj hleft
    exact Or.inr ⟨_, (Function.update_of_ne hback _ _).trans (Function.update_self _ _ _),
      (Nat.add_le_add_right hnow _).trans (Nat.le_max_right _ _)⟩
  · rcases h with rfl | ⟨expiresAt, hexpires, hlate⟩
    · exact Or.inl (haddress.trans (if_neg fun hswitched ↦ hleft (by rw [hswitched])))
    · exact Or.inr ⟨expiresAt, (Function.update_of_ne hback _ _).trans
        ((Function.update_of_ne hleft _ _).trans hexpires), hlate⟩

variable {luck : Luck Id}

/-- A tenant that is off the domain of a row does not have the row for its address. -/
theorem key_ne_of_moved {row found : DomainRow Id Tenant Host}
    (hmoved : (fallBack s row luck now).1.moved = true)
    (hfound : canonical (fallBack s row luck now).2.rows tenantId = some found) :
    found.key ≠ row.key := by
  intro hkey
  obtain ⟨-, rfl, -⟩ := canonical_spec hfound
  have htenant : found.tenantId = row.tenantId := congrArg Prod.fst hkey
  have hid : found.id = row.id := congrArg Prod.snd hkey
  rw [htenant] at hfound
  simp only [fallBack, switchCanonical, nextOf, switchRows, Bool.not_true, Bool.false_eq_true,
    if_false] at hmoved hfound
  split at hmoved
  · cases hmoved
  split_ifs at hmoved hfound with hother hnone
  · simp [hfound, hid] at hother
  · simp [hfound] at hnone
  · have haddress : addressOf _ row.tenantId = _ := addressOf_switchRows
      (by rintro _ ⟨⟩) (rfl : switchRows s.rows row.tenantId none = some _)
    rw [addressOf, hfound, if_pos rfl] at haddress
    cases haddress

/-- A row is failed once it is not its tenant's address. -/
theorem Accepted.countMiss (h : Accepted s tenantId issuer t) (hdistinct : Distinct s.rows)
    {cfg : Config} {row : DomainRow Id Tenant Host} (hnow : t ≤ now) :
    Accepted (countMiss cfg s row luck now).2 tenantId issuer t := by
  have hcounted : Accepted { s with rows := recordCheck s.rows row.key false } tenantId issuer t :=
    h.imp_left (addressOf_recordCheck false).trans
  unfold Rechecks.countMiss
  dsimp only
  split
  · exact hcounted
  rename_i found hfound
  split
  · exact hcounted
  split
  · split
    · exact hcounted.switchCanonical hnow
    · rename_i hmoved
      have hmoved : (fallBack { s with rows := recordCheck s.rows row.key false } row luck
          now).1.moved = true := by simpa using hmoved
      exact (hcounted.switchCanonical hnow).imp_left
        (addressOf_markFailed fun _ hcurrent ↦ key_ne_of_moved hmoved hcurrent).trans
  · rename_i hcanonical
    refine hcounted.imp_left (addressOf_markFailed fun current hcurrent hkey ↦ hcanonical ?_).trans
    obtain ⟨hmem, -, htrue⟩ := canonical_spec hcurrent
    have hget := (hdistinct.recordCheck false).get hmem
    rw [hkey, hfound] at hget
    rwa [Option.some.inj hget]

theorem Accepted.settle (h : Accepted s tenantId issuer t) (hdistinct : Distinct s.rows)
    {cfg : Config} {looked : Looked Id Tenant Host} (hnow : t ≤ now) :
    Accepted (settle cfg s looked luck now).1 tenantId issuer t := by
  unfold Rechecks.settle
  split
  · exact h
  · split_ifs
    · exact h
    · exact h.imp_left (addressOf_recordCheck true).trans
    · exact h
  · split_ifs
    · exact h
    · exact h.countMiss hdistinct hnow

theorem addressOf_verifyRows {rows : List (DomainRow Id Tenant Host)} {key : Tenant × Id}
    (state : DomainState) (found : TxtOutcome) :
    addressOf (verifyRows rows key state found).1 tenantId = addressOf rows tenantId := by
  unfold verifyRows
  split
  · rfl
  cases found with
  | indeterminate => rfl
  | absent => exact addressOf_recordCheck false
  | matching =>
    show addressOf ((markVerified rows key).getD rows) tenantId = addressOf rows tenantId
    unfold markVerified
    split
    · rfl
    · exact addressOf_updateOwn (fun _ ↦ ⟨rfl, rfl, id⟩) fun _ hfound _ ↦
        (canonical_spec hfound).2.2

end Accepted

/-! ### Runs -/

section Runs

variable [DecidableEq Id] [DecidableEq Tenant] [LinearOrder Host] {cfg : Config}
  {s s' : State Id Tenant Host} {tenantId : Tenant} {issuer : Option Host} {t : ℕ}

/-- What the step switches, it switches at `t` or later. -/
def Act.notBefore (t : ℕ) : Act Id Tenant Host → Bool
  | settle _ _ now | switch _ _ _ now _ => t ≤ now
  | _ => true

/-- An issuer that is accepted stays so in every act not dated before. -/
theorem accepted_step {act : Act Id Tenant Host} (hdistinct : Distinct s.store.rows)
    (h : Accepted s.store tenantId issuer t) (htime : act.notBefore t = true)
    (hstep : step cfg s act = some s') : Accepted s'.store tenantId issuer t := by
  cases steps_of_step hstep with
  | start | page | finish | verifyRead => exact h
  | settle => exact h.settle hdistinct (of_decide_eq_true htime)
  | verifyWrite => exact h.imp_left (addressOf_verifyRows _ _).trans
  | register hrows =>
    unfold insert at hrows
    split_ifs at hrows
    obtain rfl := Option.some.inj hrows
    refine h.imp_left (Eq.trans ?_)
    simp [addressOf, canonical, State.setRows]
  | @remove key row hrow hcanonical =>
    refine h.imp_left (addressOf_delete fun found hfound hkey ↦ ?_).trans
    obtain ⟨hmem, -, htrue⟩ := canonical_spec hfound
    have hget := hdistinct.get hmem
    rw [hkey, hrow] at hget
    obtain rfl := Option.some.inj hget
    exact nomatch hcanonical.symm.trans htrue
  | switch => exact h.switchCanonical (of_decide_eq_true htime)

/-- In every run: an issuer that a tenant had when `t` was, and no later switch is before it, is
its issuer or is retired until what was signed at `t` has expired. -/
theorem issuers_stay_accepted (cfg : Config) {before later : List (Act Id Tenant Host)}
    (hbefore : run cfg before initial = some s) (hlater : run cfg later s = some s')
    (htimes : ∀ act ∈ later, act.notBefore t = true)
    (hissuer : addressOf s.store.rows tenantId = issuer) :
    Accepted s'.store tenantId issuer t := by
  have hdistinct : Distinct s.store.rows := distinct_run before initial s List.Pairwise.nil hbefore
  have h : Accepted s.store tenantId issuer t := Or.inl hissuer
  clear hbefore hissuer
  induction later generalizing s with
  | nil => rwa [← Option.some.inj hlater]
  | cons act later ih =>
    obtain ⟨middle, hstep, hrest⟩ := Option.bind_eq_some_iff.mp hlater
    obtain ⟨htime, hafter⟩ := List.forall_mem_cons.mp htimes
    exact ih hrest hafter (distinct_step hdistinct hstep) (accepted_step hdistinct h htime hstep)

/-- A tenant goes from its path to a domain and back, an hour before a token signed under the
domain expires. -/
theorem issuers_stay_accepted_back :
    ∃ s s' : State ℕ ℕ ℕ, addressOf s.store.rows 1 = some 1 ∧ addressOf s'.store.rows 1 = none ∧
      Accepted s'.store 1 (some 1) 10 := by
  have hruns : ((run twice (verifiedTwice ++ [.switch 1 (some 1) none 5 true]) initial).bind
      fun s ↦ (run twice [.switch 1 none (some 1) 10 true] s).map fun s' ↦ (s, s')).map
        (fun p ↦ (addressOf p.1.store.rows 1, addressOf p.2.store.rows 1)) =
          some (some 1, none) := by decide +kernel
  obtain ⟨⟨s, s'⟩, hboth, haddresses⟩ := Option.map_eq_some_iff.mp hruns
  obtain ⟨before, hbefore, hafter⟩ := Option.bind_eq_some_iff.mp hboth
  obtain ⟨after, hlater, hpair⟩ := Option.map_eq_some_iff.mp hafter
  obtain ⟨rfl, rfl⟩ := Prod.mk.inj hpair
  obtain ⟨hhost, hpath⟩ := Prod.mk.inj haddresses
  exact ⟨before, after, hhost, hpath, issuers_stay_accepted twice hbefore hlater (by decide) hhost⟩

end Runs

end Odudu.DomainTenant.Rechecks
