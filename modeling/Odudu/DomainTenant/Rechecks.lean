import Mathlib.Data.List.Perm.Basic
import Odudu.DomainTenant.DomainTable

/-!
# Rechecks of verified domains

`usecase/recheck-domains.ts` and `usecase/verify-domain.ts`, with the registration, the removal
and the switches of an administrator between them.  Each transaction is one step, and the steps of
any number of passes and requests come in any order; the server itself starts a pass only under
an advisory lock, so that none of its passes overlap, and nothing here rests on that.

A step is told what the resolver answered and how its transaction went: one that throws is rolled
back and counted as an error, and a switch may have seen another canonical row than the one it
finds under the lock (`Luck`).  What happened to the rows is written down as it happens
(`Event`), the latest first.
-/

set_option autoImplicit false

namespace Odudu.DomainTenant.Rechecks

variable {Id Tenant Host : Type}

/-- What the challenge record of a host says. -/
inductive TxtOutcome where
  /-- `match` -/
  | matching
  | absent
  | indeterminate
  deriving DecidableEq

structure Looked (Id Tenant Host : Type) where
  row : DomainRow Id Tenant Host
  outcome : TxtOutcome

/-- How the transaction of a step goes. -/
inductive Luck (Id : Type) where
  | calm
  | overtaken (seen : Option Id)
  | thrown
  deriving DecidableEq

/-- A pass between two of its steps: the position it has read up to, the hosts that it has looked
up, the results of a page that are still to be settled, and whether that page was its last. -/
structure Pass (Id Tenant Host : Type) where
  after : Option Host
  looked : List Host
  pending : List (Looked Id Tenant Host)
  last : Bool

/-- What is written down of a row. -/
inductive Event (Id Tenant : Type) where
  /-- A miss was counted. -/
  | missed (key : Tenant × Id)
  /-- A pass settled a match. -/
  | matched (key : Tenant × Id)
  /-- A pass failed the row. -/
  | failed (key : Tenant × Id)
  deriving DecidableEq

structure Config where
  pageSize : ℕ
  pageSize_pos : 0 < pageSize
  threshold : ℕ

structure State (Id Tenant Host : Type) where
  store : Store Id Tenant Host
  passes : ℕ → Option (Pass Id Tenant Host)
  /-- Verifications that have read their row and wait for the resolver. -/
  requests : ℕ → Option ((Tenant × Id) × DomainState)
  history : List (Event Id Tenant)

section Settle

variable [DecidableEq Id] [DecidableEq Tenant] [DecidableEq Host]

/-- What a switch of a tenant saw before it took the lock. -/
def Luck.seen (luck : Luck Id) (s : Store Id Tenant Host) (tenantId : Tenant) : Option Id :=
  match luck with
  | overtaken seen => seen
  | _ => (canonical s.rows tenantId).map DomainRow.id

/-- Whether the tenant is off the domain after a switch. -/
def SwitchOutcome.moved : SwitchOutcome Id Tenant Host → Bool
  | switched _ _ | unchanged _ | precondition_failed => true
  | _ => false

structure Done where
  failed : Bool
  fellBack : Bool

def SwitchOutcome.isSwitched : SwitchOutcome Id Tenant Host → Bool
  | switched _ _ => true
  | _ => false

/-- The switch of a failing row's tenant to its path address. -/
def fallBack (s : Store Id Tenant Host) (row : DomainRow Id Tenant Host) (luck : Luck Id)
    (now : ℕ) : SwitchOutcome Id Tenant Host × Store Id Tenant Host :=
  switchCanonical true s (luck.seen s row.tenantId) row.tenantId none now fun current ↦
    decide (current.map DomainRow.id = some row.id)

/-- Counts a miss, and fails the row once the threshold is reached. -/
def countMiss (cfg : Config) (s : Store Id Tenant Host) (row : DomainRow Id Tenant Host)
    (luck : Luck Id) (now : ℕ) : Done × Store Id Tenant Host :=
  let counted := { s with rows := recordCheck s.rows row.key false }
  match get counted.rows row.key with
  | none => (⟨false, false⟩, counted)
  | some found =>
    if found.state ≠ .verified ∨ found.failedChecks < cfg.threshold then
      (⟨false, false⟩, counted)
    else if found.canonical then
      let switch := fallBack counted row luck now
      if !switch.1.moved then (⟨false, false⟩, switch.2)
      else (⟨true, switch.1.isSwitched⟩,
        { switch.2 with rows := markFailed switch.2.rows row.key })
    else (⟨true, false⟩, { counted with rows := markFailed counted.rows row.key })

/-- The events of a counted miss. -/
def missEvents (s : Store Id Tenant Host) (key : Tenant × Id) (done : Done) :
    List (Event Id Tenant) :=
  (if done.failed then [.failed key] else []) ++
    if (get s.rows key).isSome then [.missed key] else []

/-- What settling a result does to the rows, with what is written down of it. -/
def settle (cfg : Config) (s : Store Id Tenant Host) (looked : Looked Id Tenant Host)
    (luck : Luck Id) (now : ℕ) : Store Id Tenant Host × List (Event Id Tenant) :=
  match looked.outcome with
  | .indeterminate => (s, [])
  | .matching =>
    if looked.row.failedChecks > 0 then
      -- rolled back and reported
      if luck = .thrown then (s, [])
      else
        ({ s with rows := recordCheck s.rows looked.row.key true }, [.matched looked.row.key])
    else (s, [.matched looked.row.key])
  | .absent =>
    if luck = .thrown then (s, [])
    else
      let done := countMiss cfg s looked.row luck now
      (done.2, missEvents s looked.row.key done.1)

/-- What a verification writes once the resolver has answered. -/
def verifyRows (rows : List (DomainRow Id Tenant Host)) (key : Tenant × Id) (state : DomainState)
    (found : TxtOutcome) : List (DomainRow Id Tenant Host) × List (Event Id Tenant) :=
  if state = .failed ∧ found ≠ .matching then (rows, [])
  else
    match found with
    | .indeterminate => (rows, [])
    | .absent =>
      (recordCheck rows key false, if (get rows key).isSome then [.missed key] else [])
    | .matching => ((markVerified rows key).getD rows, [])

end Settle

/-! ### Steps -/

/-- The steps of the passes, of verifications and of an administrator. -/
inductive Act (Id Tenant Host : Type) where
  | start (k : ℕ)
  /-- A page is read and every row of it looked up; the results are in the order they came. -/
  | page (k : ℕ) (looked : List (Looked Id Tenant Host))
  | settle (k : ℕ) (luck : Luck Id) (now : ℕ)
  | finish (k : ℕ)
  | verifyRead (request : ℕ) (key : Tenant × Id)
  | verifyWrite (request : ℕ) (found : TxtOutcome)
  | register (id : Id) (tenantId : Tenant) (host : Host)
  | remove (key : Tenant × Id)
  /-- A switch with what the caller's precondition says of the current row. -/
  | switch (tenantId : Tenant) (target seen : Option Id) (now : ℕ) (accepted : Bool)

section Step

variable [DecidableEq Id] [DecidableEq Tenant] [LinearOrder Host]

/-- The results of a page that change anything: none where more than half of them say nothing. -/
def settled (looked : List (Looked Id Tenant Host)) : List (Looked Id Tenant Host) :=
  let unknown := (looked.filter fun l ↦ l.outcome = .indeterminate).length
  if unknown * 2 ≤ looked.length then looked.filter fun l ↦ l.outcome ≠ .indeterminate else []

/-- A pass after a page. -/
def turned (cfg : Config) (pass : Pass Id Tenant Host) (rows : List (DomainRow Id Tenant Host))
    (looked : List (Looked Id Tenant Host)) : Pass Id Tenant Host :=
  match rows.getLast? with
  | none => { pass with last := true }
  | some last =>
    ⟨some last.host, pass.looked ++ looked.map fun l ↦ l.row.host, settled looked,
      decide (rows.length < cfg.pageSize)⟩

def State.setPass (s : State Id Tenant Host) (k : ℕ) (pass : Option (Pass Id Tenant Host)) :
    State Id Tenant Host :=
  { s with passes := Function.update s.passes k pass }

def State.setRows (s : State Id Tenant Host) (rows : List (DomainRow Id Tenant Host)) :
    State Id Tenant Host :=
  { s with store := { s.store with rows := rows } }

/-- None where a step cannot be taken. -/
def step (cfg : Config) (s : State Id Tenant Host) :
    Act Id Tenant Host → Option (State Id Tenant Host)
  | .start k =>
    match s.passes k with
    | none => some (s.setPass k (some ⟨none, [], [], false⟩))
    | some _ => none
  | .page k looked =>
    match s.passes k with
    | none => none
    | some pass =>
      let rows := verifiedDomainPage s.store.rows pass.after cfg.pageSize
      if pass.pending = [] ∧ pass.last = false ∧ (looked.map Looked.row).isPerm rows then
        some (s.setPass k (some (turned cfg pass rows looked)))
      else none
  | .settle k luck now =>
    match s.passes k with
    | none => none
    | some pass =>
      match pass.pending with
      | [] => none
      | looked :: pending =>
        let done := settle cfg s.store looked luck now
        some { s.setPass k (some { pass with pending := pending }) with
          store := done.1, history := done.2 ++ s.history }
  | .finish k =>
    match s.passes k with
    | none => none
    | some pass => if pass.pending = [] ∧ pass.last = true then some (s.setPass k none) else none
  | .verifyRead request key =>
    match s.requests request, get s.store.rows key with
    | none, some row =>
      if row.state = .verified then none
      else some { s with requests := Function.update s.requests request (some (key, row.state)) }
    | _, _ => none
  | .verifyWrite request found =>
    match s.requests request with
    | none => none
    | some (key, state) =>
      let done := verifyRows s.store.rows key state found
      some { s.setRows done.1 with
        requests := Function.update s.requests request none, history := done.2 ++ s.history }
  | .register id tenantId host => (insert s.store.rows id tenantId host).map s.setRows
  | .remove key =>
    match get s.store.rows key with
    | none => none
    | some row => if row.canonical then none else some (s.setRows (delete s.store.rows key))
  | .switch tenantId target seen now accepted =>
    some { s with
      store := (switchCanonical true s.store seen tenantId target now fun _ ↦ accepted).2 }

/-- What a step does, and when it can be taken. -/
inductive Steps (cfg : Config) (s : State Id Tenant Host) :
    Act Id Tenant Host → State Id Tenant Host → Prop where
  | start {k : ℕ} (hfree : s.passes k = none) :
      Steps cfg s (.start k) (s.setPass k (some ⟨none, [], [], false⟩))
  | page {k : ℕ} {looked : List (Looked Id Tenant Host)} {pass : Pass Id Tenant Host}
      (hpass : s.passes k = some pass) (hpending : pass.pending = []) (hlast : pass.last = false)
      (hlooked : (looked.map Looked.row).Perm
        (verifiedDomainPage s.store.rows pass.after cfg.pageSize)) :
      Steps cfg s (.page k looked) (s.setPass k (some (turned cfg pass
        (verifiedDomainPage s.store.rows pass.after cfg.pageSize) looked)))
  | settle {k : ℕ} {luck : Luck Id} {now : ℕ} {pass : Pass Id Tenant Host}
      {looked : Looked Id Tenant Host} {pending : List (Looked Id Tenant Host)}
      (hpass : s.passes k = some pass) (hpending : pass.pending = looked :: pending) :
      Steps cfg s (.settle k luck now) { s.setPass k (some { pass with pending := pending }) with
        store := (settle cfg s.store looked luck now).1
        history := (settle cfg s.store looked luck now).2 ++ s.history }
  | finish {k : ℕ} {pass : Pass Id Tenant Host} (hpass : s.passes k = some pass)
      (hpending : pass.pending = []) (hlast : pass.last = true) :
      Steps cfg s (.finish k) (s.setPass k none)
  | verifyRead {request : ℕ} {key : Tenant × Id} {row : DomainRow Id Tenant Host}
      (hrow : get s.store.rows key = some row) (hstate : row.state ≠ .verified) :
      Steps cfg s (.verifyRead request key)
        { s with requests := Function.update s.requests request (some (key, row.state)) }
  | verifyWrite {request : ℕ} {found : TxtOutcome} {key : Tenant × Id} {state : DomainState}
      (hrequest : s.requests request = some (key, state)) :
      Steps cfg s (.verifyWrite request found)
        { s.setRows (verifyRows s.store.rows key state found).1 with
          requests := Function.update s.requests request none
          history := (verifyRows s.store.rows key state found).2 ++ s.history }
  | register {id : Id} {tenantId : Tenant} {host : Host} {rows : List (DomainRow Id Tenant Host)}
      (hrows : insert s.store.rows id tenantId host = some rows) :
      Steps cfg s (.register id tenantId host) (s.setRows rows)
  | remove {key : Tenant × Id} {row : DomainRow Id Tenant Host}
      (hrow : get s.store.rows key = some row) (hcanonical : row.canonical = false) :
      Steps cfg s (.remove key) (s.setRows (delete s.store.rows key))
  | switch {tenantId : Tenant} {target seen : Option Id} {now : ℕ} {accepted : Bool} :
      Steps cfg s (.switch tenantId target seen now accepted) { s with
        store := (switchCanonical true s.store seen tenantId target now fun _ ↦ accepted).2 }

/-- All that a step can do. -/
theorem steps_of_step {cfg : Config} {s s' : State Id Tenant Host} {act : Act Id Tenant Host}
    (h : step cfg s act = some s') : Steps cfg s act s' := by
  unfold step at h
  split at h
  · split at h
    · rename_i hfree
      rw [← Option.some.inj h]
      exact .start hfree
    · exact nomatch h
  · split at h
    · exact nomatch h
    · rename_i pass hpass
      simp only at h
      split_ifs at h with hpage
      rw [← Option.some.inj h]
      exact .page hpass hpage.1 hpage.2.1 (List.isPerm_iff.mp hpage.2.2)
  · split at h
    · exact nomatch h
    · rename_i pass hpass
      split at h
      · exact nomatch h
      · rename_i looked pending hpending
        rw [← Option.some.inj h]
        exact .settle hpass hpending
  · split at h
    · exact nomatch h
    · rename_i pass hpass
      split_ifs at h with hdone
      rw [← Option.some.inj h]
      exact .finish hpass hdone.1 hdone.2
  · split at h
    · rename_i row hfree hrow
      split_ifs at h with hstate
      rw [← Option.some.inj h]
      exact .verifyRead hrow hstate
    · exact nomatch h
  · split at h
    · exact nomatch h
    · rename_i key state hrequest
      rw [← Option.some.inj h]
      exact .verifyWrite hrequest
  · obtain ⟨rows, hrows, rfl⟩ := Option.map_eq_some_iff.mp h
    exact .register hrows
  · split at h
    · exact nomatch h
    · rename_i row hrow
      split_ifs at h with hcanonical
      rw [← Option.some.inj h]
      exact .remove hrow (Bool.eq_false_iff.mpr hcanonical)
  · rw [← Option.some.inj h]
    exact .switch

def run (cfg : Config) : List (Act Id Tenant Host) → State Id Tenant Host →
    Option (State Id Tenant Host)
  | [], s => some s
  | act :: acts, s => (step cfg s act).bind (run cfg acts)

/-- Nothing registered, no pass and no request. -/
def initial : State Id Tenant Host := ⟨⟨[], fun _ ↦ none⟩, fun _ ↦ none, fun _ ↦ none, []⟩

end Step

end Odudu.DomainTenant.Rechecks
