import Odudu.DomainTenant.TenantSettings
import Odudu.Listings.Keyset

/-!
# The domains of tenants and their canonical address

`repository/tenant-domains.ts` and `usecase/switch-canonical.ts`, a transaction at a time.  A
tenant's rows are under its lock where a switch or a miss is written, so what another transaction
may still change between two reads of one of them is the canonical row that a switch has seen
before it took the lock (`seen`).

A host is of any order; challenges and the times of checks, which nothing here reads, are left
out, and so is the name in a tenant's path address.  An issuer is known by its address: a host,
or none for the path.
-/

set_option autoImplicit false

namespace Odudu.DomainTenant.Rechecks

inductive DomainState where
  | pending
  | verified
  | failed
  deriving DecidableEq

structure DomainRow (Id Tenant Host : Type) where
  id : Id
  tenantId : Tenant
  host : Host
  state : DomainState
  failedChecks : ℕ
  canonical : Bool
  deriving DecidableEq

variable {Id Tenant Host : Type}

/-- What a statement finds a row by. -/
def DomainRow.key (row : DomainRow Id Tenant Host) : Tenant × Id := (row.tenantId, row.id)

/-- The rows of every tenant, and until when each issuer that a tenant left is accepted. -/
structure Store (Id Tenant Host : Type) where
  rows : List (DomainRow Id Tenant Host)
  retirements : Tenant × Option Host → Option ℕ

def MAX_DOMAINS_PER_TENANT : ℕ := 20

section Rows

variable [DecidableEq Id] [DecidableEq Tenant] [DecidableEq Host]
  (rows : List (DomainRow Id Tenant Host)) (key : Tenant × Id)

def updateOwn (set : DomainRow Id Tenant Host → DomainRow Id Tenant Host) :
    List (DomainRow Id Tenant Host) :=
  rows.map fun row ↦ if row.key = key then set row else row

def get : Option (DomainRow Id Tenant Host) := rows.find? fun row ↦ row.key = key

def canonical (tenantId : Tenant) : Option (DomainRow Id Tenant Host) :=
  rows.find? fun row ↦ row.tenantId = tenantId && row.canonical

/-- Of rows that there are, none with the id or with the tenant's host, within the tenant's most. -/
def insert (id : Id) (tenantId : Tenant) (host : Host) : Option (List (DomainRow Id Tenant Host)) :=
  if (rows.filter fun row ↦ row.tenantId = tenantId).length ≥ MAX_DOMAINS_PER_TENANT then none
  else if rows.any fun row ↦ row.id = id || (row.tenantId = tenantId && row.host = host) then none
  else some (⟨id, tenantId, host, .pending, 0, false⟩ :: rows)

def delete : List (DomainRow Id Tenant Host) := rows.filter fun row ↦ row.key ≠ key

/-- Whether another row holds the host of this one: what the index of verified hosts refuses. -/
def verifiedElsewhere : Bool :=
  rows.any fun row ↦ row.key = key &&
    rows.any fun other ↦ other.key ≠ key && other.state = .verified && other.host = row.host

def markVerified : Option (List (DomainRow Id Tenant Host)) :=
  if verifiedElsewhere rows key then none
  else some (updateOwn rows key fun row ↦ { row with state := .verified, failedChecks := 0 })

def markFailed : List (DomainRow Id Tenant Host) :=
  updateOwn rows key fun row ↦ { row with state := .failed, canonical := false }

def recordCheck (passed : Bool) : List (DomainRow Id Tenant Host) :=
  updateOwn rows key fun row ↦
    { row with failedChecks := if passed then 0 else row.failedChecks + 1 }

def clearCanonical (tenantId : Tenant) : List (DomainRow Id Tenant Host) :=
  rows.map fun row ↦
    if row.tenantId = tenantId ∧ row.canonical = true then { row with canonical := false } else row

/-- A verified row in the place of the tenant's canonical one. -/
def setCanonical : Option (List (DomainRow Id Tenant Host)) :=
  if rows.any fun row ↦ row.key = key && row.state = .verified then
    some <| rows.map fun row ↦
      if row.key = key then { row with canonical := true }
      else if row.tenantId = key.1 ∧ row.canonical = true then { row with canonical := false }
      else row
  else none

end Rows

section Retirements

variable [DecidableEq Tenant] [DecidableEq Host]
  (retirements : Tenant × Option Host → Option ℕ)

/-- A second retirement of one issuer keeps the later expiry. -/
def retireIssuer (issuer : Tenant × Option Host) (expiresAt : ℕ) :
    Tenant × Option Host → Option ℕ :=
  Function.update retirements issuer (some (max ((retirements issuer).getD expiresAt) expiresAt))

def clearRetirement (issuer : Tenant × Option Host) : Tenant × Option Host → Option ℕ :=
  Function.update retirements issuer none

end Retirements

/-! ### Switches -/

inductive SwitchOutcome (Id Tenant Host : Type) where
  | switched (canonical previous : Option (DomainRow Id Tenant Host))
  | unchanged (canonical : Option (DomainRow Id Tenant Host))
  | not_found
  | not_verified (state : DomainState)
  | no_base_url
  | conflict
  | precondition_failed

section Switch

variable [DecidableEq Id] [DecidableEq Tenant] [DecidableEq Host]

/-- The row that is to be canonical, for a target other than the path. -/
def nextOf (rows : List (DomainRow Id Tenant Host)) (tenantId : Tenant) :
    Option Id → Except (SwitchOutcome Id Tenant Host) (Option (DomainRow Id Tenant Host))
  | none => .ok none
  | some id =>
    match get rows (tenantId, id) with
    | none => .error .not_found
    | some row => if row.state ≠ .verified then .error (.not_verified row.state) else .ok (some row)

/-- The rows after the switch of the address itself. -/
def switchRows (rows : List (DomainRow Id Tenant Host)) (tenantId : Tenant) :
    Option (DomainRow Id Tenant Host) → Option (List (DomainRow Id Tenant Host))
  | none => some (clearCanonical rows tenantId)
  | some row => setCanonical rows (tenantId, row.id)

/-- `target` is the id of a row, or none for the path. -/
def switchCanonical (hasBase : Bool) (s : Store Id Tenant Host) (seen : Option Id)
    (tenantId : Tenant) (target : Option Id) (now : ℕ)
    (precondition : Option (DomainRow Id Tenant Host) → Bool) :
    SwitchOutcome Id Tenant Host × Store Id Tenant Host :=
  if !hasBase then (.no_base_url, s)
  else
    let current := canonical s.rows tenantId
    if seen ≠ current.map DomainRow.id then (.conflict, s)
    else if !precondition current then (.precondition_failed, s)
    else
      match nextOf s.rows tenantId target with
      | .error outcome => (outcome, s)
      | .ok next =>
        if current.map DomainRow.id = next.map DomainRow.id then (.unchanged current, s)
        else
          match switchRows s.rows tenantId next with
          | none => (.not_found, s)
          | some rows =>
            let retired := retireIssuer s.retirements (tenantId, current.map DomainRow.host)
              (now + ACCESS_TOKEN_CEILING_SECONDS * 1000)
            (.switched (next.bind fun row ↦ get rows row.key) current,
              ⟨rows, clearRetirement retired (tenantId, next.map DomainRow.host)⟩)

end Switch

/-! ### Pages -/

section Pages

variable [LinearOrder Host]

/-- Whether a host comes after the position of a walk. -/
def isAfter (after : Option Host) (host : Host) : Bool := after.all fun position ↦ position < host

def isVerified (row : DomainRow Id Tenant Host) : Bool := row.state = .verified

/-- The verified rows of every tenant after a position, in the order of their hosts. -/
def verifiedDomainPage (rows : List (DomainRow Id Tenant Host)) (after : Option Host)
    (limit : ℕ) : List (DomainRow Id Tenant Host) :=
  (Listings.descending (fun row ↦ OrderDual.toDual row.host)
    (rows.filter fun row ↦ isVerified row && isAfter after row.host)).take limit

end Pages

end Odudu.DomainTenant.Rechecks
