import Odudu.ProtocolOidc.Schema
import Odudu.ReadCommitted.Schedule
import Mathlib.Data.Int.Notation
import Mathlib.Data.List.Dedup

/-!
# The write budget of an agent

The grants of `repository/grants.ts` as the budget sees them, the statements on them, and
the calls: a sign-in's own grant, an exchange, a revocation, and the reservation and giving
back of `grantWriteBudget` (`apps/server/src/mcp-deps.ts`).  A grant that an exchange made
names the grant whose counters it spends.  A call that gives back says which reservation it
is of.

Grants are not deleted here.
-/

set_option autoImplicit false

namespace Odudu.ProtocolOidc.AgentWriteBudget

open ReadCommitted Program

/-- A create is also a mutating call. -/
inductive BudgetKind where
  | mutating
  | create
  deriving DecidableEq

structure BudgetLimits where
  mutating : ℕ
  creates : ℕ

/-- A row of `token_grants`. -/
structure Grant where
  exchangedFromGrantId : Option GrantId
  budgetGrantId : Option GrantId
  revokedAt : Option Time
  agentWrites : ℤ
  agentCreates : ℤ

/-- How much a call of a kind counts among the creates. -/
def BudgetKind.creates : BudgetKind → ℤ
  | mutating => 0
  | create => 1

/-- The row of a new grant. -/
def Grant.fresh (exchangedFrom budget : Option GrantId) : Grant where
  exchangedFromGrantId := exchangedFrom
  budgetGrantId := budget
  revokedAt := none
  agentWrites := 0
  agentCreates := 0

/-- One call more. -/
def Grant.spent (grant : Grant) (kind : BudgetKind) : Grant :=
  { grant with
    agentWrites := grant.agentWrites + 1
    agentCreates := grant.agentCreates + kind.creates }

/-- One call less, and never below none. -/
def Grant.givenBack (grant : Grant) (kind : BudgetKind) : Grant :=
  { grant with
    agentWrites := max (grant.agentWrites - 1) 0
    agentCreates := max (grant.agentCreates - kind.creates) 0 }

/-- The `WHERE` of a reservation, on the row it names. -/
def Grant.hasRoom (limits : BudgetLimits) (kind : BudgetKind) (grant : Grant) : Bool :=
  grant.revokedAt.isNone && decide (grant.agentWrites < limits.mutating) &&
    (decide (kind ≠ .create) || decide (grant.agentCreates < limits.creates))

abbrev Grants : Type := GrantId → Option Grant

/-! ### Statements -/

inductive GrantOp where
  | byId (id : GrantId)
  | insert (id : GrantId) (row : Grant)
  | revoke (id : GrantId) (revokedAt : Time)
  /-- The update of a reservation. -/
  | spend (limits : BudgetLimits) (root : GrantId) (kind : BudgetKind)
  /-- The update of giving back. -/
  | giveBack (root : GrantId) (kind : BudgetKind)
  /-- How many of the two are there and not revoked. -/
  | countLive (own root : GrantId)

@[reducible] def GrantOp.Answer : GrantOp → Type
  | byId _ => Option Grant
  /- whether the key was free -/
  | insert _ _ => Bool
  | revoke _ _ => Bool
  | spend _ _ _ => Bool
  | giveBack _ _ => Unit
  | countLive _ _ => ℕ

/-- There, and not revoked. -/
def Grants.live (rows : Grants) (id : GrantId) : Bool :=
  (rows id).any fun grant ↦ grant.revokedAt.isNone

def GrantOp.answer (rows : Grants) : (op : GrantOp) → op.Answer
  | byId id => rows id
  | insert id _ => (rows id).isNone
  | revoke id _ => rows.live id
  | spend limits root kind => (rows root).any (Grant.hasRoom limits kind)
  | giveBack _ _ => ()
  | countLive own root => ([own, root].dedup.filter rows.live).length

/-- The row a statement writes, and its id. -/
def GrantOp.written (rows : Grants) : GrantOp → Option (GrantId × Grant)
  | byId _ => none
  | insert id row => if (rows id).isNone then some (id, row) else none
  | revoke id revokedAt =>
    (rows id).bind fun grant ↦
      if grant.revokedAt.isNone then some (id, { grant with revokedAt := some revokedAt }) else none
  | spend limits root kind =>
    (rows root).bind fun grant ↦
      if grant.hasRoom limits kind then some (root, grant.spent kind) else none
  | giveBack root kind => (rows root).map fun grant ↦ (root, grant.givenBack kind)
  | countLive _ _ => none

/-- One row written, or none. -/
def oneRow (written : Option (GrantId × Grant)) : GrantId → Option (Option Grant) := fun id ↦
  written.bind fun row ↦ if id = row.1 then some (some row.2) else none

abbrev grantDatabase : Database where
  Key := GrantId
  Cell := fun _ ↦ Option Grant
  Op := GrantOp
  Answer := GrantOp.Answer
  Answers := fun op rows a ↦ a = op.answer rows
  effect := fun op rows ↦ oneRow (op.written rows)

/-! ### Calls -/

inductive GrantFailure where
  /-- A grant of that id exists. -/
  | taken
  | invalidGrant
  /-- The grant behind the token is gone or was revoked. -/
  | ended

abbrev GrantTx := Program grantDatabase GrantFailure

abbrev onGrants (op : GrantOp) : GrantTx op.Answer := @Program.ask grantDatabase GrantFailure op

/-- The grant whose counters this one spends. -/
def budgetGrant (id : GrantId) : GrantTx (Option GrantId) := do
  let row ← onGrants (.byId id)
  match row with
  | none => pure none
  | some row =>
    match row.budgetGrantId with
    | some root => pure (some root)
    | none => pure (if row.exchangedFromGrantId.isNone then some id else none)

def insertGrant (id : GrantId) (row : Grant) : GrantTx Unit := do
  let inserted ← onGrants (.insert id row)
  if inserted then pure () else throw .taken

def create (id : GrantId) (exchangedFromGrantId : Option GrantId) : GrantTx Unit :=
  match exchangedFromGrantId with
  | none => insertGrant id (Grant.fresh none none)
  | some parent => do
    let root ← budgetGrant parent
    insertGrant id (Grant.fresh (some parent) root)

def reserveAgentWrite (limits : BudgetLimits) (id : GrantId) (kind : BudgetKind) :
    GrantTx Bool := do
  let root ← budgetGrant id
  match root with
  | none => pure false
  | some root => onGrants (.spend limits root kind)

def isLive (id : GrantId) : GrantTx Bool := do
  let root ← budgetGrant id
  match root with
  | none => pure false
  | some root => do
    let count ← onGrants (.countLive id root)
    pure (decide (count = [id, root].dedup.length))

def releaseAgentWrite (id : GrantId) (kind : BudgetKind) : GrantTx Unit := do
  let root ← budgetGrant id
  match root with
  | none => pure ()
  | some root => onGrants (.giveBack root kind)

/-- What may happen to the grants. -/
inductive GrantCall where
  | signIn (id : GrantId)
  | exchange (id parent : GrantId)
  | revoke (id : GrantId) (revokedAt : Time)
  | reserve (id : GrantId) (kind : BudgetKind)
  | release (reservation : ℕ) (id : GrantId) (kind : BudgetKind)

inductive GrantOutcome where
  | done
  | revoked (first : Bool)
  | reserved (admitted : Bool)

/-- An exchange of a token of a grant, which is there and not revoked. -/
def exchange (id parent : GrantId) : GrantTx GrantOutcome := do
  let grant ← onGrants (.byId parent)
  if grant.any fun grant ↦ grant.revokedAt.isNone then do
    create id (some parent)
    pure .done
  else throw .invalidGrant

/-- `grantWriteBudget`'s `reserve` -/
def reserve (limits : BudgetLimits) (id : GrantId) (kind : BudgetKind) : GrantTx GrantOutcome := do
  let admitted ← reserveAgentWrite limits id kind
  if admitted then pure (.reserved true)
  else do
    let live ← isLive id
    if live then pure (.reserved false) else throw .ended

def GrantCall.body (limits : BudgetLimits) : GrantCall → GrantTx GrantOutcome
  | signIn id => do
    create id none
    pure .done
  | .exchange id parent => AgentWriteBudget.exchange id parent
  | revoke id revokedAt => do
    let first ← onGrants (.revoke id revokedAt)
    pure (.revoked first)
  | .reserve id kind => AgentWriteBudget.reserve limits id kind
  | release _ id kind => do
    releaseAgentWrite id kind
    pure .done

/-- Any number of calls beside one another, under the same limits. -/
abbrev agentWrites (limits : BudgetLimits) : System where
  db := grantDatabase
  Call := GrantCall
  Outcome := GrantOutcome
  Failure := GrantFailure
  body := GrantCall.body limits

end Odudu.ProtocolOidc.AgentWriteBudget
