import Odudu.ProtocolOidc.ClientAssertion
import Odudu.ReadCommitted.Tables

/-!
# Remembered assertions

The rows of `client_assertion_jti` with the statements on them
(`repository/assertion-jti.ts`), the two tables that authentication reads of a client, and
the deletion of what has expired (`cli/reap.ts`).  They lie beside the rows of a database of
which nothing is known, the one an endpoint does its work in.

The clock is a row that only goes forward.  The fetch of a client's keys is a statement
that may answer anything.  A lock that is tried is asked for first: the answer that it was
got is followed by taking it, and the answer that it was not may be given at any time.
A store may refuse to write a `jti`, and says so first.
-/

set_option autoImplicit false

namespace Odudu.ProtocolOidc.ClientAssertion

open ReadCommitted

/-- The primary key of `client_assertion_jti`. -/
structure JtiSlot where
  tenantId : String
  oauthClientId : String
  jti : String
  deriving DecidableEq

structure ClientRecord where
  id : String
  enabled : Bool
  registrationOrigin : String

structure ClientOidcConfig where
  tokenEndpointAuthMethod : String
  jwks : Option Json
  jwksUri : Option String

inductive AssertionTable where
  | clock
  | jtiLocks
  | clientAssertionJti
  | clients
  | clientOidcConfigs
  deriving DecidableEq

@[reducible] def AssertionTable.Id : AssertionTable → Type
  | clock => Unit
  | jtiLocks => ℤ
  | clientAssertionJti => JtiSlot
  | clients | clientOidcConfigs => String × String

@[reducible] def AssertionTable.Row : AssertionTable → Type
  | clock => Date
  | jtiLocks => Unit
  /- `expires_at` -/
  | clientAssertionJti => ℤ
  | clients => ClientRecord
  | clientOidcConfigs => ClientOidcConfig

abbrev assertionLayout : Layout where
  Table := AssertionTable
  Id := AssertionTable.Id
  Row := AssertionTable.Row

abbrev AssertionRows := assertionLayout.Rows

/-- The instant a clock that was never set shows. -/
def epoch : Date := ⟨0, by decide⟩

/-- The time. -/
def AssertionRows.now (s : AssertionRows) : Date := (s ⟨.clock, ()⟩).getD epoch

/-- Until when a `jti` is remembered. -/
abbrev AssertionRows.jti (s : AssertionRows) (slot : JtiSlot) : Option ℤ :=
  s ⟨.clientAssertionJti, slot⟩

/-- A repository method with its arguments. -/
inductive AssertionOp where
  | readClock
  | setClock (date : Date)
  | clientByClientId (tenantId clientId : String)
  | configByClientId (tenantId id : String)
  | putClient (tenantId clientId : String) (row : Option ClientRecord)
  | putConfig (tenantId id : String) (row : Option ClientOidcConfig)
  /-- The client's keys, over the network. -/
  | fetchKeys (jwksUri tenantId : String) (cimd : Bool)
  /-- The answer of `pg_try_advisory_xact_lock`. -/
  | tryLock (id : ℤ)
  /-- The lock that `pg_try_advisory_xact_lock` got. -/
  | lockJti (id : ℤ)
  | spentWithin (slot : JtiSlot)
  /-- Whether the store refuses the write that is next. -/
  | refusesWrite
  /-- `INSERT ... ON CONFLICT DO NOTHING`. -/
  | claimWithin (slot : JtiSlot) (expiresAt : ℤ)
  /-- `DELETE ... WHERE expires_at < now`. -/
  | reap (tenantId : String) (now : Date)

namespace AssertionOp

@[reducible] def Answer : AssertionOp → Type
  | readClock => Date
  | clientByClientId .. => Option ClientRecord
  | configByClientId .. => Option ClientOidcConfig
  | fetchKeys .. => Except String Json
  | tryLock _ | spentWithin _ | refusesWrite | claimWithin .. => Bool
  | _ => Unit

/-- What each method may return on the rows it sees. -/
def Answers : (op : AssertionOp) → AssertionRows → op.Answer → Prop
  | readClock, s, a => a = s.now
  | clientByClientId tenantId clientId, s, a => a = s ⟨.clients, (tenantId, clientId)⟩
  | configByClientId tenantId id, s, a => a = s ⟨.clientOidcConfigs, (tenantId, id)⟩
  | spentWithin slot, s, a => a = (s.jti slot).isSome
  | claimWithin slot _, s, a => a = (s.jti slot).isNone
  | _, _, _ => True

/-- What each method writes, given the rows it sees. -/
def effect : AssertionOp → AssertionRows → assertionLayout.Change
  | setClock date, s => Layout.put (L := assertionLayout) .clock () (some (max s.now date))
  | putClient tenantId clientId row, _ =>
      Layout.put (L := assertionLayout) .clients (tenantId, clientId) row
  | putConfig tenantId id row, _ =>
      Layout.put (L := assertionLayout) .clientOidcConfigs (tenantId, id) row
  | lockJti id, s => Layout.put (L := assertionLayout) .jtiLocks id (s ⟨.jtiLocks, id⟩)
  | claimWithin slot expiresAt, s =>
      Layout.insert (L := assertionLayout) .clientAssertionJti slot expiresAt s
  | reap tenantId now, s => Layout.delete (L := assertionLayout) .clientAssertionJti
      (fun slot expiresAt ↦ decide (slot.tenantId = tenantId ∧ expiresAt < now.val)) s
  | _, _ => fun _ ↦ none

end AssertionOp

/-- The rows and the statements of assertions beside those of the work. -/
abbrev assertionDatabase (work : Database) : Database where
  Key := assertionLayout.Key ⊕ work.Key
  Cell
    | .inl k => Option (assertionLayout.Row k.1)
    | .inr k => work.Cell k
  Op := AssertionOp ⊕ work.Op
  Answer
    | .inl op => op.Answer
    | .inr op => work.Answer op
  Answers
    | .inl op, s, a => op.Answers (fun k ↦ s (.inl k)) a
    | .inr op, s, a => work.Answers op (fun k ↦ s (.inr k)) a
  effect
    | .inl op, s => fun
      | .inl k => op.effect (fun k ↦ s (.inl k)) k
      | .inr _ => none
    | .inr op, s => fun
      | .inl _ => none
      | .inr k => work.effect op (fun k ↦ s (.inr k)) k

end Odudu.ProtocolOidc.ClientAssertion
