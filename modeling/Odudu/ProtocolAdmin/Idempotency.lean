import Odudu.ReadCommitted.Turns
import Odudu.ReadCommitted.Tables
import Mathlib.Data.Set.Card
import Mathlib.Data.ENat.Lattice

/-!
# A call made once

The rules of an idempotency key (`service/idempotency.ts`), the statements that keep its row
(`repository/idempotency.ts`) and `withIdempotency` (`usecase/idempotent.ts`).  The rows lie beside
those of a database of which nothing is known, the one a keyed call does its work in.

A lock is a row that carries nothing, keyed by what the database hashes its text to.  A
lock that is tried is asked for first: the answer that it was got is followed by taking it,
and the answer that it was not may be given at any time.

A keyed call is one transaction: the key's lock is tried, the slot is looked up, the work runs,
and the response is recorded last, under the capacity lock and a second count.  A response that
cannot be kept undoes the transaction.  The work is any number of statements on the tables it
knows.  Two things are inputs of the call: the instant it takes for now, and the fingerprint of
the request, already bound to its caller.

The checks on the columns are left out: a row they refuse is a call that fails.
-/

set_option autoImplicit false

namespace Odudu.ProtocolAdmin

open ReadCommitted Program

/-- An instant, in milliseconds. -/
abbrev Instant := ℕ

def IDEMPOTENCY_WINDOW_SECONDS : ℕ := 24 * 60 * 60

def IDEMPOTENCY_MAX_LIVE_KEYS : ℕ := 10000

def IDEMPOTENCY_MAX_BODY_BYTES : ℕ := 64 * 1024

structure IdempotentResponse where
  status : ℕ
  body : String
  headers : List (String × String)

inductive ResponseVerdict where
  | store
  | skip
  | tooLarge

/-- A success is kept, a refusal or a failure is not, and a success over the cap can be
neither kept nor replayed. -/
def responseVerdict (status : ℕ) (body : String) (withinTransaction : Bool) : ResponseVerdict :=
  if status < 200 || 299 < status || !withinTransaction then .skip
  else if IDEMPOTENCY_MAX_BODY_BYTES < body.utf8ByteSize then .tooLarge else .store

/-- Whether a stored row answers this request, or its key was used for another. -/
def requestMatches (storedFingerprint fingerprint : String) : Bool :=
  storedFingerprint == fingerprint

def atCapacity (liveKeys : ℕ) : Bool := decide (IDEMPOTENCY_MAX_LIVE_KEYS ≤ liveKeys)

/-- The primary key of `idempotency_keys`. -/
structure IdempotencySlot where
  tenantId : String
  key : String
  route : String
  deriving DecidableEq

/-- A row of `idempotency_keys`. -/
structure IdempotencyRow where
  fingerprint : String
  response : IdempotentResponse
  createdAt : Instant
  expiresAt : Instant

inductive IdempotencyTable where
  | keyLocks
  | capacityLocks
  | idempotencyKeys
  deriving DecidableEq

@[reducible] def IdempotencyTable.Id : IdempotencyTable → Type
  | idempotencyKeys => IdempotencySlot
  | _ => ℤ

@[reducible] def IdempotencyTable.Row : IdempotencyTable → Type
  | idempotencyKeys => IdempotencyRow
  | _ => Unit

abbrev idempotencyLayout : Layout where
  Table := IdempotencyTable
  Id := IdempotencyTable.Id
  Row := IdempotencyTable.Row

abbrev IdempotencyRows := idempotencyLayout.Rows

/-- The row of a slot. -/
abbrev IdempotencyRows.slot (s : IdempotencyRows) (slot : IdempotencySlot) :
    Option IdempotencyRow :=
  s ⟨.idempotencyKeys, slot⟩

/-- The rows of a tenant that are live at an instant. -/
def IdempotencyRows.live (s : IdempotencyRows) (tenantId : String) (now : Instant) :
    Set IdempotencySlot :=
  {slot | slot.tenantId = tenantId ∧ ∃ row, s.slot slot = some row ∧ now < row.expiresAt}

/-- What the database hashes a text to. -/
structure TextHashes where
  hashtext : String → ℤ
  hashtextextended : String → ℤ

/-- The lock of a key. -/
def TextHashes.keyLock (hashes : TextHashes) (slot : IdempotencySlot) : ℤ :=
  hashes.hashtextextended
    ("idempotency:" ++ slot.tenantId ++ ":" ++ slot.key ++ ":" ++ slot.route)

/-- A repository method with its arguments. -/
inductive IdempotencyOp where
  /-- The answer of `pg_try_advisory_xact_lock`. -/
  | tryLock (id : ℤ)
  /-- The lock that `pg_try_advisory_xact_lock` got. -/
  | lockKey (id : ℤ)
  | lockCapacity (id : ℤ)
  | find (slot : IdempotencySlot) (now : Instant)
  | countLive (tenantId : String) (now : Instant) (limit : ℕ)
  /-- `INSERT ... ON CONFLICT DO UPDATE ... WHERE expires_at <= now`. -/
  | insert (slot : IdempotencySlot) (row : IdempotencyRow)

namespace IdempotencyOp

@[reducible] def Answer : IdempotencyOp → Type
  | tryLock _ => Bool
  | find .. => Option IdempotencyRow
  | countLive .. => ℕ
  | _ => Unit

/-- What each method may return on the rows it sees. -/
def Answers : (op : IdempotencyOp) → IdempotencyRows → op.Answer → Prop
  | tryLock _, _, _ => True
  | find slot now, s, a => a = (s.slot slot).filter fun row ↦ decide (now < row.expiresAt)
  | countLive tenantId now limit, s, a => (a : ℕ∞) = min (limit : ℕ∞) (s.live tenantId now).encard
  | _, _, _ => True

/-- The row an insert leaves in its slot. -/
def upserted (held : Option IdempotencyRow) (row : IdempotencyRow) : Option IdempotencyRow :=
  match held with
  | none => some row
  | some held => if held.expiresAt ≤ row.createdAt then some row else some held

/-- What each method writes, given the rows it sees. -/
def effect : IdempotencyOp → IdempotencyRows → idempotencyLayout.Change
  | lockKey id, s => Layout.put (L := idempotencyLayout) .keyLocks id (s ⟨.keyLocks, id⟩)
  | lockCapacity id, s =>
      Layout.put (L := idempotencyLayout) .capacityLocks id (s ⟨.capacityLocks, id⟩)
  | insert slot row, s =>
      Layout.put (L := idempotencyLayout) .idempotencyKeys slot (upserted (s.slot slot) row)
  | _, _ => fun _ ↦ none

end IdempotencyOp

/-- The rows and the statements of idempotency keys beside those of the work. -/
abbrev keyedDatabase (work : Database) : Database where
  Key := idempotencyLayout.Key ⊕ work.Key
  Cell
    | .inl k => Option (idempotencyLayout.Row k.1)
    | .inr k => work.Cell k
  Op := IdempotencyOp ⊕ work.Op
  Answer
    | .inl op => op.Answer
    | .inr op => work.Answer op
  Answers
    | .inl op, s, a => op.Answers (fun k ↦ s (.inl k)) a
    | .inr op, s, a => work.Answers op (fun k ↦ s (.inr k)) a
  effect
    | .inl op, s => fun
      | .inl k => op.effect (fun k ↦ s (.inl k)) k
      | .inr _ => none
    | .inr op, s => fun
      | .inl _ => none
      | .inr k => work.effect op (fun k ↦ s (.inr k)) k

/-- The work of a keyed call, in the transaction it is given. -/
inductive KeyedWork (work : Database) where
  /-- Its response, and whether all it wrote went through the transaction. -/
  | done (response : IdempotentResponse) (withinTransaction : Bool)
  /-- An error that nothing catches. -/
  | throw
  | stmt (op : work.Op) (next : work.Answer op → KeyedWork work)

structure IdempotencyInput where
  slot : IdempotencySlot
  /-- Already bound to the caller. -/
  fingerprint : String
  now : Instant

inductive IdempotencyResult where
  | stored (response : IdempotentResponse)
  | fresh (response : IdempotentResponse) (stored : Bool)
  | reused
  | inFlight
  | capacity

/-- `IdempotencyRollback`, or what the work threw. -/
inductive KeyedFailure where
  | tooLarge
  | capacity
  | failed

variable {work : Database}

abbrev KeyedTx (work : Database) := Program (keyedDatabase work) KeyedFailure

/-- One statement on the rows of the keys. -/
abbrev onKeys (op : IdempotencyOp) : KeyedTx work op.Answer :=
  @Program.ask (keyedDatabase work) KeyedFailure (.inl op)

/-- The work, run in the transaction. -/
def KeyedWork.program : KeyedWork work → KeyedTx work (IdempotentResponse × Bool)
  | done response withinTransaction => .done (response, withinTransaction)
  | throw => .throw .failed
  | stmt op next => .stmt (.inr op) fun answer ↦ (next answer).program

/-- When a row recorded now expires. -/
def IdempotencyInput.expiresAt (input : IdempotencyInput) : Instant :=
  input.now + IDEMPOTENCY_WINDOW_SECONDS * 1000

/-- The row that records a response. -/
def IdempotencyInput.row (input : IdempotencyInput) (response : IdempotentResponse) :
    IdempotencyRow where
  fingerprint := input.fingerprint
  response
  createdAt := input.now
  expiresAt := input.expiresAt

/-- What a row found in the slot is answered with. -/
def replay (existing : IdempotencyRow) (input : IdempotencyInput) : IdempotencyResult :=
  if requestMatches existing.fingerprint input.fingerprint then .stored existing.response
  else .reused

/-- The insert, and the answer. -/
def recordResponse (input : IdempotencyInput) (response : IdempotentResponse) :
    KeyedTx work IdempotencyResult := do
  onKeys (.insert input.slot (input.row response))
  pure (.fresh response true)

/-- The second count, under the capacity lock. -/
def countAgain (input : IdempotencyInput) (response : IdempotentResponse) :
    KeyedTx work IdempotencyResult := do
  let settled ← onKeys (.countLive input.slot.tenantId input.now IDEMPOTENCY_MAX_LIVE_KEYS)
  if atCapacity settled then throw .capacity else recordResponse input response

/-- What becomes of the response. -/
def settle (hashes : TextHashes) (input : IdempotencyInput) (response : IdempotentResponse)
    (withinTransaction : Bool) : KeyedTx work IdempotencyResult :=
  match responseVerdict response.status response.body withinTransaction with
  | .skip => pure (.fresh response false)
  | .tooLarge => throw .tooLarge
  | .store => do
    onKeys (.lockCapacity (hashes.hashtext input.slot.tenantId))
    countAgain input response

/-- The work, when the tenant has room for another key. -/
def runFresh (hashes : TextHashes) (input : IdempotencyInput) (run : KeyedWork work) :
    KeyedTx work IdempotencyResult := do
  let live ← onKeys (.countLive input.slot.tenantId input.now IDEMPOTENCY_MAX_LIVE_KEYS)
  if atCapacity live then pure .capacity else do
    let (response, withinTransaction) ← run.program
    settle hashes input response withinTransaction

/-- What the call that holds the key's lock does. -/
def lookUp (hashes : TextHashes) (input : IdempotencyInput) (run : KeyedWork work) :
    KeyedTx work IdempotencyResult := do
  let existing ← onKeys (.find input.slot input.now)
  match existing with
  | some existing => pure (replay existing input)
  | none => runFresh hashes input run

/-- Runs the work once for a key, and answers every later call with its recorded response. -/
def withIdempotency (hashes : TextHashes) (input : IdempotencyInput) (run : KeyedWork work) :
    KeyedTx work IdempotencyResult := do
  let got ← onKeys (.tryLock (hashes.keyLock input.slot))
  if got then do
    onKeys (.lockKey (hashes.keyLock input.slot))
    lookUp hashes input run
  else pure .inFlight

/-- A call with its work. -/
structure KeyedCall (work : Database) where
  input : IdempotencyInput
  run : KeyedWork work

/-- Any number of keyed calls beside one another. -/
abbrev keyedCalls (work : Database) (hashes : TextHashes) : System where
  db := keyedDatabase work
  Call := KeyedCall work
  Outcome := IdempotencyResult
  Failure := KeyedFailure
  body := fun call ↦ withIdempotency hashes call.input call.run

end Odudu.ProtocolAdmin
