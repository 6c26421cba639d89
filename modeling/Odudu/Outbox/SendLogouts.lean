import Odudu.Outbox.Queue

/-!
# Delivering logouts

Passes over the queue of back-channel logouts (`usecase/send-logouts.ts`), any number at a
time.  A pass visits one tenant after another under one `now`, and a visit is one transaction
(`sendLogoutsAcrossTenants`): it claims, hands one delivery over after another, marks each,
and commits.  So a visit is what is modelled, under a `now` that is any instant of the past.
It keeps its claim's locks to its end, sees the rows it locked as it left them, and undoes
everything if it is rolled back.

What a pass reports is left out, and so are the tokens delivered.
-/

set_option autoImplicit false

namespace Odudu.Outbox.SendLogouts

def backchannelLogoutMaxAttempts : ℕ := 5

def backchannelLogoutRetryBackoffSeconds : ℕ := 60

structure LogoutSenderOptions where
  batchSize : ℕ
  leaseSeconds : ℕ

/-- What became of an attempt: the relying party's status, or an error before it. -/
inductive Answer
  | response (status : ℕ)
  | threw (error : String)

def isUnrecoverable (status : ℕ) : Bool :=
  decide (400 ≤ status) && decide (status < 500) && status != 429

/-- `markFailed` of this queue, which is given the instant of the failure. -/
def markFailed (now : ℕ) (error : String) : QueueRow → QueueRow :=
  QueueRow.markFailed error (now + backchannelLogoutRetryBackoffSeconds * 1000)

/-- `deliverOne`'s write. -/
def mark (now : ℕ) : Answer → QueueRow → QueueRow
  | .response status =>
    if 200 ≤ status ∧ status < 300 then QueueRow.markSent now
    else if isUnrecoverable status then
      QueueRow.markAbandoned backchannelLogoutMaxAttempts
        ("logout delivery refused with status " ++ toString status) now
    else markFailed now ("logout delivery failed with status " ++ toString status)
  | .threw error => markFailed now error

/-- A visit, which is one transaction. -/
structure Visit where
  now : ℕ
  /-- The rows as the transaction left them, where it locked them. -/
  own : Rows
  /-- The deliveries claimed that are unresolved, in the order of their sending. -/
  claimed : List Claimed
  /-- What the transport was handed. -/
  handed : List Claimed
  /-- The answer to the first delivery, once there is one. -/
  answer : Option Answer

/-- The deliveries whose turn did not come yet. -/
def Visit.unsent (v : Visit) : List Claimed :=
  match v.answer with
  | some _ => v.claimed.tail
  | none => v.claimed

structure State where
  clock : ℕ
  /-- The rows as they are committed. -/
  rows : Rows
  /-- Which visit has a row locked. -/
  locks : String → Option ℕ
  visits : ℕ → Option Visit
  /-- What the transport was handed, the last first. -/
  handed : List Claimed

inductive Label
  | tick (elapsed : ℕ)
  | enqueue (id tenantId : String) (nextAttemptAt : ℕ)
  | claimDue (n now : ℕ) (tenantId : String) (ids : List String)
  /-- `tokenFor` fails, and nothing is handed over. -/
  | tokenFor (n : ℕ) (error : String)
  | transport (n : ℕ) (answer : Answer)
  | mark (n : ℕ)
  | commit (n : ℕ)
  /-- The process dies, or a statement fails. -/
  | rollback (n : ℕ)

namespace State

def setVisit (s : State) (n : ℕ) (v : Option Visit) : State :=
  { s with visits := Function.update s.visits n v }

/-- The rows as visit `n` finds them. -/
def view (s : State) (n : ℕ) : Rows :=
  fun id ↦ if s.locks id = some n then (s.visits n).bind fun v ↦ v.own id else s.rows id

/-- Visit `n` ends: its locks go. -/
def release (s : State) (n : ℕ) : State :=
  { s.setVisit n none with
    locks := fun id ↦ if s.locks id = some n then none else s.locks id }

/-- Rows that are locked are skipped. -/
def claimDue (options : LogoutSenderOptions) (s : State) (n now : ℕ) (ids : List String) :
    State :=
  { s.setVisit n
      (some ⟨now, s.rows.claim now options.leaseSeconds ids, s.rows.claimed ids, [], none⟩) with
    locks := fun id ↦ if id ∈ ids then some n else s.locks id }

end State

def step (options : LogoutSenderOptions) (s : State) : Label → Option State
  | .tick elapsed => some { s with clock := s.clock + elapsed }
  | .enqueue id tenantId nextAttemptAt =>
    if s.rows id = none then
      some { s with rows := s.rows.enqueue id tenantId nextAttemptAt }
    else none
  | .claimDue n now tenantId ids =>
    if (s.visits n).isNone ∧ now ≤ s.clock ∧ (ids.all fun id ↦ (s.locks id).isNone) = true ∧
        s.rows.offers tenantId backchannelLogoutMaxAttempts options.batchSize now ids = true then
      some (s.claimDue options n now ids)
    else none
  | .tokenFor n error => (s.visits n).bind fun v ↦
    match v.answer, v.claimed with
    | none, _ :: _ => some (s.setVisit n (some { v with answer := some (.threw error) }))
    | _, _ => none
  | .transport n answer => (s.visits n).bind fun v ↦
    match v.answer, v.claimed with
    | none, row :: _ =>
      some { s.setVisit n
          (some { v with answer := some answer, handed := row :: v.handed }) with
        handed := row :: s.handed }
    | _, _ => none
  | .mark n => (s.visits n).bind fun v ↦
    match v.answer, v.claimed with
    | some answer, row :: rest =>
      some (s.setVisit n (some
        { v with
          own := v.own.updateUnsent row.id (mark v.now answer)
          claimed := rest
          answer := none }))
    | _, _ => none
  | .commit n => (s.visits n).bind fun v ↦
    if v.claimed = [] then some { s.release n with rows := s.view n } else none
  | .rollback n => (s.visits n).bind fun _ ↦ some (s.release n)

def run (options : LogoutSenderOptions) : State → List Label → Option State
  | s, [] => some s
  | s, l :: ls => (step options s l).bind fun s' ↦ run options s' ls

/-- No logout is queued and no visit is going. -/
def Start (s : State) : Prop :=
  s.rows = (fun _ ↦ none) ∧ s.locks = (fun _ ↦ none) ∧ s.visits = (fun _ ↦ none) ∧ s.handed = []

end Odudu.Outbox.SendLogouts
