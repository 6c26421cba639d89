import Odudu.Outbox.Queue

/-!
# Sending pending mail

Passes over the mail queue (`usecase/send-pending.ts`), any number at a time.  A pass takes its
`now` once.  Of a tenant it claims a batch in one transaction, finds the tenant's sender, and
hands the messages over one after another; what became of a message is recorded in a
transaction of its own, on the row if it is still unsent.  Between any two of these the clock
moves on and others act, and a pass may die.

The report a pass returns is left out, and so is its log.
-/

set_option autoImplicit false

namespace Odudu.Outbox.SendPending

def outboxClaimLeaseSeconds : ℕ := 300

structure SendPendingOptions where
  /-- Messages claimed per tenant per pass. -/
  batchSize : ℕ
  maxAttempts : ℕ
  retryBackoffSeconds : ℕ

/-- `retryBackoffSeconds * 2 ** Math.max(attempts - 1, 0)`. -/
def retryDelaySeconds (options : SendPendingOptions) (attempts : ℕ) : ℕ :=
  options.retryBackoffSeconds * 2 ^ (attempts - 1)

inductive Stage
  | visiting
  /-- A batch is claimed. -/
  | resolvingSender
  | delivering
  /-- The first message was handed over; the transport took it, or refused it with an error. -/
  | answered (refused : Option String)
  deriving DecidableEq

structure Pass where
  now : ℕ
  /-- The messages claimed that are unresolved, in the order of their sending. -/
  claimed : List Claimed
  stage : Stage

structure State where
  clock : ℕ
  rows : Rows
  passes : ℕ → Option Pass
  /-- What the transport was handed, the last first. -/
  handed : List Claimed

inductive Label
  | tick (elapsed : ℕ)
  | enqueue (id tenantId : String) (nextAttemptAt : ℕ)
  | sendPending (n : ℕ)
  | claimBatch (n : ℕ) (tenantId : String) (ids : List String)
  | resolveSender (n : ℕ) (resolved : Bool)
  | send (n : ℕ) (refused : Option String)
  /-- The outcome is written, or the write fails and the message is passed over. -/
  | write (n : ℕ) (written : Bool)
  | finish (n : ℕ)
  | crash (n : ℕ)

namespace Pass

/-- The messages that were not handed over yet. -/
def unsent (p : Pass) : List Claimed :=
  match p.stage with
  | .answered _ => p.claimed.tail
  | _ => p.claimed

/-- On to the next message, or to the next tenant. -/
def next (p : Pass) : Pass :=
  { p with
    claimed := p.claimed.tail
    stage := if p.claimed.tail = [] then .visiting else .delivering }

/-- `deliver`'s write: `markSent`, or `markFailed` with the next retry. -/
def mark (options : SendPendingOptions) (p : Pass) (message : Claimed) :
    Option String → QueueRow → QueueRow
  | none => QueueRow.markSent p.now
  | some error =>
    QueueRow.markFailed error (p.now + retryDelaySeconds options message.attempts * 1000)

end Pass

namespace State

def setPass (s : State) (n : ℕ) (p : Option Pass) : State :=
  { s with passes := Function.update s.passes n p }

/-- Pass `n` claims, in one statement. -/
def claimBatch (s : State) (n : ℕ) (p : Pass) (ids : List String) : State :=
  { s.setPass n (some
      { p with
        claimed := s.rows.claimed ids
        stage := if ids = [] then .visiting else .resolvingSender }) with
    rows := s.rows.claim p.now outboxClaimLeaseSeconds ids }

end State

def step (options : SendPendingOptions) (s : State) : Label → Option State
  | .tick elapsed => some { s with clock := s.clock + elapsed }
  | .enqueue id tenantId nextAttemptAt =>
    if s.rows id = none then
      some { s with rows := s.rows.enqueue id tenantId nextAttemptAt }
    else none
  | .sendPending n =>
    if s.passes n = none then some (s.setPass n (some ⟨s.clock, [], .visiting⟩)) else none
  | .claimBatch n tenantId ids => (s.passes n).bind fun p ↦
    if p.stage = .visiting ∧
        s.rows.offers tenantId options.maxAttempts options.batchSize p.now ids = true then
      some (s.claimBatch n p ids)
    else none
  | .resolveSender n resolved => (s.passes n).bind fun p ↦
    if p.stage = .resolvingSender then
      some (s.setPass n (some (if resolved then { p with stage := .delivering }
        else { p with claimed := [], stage := .visiting })))
    else none
  | .send n refused => (s.passes n).bind fun p ↦
    match p.stage, p.claimed with
    | .delivering, message :: _ =>
      some { s.setPass n (some { p with stage := .answered refused }) with
        handed := message :: s.handed }
    | _, _ => none
  | .write n written => (s.passes n).bind fun p ↦
    match p.stage, p.claimed with
    | .answered refused, message :: _ =>
      some { s.setPass n (some p.next) with
        rows := if written then s.rows.updateUnsent message.id (p.mark options message refused)
          else s.rows }
    | _, _ => none
  | .finish n => (s.passes n).bind fun p ↦
    if p.stage = .visiting then some (s.setPass n none) else none
  | .crash n => (s.passes n).bind fun _ ↦ some (s.setPass n none)

def run (options : SendPendingOptions) : State → List Label → Option State
  | s, [] => some s
  | s, l :: ls => (step options s l).bind fun s' ↦ run options s' ls

/-- No mail is queued and no pass is going. -/
def Start (s : State) : Prop :=
  s.rows = (fun _ ↦ none) ∧ s.passes = (fun _ ↦ none) ∧ s.handed = []

end Odudu.Outbox.SendPending
