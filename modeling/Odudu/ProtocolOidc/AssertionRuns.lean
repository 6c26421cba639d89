import Odudu.ProtocolOidc.PrivateKeyJwt
import Odudu.ReadCommitted.Chronicles

/-!
# Assertions beside one another

What is remembered of assertions after any interleaving of requests and deletions.  `Stage`
says where a request is: it reads until it holds the lock of its `jti`, and from the moment
it has found the `jti` unspent until it is over nothing is remembered there, and everything
accepted there before ran out earlier than its own assertion does.

This last is known only of a request that looks in time: `timely` lets a request find
nothing remembered only as long as its assertion is remembered for.
-/

set_option autoImplicit false

namespace Odudu.ProtocolOidc.ClientAssertion

open ReadCommitted Program

variable {work : Database} {deps : AssertionDeps}

/-- The rows of authentication. -/
def authenticationRows (s : Store (assertionDatabase work)) : AssertionRows := fun k ↦ s (.inl k)

/-- The row of a remembered `jti` among all the rows. -/
abbrev jtiKey (slot : JtiSlot) : (assertionDatabase work).Key := .inl ⟨.clientAssertionJti, slot⟩

/-- The row of the clock. -/
abbrev clockKey : (assertionDatabase work).Key := .inl ⟨.clock, ()⟩

/-- The row of the lock of a `jti`. -/
abbrev jtiLock (deps : AssertionDeps) (slot : JtiSlot) : (assertionDatabase work).Key :=
  .inl ⟨.jtiLocks, deps.lockKey slot⟩

/-- The claims of the assertion in a request. -/
def ClientRequest.claims (rt : Runtime) (request : ClientRequest work) : Option Claims :=
  match request.body.client_assertion with
  | some (.string assertion) => claimsOf rt assertion
  | _ => none

/-- What a request spends its assertion as, and until when that is remembered. -/
def ClientRequest.spends (rt : Runtime) (request : ClientRequest work) :
    Option (JtiSlot × ℤ) :=
  (request.claims rt).map fun claims ↦
    (⟨request.tenantId, claims.sub, claims.jti⟩, claims.expiresAt rt)

/-- The assertion was spent. -/
def EndpointOutcome.spent : EndpointOutcome → Bool
  | answered _ => true
  | refusedAfter _ spent => spent
  | other => false

/-- What a request that was answered spent its assertion as. -/
def accepted (a : Answered (assertions work deps)) : Option (JtiSlot × ℤ) :=
  match a.call, a.result with
  | .authenticate request, .ok outcome =>
    if outcome.spent then request.spends deps.toRuntime else none
  | _, _ => none

/-- A request that finds its `jti` unspent finds so while its assertion is remembered for. -/
def timely : Discipline (assertions work deps) where
  mayRun
    | .authenticate request, .inl (.spentWithin slot), s =>
        (authenticationRows s).jti slot = none →
          ∀ slot' expiresAt, request.spends deps.toRuntime = some (slot', expiresAt) →
            (authenticationRows s).now.val ≤ expiresAt
    | _, _, _ => True
  mayCommit := fun _ _ _ _ ↦ True

/-- What was taken of an assertion was taken at some instant, and its signature was good at
some instant. -/
structure Verified (deps : AssertionDeps) (request : ClientRequest work)
    (taken : TakenAssertion) : Prop where
  parsed : ∃ now, parseClientAssertion deps.toRuntime request.body now request.tokenEndpoints =
    .ok taken
  signature : ∃ jwks now, verifyJwtAgainstJwkSet deps taken.assertion jwks taken.claimedClientId
    request.tokenEndpoints now ASSERTION_LEEWAY_SECONDS = true

theorem Verified.spends {request : ClientRequest work} {taken : TakenAssertion}
    (h : Verified deps request taken) :
    request.spends deps.toRuntime = some (taken.slot request.tenantId, taken.expiresAt) := by
  obtain ⟨now, hnow⟩ := h.parsed
  obtain ⟨hbody, claims, hclaims, -, -, -, heq⟩ := claims_of_taken hnow
  rw [heq]
  simp [ClientRequest.spends, ClientRequest.claims, hbody, hclaims, TakenAssertion.slot]

/-- What is done with an authenticated client. -/
abbrev settling (request : ClientRequest work) (authenticated : AuthenticatedClient) :
    AssertionTx work EndpointOutcome :=
  settle authenticated (request.run authenticated.client authenticated.config)

/-- A program that leaves the clock and what is remembered alone, and spends nothing. -/
inductive Elsewhere : AssertionTx work EndpointOutcome → Prop where
  | done : Elsewhere (.done .other)
  | throw (e : EndpointFailure) : Elsewhere (.throw e)
  | stmt {op : (assertionDatabase work).Op}
      {next : (assertionDatabase work).Answer op → AssertionTx work EndpointOutcome}
      (hclock : ∀ s, (assertionDatabase work).effect op s clockKey = none)
      (hjti : ∀ s slot, (assertionDatabase work).effect op s (jtiKey slot) = none)
      (hnext : ∀ a, Elsewhere (next a)) : Elsewhere (.stmt op next)

/-- Where a request's reading ends: at the lock of its `jti`, or elsewhere. -/
inductive Reached (deps : AssertionDeps) (request : ClientRequest work) :
    AssertionTx work EndpointOutcome → Prop where
  | lock {p : AssertionTx work EndpointOutcome} (taken : TakenAssertion) (client : ClientRecord)
      (config : ClientOidcConfig) (h : Verified deps request taken)
      (hp : p = onRows (.lockJti (deps.lockKey (taken.slot request.tenantId))) >>= fun _ ↦
        lookUpJti request taken client config >>= settling request) : Reached deps request p
  | elsewhere {p : AssertionTx work EndpointOutcome} (h : Elsewhere p) : Reached deps request p

section Reading

variable {request : ClientRequest work} {requestNow : Date} {taken : TakenAssertion}
  {client : ClientRecord} {config : ClientOidcConfig}

theorem effect_of_none {op : AssertionOp} (hop : ∀ rows, op.effect rows = fun _ ↦ none)
    (s : Store (assertionDatabase work)) :
    (assertionDatabase work).effect (.inl op) s = Writes.nothing := by
  funext k
  cases k with
  | inl k => exact congrFun (hop _) k
  | inr => rfl

variable {R : AssertionTx work EndpointOutcome → Prop}

private theorem reads_now {f : Date → AssertionTx work EndpointOutcome}
    (hf : ∀ now, ReadsUntil R (f now)) :
    ReadsUntil R (request.now requestNow >>= f) := by
  unfold ClientRequest.now
  cases request.endpoint with
  | token => exact readsUntil_ask (effect_of_none fun _ ↦ rfl) hf
  | revoke | introspect => exact hf requestNow

private theorem reads_now_bind {α : Type} {f : Date → AssertionTx work α}
    {g : α → AssertionTx work EndpointOutcome}
    (hf : ∀ now, ReadsUntil R (f now >>= g)) :
    ReadsUntil R (request.now requestNow >>= f >>= g) := by
  unfold ClientRequest.now
  cases request.endpoint with
  | token => exact readsUntil_ask (effect_of_none fun _ ↦ rfl) hf
  | revoke | introspect => exact hf requestNow

private theorem reads_claimJti (h : Verified deps request taken) :
    ReadsUntil (Reached deps request)
      (claimJti deps request taken client config >>= settling request) := by
  refine readsUntil_ask (effect_of_none fun _ ↦ rfl) fun got ↦ ?_
  cases got with
  | false => exact .throw _
  | true => exact .here (.lock taken client config h rfl)

variable (htaken : ∃ now, parseClientAssertion deps.toRuntime request.body now
  request.tokenEndpoints = .ok taken)

include htaken

private theorem reads_verifyAssertion (jwks : Json) :
    ReadsUntil (Reached deps request)
      (verifyAssertion deps request requestNow taken client config jwks >>= settling request) := by
  refine reads_now_bind fun now ↦ ?_
  cases hverified : verifyJwtAgainstJwkSet deps taken.assertion jwks taken.claimedClientId
    request.tokenEndpoints now ASSERTION_LEEWAY_SECONDS with
  | false => exact .throw _
  | true => exact reads_claimJti ⟨htaken, jwks, now, hverified⟩

private theorem reads_withKeys :
    ReadsUntil (Reached deps request)
      (withKeys deps request requestNow taken client config >>= settling request) := by
  unfold withKeys
  split
  · exact reads_verifyAssertion htaken _
  · refine readsUntil_ask (effect_of_none fun _ ↦ rfl) fun fetched ↦ ?_
    cases fetched with
    | ok jwks => exact reads_verifyAssertion htaken jwks
    | error => exact .throw _
  · exact .throw _

/-- Authentication by an assertion that was taken reads until it takes the lock. -/
private theorem reads_authenticatePrivateKeyJwt :
    ReadsUntil (Reached deps request)
      (authenticatePrivateKeyJwt deps request requestNow taken >>= settling request) := by
  refine readsUntil_ask (effect_of_none fun _ ↦ rfl) fun found ↦ ?_
  cases found with
  | none => exact .throw _
  | some client =>
    change ReadsUntil _ ((if _ then _ else _) >>= settling request)
    cases client.enabled with
    | false => exact .throw _
    | true =>
      refine readsUntil_ask (effect_of_none fun _ ↦ rfl) fun config ↦ ?_
      cases config with
      | none => exact .throw _
      | some =>
        change ReadsUntil _ ((if _ then _ else _) >>= settling request)
        split
        · exact .throw _
        · exact reads_withKeys htaken

omit htaken

private theorem elsewhere_runOtherwise (run : EndpointWork work) : Elsewhere (runOtherwise run) := by
  induction run with
  | done => exact .done
  | throw => exact .throw _
  | stmt _ _ ih => exact .stmt (fun _ ↦ rfl) (fun _ _ ↦ rfl) ih

private theorem reads_authenticateByAssertion {now : Date} :
    ReadsUntil (Reached deps request) (authenticateByAssertion deps request requestNow
      (parseClientAssertion deps.toRuntime request.body now request.tokenEndpoints)) := by
  cases htaken : parseClientAssertion deps.toRuntime request.body now request.tokenEndpoints with
  | unsupported => exact .here (.elsewhere (elsewhere_runOtherwise _))
  | invalid =>
    rw [authenticateByAssertion]
    split
    · exact .throw _
    · exact .throw _
  | ok =>
    rw [authenticateByAssertion]
    split
    · exact .throw _
    · split
      · exact .throw _
      · exact reads_authenticatePrivateKeyJwt ⟨now, htaken⟩

/-- A request reads until it takes the lock of its `jti` or works elsewhere. -/
theorem reads_authenticate :
    ReadsUntil (Reached deps request) ((AssertionCall.authenticate request).body deps) := by
  refine readsUntil_ask (effect_of_none fun _ ↦ rfl) fun requestNow ↦ ?_
  refine reads_now fun now ↦ ?_
  dsimp only
  cases request.certificate with
  | absent => exact reads_authenticateByAssertion
  | present =>
    dsimp only
    split
    · exact .throw _
    · exact .here (.elsewhere (elsewhere_runOtherwise _))
  | duplicated => exact .throw _

end Reading

/-- How far a request that found its `jti` unspent has come. -/
inductive Written where
  /-- It has taken the lock. -/
  | locked
  /-- It has written for its work. -/
  | working
  /-- It has spent its `jti`. -/
  | spent
  deriving DecidableEq

/-- The lock of a `jti` is held, and nothing else is written. -/
structure OnlyLock (deps : AssertionDeps) (slot : JtiSlot)
    (w : Writes (assertionDatabase work)) : Prop where
  held : (w (jtiLock deps slot)).isSome
  rest : ∀ k, k ≠ jtiLock deps slot → w k = none

/-- What a request that found its `jti` unspent has written. -/
structure Written.Holds (deps : AssertionDeps) (slot : JtiSlot) (expiresAt : ℤ)
    (written : Written) (w : Writes (assertionDatabase work)) : Prop where
  held : (w (jtiLock deps slot)).isSome
  clock : w clockKey = none
  others : ∀ slot', slot' ≠ slot → w (jtiKey slot') = none
  jti : w (jtiKey slot) = if written = .spent then some (some expiresAt) else none
  locked : written = .locked → OnlyLock deps slot w

theorem OnlyLock.holds {slot : JtiSlot} {expiresAt : ℤ} {w : Writes (assertionDatabase work)}
    (h : OnlyLock deps slot w) : Written.locked.Holds deps slot expiresAt w where
  held := h.held
  clock := h.rest _ (by simp)
  others := fun slot' _ ↦ h.rest _ (by simp)
  jti := h.rest _ (by simp)
  locked := fun _ ↦ h

theorem OnlyLock.restore {slot : JtiSlot} {saved w : Writes (assertionDatabase work)}
    (h : OnlyLock deps slot saved) (hw : (w (jtiLock deps slot)).isSome) :
    OnlyLock deps slot (Writes.restore saved w) where
  held := by
    obtain ⟨cell, hcell⟩ := Option.isSome_iff_exists.mp hw
    simp [Writes.restore, hcell, h.held]
  rest := fun k hk ↦ by simp [Writes.restore, h.rest k hk]

/-- A program that works, and spends its `jti` before it is over. -/
inductive Settles (deps : AssertionDeps) (slot : JtiSlot) (expiresAt : ℤ) :
    Written → AssertionTx work EndpointOutcome → Prop where
  | spent {outcome : EndpointOutcome} (h : outcome.spent = true) :
      Settles deps slot expiresAt .spent (.done outcome)
  | unspent (refusal : String) :
      Settles deps slot expiresAt .locked (.done (.refusedAfter refusal false))
  | throw {written : Written} (e : EndpointFailure) :
      Settles deps slot expiresAt written (.throw e)
  | work {written : Written} {op : work.Op}
      {next : work.Answer op → AssertionTx work EndpointOutcome} (hspent : written ≠ .spent)
      (hnext : ∀ a, Settles deps slot expiresAt .working (next a)) :
      Settles deps slot expiresAt written (.stmt (.inr op) next)
  | refusesWrite {written : Written} {next : Bool → AssertionTx work EndpointOutcome}
      (hnext : ∀ a, Settles deps slot expiresAt written (next a)) :
      Settles deps slot expiresAt written (.stmt (.inl .refusesWrite) next)
  | claim {written : Written} {next : Bool → AssertionTx work EndpointOutcome}
      (hspent : written ≠ .spent) (hnext : ∀ a, Settles deps slot expiresAt .spent (next a)) :
      Settles deps slot expiresAt written (.stmt (.inl (.claimWithin slot expiresAt)) next)
  | savepoint {next : Writes (assertionDatabase work) → AssertionTx work EndpointOutcome}
      (hnext : ∀ saved, OnlyLock deps slot saved →
        Settles deps slot expiresAt .locked (next saved)) :
      Settles deps slot expiresAt .locked (.savepoint next)
  | rollbackTo {written : Written} {saved : Writes (assertionDatabase work)}
      {next : AssertionTx work EndpointOutcome} (hsaved : OnlyLock deps slot saved)
      (hnext : Settles deps slot expiresAt .locked next) :
      Settles deps slot expiresAt written (.rollbackTo saved next)

section Settling

variable {authenticated : AuthenticatedClient} {written : Written}

private theorem settles_spend {f : Bool → AssertionTx work EndpointOutcome}
    (hspent : written ≠ .spent)
    (htrue : Settles deps authenticated.slot authenticated.expiresAt .spent (f true))
    (hfalse : Settles deps authenticated.slot authenticated.expiresAt written (f false)) :
    Settles deps authenticated.slot authenticated.expiresAt written
      (spend authenticated >>= f) := by
  refine .refusesWrite fun refuses ↦ ?_
  cases refuses with
  | true => exact hfalse
  | false => exact .claim hspent fun _ ↦ htrue

private theorem settles_spendAfter (refusal : String) :
    @Settles work deps authenticated.slot authenticated.expiresAt .locked
      (spendAfter authenticated refusal) := by
  refine .savepoint fun saved hsaved ↦ settles_spend (by decide) ?_ ?_
  · exact .spent rfl
  · exact .rollbackTo hsaved (.unspent refusal)

private theorem settles_program {run : EndpointWork work}
    {f : Except String String → AssertionTx work EndpointOutcome} (hspent : written ≠ .spent)
    (hf : ∀ result written', written' ≠ .spent →
      Settles deps authenticated.slot authenticated.expiresAt written' (f result)) :
    Settles deps authenticated.slot authenticated.expiresAt written (run.program >>= f) := by
  induction run generalizing written with
  | done | throw => exact hf _ _ hspent
  | stmt _ _ ih => exact .work hspent fun a ↦ ih a (by decide)

theorem settles_settle (run : EndpointWork work) :
    Settles deps authenticated.slot authenticated.expiresAt .locked
      (settle authenticated run) := by
  refine .savepoint fun saved hsaved ↦ settles_program (by decide) fun result written hspent ↦ ?_
  cases result with
  | ok => exact settles_spend hspent (.spent rfl) (.throw _)
  | error refusal => exact .rollbackTo hsaved (settles_spendAfter refusal)

end Settling

/-- A request that found its `jti` unspent, on its way to spend it. -/
structure Spending (deps : AssertionDeps) (request : ClientRequest work) (taken : TakenAssertion)
    (written : Written) (p : AssertionTx work EndpointOutcome)
    (w : Writes (assertionDatabase work)) (s : Store (assertionDatabase work))
    (history : List (Answered (assertions work deps))) : Prop where
  verified : Verified deps request taken
  settles : Settles deps (taken.slot request.tenantId) taken.expiresAt written p
  holds : written.Holds deps (taken.slot request.tenantId) taken.expiresAt w
  free : (authenticationRows s).jti (taken.slot request.tenantId) = none
  /-- Everything accepted there ran out before the request's assertion does. -/
  past : ∀ a ∈ history, ∀ expiresAt,
    accepted a = some (taken.slot request.tenantId, expiresAt) → expiresAt < taken.expiresAt

/-- Where a call is, with what it has written, over the committed rows and what has been
answered. -/
inductive Stage (deps : AssertionDeps) :
    AssertionCall work → AssertionTx work EndpointOutcome → Writes (assertionDatabase work) →
      Store (assertionDatabase work) → List (Answered (assertions work deps)) → Prop where
  | reading {request p w s history} (hp : p.ReadsUntil (Reached deps request))
      (hw : w = Writes.nothing) : Stage deps (.authenticate request) p w s history
  | locked {request p w s history} (taken : TakenAssertion) (client : ClientRecord)
      (config : ClientOidcConfig) (h : Verified deps request taken)
      (hp : p = lookUpJti request taken client config >>= settling request)
      (hw : OnlyLock deps (taken.slot request.tenantId) w) :
      Stage deps (.authenticate request) p w s history
  | spending {request p w s history} (taken : TakenAssertion) (written : Written)
      (h : Spending deps request taken written p w s history) :
      Stage deps (.authenticate request) p w s history
  | elsewhere {call p w s history} (hp : Elsewhere p) (hclock : w clockKey = none)
      (hjti : ∀ slot, w (jtiKey slot) = none) : Stage deps call p w s history
  | reaps {tenantIds p w s history} (hp : p = (AssertionCall.reap tenantIds).body deps)
      (hw : w = Writes.nothing) : Stage deps (.reap tenantIds) p w s history
  | reaping {tenantIds p w s history} (now : Date) (tenantIds' : List String)
      (hp : p = reapTenants now tenantIds') (hnow : now ≤ (authenticationRows s).now)
      (hclock : w clockKey = none)
      (hjti : ∀ slot cell, w (jtiKey slot) = some cell → cell = none ∧
        ∃ expiresAt, (authenticationRows s).jti slot = some expiresAt ∧ expiresAt < now.val) :
      Stage deps (.reap tenantIds) p w s history
  | ticks {date p w s history} (hp : p = (AssertionCall.tick date).body deps)
      (hw : w = Writes.nothing) : Stage deps (.tick date) p w s history
  | ticked {date p w s history} (hp : p = .done .other) (shown : Date)
      (hclock : w clockKey = some (some shown)) (hshown : (authenticationRows s).now ≤ shown)
      (hjti : ∀ slot, w (jtiKey slot) = none) : Stage deps (.tick date) p w s history

/-- What the others leave of what a request's locks keep. -/
structure Still (deps : AssertionDeps) (w : Writes (assertionDatabase work))
    (s s' : Store (assertionDatabase work))
    (history history' : List (Answered (assertions work deps))) : Prop where
  now : (authenticationRows s).now ≤ (authenticationRows s').now
  clock : (w clockKey).isSome → (authenticationRows s').now = (authenticationRows s).now
  free : ∀ slot, (w (jtiLock deps slot)).isSome → (authenticationRows s).jti slot = none →
    (authenticationRows s').jti slot = none
  past : ∀ slot, (w (jtiLock deps slot)).isSome → ∀ a ∈ history', ∀ expiresAt,
    accepted a = some (slot, expiresAt) → a ∈ history
  locked : ∀ slot, (w (jtiKey slot)).isSome →
    (authenticationRows s').jti slot = (authenticationRows s).jti slot

/-- What a call that is over has written. -/
inductive Ending (deps : AssertionDeps) (call : AssertionCall work) (outcome : EndpointOutcome)
    (w : Writes (assertionDatabase work)) (s : Store (assertionDatabase work))
    (history : List (Answered (assertions work deps))) : Prop where
  | spent (request : ClientRequest work) (taken : TakenAssertion)
      (hcall : call = .authenticate request) (hspent : outcome.spent = true)
      (h : Spending deps request taken .spent (.done outcome) w s history)
  | unspent (hspent : outcome.spent = false)
      (hclock : ∀ cell, w clockKey = some cell →
        ∃ shown, cell = some shown ∧ (authenticationRows s).now ≤ shown)
      (hjti : ∀ slot cell, w (jtiKey slot) = some cell → cell = none ∧
        ∃ expiresAt, (authenticationRows s).jti slot = some expiresAt ∧
          expiresAt < (authenticationRows s).now.val)

namespace Stage

variable {call : AssertionCall work} {p : AssertionTx work EndpointOutcome}
  {w w' : Writes (assertionDatabase work)} {s s' : Store (assertionDatabase work)}
  {history history' : List (Answered (assertions work deps))}

/-- A call stays where it is when what its locks keep is as it was. -/
theorem still (h : Stage deps call p w s history) (hs : Still deps w s s' history history') :
    Stage deps call p w s' history' := by
  cases h with
  | reading hp hw => exact .reading hp hw
  | locked taken client config h hp hw => exact .locked taken client config h hp hw
  | spending taken written h =>
    exact .spending taken written { h with
      free := hs.free _ h.holds.held h.free
      past := fun a ha expiresAt haccepted ↦
        h.past a (hs.past _ h.holds.held a ha expiresAt haccepted) expiresAt haccepted }
  | elsewhere hp hclock hjti => exact .elsewhere hp hclock hjti
  | reaps hp hw => exact .reaps hp hw
  | reaping now tenantIds' hp hnow hclock hjti =>
    refine .reaping now tenantIds' hp (hnow.trans hs.now) hclock fun slot cell hcell ↦ ?_
    obtain ⟨hnone, expiresAt, hrow, hexpired⟩ := hjti slot cell hcell
    exact ⟨hnone, expiresAt, (hs.locked slot (by simp [hcell])).trans hrow, hexpired⟩
  | ticks hp hw => exact .ticks hp hw
  | ticked hp shown hclock hshown hjti =>
    exact .ticked hp shown hclock ((hs.clock (by simp [hclock])).le.trans hshown) hjti

/-- Only a request that spends has a part of its transaction to roll back to. -/
private theorem plain (h : Stage deps call p w s history) :
    (∃ request taken written, call = .authenticate request ∧
      Spending deps request taken written p w s history) ∨
    (∀ next, p ≠ .commit next) ∧ (∀ next, p ≠ .savepoint next) ∧
      ∀ saved next, p ≠ .rollbackTo saved next := by
  cases h with
  | spending taken written h => exact Or.inl ⟨_, taken, written, rfl, h⟩
  | reading hp =>
    refine Or.inr ?_
    cases hp with
    | here hreached =>
      cases hreached with
      | lock _ _ _ _ hp =>
        subst hp
        exact ⟨nofun, nofun, nofun⟩
      | elsewhere h => cases h <;> exact ⟨nofun, nofun, nofun⟩
    | throw | read => exact ⟨nofun, nofun, nofun⟩
  | elsewhere hp => cases hp <;> exact Or.inr ⟨nofun, nofun, nofun⟩
  | reaping _ tenantIds' hp =>
    subst hp
    cases tenantIds' <;> exact Or.inr ⟨nofun, nofun, nofun⟩
  | locked _ _ _ _ hp _ | reaps hp _ | ticks hp _ | ticked hp _ _ _ _ =>
    subst hp
    exact Or.inr ⟨nofun, nofun, nofun⟩

variable {next : AssertionTx work EndpointOutcome}

theorem not_commit
    (h : Stage deps call (.commit next) w s history) : False := by
  rcases h.plain with ⟨request, taken, written, -, hspending⟩ | ⟨hcommit, -, -⟩
  · have hsettles := hspending.settles
    cases hsettles
  · exact hcommit next rfl

theorem save {next : Writes (assertionDatabase work) → AssertionTx work EndpointOutcome}
    (h : Stage deps call (.savepoint next) w s history) :
    Stage deps call (next w) w s history := by
  rcases h.plain with ⟨request, taken, written, rfl, hspending⟩ | ⟨-, hsavepoint, -⟩
  · have hsettles := hspending.settles
    cases hsettles with
    | savepoint hnext =>
      exact .spending taken .locked { hspending with
        settles := hnext w (hspending.holds.locked rfl) }
  · exact absurd rfl (hsavepoint next)

theorem restore {saved : Writes (assertionDatabase work)}
    (h : Stage deps call (.rollbackTo saved next) w s history) :
    Stage deps call next (Writes.restore saved w) s history := by
  rcases h.plain with ⟨request, taken, written, rfl, hspending⟩ | ⟨-, -, hrollback⟩
  · have hsettles := hspending.settles
    cases hsettles with
    | rollbackTo hsaved hnext =>
      exact .spending taken .locked { hspending with
        settles := hnext
        holds := (hsaved.restore hspending.holds.held).holds }
  · exact absurd rfl (hrollback saved next)

variable {op : (assertionDatabase work).Op}

theorem andThen_read
    (hop : ∀ s, (assertionDatabase work).effect op s = Writes.nothing)
    (s : Store (assertionDatabase work)) :
    w.andThen ((assertionDatabase work).effect op s) = w := by
  rw [hop, Writes.andThen_nothing]

/-- The lock of a `jti` is taken first of all. -/
private theorem onlyLock_of_lockJti (slot : JtiSlot) (s : Store (assertionDatabase work)) :
    OnlyLock deps slot (Writes.nothing.andThen
      ((assertionDatabase work).effect (.inl (.lockJti (deps.lockKey slot))) s)) := by
  rw [Writes.nothing_andThen]
  constructor
  · exact Option.isSome_of_eq_some
      (@Layout.put_self assertionLayout _ .jtiLocks _ (deps.lockKey slot) _)
  · rintro (k | k) hk
    · exact Layout.put_of_key_ne (L := assertionLayout) fun heq ↦ hk (congrArg Sum.inl heq)
    · rfl

variable {slot : JtiSlot} {written : Written}

/-- The work of a request leaves what it has written on the rows of authentication. -/
private theorem holds_of_work {expiresAt : ℤ} {op : work.Op}
    (h : written.Holds deps slot expiresAt w) (hspent : written ≠ .spent)
    (s : Store (assertionDatabase work)) :
    Written.working.Holds deps slot expiresAt
      (w.andThen ((assertionDatabase work).effect (.inr op) s)) where
  held := h.held
  clock := h.clock
  others := h.others
  jti := h.jti.trans (by simp [hspent])
  locked := by simp

/-- A free `jti` is spent. -/
private theorem holds_of_claim {expiresAt : ℤ}
    (h : written.Holds deps slot expiresAt w) (hspent : written ≠ .spent)
    (hfree : (authenticationRows s).jti slot = none) :
    Written.spent.Holds deps slot expiresAt (w.andThen
      ((assertionDatabase work).effect (.inl (.claimWithin slot expiresAt)) (w.laidOver s))) := by
  have hseen : (authenticationRows (w.laidOver s)).jti slot = none := by
    have hjti := h.jti
    rw [if_neg hspent] at hjti
    exact (Writes.laidOver_of_none hjti s).trans hfree
  have heffect : ∀ k, (assertionDatabase work).effect (.inl (.claimWithin slot expiresAt))
      (w.laidOver s) (.inl k) =
        Layout.put (L := assertionLayout) .clientAssertionJti slot (some expiresAt) k := by
    intro k
    exact congrFun (Layout.insert_eq_put (L := assertionLayout) hseen) k
  have hother : ∀ k : assertionLayout.Key, k ≠ ⟨.clientAssertionJti, slot⟩ →
      w.andThen ((assertionDatabase work).effect (.inl (.claimWithin slot expiresAt))
        (w.laidOver s)) (.inl k) = w (.inl k) := by
    intro k hk
    exact Writes.andThen_of_none ((heffect k).trans (Layout.put_of_key_ne hk))
  constructor
  · rw [hother _ (by simp)]
    exact h.held
  · rw [hother _ (by simp)]
    exact h.clock
  · intro slot' hslot
    rw [hother _ (by simpa using hslot)]
    exact h.others slot' hslot
  · exact Writes.andThen_of_some ((heffect _).trans Layout.put_self)
  · exact nofun

private theorem clock_of_reap (tenantId : String) (now : Date) (s : Store (assertionDatabase work)) :
    (assertionDatabase work).effect (.inl (.reap tenantId now)) s clockKey = none := by
  have hdelete : Layout.delete (L := assertionLayout) .clientAssertionJti
      (fun slot expiresAt ↦ decide (slot.tenantId = tenantId ∧ expiresAt < now.val))
      (authenticationRows s) ⟨.clock, ()⟩ = none :=
    @Layout.delete_of_ne assertionLayout _ .clientAssertionJti .clock _ _ (by decide) ()
  exact hdelete

private theorem writes_of_setClock (date : Date) (s : Store (assertionDatabase work)) :
    (assertionDatabase work).effect (.inl (.setClock date)) s clockKey =
        some (some (max (authenticationRows s).now date)) ∧
      ∀ slot, (assertionDatabase work).effect (.inl (.setClock date)) s (jtiKey slot) = none := by
  refine ⟨@Layout.put_self assertionLayout _ .clock _ () _, fun slot ↦ ?_⟩
  exact @Layout.put_of_ne assertionLayout _ .clock .clientAssertionJti _ ()
    (some (max (authenticationRows s).now date)) (by decide) slot

/-- What a deletion adds to what it has written are rows that have expired. -/
private theorem deletes_of_reap {tenantId : String} {now : Date}
    (hjti : ∀ slot cell, w (jtiKey slot) = some cell → cell = none ∧
      ∃ expiresAt, (authenticationRows s).jti slot = some expiresAt ∧ expiresAt < now.val)
    {cell : Option ℤ}
    (hcell : w.andThen ((assertionDatabase work).effect (.inl (.reap tenantId now))
      (w.laidOver s)) (jtiKey slot) = some cell) :
    cell = none ∧
      ∃ expiresAt, (authenticationRows s).jti slot = some expiresAt ∧ expiresAt < now.val := by
  cases hdeleted : (assertionDatabase work).effect (.inl (.reap tenantId now)) (w.laidOver s)
      (jtiKey slot) with
  | none => exact hjti slot cell ((Writes.andThen_of_none hdeleted).symm.trans hcell)
  | some cell' =>
    obtain rfl := Option.some.inj ((Writes.andThen_of_some hdeleted).symm.trans hcell)
    have hdelete : Layout.delete (L := assertionLayout) .clientAssertionJti
        (fun slot expiresAt ↦ decide (slot.tenantId = tenantId ∧ expiresAt < now.val))
        (authenticationRows (w.laidOver s)) ⟨.clientAssertionJti, slot⟩ = some cell' := hdeleted
    obtain ⟨hnone, expiresAt, hrow, hwanted⟩ := Layout.delete_eq_some hdelete
    change w.laidOver s (jtiKey slot) = some expiresAt at hrow
    have hunwritten : w (jtiKey slot) = none := by
      cases hw : w (jtiKey slot) with
      | none => rfl
      | some earlier =>
        -- A row it deleted before is not there to be deleted.
        obtain ⟨hgone, -⟩ := hjti slot earlier hw
        rw [Writes.laidOver_of_some hw, hgone] at hrow
        exact nomatch hrow
    rw [Writes.laidOver_of_none hunwritten] at hrow
    exact ⟨hnone, expiresAt, hrow, (of_decide_eq_true hwanted).2⟩

/-- What a call's own statement comes to. -/
theorem run
    {next : (assertionDatabase work).Answer op → AssertionTx work EndpointOutcome}
    {a : (assertionDatabase work).Answer op} (h : Stage deps call (.stmt op next) w s history)
    (hpast : ∀ a ∈ history, ∀ slot expiresAt, accepted a = some (slot, expiresAt) →
      expiresAt < (authenticationRows s).now.val ∨
        (authenticationRows s).jti slot = some expiresAt)
    (hmay : (@timely work deps).mayRun call op (w.laidOver s))
    (ha : (assertionDatabase work).Answers op (w.laidOver s) a) :
    Stage deps call (next a) (w.andThen ((assertionDatabase work).effect op (w.laidOver s))) s
      history := by
  cases h with
  | reading hp hw =>
    subst hw
    cases hp with
    | here hreached =>
      cases hreached with
      | lock taken client config h hp =>
        cases hp
        exact .locked taken client config h rfl (onlyLock_of_lockJti _ _)
      | elsewhere h =>
        cases h with
        | stmt hclock hjti hnext =>
          rw [Writes.nothing_andThen]
          exact .elsewhere (hnext a) (hclock _) (hjti _)
    | read hop hnext =>
      rw [andThen_read hop]
      exact .reading (hnext a) rfl
  | @locked request _ _ _ _ taken client config h hp hw =>
    cases hp
    rw [andThen_read (effect_of_none fun _ ↦ rfl)]
    have hseen : ∀ k, k ≠ jtiLock deps (taken.slot request.tenantId) → w.laidOver s k = s k :=
      fun k hk ↦ Writes.laidOver_of_none (hw.rest k hk) s
    have hanswer : a = ((authenticationRows s).jti (taken.slot request.tenantId)).isSome := by
      have hrow : (authenticationRows (w.laidOver s)).jti (taken.slot request.tenantId) =
          (authenticationRows s).jti (taken.slot request.tenantId) := hseen _ (by simp)
      exact ha.trans (congrArg Option.isSome hrow)
    clear ha
    cases a with
    | true => exact .elsewhere (.throw _) (hw.rest _ (by simp)) fun slot ↦ hw.rest _ (by simp)
    | false =>
      have hfree := Option.isSome_eq_false_iff.mp hanswer.symm
      have hnone := Option.isNone_iff_eq_none.mp hfree
      have htimely : (authenticationRows s).now.val ≤ taken.expiresAt := by
        have hnow : (authenticationRows (w.laidOver s)).now = (authenticationRows s).now :=
          congrArg (fun cell ↦ Option.getD cell epoch) (hseen clockKey (by simp))
        have hrow : (authenticationRows (w.laidOver s)).jti (taken.slot request.tenantId) = none :=
          (hseen _ (by simp)).trans hnone
        rw [← hnow]
        exact hmay hrow _ _ h.spends
      have hsettles := @settles_settle work deps
        ⟨client, config, taken.slot request.tenantId, taken.expiresAt⟩ (request.run client config)
      refine .spending taken .locked ⟨h, hsettles, hw.holds, hnone, ?_⟩
      intro b hb expiresAt haccepted
      rcases hpast b hb _ expiresAt haccepted with hrunout | hremembered
      · exact lt_of_lt_of_le hrunout htimely
      · rw [hnone] at hremembered
        exact nomatch hremembered
  | spending taken written h =>
    have hsettles := h.settles
    cases hsettles with
    | work hspent hnext =>
      exact .spending taken .working { h with
        settles := hnext a
        holds := holds_of_work h.holds hspent _ }
    | refusesWrite hnext =>
      rw [andThen_read (effect_of_none fun _ ↦ rfl)]
      exact .spending taken written { h with settles := hnext a }
    | claim hspent hnext =>
      exact .spending taken .spent { h with
        settles := hnext a
        holds := holds_of_claim h.holds hspent h.free }
  | elsewhere hp hclock hjti =>
    cases hp with
    | stmt hclock' hjti' hnext =>
      refine .elsewhere (hnext a) ?_ fun slot ↦ ?_
      · rw [Writes.andThen_of_none (hclock' _), hclock]
      · rw [Writes.andThen_of_none (hjti' _ slot), hjti slot]
  | reaps hp hw =>
    subst hw
    cases hp
    rw [andThen_read (effect_of_none fun _ ↦ rfl)]
    exact .reaping a _ rfl (le_of_eq ha) rfl (by simp)
  | reaping now tenantIds' hp hnow hclock hjti =>
    cases tenantIds' with
    | nil => cases hp
    | cons _ tenantIds' =>
      cases hp
      exact .reaping now tenantIds' rfl hnow
        ((Writes.andThen_of_none (clock_of_reap _ _ _)).trans hclock)
        fun slot cell hcell ↦ deletes_of_reap hjti hcell
  | ticks hp hw =>
    subst hw
    cases hp
    rw [Writes.nothing_andThen]
    obtain ⟨hclock, hjti⟩ := writes_of_setClock _ s
    exact .ticked rfl _ hclock (le_max_left _ _) hjti
  | ticked hp => cases hp

/-- What a call that is over has written. -/
theorem ending {outcome : EndpointOutcome} (h : Stage deps call (.done outcome) w s history) :
    Ending deps call outcome w s history := by
  cases h with
  | reading hp hw =>
    subst hw
    cases hp with
    | here hreached =>
      cases hreached with
      | lock _ _ _ _ hp => cases hp
      | elsewhere h =>
        cases h
        exact .unspent rfl (by simp) (by simp)
  | locked _ _ _ _ hp _ | reaps hp _ | ticks hp _ => cases hp
  | spending taken _ h =>
    have hsettles := h.settles
    cases hsettles with
    | spent hspent => exact .spent _ taken rfl hspent h
    | unspent =>
      have hlocked := h.holds.locked rfl
      have hrest : ∀ slot, w (jtiKey slot) = none := fun slot ↦ hlocked.rest _ (by simp)
      exact .unspent rfl (by simp [hlocked.rest clockKey (by simp)]) (by simp [hrest])
  | elsewhere hp hclock hjti =>
    cases hp
    exact .unspent rfl (by simp [hclock]) (by simp [hjti])
  | reaping _ tenantIds' hp hnow hclock hjti =>
    cases tenantIds' with
    | cons => cases hp
    | nil =>
      cases hp
      refine .unspent rfl (by simp [hclock]) fun slot cell hcell ↦ ?_
      obtain ⟨hnone, expiresAt, hrow, hexpired⟩ := hjti slot cell hcell
      exact ⟨hnone, expiresAt, hrow, lt_of_lt_of_le hexpired hnow⟩
  | ticked hp shown hclock hshown hjti =>
    cases hp
    refine .unspent rfl (fun cell hcell ↦ ?_) (by simp [hjti])
    obtain rfl := Option.some.inj (hclock.symm.trans hcell)
    exact ⟨shown, rfl, hshown⟩

/-- A refusal that could not be recorded has written the lock and nothing else. -/
theorem onlyLock_of_unspent {refusal : String}
    (h : Stage deps call (.done (.refusedAfter refusal false)) w s history) :
    ∃ slot, OnlyLock deps slot w := by
  cases h with
  | reading hp =>
    cases hp with
    | here hreached =>
      cases hreached with
      | lock _ _ _ _ hp => cases hp
      | elsewhere h => cases h
  | spending _ _ h =>
    have hsettles := h.settles
    cases hsettles with
    | spent hspent => simp [EndpointOutcome.spent] at hspent
    | unspent => exact ⟨_, h.holds.locked rfl⟩
  | reaping _ tenantIds' hp => cases tenantIds' <;> cases hp
  | elsewhere hp _ _ | locked _ _ _ _ hp _ | reaps hp _ | ticks hp _ | ticked hp _ _ _ _ => cases hp

end Stage

section Endings

variable {call : AssertionCall work} {outcome : EndpointOutcome}
  {w w' : Writes (assertionDatabase work)} {s : Store (assertionDatabase work)}
  {history : List (Answered (assertions work deps))}

/-- What is answered and not spent is not accepted. -/
theorem accepted_of_unspent {a : Answered (assertions work deps)}
    (h : ∀ outcome, a.result = .ok outcome → outcome.spent = false) : accepted a = none := by
  obtain ⟨number, call, result⟩ := a
  cases call with
  | authenticate =>
    cases result with
    | error => rfl
    | ok outcome => simp [accepted, h outcome rfl]
  | _ => cases result <;> rfl

theorem accepted_ok_of_unspent (hspent : outcome.spent = false) (t : ℕ) :
    @accepted work deps ⟨t, call, .ok outcome⟩ = none :=
  accepted_of_unspent fun _ hresult ↦ Except.ok.inj hresult ▸ hspent

/-- What a spent assertion is accepted as. -/
theorem Spending.accepted {request : ClientRequest work} {taken : TakenAssertion}
    {written : Written} {p : AssertionTx work EndpointOutcome}
    (h : Spending deps request taken written p w s history) (hspent : outcome.spent = true)
    (t : ℕ) :
    @ClientAssertion.accepted work deps ⟨t, .authenticate request, .ok outcome⟩ =
      some (taken.slot request.tenantId, taken.expiresAt) := by
  simp [ClientAssertion.accepted, hspent, h.verified.spends]

/-- The clock after a commit. -/
private theorem now_of_ending (h : Ending deps call outcome w s history) :
    (w clockKey = none ∧
        (authenticationRows (w.laidOver s)).now = (authenticationRows s).now) ∨
      (authenticationRows s).now ≤ (authenticationRows (w.laidOver s)).now := by
  have hsame : w clockKey = none →
      (authenticationRows (w.laidOver s)).now = (authenticationRows s).now := fun hnone ↦
    congrArg (fun cell ↦ Option.getD cell epoch) (Writes.laidOver_of_none hnone s)
  cases h with
  | spent _ _ _ _ h => exact Or.inl ⟨h.holds.clock, hsame h.holds.clock⟩
  | unspent _ hclock =>
    cases hw : w clockKey with
    | none => exact Or.inl ⟨rfl, hsame hw⟩
    | some cell =>
      obtain ⟨shown, rfl, hshown⟩ := hclock cell hw
      have hnow : (authenticationRows (w.laidOver s)).now = shown :=
        congrArg (fun cell ↦ Option.getD cell epoch) (Writes.laidOver_of_some hw s)
      exact Or.inr (hnow ▸ hshown)

theorem Ending.now_le (h : Ending deps call outcome w s history) :
    (authenticationRows s).now ≤ (authenticationRows (w.laidOver s)).now := by
  rcases now_of_ending h with ⟨-, hsame⟩ | hle
  · exact hsame.ge
  · exact hle

/-- What is remembered after a commit. -/
theorem Ending.jti (h : Ending deps call outcome w s history) (slot : JtiSlot) :
    (authenticationRows (w.laidOver s)).jti slot = (authenticationRows s).jti slot ∨
    ((authenticationRows (w.laidOver s)).jti slot = none ∧ ∃ expiresAt,
      (authenticationRows s).jti slot = some expiresAt ∧
        expiresAt < (authenticationRows s).now.val) ∨
    ∃ expiresAt, (w (jtiLock deps slot)).isSome ∧ (authenticationRows s).jti slot = none ∧
      (authenticationRows (w.laidOver s)).jti slot = some expiresAt ∧
      ∀ t, @accepted work deps ⟨t, call, .ok outcome⟩ = some (slot, expiresAt) := by
  cases hw : w (jtiKey slot) with
  | none => exact Or.inl (Writes.laidOver_of_none hw s)
  | some cell =>
    have hwritten : (authenticationRows (w.laidOver s)).jti slot = cell :=
      Writes.laidOver_of_some hw s
    refine Or.inr ?_
    cases h with
    | spent request taken hcall hspent h =>
      subst hcall
      by_cases hslot : slot = taken.slot request.tenantId
      · subst hslot
        obtain rfl := Option.some.inj (h.holds.jti.symm.trans hw)
        exact Or.inr ⟨taken.expiresAt, h.holds.held, h.free, hwritten, h.accepted hspent⟩
      · rw [h.holds.others slot hslot] at hw
        exact nomatch hw
    | unspent _ _ hjti =>
      obtain ⟨rfl, expiresAt, hrow, hexpired⟩ := hjti slot cell hw
      exact Or.inl ⟨hwritten, expiresAt, hrow, hexpired⟩

/-- What another call commits leaves what a request's locks keep. -/
theorem Ending.still (h : Ending deps call outcome w s history) (hapart : w.Apart w') (t : ℕ) :
    Still deps w' s (w.laidOver s) history (⟨t, call, .ok outcome⟩ :: history) := by
  have hlocked : ∀ k : (assertionDatabase work).Key, (w' k).isSome → w k = none := by
    intro k hk
    rcases hapart k with hnone | hnone
    · exact hnone
    · simp [hnone] at hk
  refine ⟨h.now_le, fun hclock ↦ ?_, fun slot hlock hfree ↦ ?_, fun slot hlock a ha expiresAt haccepted ↦ ?_,
    fun slot hjti ↦ Writes.laidOver_of_none (hlocked _ hjti) s⟩
  · exact congrArg (fun cell ↦ Option.getD cell epoch) (Writes.laidOver_of_none (hlocked _ hclock) s)
  · rcases h.jti slot with hsame | ⟨hnone, -⟩ | ⟨expiresAt, hheld, -⟩
    · exact hsame.trans hfree
    · exact hnone
    · -- Both requests would hold the lock of the one `jti`.
      rw [hlocked _ hlock] at hheld
      simp at hheld
  · rcases List.mem_cons.mp ha with rfl | hold
    · cases h with
      | unspent hspent =>
        exact nomatch (accepted_ok_of_unspent hspent t).symm.trans haccepted
      | spent _ _ hcall hspent h =>
        subst hcall
        obtain ⟨rfl, -⟩ := Prod.mk.inj (Option.some.inj ((h.accepted hspent t).symm.trans haccepted))
        have hheld := h.holds.held
        rw [hlocked _ hlock] at hheld
        simp at hheld
    · exact hold

end Endings

end Odudu.ProtocolOidc.ClientAssertion
