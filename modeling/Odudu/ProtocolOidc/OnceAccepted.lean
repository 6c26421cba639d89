import Odudu.ProtocolOidc.AssertionRuns
import Odudu.ReadCommitted.Scenes

/-!
# Accepted once

`Remembered` ties what is remembered of assertions to what was accepted, in every run that
`timely` lets happen: an accepted assertion is remembered until it has run out, so none of
its `jti` is accepted before.  A run in which a request looks its `jti` up too late, after
the deletion, accepts one assertion twice.
-/

set_option autoImplicit false

namespace Odudu.ProtocolOidc.ClientAssertion

open Numbers ReadCommitted Program

variable {work : Database} {deps : AssertionDeps}

/-- What is remembered is what was accepted and has not run out. -/
structure Remembered (s : Store (assertionDatabase work))
    (history : List (Answered (assertions work deps))) : Prop where
  windows : history.Pairwise fun later earlier ↦ ∀ slot expiresAt expiresAt',
    accepted earlier = some (slot, expiresAt) → accepted later = some (slot, expiresAt') →
      expiresAt < expiresAt'
  kept : ∀ a ∈ history, ∀ slot expiresAt, accepted a = some (slot, expiresAt) →
    expiresAt < (authenticationRows s).now.val ∨
      (authenticationRows s).jti slot = some expiresAt
  recorded : ∀ slot expiresAt, (authenticationRows s).jti slot = some expiresAt →
    ∃ a ∈ history, accepted a = some (slot, expiresAt)
  verified : ∀ a ∈ history, accepted a ≠ none → ∃ request taken,
    a.call = .authenticate request ∧ Verified deps request taken

theorem remembered_start {s : Store (assertionDatabase work)}
    (hs : ∀ slot, (authenticationRows s).jti slot = none) :
    Remembered s ([] : List (Answered (assertions work deps))) where
  windows := .nil
  kept := by simp
  recorded := by simp [hs]
  verified := by simp

section Events

variable {call : AssertionCall work} {outcome : EndpointOutcome}
  {w : Writes (assertionDatabase work)} {s : Store (assertionDatabase work)}
  {history : List (Answered (assertions work deps))} {a : Answered (assertions work deps)}

/-- An answer with which nothing is accepted, over the same rows. -/
private theorem Remembered.refused (h : Remembered s history)
    (ha : accepted a = none) : Remembered s (a :: history) where
  windows := .cons (by simp [ha]) h.windows
  kept := by
    intro b hb slot expiresAt hslot
    rcases List.mem_cons.mp hb with rfl | hold
    · exact nomatch ha.symm.trans hslot
    · exact h.kept b hold slot expiresAt hslot
  recorded := by
    intro slot expiresAt hrow
    obtain ⟨b, hb, hslot⟩ := h.recorded slot expiresAt hrow
    exact ⟨b, List.mem_cons_of_mem _ hb, hslot⟩
  verified := by
    intro b hb haccepted
    rcases List.mem_cons.mp hb with rfl | hold
    · exact absurd ha haccepted
    · exact h.verified b hold haccepted

/-- What was accepted is remembered after a commit, or has run out. -/
private theorem Remembered.kept_ending (h : Remembered s history)
    (hend : Ending deps call outcome w s history)
    (ha : a ∈ history) {slot : JtiSlot} {expiresAt : ℤ} (hslot : accepted a = some (slot, expiresAt)) :
    expiresAt < (authenticationRows (w.laidOver s)).now.val ∨
      (authenticationRows (w.laidOver s)).jti slot = some expiresAt := by
  have hnow : (authenticationRows s).now.val ≤ (authenticationRows (w.laidOver s)).now.val :=
    hend.now_le
  rcases h.kept a ha slot expiresAt hslot with hrunout | hrow
  · exact Or.inl (lt_of_lt_of_le hrunout hnow)
  · rcases hend.jti slot with hsame | ⟨-, expiresAt', hrow', hexpired⟩ | ⟨-, -, hfree, -⟩
    · exact Or.inr (hsame.trans hrow)
    · obtain rfl := Option.some.inj (hrow.symm.trans hrow')
      exact Or.inl (lt_of_lt_of_le hexpired hnow)
    · exact nomatch hrow.symm.trans hfree

/-- The end of a call keeps what is remembered tied to what was accepted. -/
theorem Remembered.ended (h : Remembered s history)
    (hend : Ending deps call outcome w s history) (t : ℕ) :
    Remembered (w.laidOver s) (⟨t, call, .ok outcome⟩ :: history) where
  windows := by
    refine .cons (fun a ha slot expiresAt expiresAt' hearlier hlater ↦ ?_) h.windows
    cases hend with
    | unspent hspent =>
      exact nomatch (accepted_ok_of_unspent hspent t).symm.trans hlater
    | spent _ _ hcall hspent hspending =>
      subst hcall
      obtain ⟨rfl, rfl⟩ :=
        Prod.mk.inj (Option.some.inj ((hspending.accepted hspent t).symm.trans hlater))
      exact hspending.past a ha expiresAt hearlier
  kept := by
    intro a ha slot expiresAt hslot
    rcases List.mem_cons.mp ha with rfl | hold
    · cases hend with
      | unspent hspent =>
        exact nomatch (accepted_ok_of_unspent hspent t).symm.trans hslot
      | spent _ _ hcall hspent hspending =>
        subst hcall
        obtain ⟨rfl, rfl⟩ :=
          Prod.mk.inj (Option.some.inj ((hspending.accepted hspent t).symm.trans hslot))
        exact Or.inr (Writes.laidOver_of_some hspending.holds.jti s)
    · exact h.kept_ending hend hold hslot
  recorded := by
    intro slot expiresAt hrow
    rcases hend.jti slot with hsame | ⟨hnone, -⟩ | ⟨expiresAt', -, -, hrow', haccepted⟩
    · obtain ⟨a, ha, hslot⟩ := h.recorded slot expiresAt (hsame.symm.trans hrow)
      exact ⟨a, List.mem_cons_of_mem _ ha, hslot⟩
    · exact nomatch hnone.symm.trans hrow
    · obtain rfl := Option.some.inj (hrow'.symm.trans hrow)
      exact ⟨_, List.mem_cons_self, haccepted t⟩
  verified := by
    intro a ha haccepted
    rcases List.mem_cons.mp ha with rfl | hold
    · cases hend with
      | unspent hspent =>
        exact absurd (accepted_ok_of_unspent hspent t) haccepted
      | spent request taken hcall _ hspending =>
        exact ⟨request, taken, hcall, hspending.verified⟩
    · exact h.verified a hold haccepted

/-- An answer with which nothing is accepted leaves the others where they are. -/
private theorem Still.refused {w' : Writes (assertionDatabase work)}
    (ha : accepted a = none) :
    Still deps w' s s history (a :: history) where
  now := le_rfl
  clock := fun _ ↦ rfl
  free := fun _ _ hfree ↦ hfree
  past := by
    intro slot _ b hb expiresAt hslot
    rcases List.mem_cons.mp hb with rfl | hold
    · exact nomatch ha.symm.trans hslot
    · exact hold
  locked := fun _ _ ↦ rfl

private theorem accepted_error (t : ℕ) (call : AssertionCall work) (failure : EndpointFailure) :
    @accepted work deps ⟨t, call, .error failure⟩ = none :=
  accepted_of_unspent nofun

end Events

/-- Where every call begins. -/
private theorem stage_begun (call : AssertionCall work) (s : Store (assertionDatabase work))
    (history : List (Answered (assertions work deps))) :
    Stage deps call (call.body deps) Writes.nothing s history := by
  cases call with
  | authenticate => exact .reading reads_authenticate rfl
  | reap => exact .reaps rfl rfl
  | tick => exact .ticks rfl rfl
  | putClient tenantId clientId row =>
    refine .elsewhere (.stmt (fun _ ↦ ?_) (fun _ slot ↦ ?_) fun _ ↦ .done) rfl fun _ ↦ rfl
    · exact @Layout.put_of_ne assertionLayout _ .clients .clock _ (tenantId, clientId) row
        (by decide) ()
    · exact @Layout.put_of_ne assertionLayout _ .clients .clientAssertionJti _ (tenantId, clientId)
        row (by decide) slot
  | putConfig tenantId id row =>
    refine .elsewhere (.stmt (fun _ ↦ ?_) (fun _ slot ↦ ?_) fun _ ↦ .done) rfl fun _ ↦ rfl
    · exact @Layout.put_of_ne assertionLayout _ .clientOidcConfigs .clock _ (tenantId, id) row
        (by decide) ()
    · exact @Layout.put_of_ne assertionLayout _ .clientOidcConfigs .clientAssertionJti _
        (tenantId, id) row (by decide) slot

/-- Assertions in a timely run. -/
def assertionChronicle (work : Database) (deps : AssertionDeps) :
    Chronicle (assertions work deps) timely where
  Inv := Remembered
  Fits := Stage deps
  begins := fun call s history _ ↦ stage_begun call s history
  runs := fun hinv hfits hmay ha ↦ hfits.run hinv.kept hmay ha
  parts := fun _ hfits _ ↦ hfits.not_commit.elim
  saves := Stage.save
  restores := Stage.restore
  commits := fun t hinv hfits _ ↦ hinv.ended hfits.ending t
  refuses := fun t hinv _ ↦ hinv.refused (accepted_error t _ _)
  partsApart := fun _ hfits _ _ _ ↦ hfits.not_commit.elim
  commitsApart := fun t _ hfits _ hother hapart ↦ hother.still (hfits.ending.still hapart t)
  refusesApart := fun t _ _ hother ↦ hother.still (.refused (accepted_error t _ _))

section Runs

variable {rows : Store (assertionDatabase work)}
  (hrows : ∀ slot, (authenticationRows rows).jti slot = none) {c : Config (assertions work deps)}
  (hc : Reaches timely (Config.start rows) c)

include hrows hc

/-- Every run stays within the chronicle of the `jti`s. -/
theorem told_of_reaches : (assertionChronicle work deps).Told c :=
  (Chronicle.told_start (C := assertionChronicle work deps) (remembered_start hrows)).reaches hc

variable {a : Answered (assertions work deps)}

/-- A refusal, recorded or not, leaves every row but its `jti` and a lock as it was. -/
theorem rows_of_refusal {c' : Config (assertions work deps)} (hstep : Step timely c c')
    (hhistory : c'.history = a :: c.history)
    (ha : (∃ failure, a.result = .error failure) ∨
      ∃ refusal, a.result = .ok (.refusedAfter refusal false)) :
    ∀ k, (∀ slot, k ≠ jtiLock deps slot) → c'.rows k = c.rows k := by
  have hfits := (told_of_reaches hrows hc).fits
  cases hstep with
  | begin | run | savepoint | rollbackTo | refuse | lose => exact fun _ _ ↦ rfl
  | part hrunning => exact ((hfits _ _ hrunning : Stage deps _ _ _ _ _).not_commit).elim
  | commit hrunning =>
    obtain ⟨rfl, -⟩ := List.cons.inj hhistory
    rcases ha with ⟨failure, hfailed⟩ | ⟨refusal, hrefused⟩
    · exact nomatch hfailed
    · obtain rfl := Except.ok.inj hrefused
      obtain ⟨slot, hlock⟩ := (hfits _ _ hrunning : Stage deps _ _ _ _ _).onlyLock_of_unspent
      exact fun k hk ↦ Writes.laidOver_of_none (hlock.rest k (hk slot)) c.rows

/-- What was accepted is still remembered while it could be accepted. -/
theorem remembered_of_takeable (ha : a ∈ c.history)
    {request : ClientRequest work} (hcall : a.call = .authenticate request) {slot : JtiSlot}
    {expiresAt : ℤ} (haccepted : accepted a = some (slot, expiresAt)) {audiences : List String}
    {taken : TakenAssertion}
    (htaken : parseClientAssertion deps.toRuntime request.body (authenticationRows c.rows).now
      audiences = .ok taken) :
    (authenticationRows c.rows).jti slot = some expiresAt := by
  have hspends : request.spends deps.toRuntime = some (slot, expiresAt) := by
    obtain ⟨number, call, result⟩ := a
    obtain rfl := hcall
    cases result with
    | error => exact nomatch haccepted
    | ok outcome =>
      cases hspent : outcome.spent with
      | true => simpa [accepted, hspent] using haccepted
      | false => simp [accepted, hspent] at haccepted
  obtain ⟨hbody, claims, hclaims, -, -, -, heq⟩ := claims_of_taken htaken
  have hexpires : taken.expiresAt = expiresAt := by
    simp only [ClientRequest.spends, ClientRequest.claims, hbody, hclaims, Option.map_some,
      Option.some.injEq, Prod.mk.injEq] at hspends
    rw [heq]
    exact hspends.2
  rcases (told_of_reaches hrows hc).inv.kept a ha slot expiresAt haccepted with hrunout | hrow
  · exact absurd (hexpires ▸ le_expiresAt htaken) (not_le.mpr hrunout)
  · exact hrow

end Runs

/-- Over any interleaving of requests and deletions in which no request finds its `jti`
unspent later than its assertion is remembered for: of the assertions accepted with one
`jti` each runs out later than those before, so none is accepted twice; an accepted
assertion is remembered as long as it could be taken; what is remembered was accepted, with
its signature good; and a request that is refused leaves every row as it was, unless it
spends its assertion. -/
theorem assertion_accepted_once {rows : Store (assertionDatabase work)}
    (hrows : ∀ slot, (authenticationRows rows).jti slot = none) {c : Config (assertions work deps)}
    (hc : Reaches timely (Config.start rows) c) :
    (c.history.Pairwise fun later earlier ↦ ∀ slot expiresAt expiresAt',
      accepted earlier = some (slot, expiresAt) → accepted later = some (slot, expiresAt') →
        expiresAt < expiresAt') ∧
    (∀ a ∈ c.history, ∀ request, a.call = .authenticate request → ∀ slot expiresAt,
      accepted a = some (slot, expiresAt) → ∀ audiences taken,
        parseClientAssertion deps.toRuntime request.body (authenticationRows c.rows).now audiences =
          .ok taken → (authenticationRows c.rows).jti slot = some expiresAt) ∧
    (∀ slot expiresAt, (authenticationRows c.rows).jti slot = some expiresAt →
      ∃ a ∈ c.history, accepted a = some (slot, expiresAt) ∧ ∃ request taken,
        a.call = .authenticate request ∧ Verified deps request taken) ∧
    ∀ a c', Step timely c c' → c'.history = a :: c.history →
      ((∃ failure, a.result = .error failure) ∨
        ∃ refusal, a.result = .ok (.refusedAfter refusal false)) →
      ∀ k, (∀ slot, k ≠ jtiLock deps slot) → c'.rows k = c.rows k := by
  have hremembered := (told_of_reaches hrows hc).inv
  refine ⟨hremembered.windows, ?_, ?_, ?_⟩
  · intro a ha request hcall slot expiresAt haccepted audiences taken htaken
    exact remembered_of_takeable hrows hc ha hcall haccepted htaken
  · intro slot expiresAt hrow
    obtain ⟨a, ha, haccepted⟩ := hremembered.recorded slot expiresAt hrow
    exact ⟨a, ha, haccepted, hremembered.verified a ha (by simp [haccepted])⟩
  · intro a c' hstep hhistory ha
    exact rows_of_refusal hrows hc hstep hhistory ha

/-- A database in which there is no work to do. -/
abbrev idleWork : Database where
  Key := Empty
  Cell := fun k ↦ nomatch k
  Op := Empty
  Answer := fun op ↦ nomatch op
  Answers := fun op ↦ nomatch op
  effect := fun op ↦ nomatch op

/-- What each method answers, the network apart, when every lock that is tried is got and
the store refuses nothing. -/
def AssertionOp.answer : (op : AssertionOp) → AssertionRows → Option op.Answer
  | readClock, s => some s.now
  | clientByClientId tenantId clientId, s => some (s ⟨.clients, (tenantId, clientId)⟩)
  | configByClientId tenantId id, s => some (s ⟨.clientOidcConfigs, (tenantId, id)⟩)
  | fetchKeys .., _ => none
  | tryLock _, _ => some true
  | spentWithin slot, s => some (s.jti slot).isSome
  | refusesWrite, _ => some false
  | claimWithin slot _, s => some (s.jti slot).isNone
  | setClock _, _ | putClient .., _ | putConfig .., _ | lockJti _, _ | reap .., _ => some ()

def AssertionOp.reads : AssertionOp → Bool
  | readClock | clientByClientId .. | configByClientId .. | fetchKeys .. | tryLock _
  | spentWithin _ | refusesWrite => true
  | _ => false

def oracle : Oracle (assertionDatabase idleWork) where
  answer
    | .inl op, s => op.answer fun k ↦ s (.inl k)
    | .inr op, _ => nomatch op
  reads
    | .inl op => op.reads
    | .inr op => nomatch op
  right := fun op s a h ↦ by
    rcases op with op | op
    · cases op <;> first | exact (Option.some.inj h).symm | trivial
    · exact op.elim
  effect_of_reads := fun op s h ↦ by
    rcases op with op | op
    · cases op <;> first | exact effect_of_none (fun _ ↦ rfl) s | cases h
    · exact op.elim

instance {deps : AssertionDeps} : Discipline.Checked (@timely work deps) where
  mayRun := fun call op s ↦
    match call, op with
    | .authenticate request, .inl (.spentWithin slot) =>
      decidable_of_iff ((authenticationRows s).jti slot = none →
          ∀ q ∈ request.spends deps.toRuntime, (authenticationRows s).now.val ≤ q.2)
        ⟨fun h hfree _ _ hq ↦ h hfree _ hq, fun h hfree q hq ↦ h hfree q.1 q.2 hq⟩
    | .authenticate _, .inl .readClock | .authenticate _, .inl (.setClock _)
    | .authenticate _, .inl (.clientByClientId ..) | .authenticate _, .inl (.configByClientId ..)
    | .authenticate _, .inl (.putClient ..) | .authenticate _, .inl (.putConfig ..)
    | .authenticate _, .inl (.fetchKeys ..) | .authenticate _, .inl (.tryLock _)
    | .authenticate _, .inl (.lockJti _) | .authenticate _, .inl .refusesWrite
    | .authenticate _, .inl (.claimWithin ..) | .authenticate _, .inl (.reap ..)
    | .authenticate _, .inr _ | .reap _, _ | .tick _, _ | .putClient .., _ | .putConfig .., _ =>
      instDecidableTrue
  mayCommit := fun _ _ _ _ ↦ instDecidableTrue

def tokenEndpoint : String := tokenEndpointOf "https://issuer"

/-- An assertion that runs out 100 seconds into the day. -/
def assertionPayload : Json := .object [("iss", .string "app"), ("sub", .string "app"),
  ("aud", .string tokenEndpoint), ("exp", .number 100), ("jti", .string "j1")]

/-- One assertion, whose signature is good. -/
def oneAssertion : AssertionDeps where
  numbers := exactly
  decode := fun payload ↦ if payload = ['p'] then some assertionPayload else none
  jwtVerify := fun token _ _ _ _ _ ↦ token == "h.p.s"
  lockKey := fun _ ↦ 0

def publishedKeys : Json := .object [("keys", .array [.object []])]

/-- A client that signs its assertions is registered, and nothing is remembered. -/
def registered : Store (assertionDatabase idleWork)
  | .inl ⟨.clients, id⟩ => if id = ("acme", "app") then some ⟨"c1", true, "dcr"⟩ else none
  | .inl ⟨.clientOidcConfigs, id⟩ =>
    if id = ("acme", "c1") then some ⟨"private_key_jwt", some publishedKeys, none⟩ else none
  | .inl ⟨.clock, _⟩ | .inl ⟨.jtiLocks, _⟩ | .inl ⟨.clientAssertionJti, _⟩ => none
  | .inr k => nomatch k

/-- The assertion is presented to revoke a token. -/
def presented : ClientRequest idleWork where
  endpoint := .revoke
  tenantId := "acme"
  acceptedIssuers := ["https://issuer"]
  body := {
    client_assertion := some (.string "h.p.s")
    client_assertion_type := some (.string CLIENT_ASSERTION_TYPE) }
  clientId := none
  clientSecret := none
  basic := none
  certificate := .absent
  run := fun _ _ ↦ .done "revoked"
  otherwise := .throw "invalid_client"

/-- After the assertion has run out. -/
def later : Date := ⟨131000, by decide⟩

/-- The assertion is presented once, and then again. -/
def presentedAgain : List (Cue (assertions idleWork oneAssertion)) :=
  [.begins (.authenticate presented), .ends 0, .begins (.authenticate presented), .ends 1]

/-- The assertion is presented twice, the time passes and what has expired is deleted before
the second request has looked its `jti` up. -/
def lookedUpLate : List (Cue (assertions idleWork oneAssertion)) :=
  [.begins (.authenticate presented), .begins (.authenticate presented), .reads 1 3, .ends 0,
    .begins (.tick later), .ends 2, .begins (.reap ["acme"]), .ends 3, .ends 1]

/-- The assertion as it was spent. -/
abbrev spentAssertion : JtiSlot × ℤ := (⟨"acme", "app", "j1"⟩, 130000)

private theorem exists_scene (d : Discipline (assertions idleWork oneAssertion)) [d.Checked]
    (cues : List (Cue (assertions idleWork oneAssertion))) (answers : List (Option (JtiSlot × ℤ)))
    (h : ((Scene.playAll d oracle (.start registered) cues).map fun m ↦ m.history.map accepted) =
      some answers) :
    ∃ c, Reaches d (.start registered) c ∧ c.history.map accepted = answers := by
  obtain ⟨m, hplay, hanswers⟩ := Option.map_eq_some_iff.mp h
  exact ⟨m.config, Scene.reaches_of_start hplay, hanswers⟩

/-- An assertion that is presented again in time is refused. -/
theorem assertion_accepted_once_presentedAgain :
    ∃ c : Config (assertions idleWork oneAssertion),
      c.history.map accepted = [none, some spentAssertion] ∧
      (c.history.Pairwise fun later earlier ↦ ∀ slot expiresAt expiresAt',
        accepted earlier = some (slot, expiresAt) → accepted later = some (slot, expiresAt') →
          expiresAt < expiresAt') ∧
      ∀ slot expiresAt, (authenticationRows c.rows).jti slot = some expiresAt →
        ∃ a ∈ c.history, accepted a = some (slot, expiresAt) := by
  obtain ⟨c, hc, hanswers⟩ := exists_scene timely presentedAgain
    [none, some spentAssertion] (by decide +kernel)
  obtain ⟨hwindows, -, hrecorded, -⟩ := assertion_accepted_once (fun _ ↦ rfl) hc
  refine ⟨c, hanswers, hwindows, fun slot expiresAt hrow ↦ ?_⟩
  obtain ⟨a, ha, haccepted, -⟩ := hrecorded slot expiresAt hrow
  exact ⟨a, ha, haccepted⟩

/-- Looked up too late, one assertion is accepted twice. -/
theorem accepted_twice : ¬ ∀ (work : Database) (deps : AssertionDeps)
    (rows : Store (assertionDatabase work)) (c : Config (assertions work deps)),
    (∀ slot, (authenticationRows rows).jti slot = none) → Reaches .free (Config.start rows) c →
      c.history.Pairwise fun later earlier ↦ ∀ slot expiresAt,
        accepted earlier = some (slot, expiresAt) → accepted later ≠ some (slot, expiresAt) := by
  intro hclaim
  obtain ⟨c, hc, hanswers⟩ := exists_scene .free lookedUpLate
    [some spentAssertion, none, none, some spentAssertion] (by decide +kernel)
  have honce : (c.history.map accepted).Pairwise fun later earlier ↦ ∀ slot expiresAt,
      earlier = some (slot, expiresAt) → later ≠ some (slot, expiresAt) :=
    List.pairwise_map.mpr (hclaim idleWork oneAssertion registered c (fun _ ↦ rfl) hc)
  rw [hanswers] at honce
  exact (List.pairwise_cons.mp honce).1 _ (by simp) _ _ rfl rfl

end Odudu.ProtocolOidc.ClientAssertion
