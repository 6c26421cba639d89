import Odudu.Outbox.MailLeases
import Odudu.Outbox.LogoutAttempts

/-!
# One sender at a time

Both queues hand a row to one sender at a time, over every run: the mail queue as long as no
row is claimed from a pass that began a lease ago and still holds it, the logout queue as long
as no visit is rolled back after it handed a delivery over.  However long the passes take, no
message is sent more often than it may be, and what was sent stays as it is.
-/

set_option autoImplicit false

namespace Odudu.Outbox

/-- One sender at a time, and what was sent or delivered stays as it is. -/
theorem one_sender_at_a_time {options : SendPending.SendPendingOptions}
    {s₀ s : SendPending.State} {logoutOptions : SendLogouts.LogoutSenderOptions}
    {t₀ t : SendLogouts.State} (hmail : SendPending.Start s₀)
    (hpasses : SendPending.Reaches options SendPending.InLease s₀ s)
    (hlogouts : SendLogouts.Start t₀)
    (hvisits : SendLogouts.Reaches logoutOptions SendLogouts.KeepsAttempts t₀ t) :
    (OneSender options.maxAttempts (fun _ ↦ s.rows) s.handed (SendPending.Holds s) ∧
      ∀ l s', SendPending.step options s l = some s' → s.rows.Settled s'.rows) ∧
    (OneSender SendLogouts.backchannelLogoutMaxAttempts t.view t.handed (SendLogouts.Holds t) ∧
      ∀ l t', SendLogouts.step logoutOptions t l = some t' → t.rows.Settled t'.rows) ∧
    ∀ r, SendPending.Reaches options (fun _ _ ↦ True) s₀ r →
      (∀ id, (r.handed.filter fun m ↦ m.id = id).length ≤ options.maxAttempts) ∧
      ∀ l r', SendPending.step options r l = some r' → r.rows.Settled r'.rows := by
  refine ⟨⟨hpasses.oneSender hmail, fun l s' hstep ↦ ?_⟩,
    ⟨hvisits.oneSender hlogouts, fun l t' hstep ↦ ?_⟩,
    fun r hany ↦ ⟨hany.attempts_le hmail, fun l r' hstep ↦ ?_⟩⟩
  · exact SendPending.settled_of_step (hpasses.inPlace hmail) hstep
  · exact (hvisits.locked hlogouts).settled (SendLogouts.act_of_step hstep)
  · exact SendPending.settled_of_step (hany.inPlace hmail) hstep

def fiveAttempts : SendPending.SendPendingOptions := ⟨2, 5, 30⟩

def noMail : SendPending.State := ⟨0, fun _ ↦ none, fun _ ↦ none, []⟩

def noLogouts : SendLogouts.State := ⟨0, fun _ ↦ none, fun _ ↦ none, fun _ ↦ none, []⟩

theorem inLease_of_early {s : SendPending.State} {l : SendPending.Label} (hclock : s.clock = 0) :
    SendPending.InLease s l := by
  cases l with
  | claimBatch =>
    intro _ p _ _ _ _
    rw [hclock, SendPending.outboxClaimLeaseSeconds]
    omega
  | _ => trivial

/-- Two passes that keep within their leases, beside one another: the first has sent its message
while the second holds another. -/
theorem noMail_reaches : ∃ s, SendPending.Reaches fiveAttempts SendPending.InLease noMail s ∧
    s.handed = [⟨"reset", 1⟩] ∧ SendPending.Holds s 2 ⟨"welcome", 1⟩ := by
  obtain ⟨s₁, s₂, s₃, s₄, hbegin, hclaim, hclock₁, hclaim', hclock₂, hsend, hhanded, hholds⟩ :
      ∃ s₁ s₂ s₃ s₄, SendPending.run fiveAttempts noMail
          [.enqueue "reset" "acme" 0, .enqueue "welcome" "acme" 0, .sendPending 1,
            .sendPending 2] = some s₁ ∧
        SendPending.step fiveAttempts s₁ (.claimBatch 1 "acme" ["reset"]) = some s₂ ∧
        s₁.clock = 0 ∧
        SendPending.step fiveAttempts s₂ (.claimBatch 2 "acme" ["welcome"]) = some s₃ ∧
        s₂.clock = 0 ∧
        SendPending.run fiveAttempts s₃ [.resolveSender 2 true, .resolveSender 1 true,
          .send 1 none] = some s₄ ∧
        s₄.handed = [⟨"reset", 1⟩] ∧ SendPending.Holds s₄ 2 ⟨"welcome", 1⟩ :=
    ⟨_, _, _, _, rfl, rfl, rfl, rfl, rfl, rfl, rfl, _, rfl, by decide⟩
  refine ⟨s₄, ?_, hhanded, hholds⟩
  exact (SendPending.reaches_of_run (by simp [SendPending.InLease]) hbegin).trans
    (.head ⟨_, inLease_of_early hclock₁, hclaim⟩ (.head ⟨_, inLease_of_early hclock₂, hclaim'⟩
      (SendPending.reaches_of_run (by simp [SendPending.InLease]) hsend)))

theorem noLogouts_reaches : ∃ t, SendLogouts.Reaches ⟨10, 60⟩ SendLogouts.KeepsAttempts
    noLogouts t ∧ t.handed = [⟨"portal", 1⟩] := by
  obtain ⟨t, ht, hhanded⟩ : ∃ t, SendLogouts.run ⟨10, 60⟩ noLogouts
      [.enqueue "portal" "acme" 0, .claimDue 1 0 "acme" ["portal"],
        .transport 1 (.response 200)] = some t ∧ t.handed = [⟨"portal", 1⟩] :=
    ⟨_, rfl, rfl⟩
  exact ⟨t, SendLogouts.reaches_of_run (by simp [SendLogouts.KeepsAttempts]) ht, hhanded⟩

/-- Runs that keep within the leases and undo nothing, and hand rows over. -/
theorem one_sender_at_a_time_delivers :
    (∃ s : SendPending.State, s.handed = [⟨"reset", 1⟩] ∧
      SendPending.Holds s 2 ⟨"welcome", 1⟩ ∧
      OneSender fiveAttempts.maxAttempts (fun _ ↦ s.rows) s.handed (SendPending.Holds s)) ∧
    ∃ t : SendLogouts.State, t.handed = [⟨"portal", 1⟩] ∧
      OneSender SendLogouts.backchannelLogoutMaxAttempts t.view t.handed
        (SendLogouts.Holds t) := by
  obtain ⟨s, hpasses, hmail, hholds⟩ := noMail_reaches
  obtain ⟨t, hvisits, hlogout⟩ := noLogouts_reaches
  obtain ⟨⟨hs, -⟩, ⟨ht, -⟩, -⟩ :=
    one_sender_at_a_time ⟨rfl, rfl, rfl⟩ hpasses ⟨rfl, rfl, rfl, rfl⟩ hvisits
  exact ⟨⟨s, hmail, hholds, hs⟩, ⟨t, hlogout, ht⟩⟩

namespace Overrun

/-- A pass that takes its time over other tenants, and claims two messages. -/
def claimed : List SendPending.Label :=
  [.enqueue "welcome" "acme" 0, .enqueue "reset" "acme" 0, .sendPending 1, .tick 200000,
    .claimBatch 1 "acme" ["welcome", "reset"]]

/-- Its first message takes long, and another pass claims the second. -/
def claimedAgain : List SendPending.Label :=
  [.resolveSender 1 true, .send 1 none, .tick 100000, .sendPending 2,
    .claimBatch 2 "acme" ["reset"], .resolveSender 2 true]

/-- The transport refuses the second message to the first pass. -/
def refused : List SendPending.Label :=
  [.send 2 none, .write 1 true, .send 1 (some "greylisted")]

/-- A visit that delivers, and is rolled back. -/
def undone (n : ℕ) : List SendLogouts.Label :=
  [.claimDue n 0 "acme" ["portal"], .transport n (.response 200), .rollback n]

end Overrun

open Overrun in
/-- A row is handed over 100 s after another pass claimed it, which still holds it; that pass
then marks it as failed, although it was claimed since.  A delivery is handed over six times. -/
theorem two_senders :
    (∃ s₁ s₂ s₃ s₄ : SendPending.State,
      SendPending.run fiveAttempts noMail claimed = some s₁ ∧
      s₁.clock = 200000 ∧ SendPending.Holds s₁ 1 ⟨"reset", 1⟩ ∧
      SendPending.run fiveAttempts s₁ claimedAgain = some s₂ ∧
      s₂.clock < 200000 + SendPending.outboxClaimLeaseSeconds * 1000 ∧
      SendPending.Holds s₂ 1 ⟨"reset", 1⟩ ∧
      (∃ s, SendPending.step fiveAttempts s₂ (.send 2 none) = some s ∧
        s.handed.head? = some ⟨"reset", 2⟩) ∧
      SendPending.run fiveAttempts s₂ refused = some s₃ ∧
      s₃.rows "reset" = some ⟨"acme", 600000, none, 2, none⟩ ∧
      SendPending.step fiveAttempts s₃ (.write 1 true) = some s₄ ∧
      s₄.rows "reset" = some ⟨"acme", 30000, none, 2, some "greylisted"⟩) ∧
    ∃ s : SendLogouts.State,
      SendLogouts.run ⟨10, 60⟩ noLogouts
        (.enqueue "portal" "acme" 0 :: [1, 2, 3, 4, 5, 6].flatMap undone) = some s ∧
      (s.handed.filter fun m ↦ m.id = "portal").length =
        SendLogouts.backchannelLogoutMaxAttempts + 1 := by
  constructor
  · exact ⟨_, _, _, _, rfl, rfl, ⟨_, rfl, by decide⟩, rfl, by decide, ⟨_, rfl, by decide⟩,
      ⟨_, rfl, rfl⟩, rfl, rfl, rfl, rfl⟩
  · exact ⟨_, rfl, rfl⟩

end Odudu.Outbox
