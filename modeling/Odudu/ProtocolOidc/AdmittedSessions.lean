import Odudu.ProtocolOidc.NamedSubject
import Mathlib.Data.List.Perm.Subperm

/-!
# The sessions of a browser after a login

`Door.answerLogin` is `completeAuthorizedLogin` to its end: once the login is completed the
sessions that the cookies prove are read again, and joined with the login's own to the two
lists that go back as cookies.  `chooseEvictions` gives up the least recently active of the
live sessions (`least_of_mem_chooseEvictions`), and no more than make room.

`wp_answerLogin` is about any entries and any rows, while others leave the sessions that the
entries name to the login: those live at the admission make room under the cap, and the
cookies hold the ones that were not evicted and the new one, each once, each where its row
has it.
-/

set_option autoImplicit false

namespace Odudu.ProtocolOidc

open ReadCommitted Program AuthnFlows

/-- The entries that go back in the two cookies. -/
structure SessionCookies where
  ephemeralSessions : List SessionEntry
  persistentSessions : List SessionEntry
  deriving DecidableEq

/-- The cookie of the sessions that are remembered, or of those that are not. -/
def SessionCookies.bucket (cookies : SessionCookies) (remembered : Bool) : List SessionEntry :=
  if remembered then cookies.persistentSessions else cookies.ephemeralSessions

/-- What a login is answered. -/
inductive LoginAnswer where
  /-- A code, the session it is on, and the browser's sessions. -/
  | redirect (sessionId : SessionId) (codeHash : TokenHash) (cookies : SessionCookies)
  | other (outcome : DoorOutcome)
  deriving DecidableEq

/-- The entry that a presented session was proved with. -/
def entryOf (session : SessionId × Session) : Option SessionEntry :=
  session.2.secretHash.map fun secretHash ↦ ⟨session.1, secretHash⟩

namespace Door

variable (d : Door)

/-- The entry issued for a session that was established. -/
def issued (pending : PendingRequest) : Option SessionEntry :=
  match reuseSession pending with
  | some _ => none
  | none => some ⟨d.newSessionId, d.newSecretHash⟩

/-- The browser's sessions other than the login's own. -/
def survivors (sessionId : SessionId) (existing : List (SessionId × Session)) :
    List (SessionId × Session) :=
  existing.filter fun session ↦ decide (session.1 ≠ sessionId)

/-- The login's own session, where its cookies had it. -/
def reused (sessionId : SessionId) (existing : List (SessionId × Session)) :
    Option (SessionId × Session) :=
  existing.find? fun session ↦ decide (session.1 = sessionId)

/-- The login's own entry: the one issued, or the one the session was proved with. -/
def own (issued : Option SessionEntry) (sessionId : SessionId)
    (existing : List (SessionId × Session)) : Option SessionEntry :=
  issued.or ((reused sessionId existing).bind entryOf)

/-- Whether the login's own session is remembered. -/
def ownRemembered (issued : Option SessionEntry) (sessionId : SessionId)
    (existing : List (SessionId × Session)) : Bool :=
  if issued.isNone then
    ((reused sessionId existing).map fun session ↦ session.2.remembered).getD false
  else d.remembered

/-- The browser's other live sessions joined with this one, split by the cookie each belongs
to. -/
def sessionCookies (issued : Option SessionEntry) (sessionId : SessionId)
    (existing : List (SessionId × Session)) : SessionCookies :=
  let remembered := d.ownRemembered issued sessionId existing
  let joined := (own issued sessionId existing).toList
  let bucket (flag : Bool) :=
    ((survivors sessionId existing).filter fun session ↦
      decide (session.2.remembered = flag)).filterMap entryOf
  { ephemeralSessions := if remembered then bucket false else bucket false ++ joined
    persistentSessions := if remembered then bucket true ++ joined else bucket true }

/-- `completeAuthorizedLogin` to its end. -/
def answerLogin (id : AuthSessionId) (pending : PendingRequest) (subjectId : SubjectId)
    (authenticators : List AuthenticatorName) : Tx LoginAnswer := do
  let outcome ← d.completeAuthorizedLogin id pending subjectId authenticators
  match outcome with
  | .redirect sessionId codeHash => do
    let existing ← resolveSessions d.entries d.seen.lifespans
    endTransaction
    pure (.redirect sessionId codeHash (d.sessionCookies (d.issued pending) sessionId existing))
  | outcome => pure (.other outcome)

end Door

section Evictions

variable {live : List (SessionId × Session)} {cap : ℕ}

/-- The sessions by when they were last active, the least recent first. -/
def byActivity (live : List (SessionId × Session)) : List (SessionId × Session) :=
  live.mergeSort fun a b ↦ decide (a.2.lastActiveAt ≤ b.2.lastActiveAt)

theorem chooseEvictions_eq :
    chooseEvictions live cap = ((byActivity live).take (live.length + 1 - cap)).map Prod.fst :=
  rfl

theorem byActivity_perm : (byActivity live).Perm live := List.mergeSort_perm live _

theorem pairwise_byActivity :
    (byActivity live).Pairwise fun a b ↦ a.2.lastActiveAt ≤ b.2.lastActiveAt := by
  refine (List.pairwise_mergeSort ?_ ?_ live).imp fun h ↦ of_decide_eq_true h
  · intro a b c hab hbc
    exact decide_eq_true (Nat.le_trans (of_decide_eq_true hab) (of_decide_eq_true hbc))
  · intro a b
    simpa using Nat.le_total a.2.lastActiveAt b.2.lastActiveAt

theorem mem_of_mem_chooseEvictions {id : SessionId} (h : id ∈ chooseEvictions live cap) :
    ∃ row, (id, row) ∈ live := by
  obtain ⟨⟨id, row⟩, hmem, rfl⟩ := List.mem_map.mp h
  exact ⟨row, byActivity_perm.mem_iff.mp (List.mem_of_mem_take hmem)⟩

theorem length_chooseEvictions (hcap : 1 ≤ cap) :
    (chooseEvictions live cap).length = live.length + 1 - cap := by
  rw [chooseEvictions_eq, List.length_map, List.length_take, byActivity_perm.length_eq]
  omega

theorem nodup_chooseEvictions (hnodup : (live.map Prod.fst).Nodup) :
    (chooseEvictions live cap).Nodup := by
  rw [chooseEvictions_eq, List.map_take]
  exact ((byActivity_perm.map Prod.fst).nodup_iff.mpr hnodup).sublist (List.take_sublist _ _)

/-- No session is kept that was less recently active than an evicted one. -/
theorem least_of_mem_chooseEvictions (hnodup : (live.map Prod.fst).Nodup)
    {evicted kept : SessionId × Session} (hevicted : evicted ∈ live) (hkept : kept ∈ live)
    (hin : evicted.1 ∈ chooseEvictions live cap) (hout : kept.1 ∉ chooseEvictions live cap) :
    evicted.2.lastActiveAt ≤ kept.2.lastActiveAt := by
  have hsplit := List.take_append_drop (live.length + 1 - cap) (byActivity live)
  have htake : evicted ∈ (byActivity live).take (live.length + 1 - cap) := by
    obtain ⟨evicted', hmem, hid⟩ := List.mem_map.mp (chooseEvictions_eq ▸ hin)
    have hlive := byActivity_perm.mem_iff.mp (List.mem_of_mem_take hmem)
    exact List.inj_on_of_nodup_map hnodup hlive hevicted hid ▸ hmem
  have hdrop : kept ∈ (byActivity live).drop (live.length + 1 - cap) := by
    have hmem : kept ∈ byActivity live := byActivity_perm.mem_iff.mpr hkept
    rw [← hsplit] at hmem
    refine (List.mem_append.mp hmem).resolve_left fun htaken ↦ hout ?_
    exact List.mem_map_of_mem htaken
  have hsorted := @pairwise_byActivity live
  rw [← hsplit] at hsorted
  exact (List.pairwise_append.mp hsorted).2.2 evicted htake kept hdrop

end Evictions

section Resolved

variable {F F' : SessionId → Option Session} {entries : List SessionEntry}
  {lifespans : SessionLifespans} {now later : Time} {live existing : List (SessionId × Session)}

/-- The list is the live sessions that the entries prove, each once. -/
structure Resolves (F : SessionId → Option Session) (entries : List SessionEntry)
    (lifespans : SessionLifespans) (now : Time) (live : List (SessionId × Session)) : Prop where
  nodup : (live.map Prod.fst).Nodup
  mem_iff : ∀ id row, (id, row) ∈ live ↔ F id = some row ∧
    (∃ entry ∈ entries, entry.id = id ∧ row.secretHash = some entry.secretHash) ∧
      stillLive row lifespans now = true

theorem nodup_eraseDups (ids : List SessionId) : ids.eraseDups.Nodup := by
  induction hn : ids.length using Nat.strongRecOn generalizing ids with
  | ind n ih =>
    cases ids with
    | nil => simp
    | cons id ids =>
      rw [List.eraseDups_cons, List.nodup_cons]
      constructor
      · simp
      · refine ih _ ?_ _ rfl
        have hle := List.length_filter_le (fun id' ↦ !id' == id) ids
        simp only [List.length_cons] at hn
        omega

/-- A session is found under its own id. -/
theorem mem_liveByEntries_iff {s : Rows} {id : SessionId} {row : Session} :
    (id, row) ∈ Op.liveByEntries entries lifespans now s ↔ s.session id = some row ∧
      (∃ entry ∈ entries, entry.id = id ∧ row.secretHash = some entry.secretHash) ∧
        stillLive row lifespans now = true := by
  constructor
  · intro h
    have hrow := Op.mem_liveByEntries h
    obtain ⟨id', -, hfound⟩ := List.mem_filterMap.mp h
    cases hrow' : s.session id' with
    | none => simp [hrow'] at hfound
    | some =>
      simp only [hrow'] at hfound
      split at hfound
      case isTrue hproved =>
        obtain ⟨rfl, rfl⟩ := Prod.mk.inj (Option.some.inj hfound)
        obtain ⟨hany, hlive⟩ := Bool.and_eq_true_iff.mp hproved
        exact ⟨hrow, by simpa using hany, hlive⟩
      case isFalse => simp at hfound
  · intro ⟨hrow, ⟨entry, hentry, hid, hsecret⟩, hlive⟩
    refine List.mem_filterMap.mpr ⟨id, List.mem_eraseDups.mpr ?_, ?_⟩
    · exact List.mem_map.mpr ⟨entry, hentry, hid⟩
    · have hproved : ∃ entry ∈ entries, entry.id = id ∧ row.secretHash = some entry.secretHash :=
        ⟨entry, hentry, hid, hsecret⟩
      simpa [hrow, hlive] using hproved

/-- What is found under its own key is found once. -/
theorem nodup_fst_filterMap {α β : Type} {keys : List α} {find : α → Option (α × β)}
    (hown : ∀ key found, find key = some found → found.1 = key) (hkeys : keys.Nodup) :
    ((keys.filterMap find).map Prod.fst).Nodup := by
  rw [List.map_filterMap]
  refine hkeys.filterMap fun key key' first hfirst hfirst' ↦ ?_
  obtain ⟨found, hfound, rfl⟩ := Option.map_eq_some_iff.mp hfirst
  obtain ⟨found', hfound', heq⟩ := Option.map_eq_some_iff.mp hfirst'
  exact (hown key found hfound).symm.trans (heq.symm.trans (hown key' found' hfound'))

theorem nodup_liveByEntries (s : Rows) :
    ((Op.liveByEntries entries lifespans now s).map Prod.fst).Nodup := by
  refine nodup_fst_filterMap (fun id found hfound ↦ ?_) (nodup_eraseDups _)
  cases hrow : s.session id with
  | none => simp [hrow] at hfound
  | some =>
    simp only [hrow] at hfound
    split at hfound
    case isTrue => exact (congrArg Prod.fst (Option.some.inj hfound)).symm
    case isFalse => simp at hfound

theorem resolves_of_answers {s : Rows} (h : live.Perm (Op.liveByEntries entries lifespans now s)) :
    Resolves s.session entries lifespans now live where
  nodup := (h.map Prod.fst).nodup_iff.mpr (nodup_liveByEntries s)
  mem_iff _ _ := h.mem_iff.trans mem_liveByEntries_iff

/-- A session that is live was live before. -/
theorem stillLive_of_le {row : Session} (hle : now ≤ later)
    (h : stillLive row lifespans later = true) : stillLive row lifespans now = true := by
  unfold stillLive at h ⊢
  cases hsecret : row.secretHash with
  | none => simp [hsecret] at h
  | some =>
    simp only [hsecret, isSessionLive] at h ⊢
    by_cases hdead : row.expiresAt ≤ later
    · simp [hdead] at h
    · have hidle : later < row.lastActiveAt + (lifespanFor lifespans row.remembered).1 := by
        simpa [hdead] using h
      have halive : ¬row.expiresAt ≤ now := fun h ↦ hdead (Nat.le_trans h hle)
      simpa [halive] using Nat.lt_of_le_of_lt hle hidle

/-- What the entries of sessions found live prove later was among these. -/
theorem Resolves.of_entriesOf (h : Resolves F entries lifespans now live) (hle : now ≤ later)
    (hlater : Resolves F (live.filterMap entryOf) lifespans later existing) :
    Resolves F entries lifespans later existing where
  nodup := hlater.nodup
  mem_iff id row := by
    refine (hlater.mem_iff id row).trans (and_congr_right fun hrow ↦ and_congr_left fun hlive ↦ ?_)
    constructor
    · intro ⟨entry, hentry, hid, hsecret⟩
      obtain ⟨⟨id', row'⟩, hmem, hentry⟩ := List.mem_filterMap.mp hentry
      obtain ⟨hash, hhash, rfl⟩ := Option.map_eq_some_iff.mp hentry
      obtain rfl : id' = id := hid
      obtain ⟨hrow', hproved, -⟩ := (h.mem_iff id' row').mp hmem
      obtain rfl := Option.some.inj (hrow.symm.trans hrow')
      exact hproved
    · intro hproved
      have hmem := (h.mem_iff id row).mpr ⟨hrow, hproved, stillLive_of_le hle hlive⟩
      obtain ⟨entry, -, hid, hsecret⟩ := hproved
      refine ⟨entry, List.mem_filterMap.mpr ⟨(id, row), hmem, ?_⟩, hid, hsecret⟩
      simp [entryOf, hsecret, ← hid]

theorem Resolves.congr (h : Resolves F entries lifespans now live)
    (hsame : ∀ entry ∈ entries, F' entry.id = F entry.id) :
    Resolves F' entries lifespans now live where
  nodup := h.nodup
  mem_iff id row := by
    refine (h.mem_iff id row).trans (and_congr_left fun ⟨⟨entry, hentry, hid, _⟩, _⟩ ↦ ?_)
    rw [← hid, hsame entry hentry]

end Resolved

section Cookies

variable {d : Door} {issued : Option SessionEntry} {sessionId : SessionId}
  {existing : List (SessionId × Session)} {entry : SessionEntry}

theorem entryOf_eq_some {session : SessionId × Session} :
    entryOf session = some entry ↔
      session.1 = entry.id ∧ session.2.secretHash = some entry.secretHash := by
  obtain ⟨id, hash⟩ := entry
  rw [entryOf, Option.map_eq_some_iff]
  constructor
  · intro ⟨hash', hhash, heq⟩
    obtain ⟨rfl, rfl⟩ := SessionEntry.mk.inj heq
    exact ⟨rfl, hhash⟩
  · intro ⟨hid, hhash⟩
    exact ⟨hash, hhash, by rw [hid]⟩

/-- The entries of sessions are under their ids, in order. -/
theorem sublist_entries (sessions : List (SessionId × Session)) :
    ((sessions.filterMap entryOf).map SessionEntry.id).Sublist (sessions.map Prod.fst) := by
  induction sessions with
  | nil => exact List.Sublist.slnil
  | cons session _ ih =>
    cases hentry : entryOf session with
    | none =>
      rw [List.filterMap_cons_none hentry]
      exact ih.cons _
    | some =>
      rw [List.filterMap_cons_some hentry, List.map_cons, List.map_cons,
        (entryOf_eq_some.mp hentry).1]
      exact ih.cons_cons _

theorem bucket_sessionCookies (remembered : Bool) :
    (d.sessionCookies issued sessionId existing).bucket remembered =
      ((Door.survivors sessionId existing).filter fun session ↦
          decide (session.2.remembered = remembered)).filterMap entryOf ++
        if d.ownRemembered issued sessionId existing = remembered then
          (Door.own issued sessionId existing).toList else [] := by
  cases remembered <;> cases hown : d.ownRemembered issued sessionId existing <;>
    simp [Door.sessionCookies, SessionCookies.bucket, hown]

/-- An entry of a cookie is another session's or the login's own. -/
theorem mem_bucket_iff {remembered : Bool} :
    entry ∈ (d.sessionCookies issued sessionId existing).bucket remembered ↔
      (∃ row, (entry.id, row) ∈ existing ∧ entry.id ≠ sessionId ∧
        row.secretHash = some entry.secretHash ∧ row.remembered = remembered) ∨
      Door.own issued sessionId existing = some entry ∧
        d.ownRemembered issued sessionId existing = remembered := by
  rw [bucket_sessionCookies, List.mem_append, List.mem_filterMap]
  refine or_congr ?_ ?_
  · constructor
    · intro ⟨⟨id, row⟩, hmem, hentry⟩
      obtain ⟨rfl, hsecret⟩ := entryOf_eq_some.mp hentry
      simp only [Door.survivors, List.mem_filter, decide_eq_true_eq] at hmem
      exact ⟨row, hmem.1.1, hmem.1.2, hsecret, hmem.2⟩
    · intro ⟨row, hmem, hne, hsecret, hremembered⟩
      refine ⟨(entry.id, row), ?_, entryOf_eq_some.mpr ⟨rfl, hsecret⟩⟩
      simp only [Door.survivors, List.mem_filter, decide_eq_true_eq]
      exact ⟨⟨hmem, hne⟩, hremembered⟩
  · by_cases hown : d.ownRemembered issued sessionId existing = remembered
    · simp [hown]
    · simp [hown]

/-- The two cookies together are the other sessions' entries and the login's own. -/
theorem cookies_perm :
    ((d.sessionCookies issued sessionId existing).ephemeralSessions ++
      (d.sessionCookies issued sessionId existing).persistentSessions).Perm
      ((Door.own issued sessionId existing).toList ++
        (Door.survivors sessionId existing).filterMap entryOf) := by
  have hsplit := List.filter_append_perm (fun session : SessionId × Session ↦
    decide (session.2.remembered = false)) (Door.survivors sessionId existing)
  have hentries := hsplit.filterMap entryOf
  rw [List.filterMap_append] at hentries
  have hnot : (fun session : SessionId × Session ↦ !decide (session.2.remembered = false)) =
      fun session ↦ decide (session.2.remembered = true) := by
    funext session
    cases session.2.remembered <;> rfl
  rw [hnot] at hentries
  have hephemeral : (d.sessionCookies issued sessionId existing).ephemeralSessions = _ :=
    bucket_sessionCookies false
  have hpersistent : (d.sessionCookies issued sessionId existing).persistentSessions = _ :=
    bucket_sessionCookies true
  rw [hephemeral, hpersistent]
  refine List.Perm.trans ?_ (hentries.append_left _)
  cases d.ownRemembered issued sessionId existing
  · simp only [if_true, Bool.false_eq_true, if_false, List.append_nil, List.append_assoc]
    exact List.perm_append_comm_assoc _ _ _
  · simp only [Bool.true_eq_false, if_true, if_false, List.append_nil]
    rw [← List.append_assoc]
    exact List.perm_append_comm

theorem id_of_reused
    (h : (Door.reused sessionId existing).bind entryOf = some entry) : entry.id = sessionId := by
  obtain ⟨session, hfound, hentry⟩ := Option.bind_eq_some_iff.mp h
  have hid : session.1 = sessionId := by simpa using List.find?_some hfound
  exact (entryOf_eq_some.mp hentry).1.symm.trans hid

/-- No two entries of the cookies name one session. -/
theorem nodup_cookies (hnodup : (existing.map Prod.fst).Nodup)
    (hown : ∀ entry, Door.own issued sessionId existing = some entry → entry.id = sessionId) :
    (((d.sessionCookies issued sessionId existing).ephemeralSessions ++
      (d.sessionCookies issued sessionId existing).persistentSessions).map
        SessionEntry.id).Nodup := by
  rw [(cookies_perm.map SessionEntry.id).nodup_iff, List.map_append, List.nodup_append]
  have hsurvivors : ((Door.survivors sessionId existing).map Prod.fst).Nodup :=
    hnodup.sublist (List.filter_sublist.map Prod.fst)
  refine ⟨?_, hsurvivors.sublist (sublist_entries _), ?_⟩
  · cases Door.own issued sessionId existing <;> simp
  · intro id hid id' hid' heq
    obtain ⟨entry, hentry, rfl⟩ := List.mem_map.mp hid
    obtain ⟨⟨id'', row⟩, hmem, hid''⟩ := List.mem_map.mp ((sublist_entries _).subset hid')
    simp only [Door.survivors, List.mem_filter, decide_eq_true_eq] at hmem
    refine hmem.2 (hid''.trans (heq.symm.trans (hown entry ?_)))
    simpa using hentry

theorem length_cookies_le :
    ((d.sessionCookies issued sessionId existing).ephemeralSessions ++
      (d.sessionCookies issued sessionId existing).persistentSessions).length ≤
      1 + (Door.survivors sessionId existing).length := by
  rw [cookies_perm.length_eq, List.length_append]
  have hown : (Door.own issued sessionId existing).toList.length ≤ 1 := by
    cases Door.own issued sessionId existing <;> simp
  have hothers := List.length_filterMap_le entryOf (Door.survivors sessionId existing)
  omega

end Cookies

section Undisturbed

variable {named : SessionId → Prop} {F : SessionId → Option Session} {since : Time}
  {w : Writes database} {s : Rows} {α : Type} {post : α → Writes database → Rows → Prop}

/-- Others do as they like, but leave the sessions named to the login; time passes. -/
def undisturbed (named : SessionId → Prop) : Rules database Failure where
  rely := fun _ (s s' : Rows) ↦ s.clock ≤ s'.clock ∧
    ∀ id, named id → s'.session id = s.session id
  mayRun := fun _ _ ↦ True
  mayCommit := fun _ _ ↦ True
  owesCommit := fun _ _ ↦ True
  owesThrow := fun _ _ ↦ True

/-- The rows of the sessions named as the login sees them, which has not moved the clock. -/
structure Sees (named : SessionId → Prop) (F : SessionId → Option Session) (since : Time)
    (w : Writes database) (s : Rows) : Prop where
  sessions : ∀ id, named id → (s.after w).session id = F id
  since : since ≤ (s.after w).clock
  unmoved : w ⟨.clock, 0⟩ = none

theorem Sees.of_rely {s' : Rows} (h : Sees named F since w s)
    (hclock : s.clock ≤ s'.clock) (hsame : ∀ id, named id → s'.session id = s.session id) :
    Sees named F since w s' where
  sessions := by
    intro id hid
    rw [← h.sessions id hid]
    exact congrArg (w ⟨.sessions, id⟩).getD (hsame id hid)
  since := by
    have hshown : ∀ s : Rows, (s.after w).clock = s.clock := fun s ↦ by
      rw [Rows.clock, Rows.after_of_none h.unmoved]
      rfl
    rw [hshown s']
    exact Nat.le_trans (hshown s ▸ h.since) hclock
  unmoved := h.unmoved

/-- The rule of a statement that does not move the clock. -/
theorem Sees.wp_query {op : Op} (h : Sees named F since w s)
    (hclock : ∀ v, op.effect v ⟨.clock, 0⟩ = none) {f : op.Answer → Tx α}
    (hnext : ∀ (v : Rows) a w' s', (∀ id, named id → v.session id = F id) → since ≤ v.clock →
      op.Answers v a → Sees named (v.after (op.effect v)).session v.clock w' s' →
      (f a).wp (undisturbed named) w' s' post) :
    (query op >>= f).wp (undisturbed named) w s post := by
  rw [wp_bind]
  intro (s' : Rows) a ⟨hle, hsame⟩ _ ha
  have h' := h.of_rely hle hsame
  have hseen : s'.after (w.andThen (op.effect (s'.after w))) =
      (s'.after w).after (op.effect (s'.after w)) := Writes.andThen_laidOver _ _ _
  refine hnext (s'.after w) a _ s' h'.sessions h'.since ha ⟨?_, ?_, ?_⟩
  · intro id _
    rw [hseen]
  · refine Nat.le_of_eq ?_
    rw [hseen, Rows.clock, Rows.clock, Rows.after_of_none (hclock _)]
  · exact (Writes.andThen_of_none (hclock _)).trans h.unmoved

/-- The rule of a statement that leaves sessions and the clock as they are. -/
theorem Sees.wp_still {op : Op} (h : Sees named F since w s)
    (hclock : ∀ v, op.effect v ⟨.clock, 0⟩ = none)
    (hsession : ∀ v id, op.effect v ⟨.sessions, id⟩ = none) {f : op.Answer → Tx α}
    (hnext : ∀ (v : Rows) a w' s', (∀ id, named id → v.session id = F id) → since ≤ v.clock →
      op.Answers v a → Sees named F v.clock w' s' → (f a).wp (undisturbed named) w' s' post) :
    (query op >>= f).wp (undisturbed named) w s post := by
  refine h.wp_query hclock fun v a w' s' hsame hle ha h' ↦ hnext v a w' s' hsame hle ha ?_
  refine ⟨fun id hid ↦ ?_, h'.since, h'.unmoved⟩
  rw [h'.sessions id hid, ← hsame id hid]
  exact Rows.after_of_none (hsession v id)

theorem Sees.wp_readClock (h : Sees named F since w s) {f : Time → Tx α}
    (hnext : ∀ now w' s', since ≤ now → Sees named F now w' s' →
      (f now).wp (undisturbed named) w' s' post) :
    (query .readClock >>= f).wp (undisturbed named) w s post := by
  refine h.wp_still (fun _ ↦ rfl) (fun _ _ ↦ rfl) fun v now w' s' _ hle hnow h' ↦ ?_
  obtain rfl := Option.some.inj hnow
  exact hnext v.clock w' s' hle h'

variable {f : List (SessionId × Session) → Tx α} {lifespans : SessionLifespans}
  {entries : List SessionEntry}

/-- The rule of the sessions that entries prove. -/
theorem Sees.wp_liveByEntries
    {now : Time} (hentries : ∀ entry ∈ entries, named entry.id) (h : Sees named F since w s)
    (hnext : ∀ live w' s', Resolves F entries lifespans now live → Sees named F since w' s' →
      (f live).wp (undisturbed named) w' s' post) :
    (query (.sessionLiveByEntries entries lifespans now) >>= f).wp (undisturbed named) w s
      post := by
  refine h.wp_still (fun _ ↦ rfl) (fun _ _ ↦ rfl) fun v live w' s' hsame hle hlive h' ↦ ?_
  refine hnext live w' s' ((resolves_of_answers hlive).congr fun entry hentry ↦ ?_) ?_
  · exact (hsame entry.id (hentries entry hentry)).symm
  · exact ⟨h'.sessions, Nat.le_trans hle h'.since, h'.unmoved⟩

/-- The rule of a transaction on the way. -/
theorem Sees.wp_endTransaction (h : Sees named F since w s) {f : Unit → Tx α}
    (hnext : ∀ s', Sees named F since Writes.nothing s' →
      (f ()).wp (undisturbed named) Writes.nothing s' post) :
    (endTransaction >>= f).wp (undisturbed named) w s post := by
  rw [wp_bind]
  intro s' ⟨hle, hsame⟩ _
  have h' := h.of_rely hle hsame
  exact ⟨trivial, hnext _ ⟨h'.sessions, h'.since, rfl⟩⟩

/-- The rule of a transaction of its own, whose error says nothing. -/
theorem wp_transaction_undisturbed {p : Tx α}
    {post : Except Failure α → Writes database → Rows → Prop}
    (herror : ∀ e s, post (.error e) Writes.nothing s)
    (h : p.wp (undisturbed named) w s fun a w' s' ↦ ∃ F since, Sees named F since w' s' ∧
      ∀ s'', Sees named F since Writes.nothing s'' → post (.ok a) Writes.nothing s'') :
    p.transaction.wp (undisturbed named) w s post := by
  rw [transaction, wp_bind]
  induction p generalizing w s with
  | done =>
    obtain ⟨F, since, hsees, hpost⟩ := h
    exact hsees.wp_endTransaction fun s' hsees' ↦ hpost s' hsees'
  | throw e =>
    intro s' _ _
    exact ⟨trivial, herror e _⟩
  | stmt _ _ ih => exact fun s' a hrely hrun ha ↦ ih a (h s' a hrely hrun ha)
  | commit _ ih => exact fun s' hrely hmay ↦ ⟨trivial, ih (h s' hrely hmay).2⟩
  | savepoint _ ih => exact ih _ h
  | rollbackTo _ _ ih => exact ih h

/-- The rule of what the cookies prove. -/
theorem Sees.wp_resolveSessions
    (hentries : ∀ entry ∈ entries, named entry.id) (h : Sees named F since w s)
    (hnext : ∀ now live w' s', since ≤ now → Resolves F entries lifespans now live →
      Sees named F now w' s' → (f live).wp (undisturbed named) w' s' post) :
    (resolveSessions entries lifespans >>= f).wp (undisturbed named) w s post := by
  rw [wp_bind]
  refine h.wp_readClock fun now w₁ s₁ hle h₁ ↦ ?_
  change (query _ >>= pure).wp _ _ _ _
  exact h₁.wp_liveByEntries hentries fun live w₂ s₂ hlive h₂ ↦ hnext now live w₂ s₂ hle hlive h₂

/-- The rule of a code issued. -/
theorem Sees.wp_issueAuthorizationCode {input : IssueAuthorizationCodeInput} {authTime now : Time}
    {sessionId : SessionId} (h : Sees named F since w s) {f : Unit → Tx α}
    (hnext : ∀ w' s', Sees named F since w' s' → (f ()).wp (undisturbed named) w' s' post) :
    (issueAuthorizationCode input authTime now sessionId >>= f).wp (undisturbed named) w s
      post := by
  rw [wp_bind]
  refine h.wp_still (fun _ ↦ rfl) (fun _ _ ↦ rfl) fun v created w₁ s₁ _ hle _ h₁ ↦ ?_
  cases created with
  | true => exact hnext w₁ s₁ ⟨h₁.sessions, Nat.le_trans hle h₁.since, h₁.unmoved⟩
  | false => exact fun _ _ ↦ trivial

end Undisturbed

section Admission

variable {named : SessionId → Prop} {F : SessionId → Option Session} {since : Time}
  {w : Writes database} {s : Rows} {α : Type} {post : α → Writes database → Rows → Prop}

/-- The sessions once one is admitted: it is there, and the evicted ones have ended. -/
def admitted (input : AdmitSessionInput) (live : List (SessionId × Session))
    (transactionStart admittedAt now : Time) (F : SessionId → Option Session) (id : SessionId) :
    Option Session :=
  if id = input.newSessionId then some (establishedSession input transactionStart now)
  else if id ∈ chooseEvictions live input.maxSessionsPerBrowser then
    (F id).map fun row ↦ { row with expiresAt := admittedAt }
  else F id

/-- What the admission of a session made of the sessions, from one instant to another. -/
structure Admits (input : AdmitSessionInput) (F F' : SessionId → Option Session)
    (since admittedAt now : Time) (live : List (SessionId × Session)) : Prop where
  since_le : since ≤ admittedAt
  le_now : admittedAt ≤ now
  resolves : Resolves F input.browserSessions input.lifespans admittedAt live
  free : F input.newSessionId = none
  sessions : ∃ transactionStart establishedAt,
    F' = admitted input live transactionStart admittedAt establishedAt F

theorem session_after_endMany {v : Rows} {ids : List SessionId} {now : Time} (id : SessionId) :
    (v.after (Op.effect (.sessionEndMany ids now) v)).session id =
      if id ∈ ids then (v.session id).map fun row ↦ { row with expiresAt := now }
      else v.session id := by
  cases hrow : v.session id with
  | none =>
    have hsame : (v.after (Op.effect (.sessionEndMany ids now) v)).session id = v.session id :=
      Rows.after_of_none (Layout.update_of_none (L := layout) hrow)
    simpa using hsame.trans hrow
  | some =>
    by_cases hin : id ∈ ids
    · rw [if_pos hin]
      exact Rows.after_of_some (Layout.update_of_wanted (L := layout) hrow (decide_eq_true hin))
    · rw [if_neg hin]
      exact (Rows.after_of_none (Layout.update_of_unwanted (L := layout) hrow
        (decide_eq_false hin))).trans hrow

theorem session_after_create {v : Rows} {new : SessionId} (row : Session)
    (hfree : v.session new = none) (id : SessionId) :
    (v.after (Op.effect (.sessionCreate new row) v)).session id =
      if id = new then some row else v.session id := by
  by_cases hid : id = new
  · subst hid
    rw [if_pos rfl]
    exact Rows.after_insert row hfree
  · rw [if_neg hid]
    exact Rows.after_of_none (Layout.insert_other (L := layout) hid)

/-- The rule of an admission. -/
theorem Sees.wp_admitSession {input : AdmitSessionInput} {transactionStart : Time}
    (hentries : ∀ entry ∈ input.browserSessions, named entry.id)
    (hnew : named input.newSessionId) (h : Sees named F since w s) {f : Unit → Tx α}
    (hnext : ∀ F' admittedAt now live w' s', Admits input F F' since admittedAt now live →
      Sees named F' now w' s' → (f ()).wp (undisturbed named) w' s' post) :
    (admitSession input transactionStart >>= f).wp (undisturbed named) w s post := by
  rw [wp_bind]
  refine h.wp_readClock fun admittedAt w₁ s₁ hle h₁ ↦ ?_
  refine h₁.wp_liveByEntries hentries fun live w₂ s₂ hlive h₂ ↦ ?_
  refine h₂.wp_query (fun _ ↦ rfl) fun v _ w₃ s₃ hv hle₃ _ h₃ ↦ ?_
  refine h₃.wp_readClock fun establishedAt w₄ s₄ hle₄ h₄ ↦ ?_
  refine h₄.wp_query (fun _ ↦ rfl) fun v' created w₅ s₅ hv' hle₅ hcreated h₅ ↦ ?_
  cases created with
  | false => exact fun _ _ ↦ trivial
  | true =>
    have hfree' : v'.session input.newSessionId = none := by
      simpa [Op.Answers, Op.answer] using hcreated
    have hended : ∀ id, named id → v'.session id =
        if id ∈ chooseEvictions live input.maxSessionsPerBrowser then
          (F id).map fun row ↦ { row with expiresAt := admittedAt }
        else F id := by
      intro id hid
      rw [hv' id hid, session_after_endMany, hv id hid]
    have hfree : F input.newSessionId = none := by
      have hnone := (hended _ hnew).symm.trans hfree'
      split_ifs at hnone
      · exact Option.map_eq_none_iff.mp hnone
      · exact hnone
    refine hnext (admitted input live transactionStart admittedAt establishedAt F) admittedAt
      v'.clock live w₅ s₅ ⟨hle, ?_, hlive, hfree, _, _, rfl⟩ ⟨?_, h₅.since, h₅.unmoved⟩
    · exact Nat.le_trans hle₃ (Nat.le_trans hle₄ hle₅)
    · intro id hid
      rw [h₅.sessions id hid, session_after_create _ hfree', hended id hid]
      rfl

/-- A login completed on a session: one it was admitted, or the one it goes on with. -/
structure Completes (input : CompleteLoginInput) (F F' : SessionId → Option Session)
    (since now : Time) (sessionId : SessionId) : Prop where
  established : input.reuseSession = none → sessionId = input.session.newSessionId ∧
    ∃ admittedAt live, Admits input.session F F' since admittedAt now live
  reused : ∀ id authTime, input.reuseSession = some (id, authTime) → sessionId = id

variable {input : CompleteLoginInput}

theorem Completes.of_le {F' : SessionId → Option Session}
    {since' now : Time} {sessionId : SessionId} (h : Completes input F F' since' now sessionId)
    (hle : since ≤ since') : Completes input F F' since now sessionId where
  established := by
    intro hnone
    obtain ⟨hid, admittedAt, live, hadmits⟩ := h.established hnone
    exact ⟨hid, admittedAt, live, { hadmits with since_le := Nat.le_trans hle hadmits.since_le }⟩
  reused := h.reused

/-- What `completeLogin` makes of the sessions, wherever it ends. -/
theorem Sees.wp_completeLogin
    (hentries : ∀ entry ∈ input.session.browserSessions, named entry.id)
    (hnew : named input.session.newSessionId) (h : Sees named F since w s) :
    (completeLogin input).wp (undisturbed named) w s fun outcome w' s' ↦
      ∃ F' now, Sees named F' now w' s' ∧ ∀ sessionId codeHash,
        outcome = .issued sessionId codeHash → Completes input F F' since now sessionId := by
  refine h.wp_readClock fun now w₁ s₁ hle₁ h₁ ↦ ?_
  refine h₁.wp_still (fun _ ↦ rfl) (fun _ _ ↦ rfl) fun v subject w₂ s₂ _ hle₂ _ h₂ ↦ ?_
  split
  case isTrue => exact ⟨F, v.clock, h₂, fun _ _ heq ↦ by cases heq⟩
  case isFalse =>
    refine h₂.wp_readClock fun consumedAt w₃ s₃ hle₃ h₃ ↦ ?_
    refine h₃.wp_still (fun _ ↦ rfl) (fun _ _ ↦ rfl) fun v' consumed w₄ s₄ _ hle₄ _ h₄ ↦ ?_
    have hle : since ≤ v'.clock :=
      Nat.le_trans hle₁ (Nat.le_trans hle₂ (Nat.le_trans hle₃ hle₄))
    split
    case isTrue => exact ⟨F, v'.clock, h₄, fun _ _ heq ↦ by cases heq⟩
    case isFalse =>
      cases hreuse : input.reuseSession with
      | some session =>
        obtain ⟨id, authTime⟩ := session
        refine h₄.wp_query (fun _ ↦ rfl) fun v₅ _ w₅ s₅ _ hle₅ _ h₅ ↦ ?_
        refine h₅.wp_issueAuthorizationCode fun w₆ s₆ h₆ ↦ ⟨_, _, h₆, ?_⟩
        intro sessionId codeHash heq
        obtain ⟨rfl, -⟩ := CompleteLoginOutcome.issued.inj heq
        refine ⟨fun hnone ↦ ?_, fun id' authTime' hsome ↦ ?_⟩
        · simp [hreuse] at hnone
        · exact congrArg Prod.fst (Option.some.inj (hreuse.symm.trans hsome))
      | none =>
        refine h₄.wp_admitSession hentries hnew fun F' admittedAt now' live w₅ s₅ hadmits h₅ ↦ ?_
        refine h₅.wp_issueAuthorizationCode fun w₆ s₆ h₆ ↦ ⟨_, _, h₆, ?_⟩
        intro sessionId codeHash heq
        obtain ⟨rfl, -⟩ := CompleteLoginOutcome.issued.inj heq
        refine Completes.of_le ⟨fun _ ↦ ⟨rfl, admittedAt, live, hadmits⟩, fun id' _ hsome ↦ ?_⟩ hle
        simp [hreuse] at hsome

end Admission

section Login

variable {d : Door}

/-- The sessions that a login names: those its cookies claim, and the one it may establish. -/
def Door.Names (d : Door) (id : SessionId) : Prop :=
  id = d.newSessionId ∨ ∃ entry ∈ d.entries, entry.id = id

/-- What a login that establishes a session makes of the browser's sessions, `before` and
`after` it: `live` are those its cookies proved at the instant of the admission. -/
structure Admission (d : Door) (before after : SessionId → Option Session)
    (admittedAt : Time) (live : List (SessionId × Session)) (evicted : List SessionId) :
    Prop where
  resolves : Resolves before d.entries d.seen.lifespans admittedAt live
  nodup : evicted.Nodup
  live_of_evicted : ∀ id ∈ evicted, ∃ row, (id, row) ∈ live
  /-- As many are evicted as one more session is over the cap. -/
  length_evicted : evicted.length = live.length + 1 - d.seen.maxSessionsPerBrowser
  /-- They are the least recently active. -/
  least : ∀ gone ∈ live, ∀ kept ∈ live, gone.1 ∈ evicted → kept.1 ∉ evicted →
    gone.2.lastActiveAt ≤ kept.2.lastActiveAt
  /-- The new session is new, and has the secret and the flag that the door gave it. -/
  established : before d.newSessionId = none ∧ ∃ row, after d.newSessionId = some row ∧
    row.secretHash = some d.newSecretHash ∧ row.remembered = d.remembered
  ended : ∀ id ∈ evicted, after id =
    (before id).map fun row ↦ { row with expiresAt := admittedAt }
  kept : ∀ id, id ≠ d.newSessionId → id ∉ evicted → after id = before id

/-- The cookies hold the sessions that were kept, live as they are when the cookies are
written, and the new one: each once, where its row has it. -/
structure CookiesOfAdmission (d : Door) (now : Time) (live : List (SessionId × Session))
    (evicted : List SessionId) (cookies : SessionCookies) : Prop where
  nodup : ((cookies.ephemeralSessions ++ cookies.persistentSessions).map SessionEntry.id).Nodup
  length_le : (cookies.ephemeralSessions ++ cookies.persistentSessions).length ≤
    d.seen.maxSessionsPerBrowser
  mem_iff : ∀ remembered entry, entry ∈ cookies.bucket remembered ↔
    (entry = ⟨d.newSessionId, d.newSecretHash⟩ ∧ d.remembered = remembered) ∨
      ∃ row, (entry.id, row) ∈ live ∧ entry.id ∉ evicted ∧
        row.secretHash = some entry.secretHash ∧ row.remembered = remembered ∧
          stillLive row d.seen.lifespans now = true

/-- The cookies hold the sessions that are live: each once, where its row has it. -/
structure CookiesOfLive (existing : List (SessionId × Session)) (cookies : SessionCookies) :
    Prop where
  nodup : ((cookies.ephemeralSessions ++ cookies.persistentSessions).map SessionEntry.id).Nodup
  mem_iff : ∀ remembered entry, entry ∈ cookies.bucket remembered ↔
    ∃ row, (entry.id, row) ∈ existing ∧ row.secretHash = some entry.secretHash ∧
      row.remembered = remembered

/-- The sessions and the cookies after a completed login. -/
structure LoggedIn (d : Door) (pending : PendingRequest) (since : Time)
    (before after : SessionId → Option Session) (cookies : SessionCookies) : Prop where
  /-- A new session was admitted. -/
  admission : Door.reuseSession pending = none → ∃ admittedAt now live evicted,
    since ≤ admittedAt ∧ admittedAt ≤ now ∧ Admission d before after admittedAt live evicted ∧
      CookiesOfAdmission d now live evicted cookies
  /-- The login goes on with a session that was there. -/
  reuse : Door.reuseSession pending ≠ none → ∃ now existing,
    Resolves after d.entries d.seen.lifespans now existing ∧ CookiesOfLive existing cookies

section Facts

variable {F F' : SessionId → Option Session} {admittedAt now : Time}
  {live existing : List (SessionId × Session)} {evicted : List SessionId}

theorem Admission.ne_new (h : Admission d F F' admittedAt live evicted) {id : SessionId}
    {row : Session} (hmem : (id, row) ∈ live) : id ≠ d.newSessionId := by
  intro hid
  have hrow := ((h.resolves.mem_iff id row).mp hmem).1
  rw [hid, h.established.1] at hrow
  simp at hrow

/-- The sessions found after an admission are those that were kept. -/
theorem Admission.mem_existing_iff (h : Admission d F F' admittedAt live evicted)
    (hle : admittedAt ≤ now) (hexisting : Resolves F' d.entries d.seen.lifespans now existing)
    {id : SessionId} {row : Session} :
    (id, row) ∈ existing ∧ id ≠ d.newSessionId ↔
      (id, row) ∈ live ∧ id ∉ evicted ∧ stillLive row d.seen.lifespans now = true := by
  constructor
  · intro ⟨hmem, hne⟩
    obtain ⟨hrow, hproved, hlive⟩ := (hexisting.mem_iff id row).mp hmem
    have hout : id ∉ evicted := by
      intro hin
      rw [h.ended id hin] at hrow
      obtain ⟨row', -, rfl⟩ := Option.map_eq_some_iff.mp hrow
      exact Nat.not_lt.mpr hle (lt_expiresAt_of_stillLive hlive)
    rw [h.kept id hne hout] at hrow
    exact ⟨(h.resolves.mem_iff id row).mpr ⟨hrow, hproved, stillLive_of_le hle hlive⟩, hout, hlive⟩
  · intro ⟨hmem, hout, hlive⟩
    have hne := h.ne_new hmem
    obtain ⟨hrow, hproved, -⟩ := (h.resolves.mem_iff id row).mp hmem
    rw [← h.kept id hne hout] at hrow
    exact ⟨(hexisting.mem_iff id row).mpr ⟨hrow, hproved, hlive⟩, hne⟩

/-- The evicted and the kept were live at the admission. -/
theorem Admission.length_survivors (h : Admission d F F' admittedAt live evicted)
    (hle : admittedAt ≤ now) (hexisting : Resolves F' d.entries d.seen.lifespans now existing) :
    evicted.length + (Door.survivors d.newSessionId existing).length ≤ live.length := by
  have hkept : ∀ id ∈ (Door.survivors d.newSessionId existing).map Prod.fst,
      id ∈ live.map Prod.fst ∧ id ∉ evicted := by
    intro id hid
    obtain ⟨⟨id, row⟩, hmem, rfl⟩ := List.mem_map.mp hid
    simp only [Door.survivors, List.mem_filter, decide_eq_true_eq] at hmem
    obtain ⟨hlive, hout, -⟩ := (h.mem_existing_iff hle hexisting).mp hmem
    exact ⟨List.mem_map_of_mem hlive, hout⟩
  have hnodup : (evicted ++ (Door.survivors d.newSessionId existing).map Prod.fst).Nodup := by
    rw [List.nodup_append]
    refine ⟨h.nodup, hexisting.nodup.sublist (List.filter_sublist.map Prod.fst), ?_⟩
    intro id hin id' hid' heq
    exact (hkept id' hid').2 (heq ▸ hin)
  have hsubset : evicted ++ (Door.survivors d.newSessionId existing).map Prod.fst ⊆
      live.map Prod.fst := by
    intro id hid
    rcases List.mem_append.mp hid with hin | hother
    · obtain ⟨row, hlive⟩ := h.live_of_evicted id hin
      exact List.mem_map_of_mem hlive
    · exact (hkept id hother).1
  have hlength := (List.subperm_of_subset hnodup hsubset).length_le
  simpa using hlength

/-- The cookies written after an admission. -/
theorem Admission.cookies (h : Admission d F F' admittedAt live evicted)
    (hle : admittedAt ≤ now)
    (hexisting : Resolves F' d.entries d.seen.lifespans now existing) :
    CookiesOfAdmission d now live evicted
      (d.sessionCookies (some ⟨d.newSessionId, d.newSecretHash⟩) d.newSessionId existing) where
  nodup := nodup_cookies hexisting.nodup fun entry hown ↦ by
    obtain rfl := Option.some.inj hown
    rfl
  length_le := by
    have hcookies := @length_cookies_le d (some ⟨d.newSessionId, d.newSecretHash⟩) d.newSessionId
      existing
    have hsurvivors := h.length_survivors hle hexisting
    have hevicted := h.length_evicted
    omega
  mem_iff remembered entry := by
    rw [mem_bucket_iff, or_comm]
    refine or_congr ?_ ?_
    · rw [Door.own, Option.some_or, Option.some.injEq, eq_comm]
      rfl
    · constructor
      · intro ⟨row, hmem, hne, hsecret, hremembered⟩
        obtain ⟨hlive, hout, hstill⟩ := (h.mem_existing_iff hle hexisting).mp ⟨hmem, hne⟩
        exact ⟨row, hlive, hout, hsecret, hremembered, hstill⟩
      · intro ⟨row, hlive, hout, hsecret, hremembered, hstill⟩
        obtain ⟨hmem, hne⟩ := (h.mem_existing_iff hle hexisting).mpr ⟨hlive, hout, hstill⟩
        exact ⟨row, hmem, hne, hsecret, hremembered⟩

/-- What `admitSession` made of the sessions, given what the cookies proved before. -/
theorem admission_of_admits {id : AuthSessionId} {pending : PendingRequest} {subjectId : SubjectId}
    {authenticators : List AuthenticatorName} {before : List (SessionId × Session)}
    {since beforeAt : Time} (hcap : 1 ≤ d.seen.maxSessionsPerBrowser)
    (hbefore : Resolves F d.entries d.seen.lifespans beforeAt before) (hle : beforeAt ≤ since)
    (h : Admits (d.completion id pending subjectId authenticators before).session F F' since
      admittedAt now live) :
    Admission d F F' admittedAt live (chooseEvictions live d.seen.maxSessionsPerBrowser) := by
  obtain ⟨transactionStart, establishedAt, rfl⟩ := h.sessions
  have hresolves : Resolves F d.entries d.seen.lifespans admittedAt live :=
    hbefore.of_entriesOf (Nat.le_trans hle h.since_le) h.resolves
  have hfree : F d.newSessionId = none := h.free
  refine ⟨hresolves, nodup_chooseEvictions hresolves.nodup,
    fun id hid ↦ mem_of_mem_chooseEvictions hid, length_chooseEvictions hcap, ?_, ⟨hfree, ?_⟩,
    ?_, ?_⟩
  · intro gone hgone kept hkept hin hout
    exact least_of_mem_chooseEvictions hresolves.nodup hgone hkept hin hout
  · exact ⟨_, if_pos rfl, rfl, rfl⟩
  · intro id hid
    obtain ⟨row, hmem⟩ := mem_of_mem_chooseEvictions hid
    have hrow := ((hresolves.mem_iff id row).mp hmem).1
    have hne : id ≠ d.newSessionId := fun heq ↦ by simp [heq, hfree] at hrow
    exact (if_neg hne).trans (if_pos hid)
  · intro id hne hout
    exact (if_neg hne).trans (if_neg hout)

/-- The cookies written by a login that goes on with a session. -/
theorem cookiesOfLive (hnodup : (existing.map Prod.fst).Nodup) (sessionId : SessionId) :
    CookiesOfLive existing (d.sessionCookies none sessionId existing) where
  nodup := nodup_cookies hnodup fun entry hown ↦ id_of_reused hown
  mem_iff remembered entry := by
    rw [mem_bucket_iff]
    constructor
    · intro hentry
      rcases hentry with ⟨row, hmem, -, hsecret, hremembered⟩ | ⟨hown, hremembered⟩
      · exact ⟨row, hmem, hsecret, hremembered⟩
      · obtain ⟨session, hfound, hentry⟩ := Option.bind_eq_some_iff.mp hown
        obtain ⟨hid, hsecret⟩ := entryOf_eq_some.mp hentry
        refine ⟨session.2, hid ▸ List.mem_of_find?_eq_some hfound, hsecret, ?_⟩
        rw [Door.ownRemembered, hfound] at hremembered
        exact hremembered
    · intro ⟨row, hmem, hsecret, hremembered⟩
      by_cases hid : entry.id = sessionId
      · right
        have hfound : Door.reused sessionId existing = some (entry.id, row) := by
          cases hfind : Door.reused sessionId existing with
          | none =>
            have hnone := List.find?_eq_none.mp hfind (entry.id, row) hmem
            exact absurd (decide_eq_true hid) hnone
          | some session =>
            have hsame : session.1 = sessionId := by simpa using List.find?_some hfind
            have hin := List.mem_of_find?_eq_some hfind
            exact congrArg some (List.inj_on_of_nodup_map hnodup hin hmem (hsame.trans hid.symm))
        rw [Door.own, Door.ownRemembered, hfound]
        exact ⟨entryOf_eq_some.mpr ⟨rfl, hsecret⟩, hremembered⟩
      · exact Or.inl ⟨row, hmem, hid, hsecret, hremembered⟩

end Facts

/-- For any entries presented, any rows and any cap of at least one: a login that completes
leaves the browser's sessions under the cap, having ended the least recently active ones of
those that were live, and its cookies name the ones that are left. -/
theorem wp_answerLogin (hcap : 1 ≤ d.seen.maxSessionsPerBrowser) (id : AuthSessionId)
    (pending : PendingRequest) (subjectId : SubjectId) (authenticators : List AuthenticatorName)
    (s : Rows) :
    (d.answerLogin id pending subjectId authenticators).wp (undisturbed d.Names) Writes.nothing s
      fun answer w (s' : Rows) ↦ ∀ sessionId codeHash cookies,
        answer = .redirect sessionId codeHash cookies →
          ∃ after, (∀ id, d.Names id → (s'.after w).session id = after id) ∧
            LoggedIn d pending s.clock s.session after cookies := by
  have hentries : ∀ entry ∈ d.entries, d.Names entry.id := fun entry hentry ↦
    Or.inr ⟨entry, hentry, rfl⟩
  have hsees : Sees d.Names s.session s.clock Writes.nothing s :=
    ⟨fun _ _ ↦ rfl, Nat.le_refl _, rfl⟩
  rw [Door.answerLogin, wp_bind]
  refine hsees.wp_resolveSessions hentries fun beforeAt before w₁ s₁ hle₁ hbefore h₁ ↦ ?_
  refine h₁.wp_endTransaction fun s₂ h₂ ↦ ?_
  rw [wp_bind]
  refine wp_transaction_undisturbed (fun e s ↦ fun _ _ _ heq ↦ by cases heq) ?_
  have hcompletion : ∀ entry ∈ (d.completion id pending subjectId authenticators
      before).session.browserSessions, d.Names entry.id := by
    intro entry hentry
    obtain ⟨⟨id, row⟩, hmem, hentry⟩ := List.mem_filterMap.mp hentry
    obtain ⟨hash, -, rfl⟩ := Option.map_eq_some_iff.mp hentry
    obtain ⟨-, ⟨entry, hentry, hid, -⟩, -⟩ := (hbefore.mem_iff id row).mp hmem
    exact Or.inr ⟨entry, hentry, hid⟩
  refine wp_mono ?_ (h₂.wp_completeLogin hcompletion (Or.inl rfl))
  intro outcome w₃ s₃ ⟨F', now, h₃, hcompletes⟩
  refine ⟨F', now, h₃, fun s₄ h₄ ↦ ?_⟩
  cases outcome with
  | alreadyConsumed | subjectDisabled => exact fun _ _ _ heq ↦ by cases heq
  | issued sessionId codeHash =>
    have hcompleted := hcompletes sessionId codeHash rfl
    refine h₄.wp_resolveSessions hentries fun foundAt existing w₅ s₅ hle₅ hexisting h₅ ↦ ?_
    refine h₅.wp_endTransaction fun s₆ h₆ ↦ ?_
    intro sessionId' codeHash' cookies heq
    obtain ⟨rfl, rfl, rfl⟩ := LoginAnswer.redirect.inj heq
    refine ⟨F', h₆.sessions, ?_, ?_⟩
    · intro hreuse
      obtain ⟨rfl, admittedAt, live, hadmits⟩ := hcompleted.established hreuse
      have hadmission := admission_of_admits hcap hbefore (Nat.le_refl _) hadmits
      have hle : admittedAt ≤ foundAt := Nat.le_trans hadmits.le_now hle₅
      have hissued : d.issued pending = some ⟨d.newSessionId, d.newSecretHash⟩ := by
        rw [Door.issued, hreuse]
      refine ⟨admittedAt, foundAt, live, _, ?_, hle, hadmission, ?_⟩
      · exact Nat.le_trans hle₁ hadmits.since_le
      · rw [hissued]
        exact hadmission.cookies hle hexisting
    · intro hreuse
      have hissued : d.issued pending = none := by
        cases hsession : Door.reuseSession pending with
        | none => exact absurd hsession hreuse
        | some => rw [Door.issued, hsession]
      refine ⟨foundAt, existing, hexisting, ?_⟩
      rw [hissued]
      exact cookiesOfLive hexisting.nodup sessionId

/-- The door of a browser that keeps one session, and has one. -/
def singleSessionDoor : Door :=
  { consentingDoor with
    seen := { consentingDoor.seen with maxSessionsPerBrowser := 1 }
    entries := [⟨3, 30⟩] }

/-- What the parked request of `oneAttempt` asks for. -/
def plainRequest : PendingRequest :=
  ⟨1, "https://app.example/cb", ["openid"], "challenge", none, none, [], none, none, none, [], []⟩

/-- An attempt to sign in, made in a browser that has session 3. -/
def signedInBefore : Rows
  | ⟨.subjects, 1⟩ => some ⟨none⟩
  | ⟨.sessions, 3⟩ => some ⟨1, 0, 600, 0, [.password], false, some 30⟩
  | k => oneAttempt k

/-- The login completes: session 3 is ended, and the cookies hold the new one alone. -/
theorem wp_answerLogin_singleSession :
    ∃ s' : Rows, Ends (singleSessionDoor.answerLogin 1 plainRequest 1 [.password]) Writes.nothing
        signedInBefore (.ok (.redirect 6 70 ⟨[⟨6, 8⟩], []⟩)) s' ∧
      (s'.session 3).map Session.expiresAt = some 0 ∧
      ∃ after, (∀ id, singleSessionDoor.Names id → s'.session id = after id) ∧
        LoggedIn singleSessionDoor plainRequest signedInBefore.clock signedInBefore.session
          after ⟨[⟨6, 8⟩], []⟩ := by
  have hperform : ((singleSessionDoor.answerLogin 1 plainRequest 1 [.password]).perform oracle
      Writes.nothing signedInBefore).map
        (fun r ↦ (r.1, (Rows.session r.2 3).map Session.expiresAt)) =
      some (.ok (.redirect 6 70 ⟨[⟨6, 8⟩], []⟩), some 0) := by
    decide +kernel
  obtain ⟨⟨result, s'⟩, hperform, hends⟩ := Option.map_eq_some_iff.mp hperform
  obtain ⟨rfl, hended⟩ := Prod.mk.inj hends
  have hends := ends_of_perform hperform
  have hwp := wp_answerLogin (d := singleSessionDoor) (by decide) 1 plainRequest 1 [.password]
    signedInBefore
  obtain ⟨w, s, hpost, rfl⟩ := post_of_ends (R := undisturbed singleSessionDoor.Names)
    (fun _ _ ↦ ⟨Nat.le_refl _, fun _ _ ↦ rfl⟩) (fun _ _ ↦ trivial) (fun _ _ ↦ trivial) hends hwp
  obtain ⟨after, hafter, hlogged⟩ := hpost 6 70 _ rfl
  exact ⟨_, hends, hended, after, hafter, hlogged⟩

end Login

end Odudu.ProtocolOidc
