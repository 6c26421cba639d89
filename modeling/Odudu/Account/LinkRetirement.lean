import Odudu.Account.LinkProgress

/-!
# What retires a password link

Over every interleaving of the account calls a link is redeemed at most once.  A redemption
that sets a password retires, with it, every other link that could set it: all that were
issued before its retiring statement ran.  A rotation at sign-in retires none, and neither
does a redemption retire a link that is issued after its retiring statement and before its
commit.  `Timely` is the condition that excludes both, and `passwordLinks_retired` says that
in every run that meets it no link outlives a new password.
-/

set_option autoImplicit false

namespace Odudu.Account

open ReadCommitted
open ReadCommitted.Program (throw watched watched_bind watched_mono Passes)
open DomainIdentity
open ProtocolOidc (Time SubjectId TokenHash)

section Steps

variable {timely : Prop} {s : Rows} {w : Writes database} {m : Progress}

/-- A statement of a transaction carries what is known of the rows. -/
theorem Progress.Facts.next {op : Op} {a : op.Answer} (h : m.Facts timely w s)
    (ha : Op.Answers op (s.after w) a) :
    (m.next op a).Facts timely (w.andThen (op.effect (s.after w))) s := by
  cases m with
  | start =>
    have hrest : (if op.writesLinks then Progress.other else .start).Facts timely
        (w.andThen (op.effect (s.after w))) s := by
      split_ifs with hop
      · trivial
      · exact andThen_link_eq_none h (by simpa using hop)
    cases op with
    | actionTokenPeek =>
      cases a with
      | none => exact hrest
      | some =>
        obtain ⟨hnone, hrow⟩ := peeked_of_answers h ha
        exact ⟨andThen_link_eq_none h rfl, hnone, Or.inl hrow⟩
    | _ => exact hrest
  | peeked key link =>
    have hrest : (if op.writesLinks then Progress.other else .peeked key link).Facts timely
        (w.andThen (op.effect (s.after w))) s := by
      split_ifs with hop
      · trivial
      · exact ⟨andThen_link_eq_none h.1 (by simpa using hop), h.2⟩
    cases op with
    | actionTokenConsume key' =>
      cases a with
      | none => exact hrest
      | some record =>
        by_cases hkey : key' = key
        · subst hkey
          change (if key' = key' then Progress.held key' link record.subjectId else .other).Facts timely _ s
          rw [if_pos rfl]
          exact held_of_answers h ha
        · change (if key' = key then Progress.held key link record.subjectId else .other).Facts timely _ s
          rw [if_neg hkey]
          trivial
    | _ => exact hrest
  | held key link subjectId =>
    obtain ⟨hholds, rfl⟩ := h
    cases op with
    | actionTokenInvalidateOutstandingPasswordLinks subjectId' now =>
      change (if subjectId' = link.subjectId then Progress.retired key link
        else .held key link link.subjectId).Facts timely _ s
      split_ifs with hsubject
      · subst hsubject
        refine ⟨hholds.andThen _, fun _ ↦ ?_⟩
        rw [Rows.after, Writes.andThen_laidOver]
        exact noneOutstanding_of_invalidate _ now _
      · exact ⟨hholds.andThen _, rfl⟩
    | _ => exact ⟨hholds.andThen _, rfl⟩
  | retired key link =>
    obtain ⟨hholds, hretired⟩ := h
    have hrest : (∀ key row, op ≠ .actionTokenIssue key row) →
        (Progress.retired key link).Facts timely (w.andThen (op.effect (s.after w))) s := by
      intro hissue
      refine ⟨hholds.andThen _, fun htimely ↦ ?_⟩
      rw [Rows.after, Writes.andThen_laidOver]
      exact (hretired htimely).after hissue
    cases op with
    | actionTokenIssue => exact ⟨hholds.andThen _, rfl⟩
    | _ => exact hrest fun _ _ h ↦ nomatch h
  | other => cases op <;> trivial

/-- Another transaction's commit leaves what is known, but that no link was issued meanwhile. -/
theorem Progress.Facts.committed {w' : Writes database} (h : m.Facts timely w s)
    (hages : linkAgeing.Ages s (s.after w')) (hapart : w'.Apart w)
    (hissued : timely → ∀ key link, m = .retired key link → ∀ key' row, s.link key' = none →
      (s.after w').link key' = some row → row.subjectId = link.subjectId →
      row.setsPassword = false) :
    m.Facts timely w (s.after w') := by
  have hheld : ∀ {key link}, Holds key link w s → Holds key link w (s.after w') := by
    rintro key link ⟨hrow, hnone, consumedAt, hwritten⟩
    refine ⟨?_, hnone, consumedAt, hwritten⟩
    exact (hapart.laidOver_eq hwritten s).trans hrow
  cases m with
  | start => exact h
  | peeked key =>
    obtain ⟨hw, hnone, hpeeked⟩ := h
    exact ⟨hw, hnone, hpeeked.trans (link_ages hages key)⟩
  | held => exact ⟨hheld h.1, h.2⟩
  | retired key link =>
    obtain ⟨hholds, hretired⟩ := h
    refine ⟨hheld hholds, fun htimely key' row hrow hsubject hsets ↦ ?_⟩
    cases hpending : w ⟨.actionTokens, key'⟩ with
    | some =>
      refine hretired htimely key' row ?_ hsubject hsets
      rw [link_after_of_some hpending] at hrow ⊢
      exact hrow
    | none =>
      rw [link_after_of_none hpending] at hrow
      cases hbefore : s.link key' with
      | none => simp [hissued htimely key link rfl key' row hbefore hrow hsubject] at hsets
      | some before =>
        rcases hbefore ▸ link_ages hages key' with hsame | ⟨-, consumedAt, hconsumed⟩
        · obtain rfl := Option.some.inj (hsame.symm.trans hrow)
          exact hretired htimely key' before ((link_after_of_none hpending).trans hbefore) hsubject hsets
        · obtain rfl := Option.some.inj (hconsumed.symm.trans hrow)
          rfl
  | other => trivial

end Steps

/-- The statement that retires a subject's password links. -/
def Retires (subjectId : SubjectId) (op : Op) : Prop :=
  ∃ now, op = .actionTokenInvalidateOutstandingPasswordLinks subjectId now

/-- A redemption that has its retiring statement ahead is where it was before it retired
anything. -/
theorem watched_held {call : Call} {key : TokenHash} {link : ActionToken} {p : Tx Outcome}
    (h : p.watched links (.retired key link) (Answering call))
    (hpasses : link.setsPassword = true →
      p.Passes (Retires link.subjectId) fun outcome ↦ (call.redeems outcome).isSome) :
    p.watched links (.held key link link.subjectId) (Answering call) := by
  induction p with
  | done =>
    refine ⟨fun key' hredeems ↦ ?_, fun subjectId hrotates ↦ nomatch h.rotates subjectId hrotates⟩
    obtain ⟨link', hretired | ⟨subjectId, hheld, -⟩⟩ := h.redeems key' hredeems
    · obtain ⟨rfl, rfl⟩ := Progress.retired.inj hretired
      refine ⟨link, Or.inr ⟨_, rfl, ?_⟩⟩
      by_contra hsets
      exact hpasses (by simpa using hsets) (Option.isSome_iff_exists.mpr ⟨_, hredeems⟩)
    · exact nomatch hheld
  | throw => trivial
  | stmt op next ih =>
    intro a
    have hnext := h a
    have hrest : ¬ Retires link.subjectId op → (next a).watched links (.retired key link)
        (Answering call) → (next a).watched links (.held key link link.subjectId)
          (Answering call) := by
      refine fun hop hwatched ↦ ih a hwatched fun hsets ↦ ?_
      exact (hpasses hsets).resolve_left hop a
    cases op with
    | actionTokenInvalidateOutstandingPasswordLinks subjectId =>
      by_cases hsubject : subjectId = link.subjectId
      · subst hsubject
        change (next a).watched links (if link.subjectId = link.subjectId then _ else _) _
        rw [if_pos rfl]
        exact hnext
      · change (next a).watched links (if subjectId = link.subjectId then _ else _) _
        rw [if_neg hsubject]
        refine hrest ?_ hnext
        rintro ⟨now', hop⟩
        exact hsubject (Op.actionTokenInvalidateOutstandingPasswordLinks.inj hop).1
    | actionTokenIssue => exact hnext
    | _ => exact hrest (fun ⟨_, hop⟩ ↦ nomatch hop) hnext
  | commit | savepoint | rollbackTo => exact h

section Runs

variable {hasher : PasswordHasher}

/-- The answer is that a link was redeemed. -/
def Redeems (a : Answered (accounts hasher)) (key : TokenHash) : Prop :=
  ∃ outcome, a.result = .ok outcome ∧ a.call.redeems outcome = some key

/-- The answer is that a subject's password was rotated. -/
def Rotates (a : Answered (accounts hasher)) (subjectId : SubjectId) : Prop :=
  ∃ outcome, a.result = .ok outcome ∧ a.call.rotates outcome = some subjectId

/-- The answer is that a subject has a new password: it was rotated, or set by a link. -/
def SetsPassword (a : Answered (accounts hasher)) (subjectId : SubjectId) (s : Rows) : Prop :=
  Rotates a subjectId ∨ ∃ key row, Redeems a key ∧ s.link key = some row ∧
    row.subjectId = subjectId ∧ row.setsPassword = true

/-- A request that has taken a password link of the subject, and whose retiring statement is
no longer ahead of it. -/
def PastRetiring (r : Running (accounts hasher)) (subjectId : SubjectId) (s : Rows) : Prop :=
  (∃ key row, s.link key = some row ∧ row.subjectId = subjectId ∧ row.setsPassword = true ∧
      (r.pending ⟨.actionTokens, key⟩).isSome) ∧
    ¬ r.program.Passes (Retires subjectId) fun outcome ↦ (r.call.redeems outcome).isSome

/-- A step at which no password is rotated while a link could still set it, and no link is
issued that could set a password while a redemption under way has retired the others. -/
structure Timely (c c' : Config (accounts hasher)) : Prop where
  rotation : ∀ a subjectId, c'.history = a :: c.history → Rotates a subjectId →
    NoneOutstanding subjectId c.rows
  issue : ∀ key row, Rows.link c.rows key = none → Rows.link c'.rows key = some row →
    row.setsPassword = true → ∀ t r, c.running t = some r →
      ¬ PastRetiring r row.subjectId c.rows

/-- Any number of steps at which nothing is rotated or issued at the wrong time. -/
abbrev TimelyRun (c c' : Config (accounts hasher)) : Prop :=
  Relation.ReflTransGen (fun c c' ↦ Step .free c c' ∧ Timely c c') c c'

variable {c c' : Config (accounts hasher)}

theorem TimelyRun.reaches (h : TimelyRun c c') :
    Reaches .free c c' :=
  Relation.ReflTransGen.mono (fun _ _ h ↦ h.1) _ _ h

/-- What is known of a request under way. -/
abbrev FactsOf (timely : Prop) (_ : Call) (m : Progress) (w : Writes database) (s : Rows) : Prop :=
  linkAgeing.Ages s (s.after w) ∧ m.Facts timely w s

/-- Every request under way is where the watch has it. -/
abbrev Kept (timely : Prop) (c : Config (accounts hasher)) : Prop :=
  @Config.Watched (accounts hasher) links Answering (FactsOf timely) c

/-- What was known of the requests under way is known of them after a step. -/
theorem Kept.step {timely : Prop} (h : Kept timely c)
    (hstep : Step .free c c') (htimely : timely → Timely c c') : Kept timely c' := by
  refine Config.Watched.step h (body_watched hasher) ?_ ?_ ?_ hstep
  · exact fun _ s ↦ ⟨.refl s, fun _ ↦ rfl⟩
  · rintro call m w s op a ⟨hages, hfacts⟩ ha
    exact ⟨hages.andThen (effect_ages op _), hfacts.next ha⟩
  · rintro t call outcome w m hrunning hpost ⟨hages, -⟩ hrows hhistory t' r' m' hne hrunning'
      hapart hwatched ⟨hages', hfacts⟩
    have hages'' : linkAgeing.Ages (Rows.after c.rows w) (Rows.after (Rows.after c.rows w) r'.pending) :=
      hages'.of_locked fun k v hk ↦ hapart.laidOver_eq hk c.rows
    by_cases hissued : timely → ∀ key link, m' = .retired key link → ∀ key' row,
        Rows.link c.rows key' = none → (Rows.after c.rows w).link key' = some row →
        row.subjectId = link.subjectId → row.setsPassword = false
    · exact ⟨m', hwatched, hages'', hfacts.committed hages hapart hissued⟩
    · -- A link was issued that it will still retire: it is as if it had retired none.
      simp only [not_forall] at hissued
      obtain ⟨ht, key, link, rfl, key', row, hfree, hnew, hsubject, hsets⟩ := hissued
      obtain ⟨hholds, -⟩ := hfacts
      have hpasses : link.setsPassword = true → r'.program.Passes (Retires link.subjectId)
          fun outcome ↦ (r'.call.redeems outcome).isSome := by
        intro hlink
        by_contra hnot
        obtain ⟨hrow, -, consumedAt, hwritten⟩ := hholds
        refine (htimely ht).issue key' row hfree (hrows ▸ hnew) (by simpa using hsets) t' r'
          hrunning' (hsubject ▸ ⟨⟨key, link, hrow, rfl, hlink, ?_⟩, hnot⟩)
        rw [hwritten]
        rfl
      have hfacts' : (Progress.held key link link.subjectId).Facts timely r'.pending c.rows :=
        ⟨hholds, rfl⟩
      exact ⟨.held key link link.subjectId, watched_held hwatched hpasses, hages'',
        hfacts'.committed hages hapart fun _ _ _ h ↦ nomatch h⟩

variable {rows : Rows}

/-- In every run each request is where the watch has it. -/
theorem kept_of_reaches {c : Config (accounts hasher)}
    (hc : Reaches .free (Config.start rows) c) : Kept False c := by
  induction hc with
  | refl => exact @Config.Watched.start (accounts hasher) links Answering (FactsOf False) rows
  | tail _ hstep ih => exact ih.step hstep False.elim

theorem kept_of_timelyRun {c : Config (accounts hasher)}
    (hc : TimelyRun (Config.start rows) c) : Kept True c := by
  induction hc with
  | refl => exact @Config.Watched.start (accounts hasher) links Answering (FactsOf True) rows
  | tail _ hstep ih => exact ih.step hstep.1 fun _ ↦ hstep.2

section Answers

variable {timely : Prop} {t : ℕ} {call : Call} {outcome : Outcome} {m : Progress}
  {w : Writes database} {s : Rows} {key : TokenHash}

/-- A link that is answered as redeemed was unconsumed, and its redemption consumes it. -/
theorem Answering.holds (hpost : Answering call outcome m) (hfacts : m.Facts timely w s)
    (hredeems : call.redeems outcome = some key) : ∃ link, Holds key link w s := by
  obtain ⟨link, rfl | ⟨subjectId, rfl, -⟩⟩ := hpost.redeems key hredeems
  · exact ⟨link, hfacts.1⟩
  · exact ⟨link, hfacts.1⟩

theorem Answering.redeems_ne (hpost : Answering call outcome m) (hfacts : m.Facts timely w s)
    {row : ActionToken} (hrow : s.link key = some row) (hconsumed : row.consumedAt.isSome) :
    call.redeems outcome ≠ some key := by
  intro hredeems
  obtain ⟨link, hlink, hnone, -⟩ := hpost.holds hfacts hredeems
  obtain rfl := Option.some.inj (hlink.symm.trans hrow)
  simp [hnone] at hconsumed

/-- What a commit that sets a password leaves: no link of the subject that could set it. -/
theorem Answering.noneOutstanding (hpost : Answering call outcome m) (hfacts : m.Facts True w s)
    (hrotation : ∀ subjectId, call.rotates outcome = some subjectId → NoneOutstanding subjectId s)
    {subjectId : SubjectId}
    (hsets : @SetsPassword hasher ⟨t, call, .ok outcome⟩ subjectId (s.after w)) :
    NoneOutstanding subjectId (s.after w) := by
  rcases hsets with ⟨_, ⟨rfl⟩, hrotates⟩ | ⟨key, row, ⟨_, ⟨rfl⟩, hredeems⟩, hrow, rfl, hlink⟩
  · obtain rfl := hpost.rotates subjectId hrotates
    intro key row hrow
    rw [link_after_of_none (hfacts key)] at hrow
    exact hrotation subjectId hrotates key row hrow
  · obtain ⟨link, rfl | ⟨subjectId, rfl, hnot⟩⟩ := hpost.redeems key hredeems
    · obtain ⟨consumedAt, hseen⟩ := hfacts.1.seen
      obtain rfl := Option.some.inj (hseen.symm.trans hrow)
      exact hfacts.2 trivial
    · obtain ⟨consumedAt, hseen⟩ := hfacts.1.seen
      obtain rfl := Option.some.inj (hseen.symm.trans hrow)
      exact absurd hlink (Bool.eq_false_iff.mp hnot)

end Answers

/-- What is answered as redeemed is consumed, and is not answered so twice. -/
private structure Once (c : Config (accounts hasher)) : Prop where
  spent : ∀ a ∈ c.history, ∀ key, Redeems a key →
    ∃ row, Rows.link c.rows key = some row ∧ row.consumedAt.isSome
  once : c.history.Pairwise fun a b ↦ ∀ key, Redeems a key → ¬ Redeems b key

private theorem not_redeems_error (t : ℕ) (call : Call) (failure : Failure) (key : TokenHash) :
    ¬ @Redeems hasher ⟨t, call, .error failure⟩ key := by
  rintro ⟨_, hresult, -⟩
  exact nomatch hresult

/-- No step redeems a link a second time. -/
private theorem Once.step {timely : Prop} (h : Once c)
    (hkept : Kept timely c) (hstep : Step .free c c') : Once c' := by
  rcases hkept.committed hstep with ⟨hrows, hsame | ⟨t, call, failure, hhistory⟩⟩ |
      ⟨t, call, outcome, w, m, -, hpost, ⟨hages, hfacts⟩, hrows, hhistory⟩
  · exact ⟨by rw [hsame, hrows]; exact h.spent, by rw [hsame]; exact h.once⟩
  · constructor
    · rw [hhistory, hrows]
      intro a ha key hredeems
      rcases List.mem_cons.mp ha with rfl | hold
      · exact absurd hredeems (not_redeems_error t call failure key)
      · exact h.spent a hold key hredeems
    · rw [hhistory]
      exact List.pairwise_cons.mpr
        ⟨fun b _ key hredeems ↦ absurd hredeems (not_redeems_error t call failure key), h.once⟩
  · constructor
    · rw [hhistory, hrows]
      intro a ha key hredeems
      rcases List.mem_cons.mp ha with rfl | hold
      · obtain ⟨_, ⟨rfl⟩, hredeems⟩ := hredeems
        obtain ⟨link, hholds⟩ := hpost.holds hfacts hredeems
        obtain ⟨consumedAt, hseen⟩ := hholds.seen
        exact ⟨_, hseen, rfl⟩
      · obtain ⟨row, hrow, hconsumed⟩ := h.spent a hold key hredeems
        exact ⟨row, (hrow ▸ link_ages hages key).consumed hconsumed, hconsumed⟩
    · rw [hhistory]
      refine List.pairwise_cons.mpr ⟨?_, h.once⟩
      rintro b hb key ⟨_, ⟨rfl⟩, hredeems⟩ hredeemed
      obtain ⟨row, hrow, hconsumed⟩ := h.spent b hb key hredeemed
      exact hpost.redeems_ne hfacts hrow hconsumed hredeems

/-- Over every interleaving, a link is redeemed at most once. -/
theorem redeemed_once {c : Config (accounts hasher)}
    (hc : Reaches .free (Config.start rows) c) :
    c.history.Pairwise fun a b ↦ ∀ key, Redeems a key → ¬ Redeems b key := by
  have honce : Once c := by
    induction hc with
    | refl => exact ⟨fun a ha ↦ (nomatch ha), List.Pairwise.nil⟩
    | tail hbefore hstep ih => exact ih.step (kept_of_reaches hbefore) hstep
  exact honce.once

/-- A consumed link is not redeemed from then on. -/
private theorem later_of_consumed
    {key : TokenHash} {row : ActionToken} (hc : Reaches .free (Config.start rows) c)
    (hrow : Rows.link c.rows key = some row) (hconsumed : row.consumedAt.isSome)
    (hc' : Reaches .free c c') :
    Rows.link c'.rows key = some row ∧
      ∃ later, c'.history = later ++ c.history ∧ ∀ a ∈ later, ¬ Redeems a key := by
  induction hc' with
  | refl => exact ⟨hrow, [], rfl, fun a ha ↦ nomatch ha⟩
  | @tail c₁ c₂ hbefore hstep ih =>
    obtain ⟨hrow₁, later, hlater, hnone⟩ := ih
    have hkept : Kept False c₁ := kept_of_reaches (hc.trans hbefore)
    rcases hkept.committed hstep with ⟨hrows, hsame | ⟨t, call, failure, hhistory⟩⟩ |
        ⟨t, call, outcome, w, m, -, hpost, ⟨hages, hfacts⟩, hrows, hhistory⟩
    · exact ⟨by rw [hrows]; exact hrow₁, later, hsame.trans hlater, hnone⟩
    · refine ⟨by rw [hrows]; exact hrow₁, ⟨t, call, .error failure⟩ :: later, ?_, ?_⟩
      · rw [hhistory, hlater]
        rfl
      · exact List.forall_mem_cons.mpr ⟨not_redeems_error t call failure key, hnone⟩
    · refine ⟨?_, ⟨t, call, .ok outcome⟩ :: later, ?_, List.forall_mem_cons.mpr ⟨?_, hnone⟩⟩
      · rw [hrows]
        exact (hrow₁ ▸ link_ages hages key).consumed hconsumed
      · rw [hhistory, hlater]
        rfl
      · rintro ⟨_, ⟨rfl⟩, hredeems⟩
        exact hpost.redeems_ne hfacts hrow₁ hconsumed hredeems

/-- After a timely answer that a subject has a new password, no link is left to set it. -/
private theorem noneOutstanding_of_timelyRun {c : Config (accounts hasher)}
    (hc : TimelyRun (Config.start rows) c) {a : Answered (accounts hasher)}
    {earlier : List (Answered (accounts hasher))} (hhistory : c.history = a :: earlier)
    {subjectId : SubjectId} (hsets : SetsPassword a subjectId c.rows) :
    NoneOutstanding subjectId c.rows := by
  induction hc generalizing a earlier subjectId with
  | refl => exact nomatch hhistory
  | @tail c₁ c₂ hbefore hstep ih =>
    have hkept : Kept True c₁ := kept_of_timelyRun hbefore
    rcases hkept.committed hstep.1 with ⟨hrows, hsame | ⟨t, call, failure, hanswered⟩⟩ |
        ⟨t, call, outcome, w, m, -, hpost, ⟨hages, hfacts⟩, hrows, hanswered⟩
    · rw [hrows] at hsets ⊢
      exact ih (hsame.symm.trans hhistory) hsets
    · obtain ⟨rfl, -⟩ := List.cons.inj (hanswered.symm.trans hhistory)
      rcases hsets with ⟨_, hresult, -⟩ | ⟨key, row, hredeems, -⟩
      · exact nomatch hresult
      · exact absurd hredeems (not_redeems_error t call failure key)
    · obtain ⟨rfl, -⟩ := List.cons.inj (hanswered.symm.trans hhistory)
      rw [hrows] at hsets ⊢
      exact hpost.noneOutstanding hfacts
        (fun subjectId hrotates ↦ hstep.2.rotation _ subjectId hanswered ⟨_, rfl, hrotates⟩) hsets

/-- A link is redeemed at most once in every run; and in a run in which no password is rotated
while a link could still set it, and no link is issued behind the back of a redemption that has
retired the others, a link issued before a subject's new password was committed is not redeemed
after it. -/
theorem passwordLinks_retired (hasher : PasswordHasher) (rows : Rows) :
    (∀ c : Config (accounts hasher), Reaches .free (Config.start rows) c →
        c.history.Pairwise fun a b ↦ ∀ key, Redeems a key → ¬ Redeems b key) ∧
      ∀ c c' : Config (accounts hasher), TimelyRun (Config.start rows) c → TimelyRun c c' →
        ∀ a earlier subjectId, c.history = a :: earlier → SetsPassword a subjectId c.rows →
          ∀ key row, Rows.link c.rows key = some row → row.subjectId = subjectId →
            row.setsPassword = true →
            ∃ later, c'.history = later ++ c.history ∧ ∀ b ∈ later, ¬ Redeems b key := by
  refine ⟨fun c hc ↦ redeemed_once hc, ?_⟩
  intro c c' hc hc' a earlier subjectId hhistory hsets key row hrow hsubject hlink
  have hconsumed : row.consumedAt.isSome :=
    noneOutstanding_of_timelyRun hc hhistory hsets key row hrow hsubject hlink
  exact (later_of_consumed hc.reaches hrow hconsumed hc'.reaches).2

/-- Where nothing is issued and nothing rotated, every step is timely. -/
theorem timelyRun_of_reaches
    (hc : Reaches .free (Config.start rows) c) (hlinks : ∀ key, Rows.link c.rows key ≠ none)
    (hc' : Reaches .free c c') (hrotates : ∀ a ∈ c'.history, ∀ subjectId, ¬ Rotates a subjectId) :
    TimelyRun c c' ∧ ∀ key, Rows.link c'.rows key ≠ none := by
  induction hc' with
  | refl => exact ⟨.refl, hlinks⟩
  | @tail c₁ c₂ hbefore hstep ih =>
    have hkept : Kept False c₁ := kept_of_reaches (hc.trans hbefore)
    have hmore : (∀ a ∈ c₁.history, a ∈ c₂.history) ∧ linkAgeing.Ages c₁.rows c₂.rows := by
      rcases hkept.committed hstep with ⟨hrows, hsame | ⟨t, call, failure, hhistory⟩⟩ |
          ⟨t, call, outcome, w, m, -, -, ⟨hages, -⟩, hrows, hhistory⟩
      · exact ⟨fun a ha ↦ hsame ▸ ha, hrows ▸ .refl _⟩
      · exact ⟨fun a ha ↦ hhistory ▸ List.mem_cons_of_mem _ ha, hrows ▸ .refl _⟩
      · exact ⟨fun a ha ↦ hhistory ▸ List.mem_cons_of_mem _ ha, hrows ▸ hages⟩
    obtain ⟨htimely, hlinks₁⟩ := ih fun a ha ↦ hrotates a (hmore.1 a ha)
    refine ⟨htimely.tail ⟨hstep, ?_, ?_⟩, fun key ↦ ?_⟩
    · intro a subjectId hhistory hrotated
      exact absurd hrotated (hrotates a (hhistory ▸ List.mem_cons_self) subjectId)
    · exact fun key row hfree ↦ absurd hfree (hlinks₁ key)
    · have hages := link_ages hmore.2 key
      intro hgone
      rw [hgone] at hages
      cases hrow : Rows.link c₁.rows key with
      | none => exact hlinks₁ key hrow
      | some =>
        rw [hrow] at hages
        rcases hages with h | ⟨-, _, h⟩
        · exact nomatch h
        · exact nomatch h

end Runs

/-- Passwords hashed by a visible mark, and ASCII text. -/
def plainHasher : PasswordHasher where
  lexicon := ⟨id, id, id, fun text ↦ text == "password"⟩
  hashPassword := fun _ plain ↦ "hash of " ++ plain
  verifyPassword := fun stored plain ↦ stored == "hash of " ++ plain

def plainPolicy : PasswordPolicy := ⟨"acme", 8, false, false, false, false, false, false, 0⟩

/-- One user, with a password, and these links. -/
def oneUser (links : TokenHash → Option ActionToken) : Rows
  | ⟨.clock, _⟩ => some (0 : ℕ)
  | ⟨.subjects, id⟩ => if id = (1 : ℕ) then some () else none
  | ⟨.users, id⟩ =>
    if id = (1 : ℕ) then some ⟨"ada", some "ada@example.org", some "ada@example.org", true, false⟩
    else none
  | ⟨.passwords, id⟩ => if id = (1 : ℕ) then some "hash of first choice" else none
  | ⟨.actionTokens, key⟩ => links key
  | _ => none

/-- What was answered to each request that was not refused, and what the request was. -/
def answers (history : List (Answered (accounts plainHasher))) : List (Call × Option Outcome) :=
  history.map fun a ↦ (a.call, a.result.toOption)

variable {history : List (Answered (accounts plainHasher))}

theorem answered_of_answers {call : Call}
    {outcome : Outcome} {rest : List (Call × Option Outcome)}
    (h : answers history = (call, some outcome) :: rest) :
    ∃ a earlier, history = a :: earlier ∧ a.call = call ∧ a.result = .ok outcome ∧
      answers earlier = rest := by
  cases history with
  | nil => exact nomatch h
  | cons a earlier =>
    obtain ⟨hfirst, hrest⟩ := List.cons.inj h
    obtain ⟨hcall, hresult⟩ := Prod.mk.inj hfirst
    refine ⟨a, earlier, rfl, hcall, ?_, hrest⟩
    cases hr : a.result with
    | ok =>
      rw [hr] at hresult
      exact congrArg Except.ok (Option.some.inj hresult)
    | error =>
      rw [hr] at hresult
      exact nomatch hresult

def rotation : Call := .completeUpdatePassword plainPolicy 0 5 1 "second choice"

def redemption (key : TokenHash) : Call := .completePasswordReset plainPolicy 0 key "third choice"

/-- A reset link is issued, and the password is rotated at sign-in. -/
def rotating : List (Event (accounts plainHasher)) :=
  .begin (Call.enqueueResetLink 1 "ada@example.org" ⟨7, 100⟩) :: Schedule.runs _ 0 2 ++
    .finish 0 :: .begin rotation :: Schedule.runs _ 1 8 ++ [.finish 1]

/-- A reset link is redeemed. -/
def redeeming (t : ℕ) (key : TokenHash) (statements : ℕ) : List (Event (accounts plainHasher)) :=
  .begin (redemption key) :: Schedule.runs _ t statements ++ [.finish t]

/-- The end of a schedule and of one that follows it. -/
def performBoth (links : TokenHash → Option ActionToken)
    (first later : List (Event (accounts plainHasher))) :
    Option (Schedule.Moment (accounts plainHasher) × Schedule.Moment (accounts plainHasher)) :=
  (Schedule.performAll .free oracle (Schedule.start (oneUser links)) first).bind fun m ↦
    (Schedule.performAll .free oracle m later).map fun m' ↦ (m, m')

theorem reaches_of_performBoth {links : TokenHash → Option ActionToken}
    {first later : List (Event (accounts plainHasher))}
    {m m' : Schedule.Moment (accounts plainHasher)}
    (h : performBoth links first later = some (m, m')) :
    Reaches .free (Config.start (oneUser links)) m.config ∧ Reaches .free m.config m'.config := by
  obtain ⟨m₁, hm, hlater⟩ := Option.bind_eq_some_iff.mp h
  obtain ⟨m₂, hm', hpair⟩ := Option.map_eq_some_iff.mp hlater
  obtain ⟨rfl, rfl⟩ := Prod.mk.inj hpair
  exact ⟨Schedule.reaches hm, Schedule.reaches_later hm hm'⟩

/-- A rotation leaves a reset link that still sets the password. -/
theorem rotation_leaves_links : ¬ ∀ (hasher : PasswordHasher) (rows : Rows)
    (c c' : Config (accounts hasher)), Reaches .free (Config.start rows) c → Reaches .free c c' →
      ∀ a earlier subjectId, c.history = a :: earlier → SetsPassword a subjectId c.rows →
        ∀ key row, Rows.link c.rows key = some row → row.subjectId = subjectId →
          row.setsPassword = true →
          ∃ later, c'.history = later ++ c.history ∧ ∀ b ∈ later, ¬ Redeems b key := by
  intro hclaim
  have hplay : (performBoth (fun _ ↦ none) rotating (redeeming 2 7 12)).map (fun m ↦
      (answers m.1.config.history, Rows.link m.1.config.rows 7, answers m.2.config.history)) =
      some ([(rotation, some (.update .updated)),
          (.enqueueResetLink 1 "ada@example.org" ⟨7, 100⟩, some .enqueued)],
        some ⟨1, .resetPassword, some "ada@example.org", none, 100, none⟩,
        [(redemption 7, some (.reset (.reset false))), (rotation, some (.update .updated)),
          (.enqueueResetLink 1 "ada@example.org" ⟨7, 100⟩, some .enqueued)]) := by decide
  obtain ⟨⟨m, m'⟩, hm, hrun⟩ := Option.map_eq_some_iff.mp hplay
  simp only [Prod.mk.injEq] at hrun
  obtain ⟨hrotated, hlink, hredeemed⟩ := hrun
  obtain ⟨a, earlier, hhistory, hcall, hresult, -⟩ := answered_of_answers hrotated
  obtain ⟨b, before, hhistory', hcall', hresult', hbefore⟩ := answered_of_answers hredeemed
  obtain ⟨hc, hc'⟩ := reaches_of_performBoth hm
  obtain ⟨later, hlater, hnone⟩ := hclaim plainHasher _ _ _ hc hc' a earlier 1 hhistory
    (Or.inl ⟨_, hresult, by rw [hcall]; rfl⟩) 7 _ hlink rfl (by decide)
  cases later with
  | nil =>
    have hlength := congrArg List.length (hredeemed.symm.trans (congrArg answers hlater))
    rw [List.nil_append, hrotated] at hlength
    exact nomatch hlength
  | cons =>
    obtain ⟨rfl, -⟩ := List.cons.inj (hhistory'.symm.trans hlater)
    exact hnone b List.mem_cons_self ⟨_, hresult', by rw [hcall']; rfl⟩

/-- Two links of one user among links that were used long ago. -/
def twoLinks (key : TokenHash) : Option ActionToken :=
  if key = 7 then some ⟨1, .resetPassword, some "ada@example.org", none, 100, none⟩
  else if key = 8 then
    some ⟨1, .executeActions, some "ada@example.org", some ["update-password"], 100, none⟩
  else some ⟨1, .verifyEmail, some "ada@example.org", none, 100, some 0⟩

def actionsRedemption : Call :=
  .completeRequiredActions plainPolicy 0 8 (some "fourth choice")

theorem not_rotates_of_answers
    (h : ∀ call ∈ (answers history).map Prod.fst, ∀ outcome, call.rotates outcome = none) :
    ∀ a ∈ history, ∀ subjectId, ¬ Rotates a subjectId := by
  rintro a ha subjectId ⟨outcome, -, hrotates⟩
  have hcall : a.call ∈ (answers history).map Prod.fst := by
    rw [answers, List.map_map]
    exact List.mem_map_of_mem ha
  rw [h a.call hcall outcome] at hrotates
  exact nomatch hrotates

/-- Once the one link is redeemed the other is not. -/
theorem passwordLinks_retired_twoLinks : ∃ c c' : Config (accounts plainHasher),
    answers c.history = [(redemption 7, some (.reset (.reset false)))] ∧
    answers c'.history = [(actionsRedemption, some (.actions .invalid)),
      (redemption 7, some (.reset (.reset false)))] ∧
    ∃ later, c'.history = later ++ c.history ∧ ∀ b ∈ later, ¬ Redeems b 8 := by
  let refusal : List (Event (accounts plainHasher)) :=
    .begin actionsRedemption :: Schedule.runs _ 1 2 ++ [.finish 1]
  have hplay : (performBoth twoLinks (redeeming 0 7 12) refusal).map (fun m ↦
        (answers m.1.config.history, answers m.2.config.history)) =
      some ([(redemption 7, some (.reset (.reset false)))],
        [(actionsRedemption, some (.actions .invalid)),
          (redemption 7, some (.reset (.reset false)))]) := by decide
  obtain ⟨⟨m, m'⟩, hm, hanswers⟩ := Option.map_eq_some_iff.mp hplay
  have hrows : (performBoth twoLinks (redeeming 0 7 12) refusal).map (fun m ↦
        (Rows.link m.1.config.rows 7, Rows.link m.1.config.rows 8)) =
      some (some ⟨1, .resetPassword, some "ada@example.org", none, 100, some 0⟩,
        some ⟨1, .executeActions, some "ada@example.org", some ["update-password"], 100,
          some 0⟩) := by decide
  rw [hm] at hrows
  simp only [Option.map_some, Option.some.injEq, Prod.mk.injEq] at hanswers hrows
  obtain ⟨hredeemed, hrefused⟩ := hanswers
  obtain ⟨hseven, height⟩ := hrows
  obtain ⟨a, earlier, hhistory, hcall, hresult, -⟩ := answered_of_answers hredeemed
  obtain ⟨hc, hc'⟩ := reaches_of_performBoth hm
  have hlinks : ∀ key, Rows.link (oneUser twoLinks) key ≠ none := by
    intro key
    change twoLinks key ≠ none
    unfold twoLinks
    split_ifs <;> simp
  obtain ⟨hfirst, hlinks'⟩ := timelyRun_of_reaches .refl hlinks hc
    (not_rotates_of_answers (by simp [hredeemed, redemption, Call.rotates]))
  obtain ⟨hsecond, -⟩ := timelyRun_of_reaches hc hlinks' hc'
    (not_rotates_of_answers (by simp [hrefused, actionsRedemption, redemption, Call.rotates]))
  refine ⟨m.config, m'.config, hredeemed, hrefused, ?_⟩
  exact (passwordLinks_retired plainHasher (oneUser twoLinks)).2 m.config m'.config hfirst hsecond a
    earlier 1 hhistory (Or.inr ⟨7, _, ⟨_, hresult, by rw [hcall]; rfl⟩, hseven, rfl, by decide⟩)
    8 _ height rfl (by decide)

end Odudu.Account
