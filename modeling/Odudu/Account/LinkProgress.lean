import Odudu.Account.PasswordLinks
import Odudu.ReadCommitted.Ageing
import Odudu.ReadCommitted.Watches

/-!
# How far a redemption is

A link's row is issued once and consumed once, so the rows of `action_tokens` only age.

`links` is the watch kept on the account calls: whether a link was peeked, whether it was
consumed, and whether the links of its subject were retired after that.  `Progress.Facts` is
what is known of the rows in each of these states, and `body_watched` says that no redemption
is answered before it has consumed its link and, where the link sets a password, retired its
subject's links.
-/

set_option autoImplicit false

namespace Odudu.Account

open ReadCommitted
open ReadCommitted.Program (throw watched watched_bind watched_mono)
open DomainIdentity
open ProtocolOidc (Time SubjectId TokenHash)

/-- How the row of a link may change. -/
def LinkAges : Option ActionToken → Option ActionToken → Prop
  | none, _ => True
  | some row, after => after = some row ∨
      (row.consumedAt = none ∧ ∃ consumedAt, after = some { row with consumedAt := some consumedAt })

theorem LinkAges.refl (row : Option ActionToken) : LinkAges row row := by
  cases row with
  | none => trivial
  | some => exact Or.inl rfl

theorem LinkAges.trans {row row' row'' : Option ActionToken} (h : LinkAges row row')
    (h' : LinkAges row' row'') : LinkAges row row'' := by
  cases row with
  | none => trivial
  | some =>
    rcases h with rfl | ⟨hnone, consumedAt, rfl⟩
    · exact h'
    · rcases h' with rfl | ⟨hconsumed, -⟩
      · exact Or.inr ⟨hnone, consumedAt, rfl⟩
      · simp at hconsumed

variable {row : ActionToken}

theorem LinkAges.consumed {after : Option ActionToken}
    (h : LinkAges (some row) after) (hconsumed : row.consumedAt.isSome) : after = some row := by
  rcases h with hsame | ⟨hnone, -⟩
  · exact hsame
  · simp [hnone] at hconsumed

/-- The rows of the links age. -/
def linkAgeing : Ageing database where
  older := fun k ↦ match k with
    | ⟨.actionTokens, _⟩ => LinkAges
    | _ => fun _ _ ↦ True
  refl := by
    rintro ⟨table, id⟩ v
    cases table <;> first | exact LinkAges.refl v | trivial
  trans := by
    rintro ⟨table, id⟩ v v' v'' h h'
    cases table <;> first | exact LinkAges.trans h h' | trivial

theorem linkAgeing_ages {s s' : Rows} (h : ∀ key, LinkAges (s.link key) (s'.link key)) :
    linkAgeing.Ages s s' := by
  rintro ⟨table, id⟩
  cases table <;> first | exact h id | trivial

theorem link_ages {s s' : Rows} (h : linkAgeing.Ages s s') (key : TokenHash) :
    LinkAges (s.link key) (s'.link key) :=
  h ⟨.actionTokens, key⟩

/-- The rows with writes laid over them. -/
abbrev Rows.after (s : Rows) (w : Writes database) : Rows := w.laidOver s

theorem link_after_of_none {s : Rows} {w : Writes database} {key : TokenHash}
    (h : w ⟨.actionTokens, key⟩ = none) : (s.after w).link key = s.link key :=
  @Writes.laidOver_of_none database w _ h s

variable {cell : Option ActionToken}

theorem link_after_of_some {s : Rows} {w : Writes database} {key : TokenHash}
    (h : w ⟨.actionTokens, key⟩ = some cell) :
    (s.after w).link key = cell :=
  @Writes.laidOver_of_some database w _ _ h s

theorem effect_link_eq_none {op : Op} (h : op.writesLinks = false) (s : Rows) (key : TokenHash) :
    op.effect s ⟨.actionTokens, key⟩ = none := by
  cases op <;> first | rfl | simp [Op.writesLinks] at h

theorem effect_issue_eq_none {s : Rows} {key : TokenHash}
    (hrow : s.link key = some row) (key' : TokenHash) (row' : ActionToken) :
    (Op.actionTokenIssue key' row').effect s ⟨.actionTokens, key⟩ = none := by
  by_cases hkey : key = key'
  · subst hkey
    exact Layout.insert_of_taken (L := layout) hrow
  · exact Layout.insert_other (L := layout) hkey

/-- A consumed link is written by no method. -/
theorem effect_consumed_eq_none {s : Rows} {key : TokenHash}
    (hrow : s.link key = some row) (hconsumed : row.consumedAt.isSome) (op : Op) :
    op.effect s ⟨.actionTokens, key⟩ = none := by
  have hnot : row.consumedAt.isNone = false := by simpa using hconsumed
  cases op with
  | actionTokenIssue key' row' => exact effect_issue_eq_none hrow key' row'
  | actionTokenConsume =>
    exact Layout.update_of_unwanted (L := layout) hrow (by simp [Op.consumable, ActionToken.usable, hnot])
  | actionTokenInvalidateOutstandingPasswordLinks =>
    exact Layout.update_of_unwanted (L := layout) hrow (by simp [Op.outstandingPasswordLink, hnot])
  | _ => exact effect_link_eq_none rfl s key

/-- What a method writes to a link that is there is when it was consumed. -/
theorem effect_eq_consumed {op : Op} {s : Rows} {key : TokenHash}
    (hrow : s.link key = some row)
    (hwritten : op.effect s ⟨.actionTokens, key⟩ = some cell) :
    ∃ consumedAt, cell = some { row with consumedAt := some consumedAt } := by
  cases op with
  | actionTokenIssue => simp [effect_issue_eq_none hrow] at hwritten
  | actionTokenConsume _ _ now | actionTokenInvalidateOutstandingPasswordLinks _ now =>
    obtain ⟨row', hrow', -, rfl⟩ := Layout.update_eq_some (L := layout) hwritten
    obtain rfl := Option.some.inj (hrow.symm.trans hrow')
    exact ⟨now, rfl⟩
  | _ => exact absurd hwritten (by rw [effect_link_eq_none (by rfl)]; simp)

/-- Every method ages the rows. -/
theorem effect_ages (op : Op) (s : Rows) : linkAgeing.Ages s (s.after (op.effect s)) := by
  refine linkAgeing_ages fun key ↦ ?_
  cases hrow : s.link key with
  | none => trivial
  | some row =>
    cases hwritten : op.effect s ⟨.actionTokens, key⟩ with
    | none =>
      rw [link_after_of_none hwritten]
      exact Or.inl hrow
    | some =>
      rw [link_after_of_some hwritten]
      refine Or.inr ⟨?_, effect_eq_consumed hrow hwritten⟩
      cases hconsumed : row.consumedAt with
      | none => rfl
      | some => simp [effect_consumed_eq_none hrow (by simp [hconsumed]) op] at hwritten

/-- How far a transaction is with a link. -/
inductive Progress where
  /-- It has read no link and written none. -/
  | start
  /-- It has peeked at a link, and written none. -/
  | peeked (key : TokenHash) (link : ActionToken)
  /-- It has consumed the link it peeked at, which was answered with this subject. -/
  | held (key : TokenHash) (link : ActionToken) (subjectId : SubjectId)
  /-- It has retired the links of that subject since. -/
  | retired (key : TokenHash) (link : ActionToken)
  /-- It has written other links. -/
  | other

/-- One statement further. -/
def Progress.next : Progress → (op : Op) → op.Answer → Progress
  | start, .actionTokenPeek key _, some link => peeked key link
  | start, op, _ => if op.writesLinks then other else start
  | peeked key link, .actionTokenConsume key' _ _, some record =>
      if key' = key then held key link record.subjectId else other
  | peeked key link, op, _ => if op.writesLinks then other else peeked key link
  | held key link subjectId, .actionTokenInvalidateOutstandingPasswordLinks subjectId' _, _ =>
      if subjectId' = subjectId then retired key link else held key link subjectId
  | held key link subjectId, _, _ => held key link subjectId
  -- A link it issues itself it has not retired.
  | retired key link, .actionTokenIssue .., _ => held key link link.subjectId
  | retired key link, _, _ => retired key link
  | other, _, _ => other

/-- The watch kept on the account calls. -/
abbrev links : Watch database where
  State := Progress
  next := Progress.next

/-- A link has been consumed by the one who holds it, and by nobody else. -/
def Holds (key : TokenHash) (link : ActionToken) (w : Writes database) (s : Rows) : Prop :=
  s.link key = some link ∧ link.consumedAt = none ∧
    ∃ consumedAt, w ⟨.actionTokens, key⟩ = some (some { link with consumedAt := some consumedAt })

/-- A subject has no password link left to use. -/
def NoneOutstanding (subjectId : SubjectId) (s : Rows) : Prop :=
  ∀ key row, s.link key = some row → row.subjectId = subjectId → row.setsPassword = true →
    row.consumedAt.isSome

/-- What is known of the rows, by how far a transaction is; that the links of a subject stay
retired is known of `timely` runs. -/
def Progress.Facts (timely : Prop) : Progress → Writes database → Rows → Prop
  | start, w, _ => ∀ key, w ⟨.actionTokens, key⟩ = none
  | peeked key link, w, s =>
      (∀ key', w ⟨.actionTokens, key'⟩ = none) ∧ link.consumedAt = none ∧
        LinkAges (some link) (s.link key)
  | held key link subjectId, w, s => Holds key link w s ∧ subjectId = link.subjectId
  | retired key link, w, s =>
      Holds key link w s ∧ (timely → NoneOutstanding link.subjectId (s.after w))
  | other, _, _ => True

/-- The link a call redeems with an outcome. -/
def Call.redeems : Call → Outcome → Option TokenHash
  | completePasswordReset _ _ key _, .reset (.reset _) => some key
  | completeRequiredActions _ _ key _, .actions (.done _ _) => some key
  | _, _ => none

/-- The subject whose password a call rotates with an outcome. -/
def Call.rotates : Call → Outcome → Option SubjectId
  | completeUpdatePassword _ _ _ subjectId _, .update .updated => some subjectId
  | _, _ => none

/-- Where a call is when it is answered: a link that is redeemed is consumed, and one that
sets a password has retired its subject's links; a rotation has touched none. -/
structure Answering (call : Call) (outcome : Outcome) (m : Progress) : Prop where
  redeems : ∀ key, call.redeems outcome = some key → ∃ link, m = .retired key link ∨
    ∃ subjectId, m = .held key link subjectId ∧ link.setsPassword = false
  rotates : ∀ subjectId, call.rotates outcome = some subjectId → m = .start

theorem Answering.of_none {call : Call} {outcome : Outcome} {m : Progress}
    (hredeems : call.redeems outcome = none) (hrotates : call.rotates outcome = none) :
    Answering call outcome m where
  redeems := fun _ h ↦ by simp [hredeems] at h
  rotates := fun _ h ↦ by simp [hrotates] at h

section Bodies

variable {α β : Type} {m : Progress}

/-- A statement that neither reads nor writes links. -/
def Op.quiet : Op → Bool
  | actionTokenPeek .. => false
  | op => !op.writesLinks

theorem next_of_quiet {op : Op} (h : op.quiet = true) (a : op.Answer) : m.next op a = m := by
  cases op <;> first | (cases m <;> rfl) | simp [Op.quiet, Op.writesLinks] at h

variable {post : α → Progress → Prop}

theorem watched_quiet {op : Op} (h : op.quiet = true) {f : op.Answer → Tx α}
    (hf : ∀ a, (f a).watched links m post) :
    (query op >>= f).watched links m post := by
  refine Program.watched_ask_bind.mpr fun a ↦ ?_
  change (f a).watched links (m.next op a) post
  rw [next_of_quiet h]
  exact hf a

/-- The watch stays where it is. -/
abbrev Still (p : Tx α) : Prop := ∀ m, p.watched links m fun _ m' ↦ m' = m

theorem Still.bind {p : Tx β} (hp : Still p) {f : β → Tx α}
    (hf : ∀ b, (f b).watched links m post) : (p >>= f).watched links m post := by
  rw [watched_bind]
  refine watched_mono ?_ (hp m)
  rintro b _ rfl
  exact hf b

theorem still_findByEmail (search : String) : Still (findByEmail search) := by
  intro m
  refine watched_quiet rfl fun holder ↦ ?_
  cases holder with
  | none => rfl
  | some => exact watched_quiet rfl fun user ↦ rfl

theorem still_getUsername (subjectId : SubjectId) : Still (getUsername subjectId) := by
  intro m
  refine watched_quiet rfl fun user ↦ ?_
  cases user with
  | none => trivial
  | some => rfl

variable (hasher : PasswordHasher)

theorem still_unchangedPasswordViolations (subjectId : SubjectId) (candidate : String) :
    Still (unchangedPasswordViolations hasher subjectId candidate) := by
  intro m
  refine watched_quiet rfl fun current ↦ ?_
  cases current with
  | none | some => rfl

theorem still_newPasswordViolations (policy : PasswordPolicy) (peeked : ActionToken)
    (newPassword : String) : Still (newPasswordViolations hasher policy peeked newPassword) := by
  intro m
  refine (still_getUsername _).bind fun username ↦ ?_
  dsimp only
  split_ifs
  · rfl
  · exact still_unchangedPasswordViolations hasher _ _ m

theorem still_setPassword (subjectId : SubjectId) (hash : String) :
    Still (setPassword subjectId hash) := by
  intro m
  refine watched_quiet rfl fun current ↦ ?_
  cases current with
  | some =>
    refine watched_quiet rfl fun found ↦ ?_
    cases found with
    | false => trivial
    | true => rfl
  | none =>
    refine watched_quiet rfl fun subject ↦ ?_
    cases subject with
    | none => trivial
    | some =>
      refine watched_quiet rfl fun inserted ↦ ?_
      cases inserted with
      | false => trivial
      | true => rfl

theorem still_recoverAccount (subjectId : SubjectId) (mailedTo : Option String) :
    Still (recoverAccount subjectId mailedTo) := by
  intro m
  have hprove : Still (proveAddress subjectId mailedTo) := by
    intro m
    cases mailedTo with
    | none => rfl
    | some =>
      refine watched_quiet rfl fun claimed ↦ ?_
      cases claimed with
      | false => rfl
      | true => exact watched_quiet rfl fun removed ↦ rfl
  exact hprove.bind fun removed ↦ rfl

theorem still_addRequiredActions (subjectId : SubjectId) (actions : List LinkedRequiredAction) :
    Still (addRequiredActions subjectId actions) := by
  intro m
  induction actions with
  | nil => rfl
  | cons _ _ ih => exact watched_quiet rfl fun _ ↦ ih

/-- A link that asks for a password is consumed only with one. -/
theorem watched_refusedPassword (policy : PasswordPolicy) (peeked : ActionToken)
    (newPassword : Option String) :
    (refusedPassword hasher policy peeked newPassword).watched links m fun refusal m' ↦
      m' = m ∧ (∀ remaining factors, refusal ≠ some (.done remaining factors)) ∧
        (refusal = none → .updatePassword ∈ orderedActions (peeked.actions.getD []) →
          newPassword.isSome) := by
  by_cases hsets : LinkedRequiredAction.updatePassword ∈ orderedActions (peeked.actions.getD [])
  · cases newPassword with
    | none =>
      simp only [refusedPassword, if_pos hsets]
      exact ⟨rfl, by simp, fun h ↦ nomatch h⟩
    | some =>
      simp only [refusedPassword, if_pos hsets]
      refine (still_newPasswordViolations hasher _ _ _).bind fun violations ↦ ⟨rfl, ?_, fun _ _ ↦ rfl⟩
      split_ifs <;> simp
  · simp only [refusedPassword, if_neg hsets]
    exact ⟨rfl, by simp, fun _ h ↦ absurd h hsets⟩

theorem still_completeUpdatePassword (policy : PasswordPolicy) (salt : ℕ) (retired : CredentialId)
    (subjectId : SubjectId) (password : String) :
    Still (completeUpdatePassword hasher policy salt retired subjectId password) := by
  intro m
  refine watched_quiet rfl fun startedAt ↦ watched_quiet rfl fun user ↦ ?_
  cases user with
  | none => trivial
  | some =>
    dsimp only
    split_ifs
    · rfl
    · refine watched_quiet rfl fun current ↦ ?_
      cases current with
      | none => trivial
      | some =>
        refine watched_quiet rfl fun history ↦ ?_
        split_ifs
        · rfl
        · refine Still.bind ?_ fun rotated ↦ watched_quiet rfl fun _ ↦ rfl
          intro m
          refine watched_quiet rfl fun rotated ↦ ?_
          cases rotated with
          | false => rfl
          | true => exact watched_quiet rfl fun _ ↦ watched_quiet rfl fun _ ↦ rfl

/-- A redemption that sets a password goes on to retire the subject's links. -/
theorem watched_setRecoveredPassword (salt : ℕ) (key : TokenHash) (link record : ActionToken)
    (newPassword : String) :
    (setRecoveredPassword hasher salt record newPassword).watched links
      (.held key link record.subjectId) fun _ m' ↦ m' = .retired key link := by
  refine (still_setPassword _ _).bind fun _ ↦ (still_recoverAccount _ _).bind fun factors ↦
    watched_quiet rfl fun _ ↦ watched_quiet rfl fun now ↦ Program.watched_ask_bind.mpr fun _ ↦ ?_
  exact if_pos rfl

variable {f : Option ActionToken → Tx α}

/-- The statement that consumes the link that was peeked at. -/
theorem watched_consume {key : TokenHash} {link : ActionToken} {type : ActionTokenType} {now : Time}
    (hnone : (f none).watched links .other post)
    (hsome : ∀ record, (f (some record)).watched links (.held key link record.subjectId) post) :
    (query (.actionTokenConsume key type now) >>= f).watched links (.peeked key link) post := by
  refine Program.watched_ask_bind.mpr fun record ↦ ?_
  cases record with
  | none => exact hnone
  | some record =>
    change (f (some record)).watched links
      (if key = key then .held key link record.subjectId else .other) post
    rw [if_pos rfl]
    exact hsome record

theorem watched_peek {key : TokenHash} {now : Time}
    (hnone : (f none).watched links .start post)
    (hsome : ∀ link, (f (some link)).watched links (.peeked key link) post) :
    (query (.actionTokenPeek key now) >>= f).watched links .start post := by
  refine Program.watched_ask_bind.mpr fun link ↦ ?_
  cases link with
  | none => exact hnone
  | some link => exact hsome link

/-- Where a redemption that is answered with a link's redemption is. -/
def Redeemed (redeemed : α → Prop) (key : TokenHash) (result : α) (m : Progress) : Prop :=
  redeemed result → ∃ link, m = .retired key link ∨
    ∃ subjectId, m = .held key link subjectId ∧ link.setsPassword = false

theorem watched_completePasswordReset (policy : PasswordPolicy) (salt : ℕ) (key : TokenHash)
    (newPassword : String) :
    (completePasswordReset hasher policy salt key newPassword).watched links .start
      (Redeemed (fun result ↦ ∃ factors, result = .reset factors) key) := by
  refine watched_quiet rfl fun now ↦ watched_peek ?_ fun link ↦ ?_
  · rintro ⟨factors, hresult⟩
    exact nomatch hresult
  · dsimp only
    split_ifs
    · rintro ⟨factors, hresult⟩
      exact nomatch hresult
    · refine (still_newPasswordViolations hasher _ _ _).bind fun violations ↦ ?_
      split_ifs
      · rintro ⟨factors, hresult⟩
        exact nomatch hresult
      · refine watched_quiet rfl fun now ↦ watched_consume ?_ fun record ↦ ?_
        · rintro ⟨factors, hresult⟩
          exact nomatch hresult
        · rw [watched_bind]
          refine watched_mono ?_ (watched_setRecoveredPassword hasher salt key link record newPassword)
          rintro factors _ rfl -
          exact ⟨link, Or.inl rfl⟩

/-- What the redemption of an actions link is watched to. -/
abbrev ActionsRedeemed (key : TokenHash) : CompleteRequiredActionsResult → Progress → Prop :=
  Redeemed (fun result ↦ ∃ remaining factors, result = .done remaining factors) key

theorem watched_takeThroughActions (salt : ℕ) (key : TokenHash) (link record : ActionToken)
    (newPassword : Option String) (htype : link.type = .executeActions)
    (hpassword : .updatePassword ∈ orderedActions (link.actions.getD []) → newPassword.isSome) :
    (takeThroughActions hasher salt (orderedActions (link.actions.getD [])) newPassword
      record).watched links (.held key link record.subjectId) (ActionsRedeemed key) := by
  by_cases hsets : LinkedRequiredAction.updatePassword ∈ orderedActions (link.actions.getD [])
  · obtain ⟨password, rfl⟩ := Option.isSome_iff_exists.mp (hpassword hsets)
    simp only [takeThroughActions, if_pos hsets]
    rw [watched_bind]
    refine watched_mono ?_ (watched_setRecoveredPassword hasher salt key link record password)
    rintro factors _ rfl
    exact (still_addRequiredActions _ _).bind fun _ _ ↦ ⟨link, Or.inl rfl⟩
  · have hnot : link.setsPassword = false := by
      rw [mem_orderedActions_updatePassword, Bool.not_eq_true] at hsets
      rw [ActionToken.setsPassword, hsets, htype]
      rfl
    cases newPassword with
    | none =>
      exact (still_addRequiredActions _ _).bind fun _ _ ↦ ⟨link, Or.inr ⟨_, rfl, hnot⟩⟩
    | some =>
      simp only [takeThroughActions, if_neg hsets]
      exact (still_addRequiredActions _ _).bind fun _ _ ↦ ⟨link, Or.inr ⟨_, rfl, hnot⟩⟩

theorem watched_redeemActionsLink (policy : PasswordPolicy) (salt : ℕ) (key : TokenHash)
    (link : ActionToken) (newPassword : Option String) (htype : link.type = .executeActions) :
    (redeemActionsLink hasher policy salt key link newPassword).watched links (.peeked key link)
      (ActionsRedeemed key) := by
  rw [redeemActionsLink, watched_bind]
  refine watched_mono ?_ (watched_refusedPassword hasher policy link newPassword)
  rintro refusal _ ⟨rfl, hrefusal, hpassword⟩
  cases refusal with
  | some =>
    rintro ⟨remaining, factors, rfl⟩
    exact absurd rfl (hrefusal remaining factors)
  | none =>
    refine watched_quiet rfl fun now ↦ watched_consume ?_ fun record ↦ ?_
    · rintro ⟨remaining, factors, hresult⟩
      exact nomatch hresult
    · exact watched_takeThroughActions hasher salt key link record newPassword htype
        (hpassword rfl)

theorem watched_completeRequiredActions (policy : PasswordPolicy) (salt : ℕ) (key : TokenHash)
    (newPassword : Option String) :
    (completeRequiredActions hasher policy salt key newPassword).watched links .start
      (ActionsRedeemed key) := by
  refine watched_quiet rfl fun now ↦ watched_peek ?_ fun link ↦ ?_
  · rintro ⟨remaining, factors, hresult⟩
    exact nomatch hresult
  · dsimp only
    split_ifs with htype
    · rintro ⟨remaining, factors, hresult⟩
      exact nomatch hresult
    · exact watched_redeemActionsLink hasher policy salt key link newPassword (by simpa using htype)

theorem watched_issue (subjectId : SubjectId) (type : ActionTokenType) (email : Option String)
    (actions : Option (List String)) (link : MailLink) {f : Unit → Tx α}
    (hf : ∀ m, (f ()).watched links m post) :
    (issue subjectId type email actions link >>= f).watched links m post := by
  rw [watched_bind]
  refine watched_quiet rfl fun now ↦ Program.watched_ask_bind.mpr fun inserted ↦ ?_
  cases inserted with
  | false => trivial
  | true => exact hf _

/-- No call is answered before it has done to the links what its answer says. -/
theorem body_watched (call : Call) :
    (call.body hasher).watched links .start (Answering call) := by
  cases call with
  | tick => exact watched_quiet rfl fun _ ↦ .of_none rfl rfl
  | requestPasswordReset issuerBase mailGate search link =>
    cases issuerBase with
    | false => exact .of_none rfl rfl
    | true =>
      change (requestPasswordReset true mailGate search link >>= _).watched links .start _
      rw [watched_bind]
      refine (still_findByEmail search).bind fun holder ↦ ?_
      cases holder with
      | none => exact .of_none rfl rfl
      | some =>
        cases mailGate with
        | false => exact .of_none rfl rfl
        | true => exact watched_issue _ _ _ _ link fun m ↦ .of_none rfl rfl
  | enqueueResetLink _ _ link => exact watched_issue _ _ _ _ link fun m ↦ .of_none rfl rfl
  | enqueueActionsLink subjectId email actions link =>
    change (enqueueActionsLink subjectId email actions link >>= _).watched links .start _
    rw [enqueueActionsLink]
    split_ifs
    · trivial
    · exact watched_issue _ _ _ _ link fun m ↦ .of_none rfl rfl
  | completePasswordReset policy salt key newPassword =>
    change (completePasswordReset hasher policy salt key newPassword >>= _).watched links .start _
    rw [watched_bind]
    refine watched_mono ?_ (watched_completePasswordReset hasher policy salt key newPassword)
    intro result m hredeemed
    refine ⟨?_, fun _ h ↦ nomatch h⟩
    cases result with
    | reset factors =>
      rintro _ ⟨rfl⟩
      exact hredeemed ⟨factors, rfl⟩
    | invalid | invalidPassword => exact fun _ h ↦ nomatch h
  | completeRequiredActions policy salt key newPassword =>
    change (completeRequiredActions hasher policy salt key newPassword >>= _).watched links .start _
    rw [watched_bind]
    refine watched_mono ?_ (watched_completeRequiredActions hasher policy salt key newPassword)
    intro result m hredeemed
    refine ⟨?_, fun _ h ↦ nomatch h⟩
    cases result with
    | done remaining factors =>
      rintro _ ⟨rfl⟩
      exact hredeemed ⟨remaining, factors, rfl⟩
    | invalid | passwordRequired | invalidPassword => exact fun _ h ↦ nomatch h
  | completeUpdatePassword policy salt retired subjectId password =>
    refine (still_completeUpdatePassword hasher policy salt retired subjectId password).bind ?_
    exact fun outcome ↦ ⟨fun _ h ↦ (nomatch h), fun _ _ ↦ rfl⟩

end Bodies

section Facts

variable {timely : Prop} {s : Rows} {w : Writes database} {key : TokenHash} {link : ActionToken}

theorem Holds.seen (h : Holds key link w s) :
    ∃ consumedAt, (s.after w).link key = some { link with consumedAt := some consumedAt } := by
  obtain ⟨-, -, consumedAt, hwritten⟩ := h
  exact ⟨consumedAt, link_after_of_some hwritten⟩

theorem Holds.andThen (h : Holds key link w s) (op : Op) :
    Holds key link (w.andThen (op.effect (s.after w))) s := by
  obtain ⟨consumedAt, hseen⟩ := h.seen
  obtain ⟨hrow, hnone, consumedAt', hwritten⟩ := h
  have hkept : op.effect (s.after w) ⟨.actionTokens, key⟩ = none :=
    effect_consumed_eq_none hseen rfl op
  exact ⟨hrow, hnone, consumedAt', (Writes.andThen_of_none hkept).trans hwritten⟩

/-- The rows a subject's links are retired in. -/
theorem noneOutstanding_of_invalidate (subjectId : SubjectId) (now : Time) (v : Rows) :
    NoneOutstanding subjectId
      (v.after ((Op.actionTokenInvalidateOutstandingPasswordLinks subjectId now).effect v)) := by
  intro key row hrow hsubject hsets
  let op := Op.actionTokenInvalidateOutstandingPasswordLinks subjectId now
  cases hbefore : v.link key with
  | none =>
    have hkept : op.effect v ⟨.actionTokens, key⟩ = none := Layout.update_of_none (L := layout) hbefore
    rw [link_after_of_none hkept, hbefore] at hrow
    exact nomatch hrow
  | some before =>
    by_cases hwanted : Op.outstandingPasswordLink subjectId before = true
    · have hwritten : op.effect v ⟨.actionTokens, key⟩ =
          some (some { before with consumedAt := some now }) :=
        Layout.update_of_wanted (L := layout) hbefore hwanted
      rw [link_after_of_some hwritten] at hrow
      obtain rfl := Option.some.inj hrow
      rfl
    · rw [Bool.not_eq_true] at hwanted
      have hkept : op.effect v ⟨.actionTokens, key⟩ = none :=
        Layout.update_of_unwanted (L := layout) hbefore hwanted
      rw [link_after_of_none hkept, hbefore] at hrow
      obtain rfl := Option.some.inj hrow
      simpa [Op.outstandingPasswordLink, hsubject, hsets, Option.isSome_iff_ne_none] using hwanted

variable {op : Op}

/-- A statement other than the issue of a link writes to no link that is not there. -/
theorem effect_free_eq_none {v : Rows} (hfree : v.link key = none)
    (hissue : ∀ key row, op ≠ .actionTokenIssue key row) :
    op.effect v ⟨.actionTokens, key⟩ = none := by
  cases op with
  | actionTokenIssue key' row' => exact absurd rfl (hissue key' row')
  | actionTokenConsume => exact Layout.update_of_none (L := layout) hfree
  | actionTokenInvalidateOutstandingPasswordLinks =>
    exact Layout.update_of_none (L := layout) hfree
  | _ => exact effect_link_eq_none rfl v key

/-- It leaves a subject with no link to use. -/
theorem NoneOutstanding.after {subjectId : SubjectId} {v : Rows}
    (h : NoneOutstanding subjectId v) (hissue : ∀ key row, op ≠ .actionTokenIssue key row) :
    NoneOutstanding subjectId (v.after (op.effect v)) := by
  intro key row hrow hsubject hsets
  cases hbefore : v.link key with
  | none =>
    rw [link_after_of_none (effect_free_eq_none hbefore hissue), hbefore] at hrow
    exact nomatch hrow
  | some before =>
    rcases hbefore ▸ link_ages (effect_ages op v) key with hsame | ⟨-, consumedAt, hconsumed⟩
    · obtain rfl := Option.some.inj (hsame.symm.trans hrow)
      exact h key before hbefore hsubject hsets
    · obtain rfl := Option.some.inj (hconsumed.symm.trans hrow)
      rfl

theorem andThen_link_eq_none (hw : ∀ key, w ⟨.actionTokens, key⟩ = none)
    (hop : op.writesLinks = false) (key : TokenHash) :
    (w.andThen (op.effect (s.after w))) ⟨.actionTokens, key⟩ = none :=
  Writes.andThen_eq_none.mpr ⟨hw key, effect_link_eq_none hop _ key⟩

theorem peeked_of_answers {now : Time} (hw : ∀ key, w ⟨.actionTokens, key⟩ = none)
    (ha : Op.Answers (.actionTokenPeek key now) (s.after w) (some link)) :
    link.consumedAt = none ∧ s.link key = some link := by
  obtain ⟨hrow, husable⟩ := Option.filter_eq_some_iff.mp (Option.some.inj ha)
  rw [link_after_of_none (hw key)] at hrow
  refine ⟨?_, hrow⟩
  have hboth := Bool.and_eq_true_iff.mp husable
  simpa using hboth.1

/-- What the consumption of the link that was peeked at answers. -/
theorem held_of_answers {type : ActionTokenType} {now : Time} {record : ActionToken}
    (h : Progress.Facts timely (.peeked key link) w s)
    (ha : Op.Answers (.actionTokenConsume key type now) (s.after w) (some record)) :
    Progress.Facts timely (.held key link record.subjectId)
      (w.andThen ((Op.actionTokenConsume key type now).effect (s.after w))) s := by
  obtain ⟨hw, hnone, hages⟩ := h
  obtain ⟨row, hfound, rfl⟩ := Option.map_eq_some_iff.mp (Option.some.inj ha)
  obtain ⟨hrow, hwanted⟩ := Option.filter_eq_some_iff.mp hfound
  have hrow' : s.link key = some row := (link_after_of_none (hw key)).symm.trans hrow
  have hunconsumed : row.consumedAt = none := by
    simp only [Op.consumable, ActionToken.usable, Bool.and_eq_true] at hwanted
    simpa using hwanted.2.1
  have hsame : row = link := by
    rw [hrow'] at hages
    rcases hages with hsame | ⟨-, consumedAt, hconsumed⟩
    · exact Option.some.inj hsame
    · rw [Option.some.inj hconsumed] at hunconsumed
      exact nomatch hunconsumed
  subst hsame
  have hwritten : (Op.actionTokenConsume key type now).effect (s.after w) ⟨.actionTokens, key⟩ =
      some (some { row with consumedAt := some now }) :=
    Layout.update_of_wanted (L := layout) hrow hwanted
  exact ⟨⟨hrow', hnone, now, Writes.andThen_of_some hwritten⟩, rfl⟩

end Facts

end Odudu.Account
