import Odudu.Mcp.TokenSource

/-!
# Refresh tokens that are sent again

A refresh token is in the store, in the memory of a process that could not store it, or with one
that has just signed in.  As long as each refresh leaves the store as the server has it
(`RefreshesSafely`), none of these was answered yet (`Unspent`), which every step keeps
(`unspent_step`): so no token is sent again once the server answered a refresh made with it.

A process that could not store the token it was given leaves the spent one in the store, where the
next reads it; so does one that was given none, or could not clear the store
(`spent_tokens_are_sent_again`).
-/

set_option autoImplicit false

namespace Odudu.Mcp.TokenSource

open Runs

variable {Token Proc : Type}

/-- The refresh token that the store shows. -/
def shownToken (store : CredentialStore (StoredText Token)) : Option Token :=
  (store.shown.bind decodeStored).map StoredSignIn.refreshToken

/-- The server answered a refresh made with the token. -/
def AnsweredIn (requests : List (RefreshRequest Token)) (token : Token) : Prop :=
  ∃ request ∈ requests, request.answered ∧ request.token = token

variable {token : Token} {set : TokenSet Token}

theorem keepsRefreshToken_eq_some {scope : Scope}
    (h : keepsRefreshToken scope set = some token) : set.refreshToken = some token := by
  unfold keepsRefreshToken at h
  split at h
  next => exact nomatch h
  next => exact h

/-! ### Under the lock -/

namespace Held

variable {scope : Scope} {server : Authority} {w : Held Token} {replies : Replies Token}

theorem refreshStored_write [DecidableEq Token] :
    w.refreshStored .mcpWrite server replies = (some none, w) := rfl

theorem keep_write [DecidableEq Token] (set : TokenSet Token) (put : PutReply) :
    w.keep .mcpWrite server set put = w := rfl

/-- A refresh token that is kept is shown, or is in the memory of the process. -/
theorem keep_cases [DecidableEq Token] {put : PutReply} (hreach : w.store.ReachesPut put)
    {set : TokenSet Token} {token : Token} (hkeeps : keepsRefreshToken scope set = some token) :
    (w.keep scope server set put).requests = w.requests ∧
      (shownToken (w.keep scope server set put).store = some token ∧
          (∀ kept ∈ (w.keep scope server set put).unsaved, kept.refreshToken = token) ∨
        (w.keep scope server set put).unsaved.map StoredSignIn.refreshToken = some token ∧
          (shownToken (w.keep scope server set put).store = shownToken w.store ∨
            shownToken (w.keep scope server set put).store = none)) := by
  have hshown := @CredentialStore.shown_put _ w.store
    (encodeStored ⟨token, server.issuer, server.tokenEndpoint⟩) put _ hreach
  rcases hput : w.store.put (encodeStored ⟨token, server.issuer, server.tokenEndpoint⟩) put with
    ⟨stored, store⟩
  rw [hput] at hshown
  cases stored with
  | true =>
    have hkeep : w.keep scope server set put = { w with store, unsaved := none } := by
      simp only [keep, hkeeps, hput]
    rw [hkeep]
    refine ⟨rfl, .inl ⟨?_, nofun⟩⟩
    rcases hshown with hshown | ⟨hfalse, -⟩
    · rw [shownToken, hshown]
      rfl
    · exact nomatch hfalse
  | false =>
    have hkeep : w.keep scope server set put =
        { w with store, unsaved := some ⟨token, server.issuer, server.tokenEndpoint⟩ } := by
      simp only [keep, hkeeps, hput]
    rw [hkeep]
    refine ⟨rfl, ?_⟩
    rcases hshown with hshown | ⟨-, hshown | hshown⟩
    · refine .inl ⟨?_, ?_⟩
      · rw [shownToken, hshown]
        rfl
      · rintro kept ⟨⟩
        rfl
    · exact .inr ⟨rfl, .inl (by rw [shownToken, hshown, shownToken])⟩
    · exact .inr ⟨rfl, .inr (by rw [shownToken, hshown]; rfl)⟩

theorem shownToken_forgets {reply : ClearReply} (hclears : reply.removes ∧ reply.clearsFile) :
    shownToken (w.forgets reply).store = none := by
  rw [shownToken, forgets, CredentialStore.shown_clear hclears.1 hclears.2]
  rfl

/-- The refresh token a process presents is its own, or the store's where it has none. -/
def Presents (w : Held Token) (token : Token) : Prop :=
  w.unsaved.map StoredSignIn.refreshToken = some token ∨
    w.unsaved = none ∧ shownToken w.store = some token

/-- What a look for the stored sign-in comes to. -/
theorem storedSignIn_cases (hreach : w.store.ReachesGet replies.get) :
    w.storedSignIn .mcpRead server replies = (none, w) ∨
      w.storedSignIn .mcpRead server replies = (some none, w) ∧ w.unsaved = none ∨
      (∃ token, w.storedSignIn .mcpRead server replies = (some (some token), w) ∧
        w.Presents token) ∨
      w.storedSignIn .mcpRead server replies = w.forget replies.clear := by
  unfold storedSignIn
  rw [if_neg (by decide)]
  cases hunsaved : w.unsaved with
  | some kept =>
    simp only [Option.isNone_some, Bool.false_eq_true, if_false, Option.some_or]
    by_cases hmatches : storedMatches kept server
    · rw [if_pos hmatches]
      exact .inr (.inr (.inl ⟨_, rfl, .inl (by rw [hunsaved]; rfl)⟩))
    · rw [if_neg hmatches]
      exact .inr (.inr (.inr rfl))
  | none =>
    simp only [Option.isNone_none, if_true, Option.none_or]
    cases hget : w.store.get replies.get with
    | none => exact .inl rfl
    | some text =>
      have htext := CredentialStore.get_eq_some hreach hget
      dsimp only
      cases hheld : text.bind decodeStored with
      | some stored =>
        dsimp only
        by_cases hmatches : storedMatches stored server
        · rw [if_pos hmatches]
          refine .inr (.inr (.inl ⟨_, rfl, .inr ⟨hunsaved, ?_⟩⟩))
          rw [shownToken, ← htext, hheld]
          rfl
        · rw [if_neg hmatches]
          exact .inr (.inr (.inr rfl))
      | none =>
        dsimp only
        by_cases htext : text.isSome
        · rw [if_pos htext]
          exact .inr (.inr (.inr rfl))
        · rw [if_neg htext]
          exact .inr (.inl ⟨rfl, trivial⟩)

/-- What a refresh of the stored sign-in comes to. -/
theorem refreshStored_cases [DecidableEq Token] (hreach : w.store.ReachesGet replies.get) :
    w.refreshStored .mcpRead server replies = (none, w) ∨
      w.refreshStored .mcpRead server replies = (some none, w) ∧ w.unsaved = none ∨
      w.refreshStored .mcpRead server replies = w.forget replies.clear ∨
      ∃ token, w.Presents token ∧
        (w.refreshStored .mcpRead server replies = (none, w.sends token false) ∨
          (∃ set, replies.refresh = .tokens set ∧
            w.refreshStored .mcpRead server replies =
              (some (some set), (w.sends token true).keep .mcpRead server set replies.put)) ∨
          w.refreshStored .mcpRead server replies = (w.sends token true).forget replies.clear) := by
  rcases @storedSignIn_cases _ server w replies hreach with
    hstored | ⟨hstored, hnone⟩ | ⟨token, hstored, hpresents⟩ | hstored
  · exact .inl (by simp only [refreshStored, hstored])
  · exact .inr (.inl ⟨by simp only [refreshStored, hstored], hnone⟩)
  · refine .inr (.inr (.inr ⟨token, hpresents, ?_⟩))
    cases hrefresh : replies.refresh with
    | unanswered => exact .inl (by simp only [refreshStored, hstored, hrefresh])
    | tokens set => exact .inr (.inl ⟨set, rfl, by simp only [refreshStored, hstored, hrefresh]⟩)
    | grantEnded => exact .inr (.inr (by simp only [refreshStored, hstored, hrefresh]))
  · refine .inr (.inr (.inl ?_))
    simp only [refreshStored, hstored, forget]
    by_cases hcleared : (w.store.clear replies.clear).1
    · simp only [if_pos hcleared]
    · simp only [if_neg hcleared]

end Held

/-! ### Where refresh tokens are -/

/-- The refresh token that a process has to itself, at a stage and with what it could not store. -/
def ownToken (unsaved : Option (StoredSignIn Token)) : Stage Token → Option Token
  | .keeping set => set.refreshToken
  | _ => unsaved.map StoredSignIn.refreshToken

def SignIns.own (s : SignIns Token Proc) (p : Proc) : Option Token :=
  ownToken (s.unsaved p) (s.stage p)

/-- No refresh token that a process has to itself was answered or is another's, and one that the
store shows was answered only while a process has one that it could not store. -/
structure Unspent (processes : Proc → Process) (s : SignIns Token Proc) : Prop where
  never : NeverReplays s.requests
  answered_issued : ∀ token, AnsweredIn s.requests token → token ∈ s.issued
  own_issued : ∀ p, ∀ token ∈ s.own p, token ∈ s.issued
  own_unanswered : ∀ p, ∀ token ∈ s.own p, ¬AnsweredIn s.requests token
  own_apart : ∀ p q, ∀ token, token ∈ s.own p → token ∈ s.own q → p = q
  busy : ∀ p, s.stage p ≠ .idle → s.unsaved p = none
  writer : ∀ p, (processes p).scope = .mcpWrite → s.unsaved p = none
  keeping_hidden : ∀ p set, s.stage p = .keeping set → ∀ token ∈ set.refreshToken,
    shownToken s.store ≠ some token
  shown_issued : ∀ token ∈ shownToken s.store, token ∈ s.issued
  shown_unanswered : ∀ token ∈ shownToken s.store, AnsweredIn s.requests token →
    ∃ p, (s.unsaved p).isSome

variable {processes : Proc → Process} {s : SignIns Token Proc} {p : Proc} {w : Held Token}
  {stage : Stage Token} {new : List Token}

theorem unspent_new (store : CredentialStore (StoredText Token)) :
    Unspent processes (SignIns.new store : SignIns Token Proc) where
  never := .nil
  answered_issued := by
    rintro token ⟨_, ⟨⟩, -⟩
  own_issued := nofun
  own_unanswered := nofun
  own_apart := nofun
  busy := fun _ _ ↦ rfl
  writer := fun _ _ ↦ rfl
  keeping_hidden := nofun
  shown_issued := by
    intro token htoken
    obtain ⟨stored, hstored, rfl⟩ := Option.mem_map.mp htoken
    exact List.mem_map_of_mem (Option.mem_toList.mpr hstored)
  shown_unanswered := by
    rintro token - ⟨_, ⟨⟩, -⟩

/-- What a process leaves when it lets the lock go, beside the others. -/
structure LeavesUnspent (processes : Proc → Process) (s : SignIns Token Proc) (p : Proc)
    (w : Held Token) (stage : Stage Token) (new : List Token) : Prop where
  never : NeverReplays w.requests
  answered_issued : ∀ token, AnsweredIn w.requests token → token ∈ s.issued
  others_unanswered : ∀ q ≠ p, ∀ token ∈ s.own q, ¬AnsweredIn w.requests token
  others_hidden : ∀ q ≠ p, ∀ set, s.stage q = .keeping set → ∀ token ∈ set.refreshToken,
    shownToken w.store ≠ some token
  own : ∀ token ∈ ownToken w.unsaved stage, token ∈ new ++ s.issued ∧
    ¬AnsweredIn w.requests token ∧ ∀ q ≠ p, token ∉ s.own q
  busy : stage ≠ .idle → w.unsaved = none
  writer : (processes p).scope = .mcpWrite → w.unsaved = none
  hidden : ∀ set, stage = .keeping set → ∀ token ∈ set.refreshToken,
    shownToken w.store ≠ some token
  shown_issued : ∀ token ∈ shownToken w.store, token ∈ new ++ s.issued
  shown_unanswered : ∀ token ∈ shownToken w.store, AnsweredIn w.requests token →
    w.unsaved.isSome ∨ ∃ q ≠ p, (s.unsaved q).isSome

section Leaves

variable [DecidableEq Proc]

variable (w stage) in
/-- What holds of a process that left and of every other one. -/
theorem leaves_cases
    {P : Proc → Option Token → Stage Token → Option (StoredSignIn Token) → Prop}
    (hself : P p (ownToken w.unsaved stage) stage w.unsaved)
    (hothers : ∀ q ≠ p, P q (s.own q) (s.stage q) (s.unsaved q)) (q : Proc) :
    P q ((s.leaves p w stage).own q) ((s.leaves p w stage).stage q)
      ((s.leaves p w stage).unsaved q) := by
  by_cases hq : q = p
  · subst hq
    simpa only [SignIns.own, SignIns.leaves, Function.update_self] using hself
  · simpa only [SignIns.own, SignIns.leaves, Function.update_of_ne hq] using hothers q hq

theorem Unspent.leaves (h : Unspent processes s) (hw : LeavesUnspent processes s p w stage new) :
    Unspent processes ((s.leaves p w stage).issue new) where
  never := hw.never
  answered_issued := fun token htoken ↦ List.mem_append_right _ (hw.answered_issued token htoken)
  own_issued := leaves_cases w stage (P := fun _ own _ _ ↦ ∀ token ∈ own, token ∈ new ++ s.issued)
    (fun token htoken ↦ (hw.own token htoken).1)
    fun q _ token htoken ↦ List.mem_append_right _ (h.own_issued q token htoken)
  own_unanswered := leaves_cases w stage (P := fun _ own _ _ ↦ ∀ token ∈ own, ¬AnsweredIn w.requests token)
    (fun token htoken ↦ (hw.own token htoken).2.1) hw.others_unanswered
  own_apart := by
    intro q r token
    refine leaves_cases w stage (P := fun q own _ _ ↦ token ∈ own → token ∈ (s.leaves p w stage).own r →
      q = r) (fun hqtoken ↦ ?_) (fun q hq hqtoken ↦ ?_) q
    · exact leaves_cases w stage (P := fun r own _ _ ↦ token ∈ own → p = r) (fun _ ↦ rfl)
        (fun r hr hrtoken ↦ absurd hrtoken ((hw.own token hqtoken).2.2 r hr)) r
    · exact leaves_cases w stage (P := fun r own _ _ ↦ token ∈ own → q = r)
        (fun hrtoken ↦ absurd hqtoken ((hw.own token hrtoken).2.2 q hq))
        (fun r _ ↦ h.own_apart q r token hqtoken) r
  busy := leaves_cases w stage (P := fun _ _ stage unsaved ↦ stage ≠ .idle → unsaved = none) hw.busy
    fun q _ ↦ h.busy q
  writer := leaves_cases w stage (P := fun q _ _ unsaved ↦ (processes q).scope = .mcpWrite → unsaved = none)
    hw.writer fun q _ ↦ h.writer q
  keeping_hidden := leaves_cases w stage (P := fun _ _ stage _ ↦ ∀ set, stage = .keeping set →
    ∀ token ∈ set.refreshToken, shownToken w.store ≠ some token) hw.hidden hw.others_hidden
  shown_issued := hw.shown_issued
  shown_unanswered := by
    intro token htoken hanswered
    rcases hw.shown_unanswered token htoken hanswered with hown | ⟨q, hq, hsome⟩
    · exact ⟨p, by simpa [SignIns.leaves, SignIns.issue] using hown⟩
    · exact ⟨q, by simpa [SignIns.leaves, SignIns.issue, hq] using hsome⟩

end Leaves

/-! ### What a process leaves -/

theorem answeredIn_cons {requests : List (RefreshRequest Token)} {sent token : Token}
    {answered : Bool} : AnsweredIn (⟨sent, answered⟩ :: requests) token ↔
      answered ∧ sent = token ∨ AnsweredIn requests token := by
  simp only [AnsweredIn, List.mem_cons, exists_eq_or_imp]

/-- What a process could not store is its own, whatever its stage. -/
theorem Unspent.mem_own (h : Unspent processes s)
    (htoken : token ∈ (s.unsaved p).map StoredSignIn.refreshToken) : token ∈ s.own p := by
  cases hstage : s.stage p with
  | idle | signingIn => rwa [SignIns.own, hstage]
  | keeping =>
    rw [h.busy p (by rw [hstage]; exact nofun)] at htoken
    exact nomatch htoken

/-- The requests after a process sent one of its own, or none. -/
structure SentBeside (s : SignIns Token Proc) (p : Proc) (requests : List (RefreshRequest Token)) :
    Prop where
  never : NeverReplays requests
  answered_issued : ∀ token, AnsweredIn requests token → token ∈ s.issued
  others_unanswered : ∀ q ≠ p, ∀ token ∈ s.own q, ¬AnsweredIn requests token

theorem Unspent.sentBeside (h : Unspent processes s) : SentBeside s p s.requests where
  never := h.never
  answered_issued := h.answered_issued
  others_unanswered := fun q _ ↦ h.own_unanswered q

/-- A token that was not answered yet, and is no other's, is sent. -/
theorem Unspent.sentBeside_cons (h : Unspent processes s) (answered : Bool)
    (hissued : token ∈ s.issued) (hunanswered : ¬AnsweredIn s.requests token)
    (hothers : ∀ q ≠ p, token ∉ s.own q) : SentBeside s p (⟨token, answered⟩ :: s.requests) where
  never := by
    refine List.pairwise_cons.mpr ⟨fun request hrequest hanswered heq ↦ ?_, h.never⟩
    exact hunanswered ⟨request, hrequest, hanswered, heq.symm⟩
  answered_issued := by
    intro other hother
    rcases answeredIn_cons.mp hother with ⟨-, rfl⟩ | hother
    · exact hissued
    · exact h.answered_issued other hother
  others_unanswered := by
    intro q hq other hother hanswered
    rcases answeredIn_cons.mp hanswered with ⟨-, rfl⟩ | hanswered
    · exact hothers q hq hother
    · exact h.own_unanswered q other hother hanswered

/-- A token that is presented was not answered yet, and is no other process's. -/
theorem Unspent.of_presents [DecidableEq Proc] (h : Unspent processes s)
    (halone : s.unsaved p = none → ∀ other, s.unsaved other = none)
    (hpresents : (s.held p).Presents token) :
    token ∈ s.issued ∧ ¬AnsweredIn s.requests token ∧ ∀ q ≠ p, token ∉ s.own q := by
  rcases hpresents with hown | ⟨hnone, hshown⟩
  · have hmem : token ∈ s.own p := h.mem_own hown
    exact ⟨h.own_issued p token hmem, h.own_unanswered p token hmem,
      fun q hq hother ↦ hq (h.own_apart q p token hother hmem)⟩
  · have hnone' := halone hnone
    refine ⟨h.shown_issued token hshown, fun hanswered ↦ ?_, fun q _ hother ↦ ?_⟩
    · obtain ⟨q, hsome⟩ := h.shown_unanswered token hshown hanswered
      rw [hnone' q] at hsome
      exact nomatch hsome
    · cases hstage : s.stage q with
      | idle | signingIn =>
        rw [SignIns.own, hstage, hnone' q] at hother
        exact nomatch hother
      | keeping set =>
        rw [SignIns.own, hstage] at hother
        exact h.keeping_hidden q set hstage token hother hshown

/-- The store and the memory stay as they are, and no answer came. -/
theorem Unspent.leaves_same (h : Unspent processes s) (hsent : SentBeside s p w.requests)
    (hanswered : ∀ token, AnsweredIn w.requests token → AnsweredIn s.requests token)
    (hstore : w.store = s.store) (hunsaved : w.unsaved = s.unsaved p)
    (hstage : stage = .idle ∨ stage = .signingIn ∧ s.unsaved p = none) :
    LeavesUnspent processes s p w stage new where
  __ := hsent
  others_hidden := by
    intro q _
    rw [hstore]
    exact h.keeping_hidden q
  own := by
    intro token htoken
    have hmem : token ∈ s.own p := by
      refine h.mem_own ?_
      rcases hstage with rfl | ⟨rfl, -⟩
      · rwa [← hunsaved]
      · rwa [← hunsaved]
    exact ⟨List.mem_append_right _ (h.own_issued p token hmem),
      fun hother ↦ h.own_unanswered p token hmem (hanswered token hother),
      fun q hq hother ↦ hq (h.own_apart q p token hother hmem)⟩
  busy := by
    intro hbusy
    rcases hstage with rfl | ⟨-, hnone⟩
    · exact absurd rfl hbusy
    · rw [hunsaved, hnone]
  writer := by
    rw [hunsaved]
    exact h.writer p
  hidden := by
    rintro set rfl
    rcases hstage with hstage | ⟨hstage, -⟩
    · exact nomatch hstage
    · exact nomatch hstage
  shown_issued := by
    rw [hstore]
    exact fun token htoken ↦ List.mem_append_right _ (h.shown_issued token htoken)
  shown_unanswered := by
    rw [hstore, hunsaved]
    intro token htoken hother
    obtain ⟨q, hsome⟩ := h.shown_unanswered token htoken (hanswered token hother)
    by_cases hq : q = p
    · exact .inl (hq ▸ hsome)
    · exact .inr ⟨q, hq, hsome⟩

/-- Nothing is left in the store or the memory. -/
theorem SentBeside.leaves_nothing (hsent : SentBeside s p w.requests) (hunsaved : w.unsaved = none)
    (hshown : shownToken w.store = none) (hstage : stage = .idle ∨ stage = .signingIn) :
    LeavesUnspent processes s p w stage new where
  __ := hsent
  others_hidden := by
    rw [hshown]
    exact fun _ _ _ _ _ _ ↦ nofun
  own := by
    rw [hunsaved]
    rcases hstage with rfl | rfl <;> exact nofun
  busy := fun _ ↦ hunsaved
  writer := fun _ ↦ hunsaved
  hidden := by
    rw [hshown]
    exact fun _ _ _ _ ↦ nofun
  shown_issued := by
    rw [hshown]
    exact nofun
  shown_unanswered := by
    rw [hshown]
    exact nofun

/-- A refresh token of the process's own is kept, in the store or in the memory. -/
theorem Unspent.leaves_kept (h : Unspent processes s) (hsent : SentBeside s p w.requests)
    (hissued : token ∈ new ++ s.issued)
    (hunanswered : ¬AnsweredIn w.requests token) (hothers : ∀ q ≠ p, token ∉ s.own q)
    (hscope : (processes p).scope = .mcpRead)
    (hkept : shownToken w.store = some token ∧ (∀ kept ∈ w.unsaved, kept.refreshToken = token) ∨
      w.unsaved.map StoredSignIn.refreshToken = some token ∧
        (shownToken w.store = shownToken s.store ∨ shownToken w.store = none)) :
    LeavesUnspent processes s p w .idle new where
  __ := hsent
  others_hidden := by
    intro q hq set hstage other hother
    rcases hkept with ⟨hshown, -⟩ | ⟨-, hshown | hshown⟩
    · rw [hshown]
      rintro ⟨⟩
      exact hothers q hq (by rwa [SignIns.own, hstage])
    · rw [hshown]
      exact h.keeping_hidden q set hstage other hother
    · rw [hshown]
      exact nofun
  own := by
    intro other hother
    have heq : other = token := by
      obtain ⟨kept, hmem, rfl⟩ := Option.mem_map.mp hother
      rcases hkept with ⟨-, hall⟩ | ⟨hsome, -⟩
      · exact hall kept hmem
      · exact Option.some.inj (hother.symm.trans hsome)
    subst heq
    exact ⟨hissued, hunanswered, hothers⟩
  busy := fun hbusy ↦ absurd rfl hbusy
  writer := by
    rw [hscope]
    exact nofun
  hidden := nofun
  shown_issued := by
    intro other hother
    rcases hkept with ⟨hshown, -⟩ | ⟨-, hshown | hshown⟩
    · rw [hshown] at hother
      obtain rfl := Option.some.inj hother
      exact hissued
    · rw [hshown] at hother
      exact List.mem_append_right _ (h.shown_issued other hother)
    · rw [hshown] at hother
      exact nomatch hother
  shown_unanswered := by
    intro other hother hanswered
    rcases hkept with ⟨hshown, -⟩ | ⟨hsome, -⟩
    · rw [hshown] at hother
      obtain rfl := Option.some.inj hother
      exact absurd hanswered hunanswered
    · left
      rw [← Option.isSome_map, hsome]
      rfl

/-- A process that has signed in keeps what the server has just given out. -/
theorem Unspent.leaves_signedIn [DecidableEq Proc] (h : Unspent processes s)
    (hunsaved : s.unsaved p = none)
    (hfresh : ∀ token ∈ set.refreshToken, token ∉ s.issued) :
    LeavesUnspent processes s p (s.held p) (.keeping set) set.refreshToken.toList where
  never := h.never
  answered_issued := h.answered_issued
  others_unanswered := fun q _ ↦ h.own_unanswered q
  others_hidden := fun q _ ↦ h.keeping_hidden q
  own := by
    intro token htoken
    have hnew := hfresh token htoken
    exact ⟨List.mem_append_left _ (Option.mem_toList.mpr htoken),
      fun hanswered ↦ hnew (h.answered_issued token hanswered),
      fun q _ hother ↦ hnew (h.own_issued q token hother)⟩
  busy := fun _ ↦ hunsaved
  writer := fun _ ↦ hunsaved
  hidden := by
    rintro _ ⟨⟩ token htoken hshown
    exact hfresh token htoken (h.shown_issued token hshown)
  shown_issued := fun token htoken ↦ List.mem_append_right _ (h.shown_issued token htoken)
  shown_unanswered := by
    intro token htoken hanswered
    obtain ⟨q, hsome⟩ := h.shown_unanswered token htoken hanswered
    by_cases hq : q = p
    · exact .inl (hq ▸ hsome)
    · exact .inr ⟨q, hq, hsome⟩

/-! ### Steps -/

theorem Unspent.issue (h : Unspent processes s) :
    Unspent processes (s.issue new) :=
  { h with
    answered_issued := fun token htoken ↦
      List.mem_append_right _ (h.answered_issued token htoken)
    own_issued := fun p token htoken ↦ List.mem_append_right _ (h.own_issued p token htoken)
    shown_issued := fun token htoken ↦ List.mem_append_right _ (h.shown_issued token htoken) }

/-- Forgotten, a sign-in leaves nothing, whether the person is asked next or not. -/
theorem SentBeside.leaves_forgotten {reply : ClearReply}
    (hsent : SentBeside s p w.requests) (hclears : reply.removes ∧ reply.clearsFile)
    (hstage : stage = .idle ∨ stage = .signingIn) :
    LeavesUnspent processes s p (w.forgets reply) stage new :=
  SentBeside.leaves_nothing hsent rfl (Held.shownToken_forgets hclears) hstage

section Steps

variable [DecidableEq Token] [DecidableEq Proc] {replies : Replies Token}
  {e : SignInEvent Token Proc}

/-- Where a process goes on that forgot its sign-in. -/
theorem obtains_of_forget {process : Process} {w' : Held Token}
    (h : (s.held p).refreshStored process.scope process.server replies =
      w'.forget replies.clear) :
    ∃ stage, s.obtains p process replies = s.leaves p (w'.forgets replies.clear) stage ∧
      (stage = .idle ∨ stage = .signingIn) := by
  unfold SignIns.obtains
  rw [h, Held.forget]
  split
  next hresult =>
    obtain ⟨-, rfl⟩ := Prod.mk.inj hresult
    exact ⟨_, rfl, .inr rfl⟩
  next hresult =>
    obtain ⟨-, rfl⟩ := Prod.mk.inj hresult
    exact ⟨_, rfl, .inl rfl⟩

/-- What a safe refresh leaves. -/
theorem Unspent.obtains (h : Unspent processes s)
    (hsafe : (processes p).scope = .mcpRead → RefreshesSafely s p replies)
    (hfresh : IssuesFresh s (SignInEvent.obtain p replies)) :
    ∃ w stage, s.obtains p (processes p) replies = s.leaves p w stage ∧
      LeavesUnspent processes s p w stage (SignInEvent.obtain p replies).issues := by
  cases hscope : (processes p).scope with
  | mcpWrite =>
    have hnone := h.writer p hscope
    refine ⟨s.held p, .signingIn, ?_, h.leaves_same h.sentBeside (fun _ ↦ id) rfl rfl
      (.inr ⟨rfl, hnone⟩)⟩
    rw [SignIns.obtains, hscope, Held.refreshStored_write]
  | mcpRead =>
    have hsafe := hsafe hscope
    rcases @Held.refreshStored_cases _ (processes p).server (s.held p) replies _
      hsafe.reachesGet with hrun | ⟨hrun, hnone⟩ | hrun | ⟨token, hpresents, hrun⟩
    · refine ⟨s.held p, .idle, ?_, h.leaves_same h.sentBeside (fun _ ↦ id) rfl rfl (.inl rfl)⟩
      rw [SignIns.obtains, hscope, hrun]
    · refine ⟨s.held p, .signingIn, ?_, h.leaves_same h.sentBeside (fun _ ↦ id) rfl rfl
        (.inr ⟨rfl, hnone⟩)⟩
      rw [SignIns.obtains, hscope, hrun]
    · rw [← hscope] at hrun
      obtain ⟨stage, hobtains, hstage⟩ := obtains_of_forget hrun
      exact ⟨_, stage, hobtains, h.sentBeside.leaves_forgotten hsafe.clears hstage⟩
    · obtain ⟨hissued, hunanswered, hothers⟩ := h.of_presents hsafe.alone hpresents
      have hsent := fun answered ↦ h.sentBeside_cons answered hissued hunanswered hothers
      rcases hrun with hrun | ⟨set, hrefresh, hrun⟩ | hrun
      · refine ⟨(s.held p).sends token false, .idle, ?_, ?_⟩
        · rw [SignIns.obtains, hscope, hrun]
        · refine h.leaves_same (hsent false) (fun other hother ↦ ?_) rfl rfl (.inl rfl)
          exact (answeredIn_cons.mp hother).resolve_left fun hfalse ↦ nomatch hfalse.1
      · obtain ⟨kept, hkeeps⟩ := Option.isSome_iff_exists.mp (hsafe.rotates set hrefresh)
        obtain ⟨hrequests, hkept⟩ := @Held.keep_cases _ .mcpRead (processes p).server
          ((s.held p).sends token true) _ _ hsafe.reachesPut set kept hkeeps
        have hissues : kept ∈ (SignInEvent.obtain p replies : SignInEvent Token Proc).issues := by
          simp only [SignInEvent.issues, hrefresh, keepsRefreshToken_eq_some hkeeps]
          exact List.mem_singleton_self kept
        have hnew : kept ∉ s.issued := hfresh kept hissues
        refine ⟨_, .idle, by rw [SignIns.obtains, hscope, hrun], ?_⟩
        refine h.leaves_kept (hrequests ▸ hsent true) (List.mem_append_left _ hissues) ?_
          (fun q _ hother ↦ hnew (h.own_issued q kept hother)) hscope hkept
        rw [hrequests]
        exact fun hanswered ↦ hnew ((hsent true).answered_issued kept hanswered)
      · rw [← hscope] at hrun
        obtain ⟨stage, hobtains, hstage⟩ := obtains_of_forget hrun
        exact ⟨_, stage, hobtains,
          SentBeside.leaves_forgotten (hsent true) hsafe.clears hstage⟩

omit [DecidableEq Proc] in
/-- What keeping a sign-in leaves. -/
theorem Unspent.keeps (h : Unspent processes s) {set : TokenSet Token}
    (hstage : s.stage p = .keeping set) {put : PutReply}
    (hsafe : (processes p).scope = .mcpRead → s.store.ReachesPut put) :
    LeavesUnspent processes s p
      ((s.held p).keep (processes p).scope (processes p).server set put) .idle new := by
  have hnone : s.unsaved p = none := h.busy p (by rw [hstage]; exact nofun)
  cases hkeeps : keepsRefreshToken (processes p).scope set with
  | none =>
    have hkeep : (s.held p).keep (processes p).scope (processes p).server set put = s.held p := by
      simp only [Held.keep, hkeeps]
    rw [hkeep]
    exact h.leaves_same h.sentBeside (fun _ ↦ id) rfl rfl (.inl rfl)
  | some token =>
    have hscope : (processes p).scope = .mcpRead := by
      cases hscope : (processes p).scope with
      | mcpRead => rfl
      | mcpWrite =>
        rw [hscope] at hkeeps
        exact nomatch hkeeps
    have hown : token ∈ s.own p := by
      rw [SignIns.own, hstage]
      exact keepsRefreshToken_eq_some hkeeps
    obtain ⟨hrequests, hkept⟩ := @Held.keep_cases _ (processes p).scope (processes p).server
      (s.held p) _ _ (hsafe hscope) set token hkeeps
    refine h.leaves_kept (hrequests ▸ h.sentBeside) (List.mem_append_right _
      (h.own_issued p token hown)) ?_ (fun q hq hother ↦ hq (h.own_apart q p token hother hown))
      hscope hkept
    rw [hrequests]
    exact h.own_unanswered p token hown

/-- After a safe step the tokens a process has to itself are still unspent. -/
theorem unspent_step (h : Unspent processes s) (hfresh : IssuesFresh s e)
    (hsafe : StepsSafely processes s e) : Unspent processes (s.step processes e) := by
  unfold SignIns.step
  cases e with
  | obtain p =>
    cases hstage : s.stage p with
    | idle =>
      obtain ⟨w, stage, hobtains, hleaves⟩ := h.obtains hsafe hfresh
      simp only [SignIns.acts, hstage, hobtains]
      exact h.leaves hleaves
    | _ =>
      simp only [SignIns.acts, hstage]
      exact h.issue
  | signIn p set =>
    cases hstage : s.stage p with
    | signingIn =>
      have hnone : s.unsaved p = none := h.busy p (by rw [hstage]; exact nofun)
      simp only [SignIns.acts, hstage]
      cases set with
      | none => exact h.leaves (h.leaves_same h.sentBeside (fun _ ↦ id) rfl rfl (.inl rfl))
      | some =>
        exact h.leaves (h.leaves_signedIn hnone fun token htoken ↦
          hfresh token (Option.mem_toList.mpr htoken))
    | _ =>
      simp only [SignIns.acts, hstage]
      exact h.issue
  | keep p =>
    cases hstage : s.stage p with
    | keeping =>
      simp only [SignIns.acts, hstage]
      exact h.leaves (h.keeps hstage hsafe)
    | _ =>
      simp only [SignIns.acts, hstage]
      exact h.issue

theorem unspent_of_safely {store : CredentialStore (StoredText Token)}
    (h : ReachableSafely processes store s) : Unspent processes s :=
  Reached.invariant h (unspent_new store) fun _ _ hs he ↦ unspent_step hs he.1 he.2

/-- In a run whose every refresh leaves the store as the server has it, no refresh token is sent
again once the server answered a refresh made with it; and in any run a process that was asked
for write access neither reads the store nor writes to it. -/
theorem never_replays_of_safely {store : CredentialStore (StoredText Token)}
    (h : ReachableSafely processes store s) :
    NeverReplays s.requests ∧
      ∀ (w : Held Token) (server : Authority) (replies : Replies Token) (set : TokenSet Token),
        w.refreshStored .mcpWrite server replies = (some none, w) ∧
          w.keep .mcpWrite server set replies.put = w :=
  ⟨(unspent_of_safely h).never, fun _ _ _ _ ↦ ⟨Held.refreshStored_write, Held.keep_write _ _⟩⟩

end Steps

/-! ### Spent tokens that are sent again -/

/-- Two read-only runs at one server. -/
def readers : Fin 2 → Process := fun _ ↦ ⟨.mcpRead, ⟨"issuer", "endpoint"⟩⟩

/-- A sign-in made there. -/
def signInOf (token : ℕ) : StoredText ℕ := .encoded ⟨token, "issuer", "endpoint"⟩

/-- The store and the file do what they are asked, and the server answers. -/
def works (refresh : RefreshAnswer ℕ) : Replies ℕ where
  get := ⟨.answers, true⟩
  clear := ⟨true, true, true, .answers⟩
  refresh := refresh
  put := ⟨true, .answers, true, .done⟩

/-- Read-only tokens with a refresh token beside them, or without. -/
def tokensWith (refreshToken : Option ℕ) : RefreshAnswer ℕ :=
  .tokens ⟨["mcp:read"], ["mcp:read"], refreshToken⟩

/-- The first token is sent again, by the next to obtain one: when the rotated one was not
stored, when the answer brought none, when the store was not cleared after the grant had ended,
and when the keychain was out of reach while the rotated one was put. -/
theorem spent_tokens_are_sent_again :
    (∃ s : SignIns ℕ (Fin 2), Reachable readers ⟨none, some (signInOf 7)⟩ s ∧
      s.requests.map RefreshRequest.token = [7, 7] ∧ ¬NeverReplays s.requests) ∧
    (∃ s : SignIns ℕ (Fin 2), Reachable readers ⟨none, some (signInOf 7)⟩ s ∧
      ¬NeverReplays s.requests) ∧
    (∃ s : SignIns ℕ (Fin 2), Reachable readers ⟨none, some (signInOf 7)⟩ s ∧
      ¬NeverReplays s.requests) ∧
    ∃ s : SignIns ℕ (Fin 2), Reachable readers ⟨some (some (signInOf 7)), none⟩ s ∧
      ¬NeverReplays s.requests := by
  refine ⟨⟨_, reached_foldl [
      .obtain 0 { works (tokensWith (some 8)) with put := ⟨true, .answers, true, .failed⟩ },
      .obtain 1 (works (tokensWith (some 9)))] (by decide), by decide, by decide⟩, ?_, ?_, ?_⟩
  · exact ⟨_, reached_foldl [
      .obtain 0 (works (tokensWith none)),
      .obtain 0 (works .unanswered)] (by decide), by decide⟩
  · exact ⟨_, reached_foldl [
      .obtain 0 { works .grantEnded with clear := ⟨true, true, false, .answers⟩ },
      .obtain 0 (works .unanswered)] (by decide), by decide⟩
  · exact ⟨_, reached_foldl [
      .obtain 0 { works (tokensWith (some 8)) with put := ⟨false, .unavailable, true, .done⟩ },
      .obtain 0 (works .unanswered)] (by decide), by decide⟩

/-- What a process is answered whose rotated token is not stored. -/
def unstored : Replies ℕ :=
  { works (tokensWith (some 8)) with put := ⟨true, .answers, true, .failed⟩ }

/-- The rotated token is not stored, and the process that holds it refreshes with it. -/
theorem never_replays_of_safely_rotated :
    let s : SignIns ℕ (Fin 2) := ((SignIns.new ⟨none, some (signInOf 7)⟩).step readers
      (.obtain 0 unstored)).step readers (.obtain 0 (works (tokensWith (some 9))))
    s.requests.map RefreshRequest.token = [8, 7] ∧ NeverReplays s.requests := by
  have hfirst : ReachableSafely readers ⟨none, some (signInOf 7)⟩
      ((SignIns.new ⟨none, some (signInOf 7)⟩ : SignIns ℕ (Fin 2)).step readers
        (.obtain 0 unstored)) := by
    refine .step .start _ ⟨by decide, fun _ ↦ ⟨?_, by decide, by decide, by decide, by decide⟩⟩
    rintro _ ⟨⟩
    rfl
  have hsecond : ReachableSafely readers ⟨none, some (signInOf 7)⟩
      (((SignIns.new ⟨none, some (signInOf 7)⟩ : SignIns ℕ (Fin 2)).step readers
        (.obtain 0 unstored)).step readers (.obtain 0 (works (tokensWith (some 9))))) := by
    refine .step hfirst _ ⟨by decide, fun _ ↦ ⟨?_, by decide, by decide, by decide, by decide⟩⟩
    rintro _ ⟨⟩
    rfl
  exact ⟨by decide, (never_replays_of_safely hsecond).1⟩

end Odudu.Mcp.TokenSource
