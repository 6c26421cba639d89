import Mathlib.Data.Rat.Floor
import Odudu.Maps.Recency
import Odudu.Windows.SlidingWindow

/-!
# The sliding window log

`apps/server/src/throttle-log.ts`: for each key the instants of its admitted requests, at most
`maxKeys` keys, and one log dropped at each call where it is the coldest and stale.

Instants and windows are rational numbers, instants in milliseconds.
-/

set_option autoImplicit false

namespace Odudu.Server

open Maps Windows

def MAX_THROTTLE_KEYS : ℕ := 10_000

structure SlidingWindowOptions where
  limit : ℕ
  windowSeconds : ℚ
  maxKeys : Option ℕ

structure ThrottleDecision where
  allowed : Bool
  retryAfterSeconds : ℚ

abbrev Seen : Type := Recency String (List ℚ)

namespace SlidingWindowOptions

def windowMs (options : SlidingWindowOptions) : ℚ := options.windowSeconds * 1000

def keysKept (options : SlidingWindowOptions) : ℕ := options.maxKeys.getD MAX_THROTTLE_KEYS

end SlidingWindowOptions

/-- The coldest log is dropped where its last instant has left the window. -/
def dropColdestIfStale (cutoff : ℚ) (seen : Seen) : Seen :=
  match seen.coldest with
  | none => seen
  | some (key, hits) => if hits.getLast?.getD 0 ≤ cutoff then seen.erase key else seen

/-- `seen.get(key) ?? []`. -/
def logOf (seen : Seen) (key : String) : List ℚ := (seen.lookup key).getD []

variable (options : SlidingWindowOptions)

/-- What the instants in the window say of one more. -/
def judge (now : ℚ) (hits : List ℚ) : ThrottleDecision :=
  if hits.length < options.limit then { allowed := true, retryAfterSeconds := 0 }
  else
    let oldest := hits.head?.getD now
    let waitMs := oldest + options.windowMs - now
    let seconds := min options.windowSeconds ⌈waitMs / 1000⌉
    { allowed := false, retryAfterSeconds := max 1 seconds }

/-- The instants in the window, and this one where it is admitted. -/
def record (now : ℚ) (hits : List ℚ) : List ℚ :=
  if hits.length < options.limit then hits ++ [now] else hits

/-- What `check` finds of the key in the window. -/
def hitsAt (now : ℚ) (key : String) (seen : Seen) : List ℚ :=
  (logOf seen key).filter fun hit ↦ now - options.windowMs < hit

/-- The logs once the key's is set again, before the coldest are dropped for their number. -/
def recorded (now : ℚ) (key : String) (seen : Seen) : Seen :=
  seen.insert key (record options now (hitsAt options now key seen))

/-- `check`, when the coldest log has been looked at. -/
def checkOn (now : ℚ) (key : String) (seen : Seen) : ThrottleDecision × Seen :=
  (judge options now (hitsAt options now key seen),
    (recorded options now key seen).evict options.keysKept)

def check (now : ℚ) (key : String) (seen : Seen) : ThrottleDecision × Seen :=
  checkOn options now key (dropColdestIfStale (now - options.windowMs) seen)

/-! ### Runs -/

/-- A call of `check`. -/
structure Attempt where
  now : ℚ
  key : String

/-- A call, and what it was answered. -/
structure Answer where
  attempt : Attempt
  decision : ThrottleDecision

/-- The answers to attempts, one after another, of a limiter that looks at the logs with `check`. -/
def answersBy (check : ℚ → String → Seen → ThrottleDecision × Seen) :
    Seen → List Attempt → List Answer
  | _, [] => []
  | seen, attempt :: rest =>
    let checked := check attempt.now attempt.key seen
    { attempt := attempt, decision := checked.1 } :: answersBy check checked.2 rest

def answers : Seen → List Attempt → List Answer := answersBy (check options)

/-- The logs after attempts. -/
def seenAfter (seen : Seen) (attempts : List Attempt) : Seen :=
  attempts.foldl (fun seen attempt ↦ (check options attempt.now attempt.key seen).2) seen

/-- Each attempt is no earlier than those before it. -/
def Timely (attempts : List Attempt) : Prop := attempts.Pairwise fun a b ↦ a.now ≤ b.now

/-- The key is never among those dropped for their number. -/
def Retained (key : String) : Seen → List Attempt → Prop
  | _, [] => True
  | seen, attempt :: rest =>
    let cutoff := attempt.now - options.windowMs
    (key ∈ recorded options attempt.now attempt.key (dropColdestIfStale cutoff seen) →
      key ∈ (check options attempt.now attempt.key seen).2) ∧
      Retained key (check options attempt.now attempt.key seen).2 rest

/-- The instants at which requests of the key were admitted. -/
def admittedTimes (key : String) (answers : List Answer) : List ℚ :=
  (answers.filter fun answer ↦ answer.attempt.key = key ∧ answer.decision.allowed).map
    (·.attempt.now)

/-- Attempts without some of the key's that were refused. -/
inductive Thinned (key : String) : List Answer → List Attempt → Prop where
  | nil : Thinned key [] []
  | keep {answer : Answer} {answered : List Answer} {attempts : List Attempt}
      (h : Thinned key answered attempts) :
      Thinned key (answer :: answered) (answer.attempt :: attempts)
  | drop {answer : Answer} {answered : List Answer} {attempts : List Attempt}
      (h : Thinned key answered attempts) (hkey : answer.attempt.key = key)
      (hrefused : answer.decision.allowed = false) : Thinned key (answer :: answered) attempts

/-- The key is answered alike, but for refusals of it that are there on one side only. -/
inductive AnsweredAlike (key : String) : List Answer → List Answer → Prop where
  | nil : AnsweredAlike key [] []
  | keep {attempt : Attempt} {decision decision' : ThrottleDecision}
      {answered answered' : List Answer} (h : AnsweredAlike key answered answered')
      (hsame : attempt.key = key → decision = decision') :
      AnsweredAlike key (⟨attempt, decision⟩ :: answered) (⟨attempt, decision'⟩ :: answered')
  | drop {answer : Answer} {answered answered' : List Answer}
      (h : AnsweredAlike key answered answered') (hkey : answer.attempt.key = key)
      (hrefused : answer.decision.allowed = false) :
      AnsweredAlike key (answer :: answered) answered'

/-! ### What is kept of a key -/

/-- The logs are of admitted requests, none of them later than now. -/
def Sound (now : ℚ) (seen : Seen) : Prop :=
  ∀ key, Admitted options.limit options.windowMs (logOf seen key) ∧ ∀ t ∈ logOf seen key, t ≤ now

/-- The window of a log is that of the key's admitted requests, now and later. -/
def Faithful (key : String) (now : ℚ) (seen : Seen) (log : List ℚ) : Prop :=
  ∀ later, now ≤ later →
    within options.windowMs later (logOf seen key) = within options.windowMs later log

variable {options} {seen seen' : Seen} {key key' : String} {now later : ℚ} {log : List ℚ}

theorem hitsAt_eq : hitsAt options now key seen = within options.windowMs now (logOf seen key) :=
  rfl

theorem Sound.mono (h : Sound options now seen) (hlater : now ≤ later) :
    Sound options later seen :=
  fun key ↦ ⟨(h key).1, fun t ht ↦ ((h key).2 t ht).trans hlater⟩

theorem Faithful.mono (h : Faithful options key now seen log) (hlater : now ≤ later) :
    Faithful options key later seen log :=
  fun _ h' ↦ h _ (hlater.trans h')

theorem sound_empty : Sound options now ∅ := by
  intro key
  rw [logOf, AList.lookup_empty]
  exact ⟨.nil, fun t ht ↦ absurd ht List.not_mem_nil⟩

theorem faithful_self : Faithful options key now seen (logOf seen key) := fun _ _ ↦ rfl

/-! ### One call -/

theorem logOf_drop (cutoff : ℚ) (seen : Seen) (key : String) :
    logOf (dropColdestIfStale cutoff seen) key = logOf seen key ∨
      logOf (dropColdestIfStale cutoff seen) key = [] ∧
        (logOf seen key).getLast?.getD 0 ≤ cutoff := by
  unfold dropColdestIfStale
  cases hcoldest : seen.coldest with
  | none => exact Or.inl rfl
  | some coldest =>
    obtain ⟨cold, hits⟩ := coldest
    change logOf (if _ then seen.erase cold else seen) key = _ ∨
      logOf (if _ then seen.erase cold else seen) key = _ ∧ _
    split
    · rename_i hstale
      by_cases hkey : key = cold
      · subst hkey
        refine Or.inr ⟨by simp [logOf], ?_⟩
        obtain ⟨slot, hslot, heq⟩ := Option.map_eq_some_iff.mp hcoldest
        obtain ⟨rfl, rfl⟩ := Prod.mk.inj heq
        have hlookup := Recency.lookup_of_mem_entries (List.mem_of_getLast? hslot)
        rwa [logOf, hlookup]
      · exact Or.inl (by rw [logOf, AList.lookup_erase_ne hkey, logOf])
    · exact Or.inl rfl

/-- A stale log that is dropped had nothing in the window. -/
theorem within_logOf_drop (h : Sound options now seen) (hlater : now ≤ later) (key : String) :
    within options.windowMs later (logOf (dropColdestIfStale (now - options.windowMs) seen) key) =
      within options.windowMs later (logOf seen key) := by
  rcases logOf_drop (now - options.windowMs) seen key with heq | ⟨hnil, hstale⟩
  · rw [heq]
  · rw [hnil]
    refine (within_eq_nil fun t ht ↦ ?_).symm
    rcases List.eq_nil_or_concat (logOf seen key) with hempty | ⟨front, last, hconcat⟩
    · rw [hempty] at ht
      exact absurd ht List.not_mem_nil
    · rw [List.concat_eq_append] at hconcat
      have hsorted := (h key).1.sorted
      rw [hconcat, List.getLast?_concat, Option.getD_some] at hstale
      have hle : t ≤ last := by
        rw [hconcat] at ht hsorted
        rcases List.mem_append.mp ht with hfront | hlast
        · exact (List.pairwise_append.mp hsorted).2.2 t hfront last List.mem_cons_self
        · rw [List.mem_singleton.mp hlast]
      exact (hle.trans hstale).trans (sub_le_sub_right hlater _)

theorem Sound.drop (h : Sound options now seen) (cutoff : ℚ) :
    Sound options now (dropColdestIfStale cutoff seen) := by
  intro key
  rcases logOf_drop cutoff seen key with heq | ⟨hnil, -⟩
  · rw [heq]
    exact h key
  · rw [hnil]
    exact ⟨.nil, fun t ht ↦ absurd ht List.not_mem_nil⟩

theorem hitsAt_drop (h : Sound options now seen) (key : String) :
    hitsAt options now key (dropColdestIfStale (now - options.windowMs) seen) =
      within options.windowMs now (logOf seen key) :=
  within_logOf_drop h le_rfl key

theorem check_decision (h : Sound options now seen) (key : String) :
    (check options now key seen).1 =
      judge options now (within options.windowMs now (logOf seen key)) := by
  rw [check, checkOn, hitsAt_drop h]

variable (options now) in
theorem judge_allowed_iff (hits : List ℚ) :
    (judge options now hits).allowed = true ↔ hits.length < options.limit := by
  unfold judge
  split <;> simp_all

/-- The log of the key after a call about it, before any is dropped for their number. -/
theorem logOf_recorded (key' : String) :
    logOf (recorded options now key seen) key' =
      if key' = key then record options now (hitsAt options now key seen) else logOf seen key' := by
  unfold recorded
  by_cases hkey : key' = key
  · subst hkey
    simp [logOf]
  · rw [if_neg hkey, logOf, AList.lookup_insert_ne hkey, logOf]

theorem logOf_evict (max : ℕ) (seen : Seen) (key : String) :
    logOf (seen.evict max) key = logOf seen key ∨
      key ∉ seen.evict max ∧ logOf (seen.evict max) key = [] := by
  by_cases hmem : key ∈ seen.evict max
  · exact Or.inl (by rw [logOf, Recency.lookup_eq_of_front (Recency.prefix_evict _ _) hmem, logOf])
  · exact Or.inr ⟨hmem, by rw [logOf, AList.lookup_eq_none.mpr hmem, Option.getD_none]⟩

/-- An instant that is admitted is added to the admitted instants in the window. -/
theorem admitted_record (h : Admitted options.limit options.windowMs log)
    (hlate : ∀ t ∈ log, t ≤ now) :
    Admitted options.limit options.windowMs
      (record options now (within options.windowMs now log)) := by
  have hwithin : Admitted options.limit options.windowMs (within options.windowMs now log) :=
    h.sublist within_sublist
  unfold record
  split
  · rename_i hroom
    refine hwithin.concat (fun t ht ↦ hlate t (mem_within.mp ht).1) ?_
    rwa [within_within le_rfl]
  · exact hwithin

theorem Sound.check (h : Sound options now seen) (key : String) :
    Sound options now (check options now key seen).2 := by
  intro other
  rcases logOf_evict options.keysKept
      (recorded options now key (dropColdestIfStale (now - options.windowMs) seen)) other with
    heq | ⟨-, hnil⟩
  · rw [Server.check, checkOn, heq, logOf_recorded]
    split
    · rw [hitsAt_drop h]
      refine ⟨admitted_record (h key).1 (h key).2, fun t ht ↦ ?_⟩
      unfold record at ht
      split at ht
      · rcases List.mem_append.mp ht with hold | hlast
        · exact (h key).2 t (mem_within.mp hold).1
        · exact (List.mem_singleton.mp hlast).le
      · exact (h key).2 t (mem_within.mp ht).1
    · exact h.drop _ other
  · rw [Server.check, checkOn, hnil]
    exact ⟨.nil, fun t ht ↦ absurd ht List.not_mem_nil⟩

/-- What a call adds to the admitted requests of a key. -/
def logged (key : String) (attempt : Attempt) (decision : ThrottleDecision) (log : List ℚ) :
    List ℚ :=
  if attempt.key = key ∧ decision.allowed then log ++ [attempt.now] else log

/-- A call keeps the log of a retained key faithful. -/
theorem Faithful.check {attempt : Attempt} (h : Faithful options key attempt.now seen log)
    (hsound : Sound options attempt.now seen)
    (hretained : key ∈ recorded options attempt.now attempt.key
        (dropColdestIfStale (attempt.now - options.windowMs) seen) →
      key ∈ (check options attempt.now attempt.key seen).2) :
    Faithful options key attempt.now (check options attempt.now attempt.key seen).2
      (logged key attempt (check options attempt.now attempt.key seen).1 log) := by
  intro later hlater
  have hkept : logOf (Server.check options attempt.now attempt.key seen).2 key =
      logOf (recorded options attempt.now attempt.key
        (dropColdestIfStale (attempt.now - options.windowMs) seen)) key := by
    rcases logOf_evict options.keysKept (recorded options attempt.now attempt.key
        (dropColdestIfStale (attempt.now - options.windowMs) seen)) key with heq | ⟨hnot, hnil⟩
    · exact heq
    · have hgone := fun hmem ↦ hnot (hretained hmem)
      rw [Server.check, checkOn, hnil, logOf, AList.lookup_eq_none.mpr hgone, Option.getD_none]
  rw [hkept, logOf_recorded, check_decision hsound, logged]
  by_cases hkey : key = attempt.key
  · subst hkey
    rw [if_pos rfl, hitsAt_drop hsound, record]
    by_cases hroom :
        (within options.windowMs attempt.now (logOf seen attempt.key)).length < options.limit
    · rw [if_pos hroom, if_pos ⟨rfl, (judge_allowed_iff _ _ _).mpr hroom⟩, within_append,
        within_append, within_within hlater, h later hlater]
    · rw [if_neg hroom, if_neg (fun hsame ↦ hroom ((judge_allowed_iff _ _ _).mp hsame.2)),
        within_within hlater, h later hlater]
  · rw [if_neg hkey, if_neg (fun hsame ↦ hkey hsame.1.symm), within_logOf_drop hsound hlater,
      h later hlater]

end Odudu.Server
