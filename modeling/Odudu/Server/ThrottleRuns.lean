import Odudu.Server.ThrottleLog

/-!
# The sliding window log over runs

Of a key whose log is retained, what is answered is decided by the instants at which its
requests were admitted (`Faithful`), so that no window holds more than the limit of them
(`admitted_answers`), a refusal leaves no trace (`answeredAlike_of_thinned`), and one repeated
after its wait is admitted (`retry_admitted`).  A limiter that drops no stale log answers alike
(`answers_eq_keeping`).
-/

set_option autoImplicit false

namespace Odudu.Server

open Maps Windows

variable {options : SlidingWindowOptions} {seen seen' : Seen} {key : String} {now : ℚ}
  {log : List ℚ} {attempt : Attempt} {attempts : List Attempt}

/-! ### From one call to the next -/

theorem timely_cons (h : Timely (attempt :: attempts)) :
    (∀ a ∈ attempts, attempt.now ≤ a.now) ∧ Timely attempts :=
  List.pairwise_cons.mp h

theorem nows_le (h : Timely (attempt :: attempts)) :
    ∀ a ∈ attempt :: attempts, attempt.now ≤ a.now :=
  fun a ha ↦ (List.mem_cons.mp ha).elim (fun heq ↦ (congrArg Attempt.now heq).ge)
    ((timely_cons h).1 a)

theorem sound_seenAfter (hsound : Sound options now seen) (hnow : ∀ a ∈ attempts, now ≤ a.now)
    (htimely : Timely attempts) {last : ℚ} (hlast : ∀ a ∈ attempts, a.now ≤ last)
    (hle : now ≤ last) : Sound options last (seenAfter options seen attempts) := by
  induction attempts generalizing seen now with
  | nil => exact hsound.mono hle
  | cons attempt _ ih =>
    obtain ⟨hlater, hrest⟩ := timely_cons htimely
    have hfirst := hsound.mono (hnow attempt List.mem_cons_self)
    exact ih (hfirst.check attempt.key) hlater hrest
      (fun a ha ↦ hlast a (List.mem_cons_of_mem _ ha)) (hlast attempt List.mem_cons_self)

theorem admittedTimes_cons (decision : ThrottleDecision) (rest : List Answer) :
    log ++ admittedTimes key (⟨attempt, decision⟩ :: rest) =
      logged key attempt decision log ++ admittedTimes key rest := by
  unfold admittedTimes logged
  by_cases hadmitted : attempt.key = key ∧ decision.allowed = true
  · rw [List.filter_cons_of_pos (by simpa using hadmitted), if_pos hadmitted]
    simp
  · rw [List.filter_cons_of_neg (by simpa using hadmitted), if_neg hadmitted]

/-- The log of the admitted requests stays one of admitted requests. -/
theorem admitted_logged (hsound : Sound options attempt.now seen)
    (hfaithful : Faithful options key attempt.now seen log)
    (hlog : Admitted options.limit options.windowMs log) (hlate : ∀ t ∈ log, t ≤ attempt.now) :
    Admitted options.limit options.windowMs
        (logged key attempt (check options attempt.now attempt.key seen).1 log) ∧
      ∀ t ∈ logged key attempt (check options attempt.now attempt.key seen).1 log,
        t ≤ attempt.now := by
  unfold logged
  split
  · rename_i hadmitted
    obtain ⟨rfl, hallowed⟩ := hadmitted
    rw [check_decision hsound, judge_allowed_iff, hfaithful _ le_rfl] at hallowed
    refine ⟨hlog.concat hlate hallowed, fun t ht ↦ ?_⟩
    rcases List.mem_append.mp ht with hold | hlast
    · exact hlate t hold
    · exact (List.mem_singleton.mp hlast).le
  · exact ⟨hlog, hlate⟩

/-! ### Admissions -/

/-- What is admitted of a retained key is a log of admitted requests. -/
theorem admitted_answers (hsound : Sound options now seen)
    (hfaithful : Faithful options key now seen log)
    (hlog : Admitted options.limit options.windowMs log) (hlate : ∀ t ∈ log, t ≤ now)
    (hnow : ∀ a ∈ attempts, now ≤ a.now) (htimely : Timely attempts)
    (hretained : Retained options key seen attempts) :
    Admitted options.limit options.windowMs
      (log ++ admittedTimes key (answers options seen attempts)) := by
  induction attempts generalizing seen now log with
  | nil => simpa [answers, answersBy, admittedTimes] using hlog
  | cons attempt rest ih =>
    obtain ⟨hlater, hrest⟩ := timely_cons htimely
    have hfirst := hnow attempt List.mem_cons_self
    have hsound' := hsound.mono hfirst
    have hfaithful' := hfaithful.mono hfirst
    have hlogged := admitted_logged hsound' hfaithful' hlog fun t ht ↦ (hlate t ht).trans hfirst
    change Admitted _ _ (log ++ admittedTimes key
      (⟨attempt, (check options attempt.now attempt.key seen).1⟩ ::
        answers options (check options attempt.now attempt.key seen).2 rest))
    rw [admittedTimes_cons]
    exact ih (hsound'.check attempt.key) (hfaithful'.check hsound' hretained.1) hlogged.1 hlogged.2
      hlater hrest hretained.2

/-! ### Refusals -/

/-- Refusals put in or taken out change no answer about the key. -/
theorem answeredAlike_of_thinned {attempts' : List Attempt} (hsound : Sound options now seen)
    (hsound' : Sound options now seen') (hfaithful : Faithful options key now seen log)
    (hfaithful' : Faithful options key now seen' log) (hnow : ∀ a ∈ attempts, now ≤ a.now)
    (htimely : Timely attempts) (hretained : Retained options key seen attempts)
    (hretained' : Retained options key seen' attempts')
    (h : Thinned key (answers options seen attempts) attempts') :
    AnsweredAlike key (answers options seen attempts) (answers options seen' attempts') := by
  induction attempts generalizing seen seen' now log attempts' with
  | nil =>
    cases h
    exact .nil
  | cons attempt _ ih =>
    obtain ⟨hlater, hrest⟩ := timely_cons htimely
    have hfirst := hnow attempt List.mem_cons_self
    have hnext := hsound.mono hfirst
    have hkept := (hfaithful.mono hfirst).check hnext hretained.1
    have hwindow := hfaithful _ hfirst
    cases h with
    | @keep _ _ rest' h =>
      have hnext' := hsound'.mono hfirst
      have hkept' := (hfaithful'.mono hfirst).check hnext' hretained'.1
      have hsame : attempt.key = key →
          (check options attempt.now attempt.key seen).1 =
            (check options attempt.now attempt.key seen').1 := by
        rintro rfl
        rw [check_decision hnext, check_decision hnext', hwindow, hfaithful' _ hfirst]
      have hlogged : logged key attempt (check options attempt.now attempt.key seen').1 log =
          logged key attempt (check options attempt.now attempt.key seen).1 log := by
        unfold logged
        by_cases hkey : attempt.key = key
        · rw [hsame hkey]
        · rw [if_neg fun hboth ↦ hkey hboth.1, if_neg fun hboth ↦ hkey hboth.1]
      rw [hlogged] at hkept'
      exact .keep (ih (hnext.check attempt.key) (hnext'.check attempt.key) hkept hkept' hlater hrest
        hretained.2 hretained'.2 h) hsame
    | drop h hkey hrefused =>
      have hlogged : logged key attempt (check options attempt.now attempt.key seen).1 log = log :=
        if_neg fun hboth ↦ Bool.false_ne_true (hrefused.symm.trans hboth.2)
      rw [hlogged] at hkept
      exact .drop (ih (hnext.check attempt.key) (hsound'.mono hfirst) hkept (hfaithful'.mono hfirst)
        hlater hrest hretained.2 hretained' h) hkey hrefused

/-! ### Waiting -/

/-- The wait is no shorter than what the oldest instant takes to leave the window. -/
theorem wait_le_retryAfter {hits : List ℚ} {oldest : ℚ} (holdest : hits.head? = some oldest)
    (hle : oldest ≤ now) (hrefused : (judge options now hits).allowed = false) :
    oldest + options.windowMs - now ≤ (judge options now hits).retryAfterSeconds * 1000 := by
  have hfull : ¬ hits.length < options.limit := by
    rw [← judge_allowed_iff options now, hrefused]
    exact Bool.false_ne_true
  rw [judge, if_neg hfull, holdest, Option.getD_some]
  have hceil := Int.le_ceil ((oldest + options.windowMs - now) / 1000)
  have hmin : (oldest + options.windowMs - now) / 1000 ≤
      min options.windowSeconds ⌈(oldest + options.windowMs - now) / 1000⌉ := by
    refine le_min ?_ hceil
    rw [SlidingWindowOptions.windowMs, div_le_iff₀ (by norm_num)]
    linarith
  have hmax := hmin.trans (le_max_right 1 _)
  rwa [div_le_iff₀ (by norm_num)] at hmax

/-- Calls about other keys leave what is admitted of a key alone. -/
theorem faithful_seenAfter (hsound : Sound options now seen)
    (hfaithful : Faithful options key now seen log) (hnow : ∀ a ∈ attempts, now ≤ a.now)
    (htimely : Timely attempts) (hretained : Retained options key seen attempts)
    (hothers : ∀ a ∈ attempts, a.key ≠ key) {last : ℚ} (hlast : ∀ a ∈ attempts, a.now ≤ last)
    (hle : now ≤ last) : Faithful options key last (seenAfter options seen attempts) log := by
  induction attempts generalizing seen now with
  | nil => exact hfaithful.mono hle
  | cons attempt _ ih =>
    obtain ⟨hlater, hrest⟩ := timely_cons htimely
    have hfirst := hnow attempt List.mem_cons_self
    have hnext := hsound.mono hfirst
    have hkept := (hfaithful.mono hfirst).check hnext hretained.1
    rw [logged, if_neg fun hboth ↦ hothers attempt List.mem_cons_self hboth.1] at hkept
    exact ih (hnext.check attempt.key) hkept hlater hrest hretained.2
      (fun a ha ↦ hothers a (List.mem_cons_of_mem _ ha))
      (fun a ha ↦ hlast a (List.mem_cons_of_mem _ ha)) (hlast attempt List.mem_cons_self)

/-- An attempt that was refused is admitted after its wait. -/
theorem retry_admitted {again : Attempt} (hlimit : 1 ≤ options.limit)
    (hsound : Sound options attempt.now seen) (htimely : Timely (attempt :: attempts ++ [again]))
    (hretained : Retained options attempt.key seen (attempt :: attempts))
    (hothers : ∀ a ∈ attempts, a.key ≠ attempt.key)
    (hrefused : (check options attempt.now attempt.key seen).1.allowed = false)
    (hkey : again.key = attempt.key)
    (hwait : attempt.now +
      (check options attempt.now attempt.key seen).1.retryAfterSeconds * 1000 ≤ again.now) :
    (check options again.now again.key
      (seenAfter options seen (attempt :: attempts))).1.allowed = true := by
  obtain ⟨hfront, -, hlast⟩ := List.pairwise_append.mp htimely
  obtain ⟨hlater, hrest⟩ := timely_cons hfront
  have hend : ∀ a ∈ attempt :: attempts, a.now ≤ again.now :=
    fun a ha ↦ hlast a ha again List.mem_cons_self
  have hle := hend attempt List.mem_cons_self
  have hlate := fun a ha ↦ hend a (List.mem_cons_of_mem _ ha)
  have hkept := faithful_self.check hsound hretained.1
  rw [logged, if_neg (by simp [hrefused])] at hkept
  have hfaithful := faithful_seenAfter (hsound.check attempt.key) hkept hlater hrest hretained.2
    hothers hlate hle
  have hafter := sound_seenAfter (hsound.check attempt.key) hlater hrest hlate hle
  rw [hkey, seenAfter, List.foldl_cons, ← seenAfter, check_decision hafter, judge_allowed_iff,
    hfaithful _ le_rfl]
  obtain ⟨hadmitted, hpast⟩ := hsound attempt.key
  rw [check_decision hsound] at hrefused hwait
  refine hadmitted.room_of_oldest hpast hlimit hle fun oldest holdest ↦ ?_
  have hmem := (mem_within.mp (List.mem_of_head? holdest)).1
  have hwaited := wait_le_retryAfter holdest (hpast oldest hmem) hrefused
  linarith

/-! ### Stale logs -/

/-- The logs of a limiter that drops stale ones, and of one that has them behind the others. -/
def Trails (options : SlidingWindowOptions) (now : ℚ) (seen seen' : Seen) : Prop :=
  ∃ stale, seen'.entries = seen.entries ++ stale ∧
    ∀ slot ∈ stale, ∀ t ∈ slot.2, t ≤ now - options.windowMs

theorem Trails.mono {later : ℚ} (h : Trails options now seen seen') (hlater : now ≤ later) :
    Trails options later seen seen' := by
  obtain ⟨stale, hentries, hstale⟩ := h
  exact ⟨stale, hentries,
    fun slot hslot t ht ↦ (hstale slot hslot t ht).trans (sub_le_sub_right hlater _)⟩

/-- A stale log that one limiter drops joins those that the other has behind. -/
theorem Trails.drop (h : Trails options now seen seen') (hsound : Sound options now seen) :
    Trails options now (dropColdestIfStale (now - options.windowMs) seen) seen' := by
  obtain ⟨stale, hentries, hstale⟩ := h
  unfold dropColdestIfStale Recency.coldest
  rcases List.eq_nil_or_concat seen.entries with hnil | ⟨front, slot, hconcat⟩
  · rw [hnil] at hentries ⊢
    exact ⟨stale, by simp [hnil, hentries], hstale⟩
  · rw [List.concat_eq_append] at hconcat
    rw [hconcat, List.getLast?_concat]
    change Trails options now (if _ then _ else _) seen'
    split
    · rename_i hold
      refine ⟨slot :: stale, ?_, ?_⟩
      · rw [hentries, hconcat, Recency.entries_erase_last hconcat]
        simp
      · intro other hother t ht
        rcases List.mem_cons.mp hother with rfl | hmem
        · have hlookup : logOf seen other.1 = other.2 := by
            rw [logOf, Recency.lookup_of_mem_entries (by rw [hconcat]; simp), Option.getD_some]
          have hsorted := (hsound other.1).1.sorted
          rw [hlookup] at hsorted
          rcases List.eq_nil_or_concat other.2 with hempty | ⟨hits, last, hhits⟩
          · rw [hempty] at ht
            exact absurd ht List.not_mem_nil
          · rw [List.concat_eq_append] at hhits
            rw [hhits] at ht hsorted
            change other.2.getLast?.getD 0 ≤ _ at hold
            rw [hhits, List.getLast?_concat, Option.getD_some] at hold
            rcases List.mem_append.mp ht with hfront | hlast
            · exact ((List.pairwise_append.mp hsorted).2.2 t hfront last
                List.mem_cons_self).trans hold
            · rw [List.mem_singleton.mp hlast]
              exact hold
        · exact hstale other hmem t ht
    · exact ⟨stale, hentries, hstale⟩

/-- Behind the others there is nothing in the window. -/
theorem Trails.hitsAt_eq (h : Trails options now seen seen') (key : String) :
    hitsAt options now key seen' = hitsAt options now key seen := by
  obtain ⟨stale, hentries, hstale⟩ := h
  by_cases hmem : key ∈ seen
  · have hprefix : seen.entries <+: seen'.entries := ⟨stale, hentries.symm⟩
    rw [hitsAt, hitsAt, logOf, logOf, Recency.lookup_eq_of_front hprefix hmem]
  · have hnone : hitsAt options now key seen = [] := by
      rw [hitsAt, logOf, AList.lookup_eq_none.mpr hmem]
      rfl
    rw [hnone]
    refine List.filter_eq_nil_iff.mpr fun t ht ↦ ?_
    cases hlookup : seen'.lookup key with
    | none => simp [logOf, hlookup] at ht
    | some =>
      rw [logOf, hlookup, Option.getD_some] at ht
      have hslot := Recency.mem_entries_of_lookup hlookup
      rw [hentries] at hslot
      rcases List.mem_append.mp hslot with hfront | hback
      · exact absurd (AList.lookup_isSome.mp
          (Option.isSome_of_eq_some (Recency.lookup_of_mem_entries hfront))) hmem
      · simpa using hstale _ hback t ht

/-- Where the keys are too many, those behind the others go first. -/
theorem Trails.checkOn (h : Trails options now seen seen') (key : String) :
    (checkOn options now key seen').1 = (checkOn options now key seen).1 ∧
      Trails options now (checkOn options now key seen).2 (checkOn options now key seen').2 := by
  have hhits := h.hitsAt_eq key
  obtain ⟨stale, hentries, hstale⟩ := h
  refine ⟨by rw [Server.checkOn, Server.checkOn, hhits], ?_⟩
  have hkerase : ∃ stale', List.kerase key seen'.entries = List.kerase key seen.entries ++ stale' ∧
      stale' ⊆ stale := by
    rw [hentries]
    by_cases hmem : key ∈ List.keys seen.entries
    · exact ⟨stale, List.kerase_append_left hmem, List.Subset.refl _⟩
    · refine ⟨List.kerase key stale, ?_, (List.kerase_sublist key stale).subset⟩
      rw [List.kerase_append_right hmem, List.kerase_of_notMem_keys hmem]
  obtain ⟨stale', hrest, hsubset⟩ := hkerase
  have hrecorded : (recorded options now key seen').entries =
      (recorded options now key seen).entries ++ stale' := by
    change (⟨key, record options now (hitsAt options now key seen')⟩ :
        Slot String (List ℚ)) :: List.kerase key seen'.entries =
      _ :: List.kerase key seen.entries ++ _
    rw [hhits, hrest]
    rfl
  refine ⟨stale'.take (options.keysKept - (recorded options now key seen).entries.length), ?_,
    fun slot hslot ↦ hstale slot (hsubset ((List.take_subset _ _) hslot))⟩
  rw [Server.checkOn, Server.checkOn, Recency.entries_evict, Recency.entries_evict, hrecorded,
    List.take_append]

/-- A limiter that drops no stale log answers alike. -/
theorem answers_eq_keeping (htrails : Trails options now seen seen')
    (hsound : Sound options now seen) (hnow : ∀ a ∈ attempts, now ≤ a.now)
    (htimely : Timely attempts) :
    answers options seen attempts = answersBy (checkOn options) seen' attempts := by
  induction attempts generalizing seen seen' now with
  | nil => rfl
  | cons attempt rest ih =>
    obtain ⟨hlater, hrest⟩ := timely_cons htimely
    have hfirst := hnow attempt List.mem_cons_self
    have hnext := hsound.mono hfirst
    have htrails' := (htrails.mono hfirst).drop hnext
    obtain ⟨hdecision, hafter⟩ := htrails'.checkOn attempt.key
    have htail := ih hafter (hnext.check attempt.key) hlater hrest
    change (⟨attempt, (check options attempt.now attempt.key seen).1⟩ : Answer) ::
        answers options (check options attempt.now attempt.key seen).2 rest =
      ⟨attempt, (checkOn options attempt.now attempt.key seen').1⟩ ::
        answersBy (checkOn options) (checkOn options attempt.now attempt.key seen').2 rest
    rw [hdecision, ← htail]
    rfl

/-! ### Any run -/

theorem seenAfter_append (first rest : List Attempt) :
    seenAfter options seen (first ++ rest) =
      seenAfter options (seenAfter options seen first) rest :=
  List.foldl_append

theorem size_seenAfter_le (hsize : seen.size ≤ options.keysKept) :
    (seenAfter options seen attempts).size ≤ options.keysKept := by
  induction attempts generalizing seen with
  | nil => exact hsize
  | cons _ _ ih => exact ih (Recency.size_evict_le _ _)

/-- The logs when the first attempt of the rest of a run is made. -/
theorem sound_before {first : List Attempt} (htimely : Timely (first ++ attempt :: attempts)) :
    Sound options attempt.now (seenAfter options ∅ first) := by
  obtain ⟨hfirst, -, hlast⟩ := List.pairwise_append.mp htimely
  have hend : ∀ a ∈ first, a.now ≤ attempt.now :=
    fun a ha ↦ hlast a ha attempt List.mem_cons_self
  cases first with
  | nil => exact sound_empty
  | cons earliest =>
    exact sound_seenAfter sound_empty (nows_le hfirst) hfirst hend
      (hend earliest List.mem_cons_self)

/-- With a limit of at least one and a clock that does not go back: a key that is retained is
admitted at most `limit` times in a window, refusals put in or taken out change no answer about
it, an attempt refused is admitted after its wait, dropping stale logs changes no answer about
any key, and no more than `maxKeys` keys are kept. -/
theorem throttle_exact (hlimit : 1 ≤ options.limit) {past run : List Attempt}
    (htimely : Timely (past ++ run)) :
    (∀ key, Retained options key (seenAfter options ∅ past) run → ∀ start,
      ((admittedTimes key (answers options (seenAfter options ∅ past) run)).filter fun t ↦
        start ≤ t ∧ t < start + options.windowMs).length ≤ options.limit ∧
      ((admittedTimes key (answers options (seenAfter options ∅ past) run)).filter fun t ↦
        start < t ∧ t ≤ start + options.windowMs).length ≤ options.limit) ∧
    (∀ key (run' : List Attempt), Retained options key (seenAfter options ∅ past) run →
      Retained options key (seenAfter options ∅ past) run' →
        Thinned key (answers options (seenAfter options ∅ past) run) run' →
          AnsweredAlike key (answers options (seenAfter options ∅ past) run)
            (answers options (seenAfter options ∅ past) run')) ∧
    (∀ attempt others again after, run = attempt :: others ++ again :: after →
      Retained options attempt.key (seenAfter options ∅ past) (attempt :: others) →
        (∀ a ∈ others, a.key ≠ attempt.key) → again.key = attempt.key →
          (check options attempt.now attempt.key (seenAfter options ∅ past)).1.allowed = false →
            attempt.now + (check options attempt.now attempt.key
              (seenAfter options ∅ past)).1.retryAfterSeconds * 1000 ≤ again.now →
                (check options again.now again.key
                  (seenAfter options ∅ (past ++ attempt :: others))).1.allowed = true) ∧
    answers options ∅ (past ++ run) = answersBy (checkOn options) ∅ (past ++ run) ∧
    (seenAfter options ∅ (past ++ run)).size ≤ options.keysKept := by
  refine ⟨fun key hretained start ↦ ?_, fun key run' hretained hretained' hthinned ↦ ?_,
    fun attempt others again after hrun hretained hothers hkey hrefused hwait ↦ ?_, ?_,
    size_seenAfter_le (Nat.zero_le _)⟩
  · cases run with
    | nil => exact ⟨Nat.zero_le _, Nat.zero_le _⟩
    | cons attempt =>
      have hsound : Sound options attempt.now (seenAfter options ∅ past) := sound_before htimely
      have hrest := (List.pairwise_append.mp htimely).2.1
      have hadmitted := admitted_answers hsound faithful_self (hsound key).1 (hsound key).2
        (nows_le hrest) hrest hretained
      have hlog := hadmitted.sublist (List.sublist_append_right _ _)
      constructor
      · refine hlog.length_filter_le _ fun s t hs ht ↦ ?_
        simp only [decide_eq_true_eq] at hs ht
        linarith
      · refine hlog.length_filter_le _ fun s t hs ht ↦ ?_
        simp only [decide_eq_true_eq] at hs ht
        linarith
  · cases run with
    | nil =>
      cases hthinned
      exact .nil
    | cons attempt =>
      have hsound : Sound options attempt.now (seenAfter options ∅ past) := sound_before htimely
      have hrest := (List.pairwise_append.mp htimely).2.1
      exact answeredAlike_of_thinned hsound hsound faithful_self faithful_self (nows_le hrest) hrest
        hretained hretained' hthinned
  · subst hrun
    have hsound : Sound options attempt.now (seenAfter options ∅ past) := by
      rw [List.cons_append] at htimely
      exact sound_before htimely
    have hrest := (List.pairwise_append.mp htimely).2.1
    have hfront : Timely (attempt :: others ++ [again]) :=
      hrest.sublist ((List.Sublist.refl _).append (by simp))
    rw [seenAfter_append]
    exact retry_admitted hlimit hsound hfront hretained hothers hrefused hkey hwait
  · generalize past ++ run = attempts at htimely
    cases attempts with
    | nil => rfl
    | cons attempt =>
      have htrails : Trails options attempt.now ∅ ∅ :=
        ⟨[], rfl, fun _ h ↦ absurd h List.not_mem_nil⟩
      exact answers_eq_keeping htrails sound_empty (nows_le htimely) htimely

/-- One request a minute: the second, after half of it, is refused, and admitted a half later. -/
theorem throttle_exact_retried :
    (check ⟨1, 60, none⟩ 60000 "origin"
      (seenAfter ⟨1, 60, none⟩ ∅ ([⟨0, "origin"⟩] ++ [⟨30000, "origin"⟩]))).1.allowed = true :=
  have htimely : Timely ([⟨0, "origin"⟩] ++ [⟨30000, "origin"⟩, ⟨60000, "origin"⟩]) := by
    simp only [Timely, List.cons_append, List.nil_append, List.pairwise_cons]
    norm_num
  (throttle_exact (by decide) htimely).2.2.1
    ⟨30000, "origin"⟩ [] ⟨60000, "origin"⟩ [] rfl ⟨fun _ ↦ by decide +kernel, trivial⟩
    (fun _ h ↦ absurd h List.not_mem_nil) rfl (by decide +kernel) (by decide +kernel)

end Odudu.Server
