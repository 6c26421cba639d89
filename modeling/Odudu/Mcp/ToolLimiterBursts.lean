import Odudu.Mcp.ToolLimiterRuns

/-!
# Bursts past the limiter of tool calls

The estimate takes the calls of the window before for evenly spread.  While a key is retained
its record is that of the calls admitted (`countsAt_stretch`).  A limit of one has room for a
call only where none lies within a window before it; a larger one lets as many calls as it is
in at the end of a window, and another in the middle of the next (`burst_bounded_iff`).
-/

set_option autoImplicit false

namespace Odudu.Mcp

open Maps Windows

variable (options : ToolLimiterOptions) (spender : Spender) (key : String)

/-- Whether an event is a call that is admitted and charged to the key. -/
def Charges (serving : Serving) (event : Event) : Prop :=
  match event with
  | .ask asking =>
    spender.key asking = key ∧ (admitCall options serving.limiter asking).1 = .admitted
  | .release _ => False

instance (serving : Serving) (event : Event) : Decidable (Charges options spender key serving event) :=
  match event with
  | .ask _ => inferInstanceAs (Decidable (_ ∧ _))
  | .release _ => inferInstanceAs (Decidable False)

/-- The instants at which calls were admitted and charged to the key. -/
def chargedTimes : Serving → List Event → List ℚ
  | _, [] => []
  | serving, event :: rest =>
    (if Charges options spender key serving event then event.now?.toList else []) ++
      chargedTimes (step options serving event) rest

/-- The key has a record after each of the events. -/
def Retained : Serving → List Event → Prop
  | _, [] => True
  | serving, event :: rest =>
    key ∈ spender.map (step options serving event).limiter ∧
      Retained (step options serving event) rest

/-- In any stretch of a run that is no longer than the window, a key that is retained throughout
is admitted at most `limit` times. -/
def BurstBounded : Prop :=
  ∀ (past stretch : List Event) (key : String), Timely (past ++ stretch) →
    (∀ t ∈ stretch.filterMap Event.now?, ∀ t' ∈ stretch.filterMap Event.now?,
      t' ≤ t + (spender.budget options).windowMs) →
    Retained options spender key (servingAfter options .new past) stretch →
      (chargedTimes options spender key (servingAfter options .new past) stretch).length ≤
        (spender.budget options).limit

variable {options} {spender} {key} {serving : Serving} {now later : ℚ} {events : List Event}
  {log : List ℚ}

theorem chargedTimes_sublist :
    (chargedTimes options spender key serving events).Sublist (events.filterMap Event.now?) := by
  induction events generalizing serving with
  | nil => exact List.Sublist.slnil
  | cons event rest ih =>
    have hsplit : (event :: rest).filterMap Event.now? =
        event.now?.toList ++ rest.filterMap Event.now? := by
      rw [List.filterMap_cons]
      cases event.now? <;> rfl
    rw [chargedTimes, hsplit]
    refine List.Sublist.append ?_ ih
    split
    · exact List.Sublist.refl _
    · exact List.nil_sublist _

theorem chargedTimes_append (events later : List Event) :
    chargedTimes options spender key serving (events ++ later) =
      chargedTimes options spender key serving events ++
        chargedTimes options spender key (servingAfter options serving events) later := by
  induction events generalizing serving with
  | nil => rfl
  | cons event rest ih =>
    rw [List.cons_append, chargedTimes, ih, chargedTimes, List.append_assoc]
    rfl

theorem retained_append (events later : List Event) :
    Retained options spender key serving (events ++ later) ↔
      Retained options spender key serving events ∧
        Retained options spender key (servingAfter options serving events) later := by
  induction events generalizing serving with
  | nil => exact (and_iff_right trivial).symm
  | cons event rest ih =>
    rw [List.cons_append, Retained, ih, Retained, and_assoc]
    rfl

/-- What is said of a key is said of some log. -/
theorem exists_log_of_key (h : KeptAll options now serving.limiter) (spender : Spender)
    (key : String) :
    ∃ log : List ℚ, (∀ t ∈ log, t ≤ now) ∧ ∀ later, now ≤ later →
      countsAt (spender.budget options) later key (spender.map serving.limiter) =
        tally (spender.budget options).windowMs later log := by
  cases hlookup : (spender.map serving.limiter).lookup key with
  | none =>
    refine ⟨[], fun t ht ↦ absurd ht List.not_mem_nil, fun later _ ↦ ?_⟩
    rw [countsAt_of_none hlookup]
    rfl
  | some =>
    have hwindow := (h spender).windows _ (Recency.mem_entries_of_lookup hlookup)
    obtain ⟨log, hlog, hrolled⟩ := exists_log (spender.budget options).windowMs_pos hwindow
    refine ⟨log, hlog, fun later hlater ↦ ?_⟩
    rw [countsAt_of_lookup hlookup, hrolled later hlater]

/-- One event: where the key keeps its record, that is of the calls charged to it. -/
theorem countsAt_step {asking : Asking} (h : KeptAll options asking.now serving.limiter)
    (hlog : ∀ later, asking.now ≤ later →
      countsAt (spender.budget options) later key (spender.map serving.limiter) =
        tally (spender.budget options).windowMs later log)
    (hlate : ∀ t ∈ log, t ≤ asking.now)
    (hretained : key ∈ spender.map (step options serving (.ask asking)).limiter)
    (hlater : asking.now ≤ later) :
    countsAt (spender.budget options) later key
        (spender.map (step options serving (.ask asking)).limiter) =
      tally (spender.budget options).windowMs later
        (log ++ if Charges options spender key serving (.ask asking) then [asking.now] else []) := by
  change countsAt _ later key (spender.map (admitCall options serving.limiter asking).2) = _
  by_cases hadmitted : (admitCall options serving.limiter asking).1 = .admitted
  · have hcounts := (countsAt_admitted h hadmitted hlater spender key).resolve_left
      (not_not_intro hretained)
    rw [hcounts]
    by_cases hkey : key = spender.key asking
    · have hcharges : Charges options spender key serving (.ask asking) := ⟨hkey.symm, hadmitted⟩
      have hconcat : ∀ t ∈ log ++ [asking.now], t ≤ asking.now := by
        intro t ht
        rcases List.mem_append.mp ht with hbefore | hthis
        · exact hlate t hbefore
        · exact (List.mem_singleton.mp hthis).le
      rw [if_pos hkey, if_pos hcharges, chargedAt, ← hkey, hlog _ le_rfl, more_tally,
        roll_tally (spender.budget options).windowMs_pos hconcat hlater]
    · have hcharges : ¬ Charges options spender key serving (.ask asking) :=
        fun hcharges ↦ hkey hcharges.1.symm
      rw [if_neg hkey, if_neg hcharges, List.append_nil, hlog later hlater]
  · have hcharges : ¬ Charges options spender key serving (.ask asking) :=
      fun hcharges ↦ hadmitted hcharges.2
    rw [countsAt_refused h hadmitted hlater, if_neg hcharges, List.append_nil, hlog later hlater]

/-- While a key is retained its record is that of the calls admitted. -/
theorem countsAt_stretch (h : KeptAll options now serving.limiter)
    (hlog : ∀ later, now ≤ later →
      countsAt (spender.budget options) later key (spender.map serving.limiter) =
        tally (spender.budget options).windowMs later log)
    (hlate : ∀ t ∈ log, t ≤ now) (htimely : Timely events)
    (hfrom : ∀ t ∈ events.filterMap Event.now?, now ≤ t)
    (hretained : Retained options spender key serving events) (hnow : now ≤ later)
    (hto : ∀ t ∈ events.filterMap Event.now?, t ≤ later) :
    countsAt (spender.budget options) later key
        (spender.map (servingAfter options serving events).limiter) =
      tally (spender.budget options).windowMs later
        (log ++ chargedTimes options spender key serving events) := by
  induction events generalizing serving now log with
  | nil =>
    rw [chargedTimes, List.append_nil]
    exact hlog later hnow
  | cons event _ ih =>
    obtain ⟨hthere, hrest⟩ := hretained
    rw [chargedTimes, ← List.append_assoc]
    cases event with
    | release call =>
      have hnone : ¬ Charges options spender key serving (.release call) := id
      rw [if_neg hnone, List.append_nil]
      refine ih (h.released call) (fun later hlater ↦ ?_) hlate htimely hfrom hrest hnow hto
      have hsame : spender.map (step options serving (.release call)).limiter =
          spender.map serving.limiter := map_release call spender
      rw [hsame]
      exact hlog later hlater
    | ask asking =>
      obtain ⟨hlater, hsorted⟩ := timely_admit htimely
      have hfirst := hfrom asking.now List.mem_cons_self
      have hkept := h.mono hfirst
      have hlast := hto asking.now List.mem_cons_self
      have hlate' : ∀ t ∈ log, t ≤ asking.now := fun t ht ↦ (hlate t ht).trans hfirst
      refine ih hkept.asked (fun later hlater ↦ ?_) ?_ hsorted hlater hrest hlast
        fun t ht ↦ hto t (List.mem_cons_of_mem _ ht)
      · exact countsAt_step hkept (fun t ht ↦ hlog t (hfirst.trans ht)) hlate' hthere hlater
      · intro t ht
        rcases List.mem_append.mp ht with hbefore | hthis
        · exact hlate' t hbefore
        · split at hthis
          · exact (List.mem_singleton.mp hthis).le
          · exact absurd hthis List.not_mem_nil

/-- Where a stretch starts: nothing before it is later, and nothing in it earlier. -/
theorem exists_start {past stretch : List Event} {last : Asking}
    (htimely : Timely (past ++ stretch ++ [.ask last])) :
    ∃ start, (∀ t ∈ past.filterMap Event.now?, t ≤ start) ∧
      (∀ t ∈ stretch.filterMap Event.now?, start ≤ t) ∧ start ≤ last.now := by
  obtain ⟨hboth, hlast⟩ := timely_append_singleton htimely
  have hbefore := hlast last.now rfl
  unfold Timely at hboth
  rw [List.filterMap_append] at hboth hbefore
  obtain ⟨-, hstretch, hcross⟩ := List.pairwise_append.mp hboth
  cases htimes : stretch.filterMap Event.now? with
  | nil =>
    exact ⟨last.now, fun t ht ↦ hbefore t (List.mem_append_left _ ht),
      fun t ht ↦ absurd ht List.not_mem_nil, le_rfl⟩
  | cons start =>
    rw [htimes] at hstretch hcross hbefore
    refine ⟨start, fun t ht ↦ hcross t ht start List.mem_cons_self, fun t ht ↦ ?_,
      hbefore start (List.mem_append_right _ List.mem_cons_self)⟩
    rcases List.mem_cons.mp ht with rfl | hrest
    · exact le_rfl
    · exact (List.pairwise_cons.mp hstretch).1 t hrest

/-- Where the limit is one, a call is admitted only if no other was within a window before. -/
theorem chargedTimes_eq_nil (hone : (spender.budget options).limit = 1)
    {past stretch : List Event} {last : Asking}
    (htimely : Timely (past ++ stretch ++ [.ask last]))
    (hnear : ∀ t ∈ stretch.filterMap Event.now?,
      last.now ≤ t + (spender.budget options).windowMs)
    (hretained : Retained options spender (spender.key last) (servingAfter options .new past) stretch)
    (hadmitted :
      (admitCall options (servingAfter options .new (past ++ stretch)).limiter last).1 = .admitted) :
    chargedTimes options spender (spender.key last) (servingAfter options .new past) stretch =
      [] := by
  have hwidth := (spender.budget options).windowMs_pos
  obtain ⟨start, hpast, hfrom, hstart⟩ := exists_start htimely
  obtain ⟨hboth, hlast⟩ := timely_append_singleton htimely
  have hto : ∀ t ∈ stretch.filterMap Event.now?, t ≤ last.now := fun t ht ↦ by
    have hbefore := hlast last.now rfl t
    rw [List.filterMap_append] at hbefore
    exact hbefore (List.mem_append_right _ ht)
  unfold Timely at hboth
  rw [List.filterMap_append] at hboth
  obtain ⟨hbefore, hstretch, -⟩ := List.pairwise_append.mp hboth
  have hkept : KeptAll options start (servingAfter options .new past).limiter :=
    keptAll_after hbefore hpast
  obtain ⟨base, hbase, hlog⟩ := exists_log_of_key hkept spender (spender.key last)
  have htally : chargedAt options last.now (servingAfter options .new (past ++ stretch)).limiter last
      spender = tally (spender.budget options).windowMs last.now (base ++
        chargedTimes options spender (spender.key last) (servingAfter options .new past)
          stretch) := by
    have hrun : servingAfter options .new (past ++ stretch) =
        servingAfter options (servingAfter options .new past) stretch := List.foldl_append
    rw [hrun]
    exact countsAt_stretch hkept hlog hbase hstretch hfrom hretained hstart hto
  have hroom := (admit_fst_iff.mp hadmitted).2 spender
  unfold HasRoom at hroom
  rw [htally, hone] at hroom
  refine eq_nil_of_room_one hwidth (fun t ht ↦ ?_) hroom
  have hmem := chargedTimes_sublist.subset ht
  exact ⟨hto t hmem, hnear t hmem⟩

/-- A limit of one bounds every burst. -/
theorem burstBounded_of_one (hone : (spender.budget options).limit = 1) :
    BurstBounded options spender := by
  intro past stretch key htimely hnear hretained
  induction stretch using List.reverseRecOn with
  | nil => exact Nat.zero_le _
  | append_singleton stretch event ih =>
    rw [← List.append_assoc] at htimely
    obtain ⟨hstretch, -⟩ := (retained_append _ _).mp hretained
    have hbefore := ih (timely_append_singleton htimely).1 (fun t ht t' ht' ↦ ?_) hstretch
    · rw [chargedTimes_append]
      by_cases hcharges : Charges options spender key
          (servingAfter options (servingAfter options .new past) stretch) event
      · cases event with
        | release => exact hcharges.elim
        | ask last =>
          obtain ⟨rfl, hadmitted⟩ := hcharges
          have hlast : last.now ∈ (stretch ++ [Event.ask last]).filterMap Event.now? := by
            rw [List.filterMap_append]
            exact List.mem_append_right _ (List.mem_singleton_self _)
          have hnear' : ∀ t ∈ stretch.filterMap Event.now?,
              last.now ≤ t + (spender.budget options).windowMs := fun t ht ↦ by
            refine hnear t ?_ last.now hlast
            rw [List.filterMap_append]
            exact List.mem_append_left _ ht
          have hrun : servingAfter options .new (past ++ stretch) =
              servingAfter options (servingAfter options .new past) stretch := List.foldl_append
          rw [← hrun] at hadmitted
          rw [chargedTimes_eq_nil hone htimely hnear' hstretch hadmitted, hone, List.nil_append,
            chargedTimes, chargedTimes, List.append_nil]
          split
          · exact le_rfl
          · exact Nat.zero_le _
      · rw [chargedTimes, if_neg hcharges, chargedTimes, List.append_nil, List.append_nil]
        exact hbefore
    · rw [List.filterMap_append] at hnear
      exact hnear t (List.mem_append_left _ ht) t' (List.mem_append_left _ ht')

/-! ### A burst past the limit -/

/-- The key that is charged is still there. -/
theorem mem_spend {budget : Budget} {most : ℕ} {map : CountsMap} (hmost : 1 ≤ most) :
    key ∈ spend budget most now key map := by
  have hfront := Recency.prefix_sweep
    (fun counts : Counts ↦ decide (counts.window ≤ windowAt budget.windowMs now - 2))
      (touch key map (countsAt budget now key map).more)
  rw [touch, Recency.entries_insert, ← touch] at hfront
  change (sweep budget now (touch key map (countsAt budget now key map).more)).entries <+: _ at hfront
  have hswept : key ∈ sweep budget now (touch key map (countsAt budget now key map).more) := by
    rcases Recency.lookup_sweep
        (fun counts : Counts ↦ decide (counts.window ≤ windowAt budget.windowMs now - 2))
        (touch key map (countsAt budget now key map).more) key with heq | ⟨-, counts, hlookup, hstale⟩
    · rw [lookup_touch, if_pos rfl] at heq
      exact AList.lookup_isSome.mp (Option.isSome_iff_exists.mpr ⟨_, heq⟩)
    · rw [lookup_touch, if_pos rfl] at hlookup
      obtain rfl := Option.some.inj hlookup
      have hpast := of_decide_eq_true hstale
      change (countsAt budget now key map).window ≤ _ at hpast
      rw [countsAt_window] at hpast
      omega
  change key ∈ Recency.evict most _
  obtain ⟨value, hvalue⟩ := Option.isSome_iff_exists.mp (AList.lookup_isSome.mpr hswept)
  have hslot := Recency.mem_entries_of_lookup hvalue
  have hentries := Recency.entries_evict most
    (sweep budget now (touch key map (countsAt budget now key map).more))
  obtain ⟨fewer, rfl⟩ := Nat.exists_eq_succ_of_ne_zero (Nat.one_le_iff_ne_zero.mp hmost)
  cases hslots : (sweep budget now (touch key map (countsAt budget now key map).more)).entries with
  | nil =>
    rw [hslots] at hslot
    exact absurd hslot List.not_mem_nil
  | cons slot slots =>
    rw [hslots] at hfront hentries
    obtain ⟨rfl, -⟩ := List.cons_prefix_cons.mp hfront
    rw [List.take_succ_cons] at hentries
    have hfirst := @Recency.lookup_of_mem_entries _ _ _ _ ⟨key, _⟩
      (hentries ▸ List.mem_cons_self)
    exact AList.lookup_isSome.mp (Option.isSome_iff_exists.mpr ⟨_, hfirst⟩)

theorem mem_of_admitted {limiter : ToolLimiter} {asking : Asking}
    (hmost : 1 ≤ spender.most options)
    (hadmitted : (admitCall options limiter asking).1 = .admitted) :
    spender.key asking ∈ spender.map (admitCall options limiter asking).2 := by
  have houtcome := outcome_admit options limiter asking
  generalize Mcp.admitCall options limiter asking = admission at houtcome hadmitted ⊢
  cases houtcome with
  | crowded | refused => cases hadmitted
  | admitted _ _ hmaps =>
    rw [hmaps]
    exact mem_spend hmost

/-- One person's calls by one client. -/
def callAt (now : ℚ) : Asking := ⟨now, "t", "a", "c"⟩

/-- So many calls at one instant, each released before the next; the first has this number. -/
def burst (now : ℚ) : ℕ → ℕ → List Event
  | _, 0 => []
  | call, more + 1 => .ask (callAt now) :: .release call :: burst now (call + 1) more

theorem burst_times (now : ℚ) (call calls : ℕ) :
    (burst now call calls).filterMap Event.now? = List.replicate calls now := by
  induction calls generalizing call with
  | zero => rfl
  | succ _ ih => exact congrArg (now :: ·) (ih (call + 1))

/-- The other budgets are of the same window and of no lower limit, the maps hold a key, and a
call may be in flight. -/
structure Widens (options : ToolLimiterOptions) (spender : Spender) : Prop where
  windows : ∀ other : Spender,
    (other.budget options).windowMs = (spender.budget options).windowMs
  limits : ∀ other : Spender, (spender.budget options).limit ≤ (other.budget options).limit
  most : ∀ other : Spender, 1 ≤ other.most options
  concurrent : 1 ≤ options.maxConcurrentPerPrincipal

/-- After so many calls at one instant, each released. -/
structure Spent (options : ToolLimiterOptions) (now : ℚ) (count : ℕ) (serving : Serving) :
    Prop where
  kept : KeptAll options now serving.limiter
  inFlight : InFlight options serving
  calls : serving.calls.length = count
  released : openCalls (callAt now).principalKey serving.calls = 0
  charged : ∀ spender : Spender, chargedAt options now serving.limiter (callAt now) spender =
    ⟨windowAt (spender.budget options).windowMs now, 0, count⟩

theorem spent_new : Spent options now 0 .new where
  kept := keptAll_new
  inFlight := inFlight_new
  calls := rfl
  released := rfl
  charged := fun spender ↦ by
    refine countsAt_of_none ?_
    cases spender <;> exact AList.lookup_empty _

variable {count : ℕ}

/-- Another call is admitted while every budget has room for it. -/
theorem Spent.admitted (h : Spent options now count serving)
    (hconcurrent : 1 ≤ options.maxConcurrentPerPrincipal)
    (hroom : ∀ spender : Spender, count < (spender.budget options).limit) :
    (admitCall options serving.limiter (callAt now)).1 = .admitted := by
  refine admit_fst_iff.mpr ⟨?_, fun spender ↦ ?_⟩
  · rw [h.inFlight.held, h.released]
    exact hconcurrent
  · change (chargedAt options now serving.limiter (callAt now) spender).Room _ _ now
    rw [h.charged, Counts.Room, Counts.estimate]
    have hless : ((count + 1 : ℕ) : ℚ) ≤ (spender.budget options).limit :=
      Nat.cast_le.mpr (hroom spender)
    push_cast at hless ⊢
    linarith

/-- The call, and its release. -/
theorem Spent.called (h : Spent options now count serving) (hmost : ∀ spender : Spender,
      1 ≤ spender.most options)
    (hadmitted : (admitCall options serving.limiter (callAt now)).1 = .admitted) :
    Spent options now (count + 1)
      (step options (step options serving (.ask (callAt now))) (.release count)) := by
  have hcalls : (step options serving (.ask (callAt now))).calls =
      serving.calls ++ [⟨(callAt now).principalKey, false⟩] := if_pos hadmitted
  have hcall : (step options serving (.ask (callAt now))).calls[count]? =
      some ⟨(callAt now).principalKey, false⟩ := by
    rw [hcalls, ← h.calls]
    exact List.getElem?_concat_length
  have hreleased : (release (step options serving (.ask (callAt now))) count).calls =
      (step options serving (.ask (callAt now))).calls.set count
        ⟨(callAt now).principalKey, true⟩ := by
    rw [release, hcall]
    rfl
  refine ⟨fun spender ↦ ?_, (h.inFlight.asked _).release _, ?_, ?_, fun spender ↦ ?_⟩
  · have hkept : KeptAll options (callAt now).now serving.limiter := h.kept
    exact hkept.asked.released count spender
  · change (release _ _).calls.length = _
    rw [hreleased, List.length_set, hcalls, List.length_append, h.calls]
    rfl
  · change openCalls _ (release _ _).calls = 0
    rw [hreleased, openCalls_set hcall rfl, if_pos rfl, hcalls, openCalls_concat, h.released]
    rfl
  · change countsAt _ now _ (spender.map (release _ _).limiter) = _
    rw [map_release]
    have hcounts := (countsAt_admitted h.kept hadmitted le_rfl spender
      (spender.key (callAt now))).resolve_left
        (not_not_intro (mem_of_admitted (hmost spender) hadmitted))
    rw [if_pos rfl] at hcounts
    refine hcounts.trans ?_
    rw [show chargedAt options (callAt now).now serving.limiter (callAt now) spender = _ from
      h.charged spender]
    exact Counts.roll_of_window rfl

/-- Calls are let in up to the limit. -/
theorem Spent.burst (h : Spent options now count serving) (hwide : Widens options spender)
    {calls : ℕ} (hroom : count + calls ≤ (spender.budget options).limit) :
    (chargedTimes options spender (spender.key (callAt now)) serving
        (Mcp.burst now count calls)).length = calls ∧
      Retained options spender (spender.key (callAt now)) serving (Mcp.burst now count calls) ∧
      Spent options now (count + calls) (servingAfter options serving (Mcp.burst now count calls)) := by
  induction calls generalizing count serving with
  | zero => exact ⟨rfl, trivial, h⟩
  | succ calls ih =>
    have hadmitted := h.admitted hwide.concurrent fun other ↦ by
      have hlimit := hwide.limits other
      omega
    obtain ⟨hlength, hretained, hspent⟩ := ih (h.called hwide.most hadmitted) (by omega)
    have hmem := mem_of_admitted (hwide.most spender) hadmitted
    rw [Nat.add_right_comm] at hspent
    refine ⟨?_, ⟨hmem, ?_, hretained⟩, hspent⟩
    · have hcharges : Charges options spender (spender.key (callAt now)) serving
          (.ask (callAt now)) := ⟨rfl, hadmitted⟩
      rw [Mcp.burst, chargedTimes, chargedTimes, if_pos hcharges]
      rw [if_neg (show ¬Charges options spender _ _ (.release count) from id), List.nil_append,
        List.length_append, hlength]
      exact Nat.add_comm _ _
    · change _ ∈ spender.map (release _ _).limiter
      rw [map_release]
      exact hmem

/-- After as many calls as a limit of two or more, in the last quarter of a window, there is room
for another in the middle of the next. -/
theorem Spent.hasRoom {width : ℚ} (h : Spent options (3 / 4 * width) count serving)
    (hwindows : ∀ other : Spender, (other.budget options).windowMs = width) (hmany : 2 ≤ count)
    (hlimits : ∀ other : Spender, count ≤ (other.budget options).limit) (other : Spender) :
    HasRoom options serving.limiter (callAt (3 / 2 * width)) other := by
  have hwidth := (other.budget options).windowMs_pos
  rw [hwindows] at hwidth
  have hfirst : windowAt width (3 / 4 * width) = 0 :=
    (windowAt_eq_iff hwidth).mpr ⟨by push_cast; linarith, by push_cast; linarith⟩
  have hlater : windowAt width (3 / 2 * width) = 1 :=
    (windowAt_eq_iff hwidth).mpr ⟨by push_cast; linarith, by push_cast; linarith⟩
  have hcharged : chargedAt options (3 / 2 * width) serving.limiter (callAt (3 / 2 * width)) other =
      (⟨0, 0, count⟩ : Counts).roll width (3 / 2 * width) := by
    have hrolled : chargedAt options (3 / 2 * width) serving.limiter (callAt (3 / 2 * width)) other =
        (chargedAt options (3 / 4 * width) serving.limiter (callAt (3 / 4 * width)) other).roll
          (other.budget options).windowMs (3 / 2 * width) :=
      (h.kept other).countsAt_later (by linarith)
    rw [hrolled, h.charged, hwindows, hfirst]
  change (chargedAt options (3 / 2 * width) serving.limiter (callAt (3 / 2 * width)) other).Room _ _
    (3 / 2 * width)
  have hnext : (⟨0, 0, count⟩ : Counts).window = windowAt width (3 / 2 * width) - 1 := by
    rw [hlater]
    rfl
  rw [hwindows, hcharged, Counts.room_roll_next_iff hnext, Counts.elapsed, Counts.roll_window, hlater]
  have hhalf : (3 / 2 * width - ((1 : ℤ) : ℚ) * width) / width = 1 / 2 := by
    push_cast
    field_simp
    norm_num
  have hcount : (2 : ℚ) ≤ count := by exact_mod_cast hmany
  have hlimit : (count : ℚ) ≤ (other.budget options).limit := by exact_mod_cast hlimits other
  rw [hhalf]
  change (count : ℚ) * (1 - 1 / 2) + 1 ≤ _
  linarith

/-- A limit of two or more does not bound every burst. -/
theorem not_burstBounded (hwide : Widens options spender)
    (hmany : 2 ≤ (spender.budget options).limit) : ¬BurstBounded options spender := by
  intro hbounded
  have hwidth := (spender.budget options).windowMs_pos
  obtain ⟨hlength, hretained, hspent⟩ :=
    (@spent_new options (3 / 4 * (spender.budget options).windowMs)).burst hwide
      (Nat.le_of_eq (Nat.zero_add _))
  rw [Nat.zero_add] at hspent
  have hroom := hspent.hasRoom hwide.windows hmany hwide.limits
  set first := 3 / 4 * (spender.budget options).windowMs with hfirst
  set last := 3 / 2 * (spender.budget options).windowMs with hlast
  set calls := burst first 0 (spender.budget options).limit with hcalls
  have hadmitted : (admitCall options (servingAfter options .new calls).limiter (callAt last)).1 =
      .admitted := by
    refine admit_fst_iff.mpr ⟨?_, hroom⟩
    exact (hspent.inFlight.held _).trans_lt (hspent.released.trans_lt hwide.concurrent)
  have hkept : Retained options spender (spender.key (callAt first)) .new
      (calls ++ [.ask (callAt last)]) :=
    (retained_append _ _).mpr
      ⟨hretained, mem_of_admitted (hwide.most spender) hadmitted, trivial⟩
  have htimes : (calls ++ [Event.ask (callAt last)]).filterMap Event.now? =
      List.replicate (spender.budget options).limit first ++ [last] := by
    rw [List.filterMap_append, hcalls, burst_times]
    rfl
  have hwithin : ∀ t ∈ List.replicate (spender.budget options).limit first ++ [last],
      first ≤ t ∧ t ≤ last := by
    intro t ht
    rcases List.mem_append.mp ht with hfirst' | hlast'
    · rw [List.eq_of_mem_replicate hfirst']
      exact ⟨le_rfl, by linarith⟩
    · rw [List.mem_singleton.mp hlast']
      exact ⟨by linarith, le_rfl⟩
  have hle := hbounded [] (calls ++ [Event.ask (callAt last)]) (spender.key (callAt first)) ?_ ?_ hkept
  · have hcharges : Charges options spender (spender.key (callAt first))
        (servingAfter options .new calls) (.ask (callAt last)) := ⟨rfl, hadmitted⟩
    change (chargedTimes options spender _ .new (calls ++ _)).length ≤ _ at hle
    rw [chargedTimes_append, List.length_append, hlength, chargedTimes, if_pos hcharges] at hle
    exact Nat.not_succ_le_self _ hle
  · change ((calls ++ [Event.ask (callAt last)]).filterMap Event.now?).Pairwise (· ≤ ·)
    rw [htimes]
    refine List.pairwise_append.mpr ⟨List.pairwise_replicate.mpr (.inr le_rfl),
      List.pairwise_singleton _ _, fun t ht t' ht' ↦ ?_⟩
    rw [List.eq_of_mem_replicate ht, List.mem_singleton.mp ht']
    linarith
  · rw [htimes]
    intro t ht t' ht'
    have hfrom := (hwithin t ht).1
    have hto := (hwithin t' ht').2
    linarith

/-- **Bursts.**  Whatever the other budgets are, every run keeps to the bound of a budget exactly
if its limit is one; and so does each limiter whose other budgets are as wide. -/
theorem burst_bounded_iff (spender : Spender) (budget : Budget) :
    ((∀ options : ToolLimiterOptions, spender.budget options = budget →
        BurstBounded options spender) ↔ budget.limit = 1) ∧
      ∀ options : ToolLimiterOptions, spender.budget options = budget → Widens options spender →
        (BurstBounded options spender ↔ budget.limit = 1) := by
  have hiff : ∀ options : ToolLimiterOptions, spender.budget options = budget →
      Widens options spender → (BurstBounded options spender ↔ budget.limit = 1) := by
    rintro options rfl hwide
    refine ⟨fun hbounded ↦ ?_, burstBounded_of_one⟩
    have hpos := (spender.budget options).limit_pos
    by_contra hne
    exact not_burstBounded hwide (by omega) hbounded
  refine ⟨⟨fun hbounded ↦ ?_, fun hone options hbudget ↦ burstBounded_of_one (hbudget ▸ hone)⟩, hiff⟩
  -- every budget the same, and room for one key
  let options : ToolLimiterOptions := ⟨budget, budget, budget, 1, 1, 1, 1⟩
  have hsame : ∀ other : Spender, other.budget options = budget := fun other ↦ by
    cases other <;> rfl
  refine (hiff options (hsame spender) ⟨fun other ↦ ?_, fun other ↦ ?_, fun other ↦ ?_, le_rfl⟩).mp
    (hbounded options (hsame spender))
  · rw [hsame, hsame]
  · rw [hsame, hsame]
  · cases other <;> exact le_rfl

/-- Two calls a minute of a principal. -/
def twoPerMinute : ToolLimiterOptions where
  perPrincipal := oneOfTwo.perTenant
  perSubject := oneOfTwo.perSubject
  perTenant := perMinute 500 (by decide)
  maxPrincipals := 4
  maxSubjects := 4
  maxTenants := 3
  maxConcurrentPerPrincipal := 4

/-- Two calls at the end of a minute, a third in the middle of the next: the first minute's count
is weighted by a half by then, and three calls are admitted within half a minute. -/
theorem burst_of_three :
    let burst := [Event.ask ⟨59900, "t", "a", "c"⟩, .ask ⟨59900, "t", "a", "c"⟩]
    Timely (burst ++ [.ask ⟨90000, "t", "a", "c"⟩]) ∧
      (90000 : ℚ) - 59900 ≤ (Spender.principal.budget twoPerMinute).windowMs ∧
      Retained twoPerMinute .principal (Spender.principal.key ⟨90000, "t", "a", "c"⟩) .new
        (burst ++ [.ask ⟨90000, "t", "a", "c"⟩]) ∧
      (Spender.principal.budget twoPerMinute).limit = 2 ∧
      chargedTimes twoPerMinute .principal (Spender.principal.key ⟨90000, "t", "a", "c"⟩) .new
        (burst ++ [.ask ⟨90000, "t", "a", "c"⟩]) = [59900, 59900, 90000] := by
  refine ⟨?_, by decide +kernel, ⟨by decide +kernel, by decide +kernel, by decide +kernel, trivial⟩,
    rfl, by decide +kernel⟩
  simp only [Timely, List.cons_append, List.nil_append, List.filterMap_cons, List.filterMap_nil,
    Event.now?, List.pairwise_cons]
  norm_num

end Odudu.Mcp
