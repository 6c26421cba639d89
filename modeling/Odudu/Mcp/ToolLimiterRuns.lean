import Mathlib.Data.Set.Finite.Lattice
import Odudu.Mcp.ToolLimiter

/-!
# The limiter of tool calls over runs

Whatever is asked and released, no map outgrows its bound, the calls in flight are those
admitted and not released (`InFlight`), and a refusal changes nothing that is said of any key.

The wait that a refusal reports is that of the first budget without room.  It is enough for all
three just when no other that is without room asks for longer (`limiter_honest_iff`).
-/

set_option autoImplicit false

namespace Odudu.Mcp

open Maps Windows

/-- The admitted calls of a principal that are not released. -/
def openCalls (principalKey : String) (calls : List Admitted) : ℕ :=
  calls.countP fun call ↦ call.principalKey = principalKey ∧ call.released = false

variable (options : ToolLimiterOptions)

/-- Nothing is spent from the budgets that an asking is held to. -/
def Quiet (asking : Asking) : Serving → List Event → Prop
  | _, [] => True
  | serving, event :: rest =>
    (∀ other, event = .ask other → (admitCall options serving.limiter other).1 = .admitted →
      ∀ spender : Spender, spender.key other ≠ spender.key asking) ∧
      Quiet asking (step options serving event) rest

/-- The calls in flight are those admitted and not released, and no more than there may be. -/
structure InFlight (serving : Serving) : Prop where
  counted : ∀ key, serving.limiter.inFlight.lookup key =
    if openCalls key serving.calls = 0 then none else some (openCalls key serving.calls)
  bounded : ∀ key, openCalls key serving.calls ≤ options.maxConcurrentPerPrincipal

def KeptAll (now : ℚ) (limiter : ToolLimiter) : Prop :=
  ∀ spender : Spender, Kept (spender.budget options) (spender.most options) now (spender.map limiter)

variable {options} {limiter : ToolLimiter} {serving : Serving} {asking other : Asking}
  {now later : ℚ} {events : List Event} {spender : Spender}

/-! ### Calls in flight -/

theorem InFlight.held (h : InFlight options serving) (key : String) :
    serving.limiter.held key = openCalls key serving.calls := by
  rw [ToolLimiter.held, h.counted]
  split
  · rename_i hnone
    rw [hnone, Option.getD_none]
  · rfl

theorem inFlight_new : InFlight options .new where
  counted := fun _ ↦ AList.lookup_empty _
  bounded := fun _ ↦ Nat.zero_le _

variable {call : ℕ} {admitted : Admitted}

theorem openCalls_set {calls : List Admitted}
    (hcall : calls[call]? = some admitted) (hopen : admitted.released = false) (key : String) :
    openCalls key (calls.set call { admitted with released := true }) =
      openCalls key calls - if admitted.principalKey = key then 1 else 0 := by
  obtain ⟨hlt, hget⟩ := List.getElem?_eq_some_iff.mp hcall
  unfold openCalls
  rw [List.countP_set hlt, hget]
  simp [hopen]

theorem openCalls_concat (calls : List Admitted) (principalKey key : String) :
    openCalls key (calls ++ [{ principalKey := principalKey, released := false }]) =
      openCalls key calls + if principalKey = key then 1 else 0 := by
  unfold openCalls
  rw [List.countP_append]
  simp [List.countP_cons]

/-- A call let go of frees its own place. -/
theorem InFlight.release (h : InFlight options serving) (call : ℕ) :
    InFlight options (release serving call) := by
  unfold Mcp.release
  cases hcall : serving.calls[call]? with
  | none => exact h
  | some admitted =>
    simp only
    split
    · exact h
    · rename_i hopen
      have hopen' := Bool.eq_false_iff.mpr hopen
      have hcount := openCalls_set hcall hopen'
      have hmine : 0 < openCalls admitted.principalKey serving.calls :=
        List.countP_pos_iff.mpr ⟨admitted, List.mem_of_getElem? hcall, by simpa using hopen⟩
      refine ⟨fun key ↦ ?_, fun key ↦ ?_⟩
      · change (giveBack admitted.principalKey serving.limiter).inFlight.lookup key =
          if openCalls key (serving.calls.set call { admitted with released := true }) = 0 then none
          else some (openCalls key (serving.calls.set call { admitted with released := true }))
        rw [hcount, giveBack, h.counted admitted.principalKey, if_neg hmine.ne', Option.getD_some]
        by_cases hkey : key = admitted.principalKey
        · subst hkey
          rw [if_pos rfl]
          simp only
          split
          · rw [AList.lookup_erase, if_pos (by omega)]
          · rw [AList.lookup_insert, if_neg (by omega)]
        · rw [if_neg (Ne.symm hkey), Nat.sub_zero, ← h.counted key]
          simp only
          split
          · exact AList.lookup_erase_ne hkey
          · exact AList.lookup_insert_ne hkey
      · change openCalls key (serving.calls.set call { admitted with released := true }) ≤ _
        rw [hcount]
        exact (Nat.sub_le _ _).trans (h.bounded key)

/-- A call is counted where it is admitted, and left out where it is refused. -/
theorem InFlight.asked (h : InFlight options serving) (asking : Asking) :
    InFlight options (step options serving (.ask asking)) := by
  have houtcome := outcome_admit options serving.limiter asking
  unfold step
  simp only
  generalize Mcp.admitCall options serving.limiter asking = admission at houtcome ⊢
  cases houtcome with
  | crowded => exact h
  | @refused _ limiter' hheld hfirst hmaps hinFlight =>
    refine ⟨fun key ↦ ?_, h.bounded⟩
    change limiter'.inFlight.lookup key = _
    rw [hinFlight]
    exact h.counted key
  | @admitted limiter' hheld hroom hmaps hinFlight =>
    have hcount := openCalls_concat serving.calls asking.principalKey
    rw [h.held] at hheld hinFlight
    refine ⟨fun key ↦ ?_, fun key ↦ ?_⟩
    · change limiter'.inFlight.lookup key = if openCalls key (serving.calls ++ [_]) = 0 then none
        else some (openCalls key (serving.calls ++ [_]))
      rw [hinFlight, hcount]
      by_cases hkey : key = asking.principalKey
      · subst hkey
        rw [AList.lookup_insert, if_pos rfl, if_neg (Nat.succ_ne_zero _)]
      · rw [AList.lookup_insert_ne hkey, if_neg (Ne.symm hkey), Nat.add_zero]
        exact h.counted key
    · change openCalls key (serving.calls ++ [_]) ≤ _
      rw [hcount]
      split
      · rename_i hkey
        exact hkey ▸ hheld
      · exact h.bounded key

theorem InFlight.after (h : InFlight options serving) (events : List Event) :
    InFlight options (servingAfter options serving events) := by
  induction events generalizing serving with
  | nil => exact h
  | cons event _ ih =>
    cases event with
    | ask asking => exact ih (h.asked asking)
    | release call => exact ih (h.release call)

theorem release_of_released
    (hcall : serving.calls[call]? = some admitted) (hreleased : admitted.released = true) :
    release serving call = serving := by
  rw [release, hcall]
  exact if_pos hreleased

/-- A call that was released stays so. -/
theorem released_after
    (h : ∃ admitted, serving.calls[call]? = some admitted ∧ admitted.released = true)
    (events : List Event) :
    ∃ admitted, (servingAfter options serving events).calls[call]? = some admitted ∧
      admitted.released = true := by
  induction events generalizing serving with
  | nil => exact h
  | cons event _ ih =>
    refine ih ?_
    obtain ⟨admitted, hcall, hreleased⟩ := h
    cases event with
    | ask =>
      refine ⟨admitted, ?_, hreleased⟩
      change (if _ then serving.calls ++ [_] else serving.calls)[call]? = _
      split
      · rw [List.getElem?_append_left (List.getElem?_eq_some_iff.mp hcall).1, hcall]
      · exact hcall
    | release other =>
      change ∃ admitted, (release serving other).calls[call]? = some admitted ∧ _
      unfold release
      cases hother : serving.calls[other]? with
      | none => exact ⟨admitted, hcall, hreleased⟩
      | some =>
        simp only
        split
        · exact ⟨admitted, hcall, hreleased⟩
        · simp only [List.getElem?_set]
          split
          · rename_i heq
            subst heq
            rw [hcall] at hother
            obtain rfl := Option.some.inj hother
            exact absurd hreleased (by assumption)
          · exact ⟨admitted, hcall, hreleased⟩

theorem release_again (hcall : call < serving.calls.length) (events : List Event) :
    servingAfter options serving (.release call :: events ++ [.release call]) =
      servingAfter options serving (.release call :: events) := by
  have hreleased : ∃ admitted, (release serving call).calls[call]? = some admitted ∧
      admitted.released = true := by
    unfold release
    rw [List.getElem?_eq_getElem hcall]
    simp only
    split
    · rename_i hdone
      exact ⟨_, List.getElem?_eq_getElem hcall, hdone⟩
    · exact ⟨_, List.getElem?_set_self hcall, rfl⟩
  obtain ⟨admitted, hlater, hdone⟩ := @released_after options _ _ hreleased events
  have hlast : servingAfter options serving (.release call :: events) =
      servingAfter options (release serving call) events := rfl
  rw [servingAfter, List.foldl_append, ← servingAfter, hlast]
  exact release_of_released hlater hdone

theorem calls_release_of_ne {call other : ℕ} (h : other ≠ call) :
    (release serving call).calls[other]? = serving.calls[other]? := by
  unfold release
  split
  · rfl
  · split
    · rfl
    · exact List.getElem?_set_ne (Ne.symm h)

/-! ### What the maps say -/

theorem keptAll_new : KeptAll options now .new := by
  intro spender
  cases spender <;> exact kept_empty

theorem KeptAll.mono (h : KeptAll options now limiter) (hlater : now ≤ later) :
    KeptAll options later limiter :=
  fun spender ↦ (h spender).mono hlater

theorem map_giveBack (principalKey : String) (spender : Spender) :
    spender.map (giveBack principalKey limiter) = spender.map limiter := by
  cases spender <;> rfl

theorem map_release (call : ℕ) (spender : Spender) :
    spender.map (release serving call).limiter = spender.map serving.limiter := by
  unfold release
  split
  · rfl
  · split
    · rfl
    · exact map_giveBack _ _

theorem KeptAll.released (h : KeptAll options now serving.limiter) (call : ℕ) :
    KeptAll options now (release serving call).limiter := by
  intro spender
  rw [map_release]
  exact h spender

theorem KeptAll.asked (h : KeptAll options asking.now limiter) :
    KeptAll options asking.now (admitCall options limiter asking).2 := by
  have houtcome := outcome_admit options limiter asking
  generalize Mcp.admitCall options limiter asking = admission at houtcome ⊢
  cases houtcome with
  | crowded => exact h
  | refused _ _ hmaps =>
    intro spender
    rw [hmaps]
    exact (h spender).verdict _
  | admitted _ hroom hmaps =>
    intro spender
    rw [hmaps]
    refine ((h spender).verdict _).spend ?_
    have hsame : countsAt (spender.budget options) asking.now (spender.key asking)
        (verdictOf options limiter asking spender).2 =
          chargedAt options asking.now limiter asking spender :=
      countsAt_verdict (h spender) le_rfl _
    rw [verdictOf] at hsame
    rw [hsame]
    exact hroom spender

theorem timely_append_singleton {event : Event} (h : Timely (events ++ [event])) :
    Timely events ∧ ∀ now, event.now? = some now → ∀ t ∈ events.filterMap Event.now?, t ≤ now := by
  unfold Timely at h
  rw [List.filterMap_append] at h
  obtain ⟨hevents, -, hlast⟩ := List.pairwise_append.mp h
  refine ⟨hevents, fun now hnow t ht ↦ hlast t ht now ?_⟩
  simp [hnow]

/-- The maps at an instant no call was later than. -/
theorem keptAll_after (htimely : Timely events)
    (hlate : ∀ t ∈ events.filterMap Event.now?, t ≤ now) :
    KeptAll options now (servingAfter options .new events).limiter := by
  induction events using List.reverseRecOn generalizing now with
  | nil => exact keptAll_new
  | append_singleton events event ih =>
    obtain ⟨hevents, hlast⟩ := timely_append_singleton htimely
    rw [servingAfter, List.foldl_append, ← servingAfter]
    rw [List.filterMap_append] at hlate
    have hbefore : ∀ t ∈ events.filterMap Event.now?, t ≤ now := fun t ht ↦
      hlate t (List.mem_append_left _ ht)
    cases event with
    | ask asking =>
      have hnow : asking.now ≤ now := hlate _ (List.mem_append_right _ (by simp [Event.now?]))
      exact (ih hevents (hlast asking.now rfl)).asked.mono hnow
    | release call => exact (ih hevents hbefore).released call

/-- A refusal changes nothing that is said of a key. -/
theorem countsAt_refused (h : KeptAll options asking.now limiter)
    (hrefused : (admitCall options limiter asking).1 ≠ .admitted) (hlater : asking.now ≤ later)
    (spender : Spender) (key : String) :
    countsAt (spender.budget options) later key (spender.map (admitCall options limiter asking).2) =
      countsAt (spender.budget options) later key (spender.map limiter) := by
  have houtcome := outcome_admit options limiter asking
  generalize Mcp.admitCall options limiter asking = admission at houtcome hrefused ⊢
  cases houtcome with
  | crowded => rfl
  | refused _ _ hmaps =>
    rw [hmaps]
    exact countsAt_verdict (h spender) hlater key
  | admitted => exact absurd rfl hrefused

/-- What an admission does to what is said of a key, where the key is still there. -/
theorem countsAt_admitted (h : KeptAll options asking.now limiter)
    (hadmitted : (admitCall options limiter asking).1 = .admitted) (hlater : asking.now ≤ later)
    (spender : Spender) (key : String) :
    key ∉ spender.map (admitCall options limiter asking).2 ∨
      countsAt (spender.budget options) later key (spender.map (admitCall options limiter asking).2) =
        if key = spender.key asking then
          (chargedAt options asking.now limiter asking spender).more.roll
            (spender.budget options).windowMs later
        else countsAt (spender.budget options) later key (spender.map limiter) := by
  have houtcome := outcome_admit options limiter asking
  generalize Mcp.admitCall options limiter asking = admission at houtcome hadmitted ⊢
  cases houtcome with
  | crowded | refused => cases hadmitted
  | admitted _ _ hmaps =>
    rw [hmaps]
    unfold spendOf
    refine (countsAt_spend hlater key).imp id fun hcounts ↦ ?_
    rw [hcounts]
    split
    · rw [verdictOf, countsAt_verdict (h spender) le_rfl]
      rfl
    · exact countsAt_verdict (h spender) hlater key

/-! ### Waiting -/

theorem timely_admit {rest : List Event} (h : Timely (.ask other :: rest)) :
    (∀ t ∈ rest.filterMap Event.now?, other.now ≤ t) ∧ Timely rest :=
  List.pairwise_cons.mp h

/-- What comes between two calls of `admit`. -/
theorem timely_between {past mid : List Event}
    (h : Timely (past ++ .ask asking :: mid ++ [.ask other])) :
    Timely mid ∧ ∀ t ∈ mid.filterMap Event.now?, asking.now ≤ t ∧ t ≤ other.now := by
  rw [List.append_assoc] at h
  unfold Timely at h
  rw [List.filterMap_append] at h
  obtain ⟨hlater, hrest⟩ := timely_admit (List.pairwise_append.mp h).2.1
  obtain ⟨hmid, hbefore⟩ := timely_append_singleton hrest
  refine ⟨hmid, fun t ht ↦ ⟨hlater t ?_, hbefore _ rfl t ht⟩⟩
  change t ∈ List.filterMap Event.now? (mid ++ [.ask other])
  rw [List.filterMap_append]
  exact List.mem_append_left _ ht

/-- While nothing is spent from a budget what is said of its key stays, or the key is gone. -/
theorem chargedAt_quiet (h : KeptAll options now serving.limiter) (hnow : now ≤ later)
    (htimely : Timely events) (hfrom : ∀ t ∈ events.filterMap Event.now?, now ≤ t)
    (hto : ∀ t ∈ events.filterMap Event.now?, t ≤ later)
    (hquiet : Quiet options asking serving events) (spender : Spender) :
    chargedAt options later (servingAfter options serving events).limiter asking spender =
        chargedAt options later serving.limiter asking spender ∨
      chargedAt options later (servingAfter options serving events).limiter asking spender =
        Counts.fresh (spender.budget options).windowMs later := by
  induction events generalizing serving now with
  | nil => exact Or.inl rfl
  | cons event rest ih =>
    obtain ⟨hevent, hrest⟩ := hquiet
    cases event with
    | release call =>
      have hafter := ih (h.released call) hnow htimely hfrom hto hrest
      unfold chargedAt at hafter ⊢
      rw [map_release] at hafter
      exact hafter
    | ask other =>
      obtain ⟨hlater, hsorted⟩ := timely_admit htimely
      have hfirst := hfrom other.now List.mem_cons_self
      have hlast := hto other.now List.mem_cons_self
      have hkept := h.mono hfirst
      have hafter := ih hkept.asked hlast hsorted hlater
        (fun t ht ↦ hto t (List.mem_cons_of_mem _ ht)) hrest
      have hone : chargedAt options later (admitCall options serving.limiter other).2 asking spender =
            chargedAt options later serving.limiter asking spender ∨
          chargedAt options later (admitCall options serving.limiter other).2 asking spender =
            Counts.fresh (spender.budget options).windowMs later := by
        by_cases hadmitted : (admitCall options serving.limiter other).1 = .admitted
        · have hother := hevent other rfl hadmitted spender
          rcases countsAt_admitted hkept hadmitted hlast spender (spender.key asking) with
            hgone | hsame
          · exact Or.inr (countsAt_of_none (AList.lookup_eq_none.mpr hgone))
          · rw [if_neg (Ne.symm hother)] at hsame
            exact Or.inl hsame
        · exact Or.inl (countsAt_refused hkept hadmitted hlast spender _)
      rcases hafter with hsame | hfresh
      · change chargedAt options later (servingAfter options _ rest).limiter asking spender =
          chargedAt options later (admitCall options serving.limiter other).2 asking spender at hsame
        change chargedAt options later (servingAfter options _ rest).limiter asking spender = _ ∨
          chargedAt options later (servingAfter options _ rest).limiter asking spender = _
        rw [hsame]
        exact hone
      · exact Or.inr hfresh

theorem openCalls_quiet (hquiet : Quiet options asking serving events) :
    openCalls asking.principalKey (servingAfter options serving events).calls ≤
      openCalls asking.principalKey serving.calls := by
  induction events generalizing serving with
  | nil => exact le_rfl
  | cons event _ ih =>
    obtain ⟨hevent, hrest⟩ := hquiet
    refine (ih hrest).trans ?_
    cases event with
    | release call =>
      change openCalls _ (release serving call).calls ≤ _
      unfold release
      cases hcall : serving.calls[call]? with
      | none => exact le_rfl
      | some =>
        simp only
        split
        · exact le_rfl
        · rename_i hopen
          rw [openCalls_set hcall (Bool.eq_false_iff.mpr hopen)]
          exact Nat.sub_le _ _
    | ask other =>
      change openCalls _ (if _ then serving.calls ++ [_] else serving.calls) ≤ _
      split
      · rename_i hadmitted
        have hother : other.principalKey ≠ asking.principalKey :=
          hevent other rfl hadmitted .principal
        rw [openCalls_concat, if_neg hother]
        exact le_rfl
      · exact le_rfl

/-- A refused call's budgets, a wait later: the one that is without room has it once its own wait
is over, the one that has room keeps it. -/
theorem hasRoom_later (h : KeptAll options asking.now limiter) (hlater : asking.now ≤ later)
    (spender : Spender) :
    (chargedAt options later limiter asking spender).Room (spender.budget options).limit
        (spender.budget options).windowMs later ↔
      (¬ HasRoom options limiter asking spender →
        (chargedAt options asking.now limiter asking spender).untilRoom (spender.budget options).limit
          (spender.budget options).windowMs asking.now ≤ later - asking.now) := by
  have hpos := (spender.budget options).windowMs_pos
  have hone := (spender.budget options).limit_pos
  have hroll : chargedAt options later limiter asking spender =
      (chargedAt options asking.now limiter asking spender).roll (spender.budget options).windowMs
        later := (h spender).countsAt_later hlater
  rw [hroll]
  by_cases hroom : HasRoom options limiter asking spender
  · exact iff_of_true (hroom.roll hpos hone countsAt_window hlater) fun hfull ↦ absurd hroom hfull
  · have hwait := Counts.room_iff_untilRoom_le hpos hone countsAt_window (h spender).countsAt_le
      hroom hlater
    exact hwait.trans ⟨fun hle _ ↦ hle, fun hall ↦ hall hroom⟩

/-- A wait in whole seconds, of at least one, is no less than a spender's just when the spender
has room by then. -/
theorem waitOf_le_iff {wait : ℤ} (hwait : 1 ≤ wait) :
    waitOf options limiter asking spender ≤ wait ↔
      (chargedAt options asking.now limiter asking spender).untilRoom (spender.budget options).limit
        (spender.budget options).windowMs asking.now ≤ asking.now + wait * 1000 - asking.now := by
  rw [waitOf, waitSeconds, max_le_iff, and_iff_right hwait, Int.ceil_le, div_le_iff₀ (by norm_num),
    add_sub_cancel_left]

/-- An asking is admitted when its principal may have another call in flight and every budget has
room. -/
theorem admit_fst_iff :
    (admitCall options limiter asking).1 = .admitted ↔
      limiter.held asking.principalKey < options.maxConcurrentPerPrincipal ∧
        ∀ spender, HasRoom options limiter asking spender := by
  have houtcome := outcome_admit options limiter asking
  generalize Mcp.admitCall options limiter asking = admission at houtcome ⊢
  cases houtcome with
  | crowded hheld => exact iff_of_false nofun fun h ↦ absurd h.1 (not_lt.mpr hheld)
  | refused _ hfirst =>
    refine iff_of_false nofun fun h ↦ ?_
    have hfull := List.find?_some (show List.find? _ _ = _ from hfirst)
    exact of_decide_eq_true hfull (h.2 _)
  | admitted hheld hroom => exact iff_of_true rfl ⟨hheld, hroom⟩

theorem one_le_waitOf : 1 ≤ waitOf options limiter asking spender := le_max_left _ _

/-- A refused call is admitted when its wait is over, whatever happens that spends nothing from
its budgets, just when the budget that answered asks for no less than the others without room. -/
theorem waits_iff {past : List Event} (htimely : Timely (past ++ [.ask asking]))
    {reason : Reason} {wait : ℤ}
    (hrefused : (admitCall options (servingAfter options .new past).limiter asking).1 =
      .refused reason wait) (hreason : reason ≠ .concurrency) :
    (∀ mid later, Timely (past ++ .ask asking :: mid ++ [.ask { asking with now := later }]) →
        Quiet options asking (servingAfter options .new (past ++ [.ask asking])) mid →
          asking.now + wait * 1000 ≤ later →
            (admitCall options (servingAfter options .new (past ++ .ask asking :: mid)).limiter
              { asking with now := later }).1 = .admitted) ↔
      ∀ first, refusing options (servingAfter options .new past).limiter asking = some first →
        ∀ spender, ¬ HasRoom options (servingAfter options .new past).limiter asking spender →
          waitOf options (servingAfter options .new past).limiter asking spender ≤
            waitOf options (servingAfter options .new past).limiter asking first := by
  obtain ⟨hpast, hlast⟩ := timely_append_singleton htimely
  have hkept : KeptAll options asking.now (servingAfter options .new past).limiter :=
    keptAll_after hpast (hlast _ rfl)
  have hinFlight : InFlight options (servingAfter options .new past) := inFlight_new.after past
  have hrun : ∀ mid, servingAfter options .new (past ++ .ask asking :: mid) =
      servingAfter options (step options (servingAfter options .new past) (.ask asking)) mid :=
    fun mid ↦ List.foldl_append
  rw [hrun []]
  simp only [hrun]
  generalize servingAfter options .new past = serving at hrefused hkept hinFlight ⊢
  have hnot : (admitCall options serving.limiter asking).1 ≠ .admitted := by
    rw [hrefused]
    exact nofun
  -- the refusal changes neither the calls nor what is said of a key
  have hcalls : (step options serving (.ask asking)).calls = serving.calls := if_neg hnot
  have hsame : ∀ later, asking.now ≤ later → ∀ spender,
      chargedAt options later (admitCall options serving.limiter asking).2 asking spender =
        chargedAt options later serving.limiter asking spender :=
    fun later hlater spender ↦ countsAt_refused hkept hnot hlater spender _
  obtain ⟨first, hheld, hfirst, rfl⟩ : ∃ first,
      serving.limiter.held asking.principalKey < options.maxConcurrentPerPrincipal ∧
        refusing options serving.limiter asking = some first ∧
          wait = waitOf options serving.limiter asking first := by
    have houtcome := outcome_admit options serving.limiter asking
    generalize Mcp.admitCall options serving.limiter asking = admission at houtcome hrefused
    cases houtcome with
    | crowded =>
      obtain ⟨rfl, -⟩ := Admission.refused.inj hrefused
      exact absurd rfl hreason
    | refused hheld hfirst =>
      exact ⟨_, hheld, hfirst, (Admission.refused.inj hrefused).2.symm⟩
    | admitted => cases hrefused
  have hwait : (1 : ℚ) ≤ waitOf options serving.limiter asking first := by
    exact_mod_cast one_le_waitOf
  constructor
  · intro hall first' hfirst' spender hfull
    obtain rfl := Option.some.inj (hfirst.symm.trans hfirst')
    have hlater : asking.now ≤ asking.now + waitOf options serving.limiter asking first * 1000 := by
      linarith
    have htimely' : Timely (past ++ .ask asking :: [] ++ [.ask { asking with
        now := asking.now + waitOf options serving.limiter asking first * 1000 }]) := by
      unfold Timely at htimely ⊢
      rw [List.filterMap_append]
      refine List.pairwise_append.mpr ⟨htimely, List.pairwise_singleton _ _, fun t ht u hu ↦ ?_⟩
      obtain rfl := List.mem_singleton.mp hu
      rw [List.filterMap_append] at ht
      rcases List.mem_append.mp ht with hbefore | hthis
      · exact (hlast _ rfl t hbefore).trans hlater
      · obtain rfl := List.mem_singleton.mp hthis
        exact hlater
    have hadmitted := (admit_fst_iff.mp (hall [] _ htimely' trivial le_rfl)).2 spender
    have hroom : (chargedAt options (asking.now + waitOf options serving.limiter asking first * 1000)
        serving.limiter asking spender).Room (spender.budget options).limit
          (spender.budget options).windowMs
            (asking.now + waitOf options serving.limiter asking first * 1000) := by
      rw [← hsame _ hlater]
      exact hadmitted
    exact (waitOf_le_iff one_le_waitOf).mpr ((hasRoom_later hkept hlater spender).mp hroom hfull)
  · intro hcond mid later htimely' hquiet hover
    have hlater : asking.now ≤ later := by linarith
    change Quiet options asking (step options serving (.ask asking)) mid at hquiet
    have hafter : InFlight options
        (servingAfter options (step options serving (.ask asking)) mid) :=
      (hinFlight.asked asking).after mid
    have hkept' : KeptAll options asking.now (step options serving (.ask asking)).limiter :=
      hkept.asked
    obtain ⟨hmid, hbetween⟩ := timely_between htimely'
    refine admit_fst_iff.mpr ⟨?_, fun spender ↦ ?_⟩
    · change ToolLimiter.held _ asking.principalKey < _
      rw [hafter.held]
      refine (openCalls_quiet hquiet).trans_lt ?_
      rw [hcalls, ← hinFlight.held]
      exact hheld
    · have hquietly := chargedAt_quiet hkept' hlater hmid (fun t ht ↦ (hbetween t ht).1)
        (fun t ht ↦ (hbetween t ht).2) hquiet spender
      change (chargedAt options later _ asking spender).Room _ _ later
      rcases hquietly with hstays | hfresh
      · rw [hstays]
        change (chargedAt options later (admitCall options serving.limiter asking).2 asking
          spender).Room _ _ later
        rw [hsame later hlater]
        refine (hasRoom_later hkept hlater spender).mpr fun hfull ↦ ?_
        have hdue := (waitOf_le_iff one_le_waitOf).mp (hcond first hfirst spender hfull)
        linarith
      · rw [hfresh]
        exact Counts.room_fresh (spender.budget options).limit_pos

/-- After any calls: a refusal changes nothing that is said of any key of a budget; an asking
refused for rate that waits the seconds it was told is admitted, while nothing is spent from its
budgets, just when no budget without room asks for longer than the first of them; the calls in
flight are those admitted and not released, and no more than a principal may have; a release
counts once, and leaves the other calls as they are; and no map outgrows its bound. -/
theorem limiter_honest_iff (options : ToolLimiterOptions) {past : List Event}
    (htimely : Timely past) :
    (∀ asking, Timely (past ++ [.ask asking]) →
      (admitCall options (servingAfter options .new past).limiter asking).1 ≠ .admitted →
        ∀ (spender : Spender) key later, asking.now ≤ later →
          countsAt (spender.budget options) later key
              (spender.map (servingAfter options .new (past ++ [.ask asking])).limiter) =
            countsAt (spender.budget options) later key
              (spender.map (servingAfter options .new past).limiter)) ∧
    (∀ asking reason wait, Timely (past ++ [.ask asking]) →
      (admitCall options (servingAfter options .new past).limiter asking).1 = .refused reason wait →
        reason ≠ .concurrency →
          ((∀ mid later,
              Timely (past ++ .ask asking :: mid ++ [.ask { asking with now := later }]) →
                Quiet options asking (servingAfter options .new (past ++ [.ask asking])) mid →
                  asking.now + wait * 1000 ≤ later →
                    (admitCall options (servingAfter options .new (past ++ .ask asking :: mid)).limiter
                      { asking with now := later }).1 = .admitted) ↔
            ∀ first, refusing options (servingAfter options .new past).limiter asking = some first →
              ∀ spender, ¬ HasRoom options (servingAfter options .new past).limiter asking spender →
                waitOf options (servingAfter options .new past).limiter asking spender ≤
                  waitOf options (servingAfter options .new past).limiter asking first)) ∧
    (∀ key, (servingAfter options .new past).limiter.held key =
        openCalls key (servingAfter options .new past).calls ∧
      openCalls key (servingAfter options .new past).calls ≤ options.maxConcurrentPerPrincipal) ∧
    (∀ call < (servingAfter options .new past).calls.length,
      (∀ events, servingAfter options .new (past ++ (.release call :: events ++ [.release call])) =
        servingAfter options .new (past ++ .release call :: events)) ∧
      ∀ other, other ≠ call →
        (servingAfter options .new (past ++ [.release call])).calls[other]? =
          (servingAfter options .new past).calls[other]?) ∧
    ∀ spender : Spender,
      (spender.map (servingAfter options .new past).limiter).size ≤ spender.most options := by
  have hrun : ∀ events, servingAfter options .new (past ++ events) =
      servingAfter options (servingAfter options .new past) events := fun _ ↦ List.foldl_append
  have hinFlight : InFlight options (servingAfter options .new past) := inFlight_new.after past
  refine ⟨fun asking hask hnot spender key later hlater ↦ ?_,
    fun asking reason wait hask hrefused hreason ↦ waits_iff hask hrefused hreason,
    fun key ↦ ⟨hinFlight.held key, hinFlight.bounded key⟩, fun call hcall ↦ ⟨fun events ↦ ?_,
    fun other hother ↦ ?_⟩, fun spender ↦ ?_⟩
  · obtain ⟨hpast, hlast⟩ := timely_append_singleton hask
    rw [hrun]
    exact countsAt_refused (keptAll_after hpast (hlast _ rfl)) hnot hlater spender key
  · rw [hrun, hrun, release_again hcall]
  · rw [hrun]
    exact calls_release_of_ne hother
  · obtain ⟨now, hnow⟩ := (past.filterMap Event.now?).finite_toSet.bddAbove
    exact (keptAll_after htimely hnow spender).size

/-- A budget of so many calls a minute. -/
def perMinute (limit : ℕ) (limit_pos : 1 ≤ limit) : Budget := ⟨limit, 60, limit_pos, by norm_num⟩

/-- One call a minute of a principal and two of a tenant. -/
def oneOfTwo : ToolLimiterOptions where
  perPrincipal := perMinute 1 (by decide)
  perSubject := perMinute 100 (by decide)
  perTenant := perMinute 2 (by decide)
  maxPrincipals := 4
  maxSubjects := 4
  maxTenants := 3
  maxConcurrentPerPrincipal := 2

/-- A person who has spent their one call of a minute, asks in the middle of it and waits the
ninety seconds they are told. -/
theorem limiter_honest_iff_waited :
    (admitCall oneOfTwo (servingAfter oneOfTwo .new ([.ask ⟨0, "t", "a", "c"⟩] ++
        .ask ⟨30000, "t", "a", "c"⟩ :: [])).limiter
      { (⟨30000, "t", "a", "c"⟩ : Asking) with now := 120000 }).1 = .admitted := by
  have hpast : Timely [.ask ⟨0, "t", "a", "c"⟩] := List.pairwise_singleton _ _
  have hasked : Timely ([.ask ⟨0, "t", "a", "c"⟩] ++ [.ask ⟨30000, "t", "a", "c"⟩]) := by
    simp only [Timely, List.cons_append, List.nil_append, List.filterMap_cons, List.filterMap_nil,
      Event.now?, List.pairwise_cons]
    norm_num
  have hwaited : Timely ([.ask ⟨0, "t", "a", "c"⟩] ++ .ask ⟨30000, "t", "a", "c"⟩ :: [] ++
      [.ask { (⟨30000, "t", "a", "c"⟩ : Asking) with now := 120000 }]) := by
    simp only [Timely, List.cons_append, List.nil_append, List.filterMap_cons, List.filterMap_nil,
      Event.now?, List.pairwise_cons]
    norm_num
  refine ((limiter_honest_iff oneOfTwo hpast).2.1 ⟨30000, "t", "a", "c"⟩ .principal 90 hasked
    (by decide +kernel) nofun).mpr (fun first hfirst spender hfull ↦ ?_) [] 120000 hwaited trivial
    (by norm_num)
  have honly : refusing oneOfTwo (servingAfter oneOfTwo .new
      [.ask ⟨0, "t", "a", "c"⟩]).limiter ⟨30000, "t", "a", "c"⟩ = some .principal := by
    decide +kernel
  obtain rfl := Option.some.inj (honly.symm.trans hfirst)
  cases spender with
  | tenant | subject => exact absurd (by decide +kernel) hfull
  | principal => exact le_rfl

/-- Two people have spent a tenant's budget.  In the next minute the first of them is told to
wait thirty seconds, until the tenant has room, and is then refused for a budget of their own. -/
theorem wait_of_tenant_not_enough :
    let past := [Event.ask ⟨0, "t", "a", "c"⟩, .release 0, .ask ⟨0, "t", "b", "c"⟩]
    Timely (past ++ [.ask ⟨60000, "t", "a", "c"⟩, .ask ⟨60000 + 30 * 1000, "t", "a", "c"⟩]) ∧
      (admitCall oneOfTwo (servingAfter oneOfTwo .new past).limiter ⟨60000, "t", "a", "c"⟩).1 =
        .refused .tenant 30 ∧
      (admitCall oneOfTwo (servingAfter oneOfTwo .new
          (past ++ [.ask ⟨60000, "t", "a", "c"⟩])).limiter
        ⟨60000 + 30 * 1000, "t", "a", "c"⟩).1 = .refused .principal 30 := by
  refine ⟨?_, by decide +kernel, by decide +kernel⟩
  simp only [Timely, List.cons_append, List.nil_append, List.filterMap_cons, List.filterMap_nil,
    Event.now?, List.pairwise_cons]
  norm_num

end Odudu.Mcp
