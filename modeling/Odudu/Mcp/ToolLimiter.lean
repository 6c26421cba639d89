import Mathlib.Data.Rat.Floor
import Odudu.Maps.Recency
import Odudu.Windows.TwoWindows

/-!
# The limiter of tool calls

`packages/mcp/src/service/rate-limit.ts`: what a tenant, a person and a principal (a person's
grant to one client) may spend in a window, each in a map of bounded size from which the least
recently used key goes first, and how many calls of a principal may be in flight.

Instants and windows are rational numbers, instants in milliseconds.  What a map says of a key
at an instant is `countsAt`: a look at it changes nothing that it says later
(`countsAt_verdict`), and a spend adds one to the key that is charged (`countsAt_spend`).
-/

set_option autoImplicit false

namespace Odudu.Mcp

open Maps Windows

/-- Budgets are of at least one. -/
structure Budget where
  limit : ℕ
  windowSeconds : ℚ
  limit_pos : 1 ≤ limit
  windowSeconds_pos : 0 < windowSeconds

def Budget.windowMs (budget : Budget) : ℚ := budget.windowSeconds * 1000

structure ToolLimiterOptions where
  perPrincipal : Budget
  perSubject : Budget
  perTenant : Budget
  maxPrincipals : ℕ
  maxSubjects : ℕ
  maxTenants : ℕ
  maxConcurrentPerPrincipal : ℕ

inductive Reason where
  | principal
  | subject
  | tenant
  | concurrency
  deriving DecidableEq

inductive Admission where
  | admitted
  | refused (reason : Reason) (retryAfterSeconds : ℤ)
  deriving DecidableEq

abbrev CountsMap : Type := Recency String Counts

/-! ### One map -/

section Map

variable (budget : Budget) (most : ℕ) (now : ℚ) (key : String) (map : CountsMap)

/-- The record for `key` rolled to the window `now` is in, or none. -/
def live : Option Counts := (map.lookup key).map (Counts.roll budget.windowMs now)

def waitSeconds (counts : Counts) : ℤ :=
  max 1 ⌈counts.untilRoom budget.limit budget.windowMs now / 1000⌉

def touch (counts : Counts) : CountsMap := AList.insert key counts (map.erase key)

def sweep : CountsMap :=
  Recency.sweep (fun counts ↦ counts.window ≤ windowAt budget.windowMs now - 2) map

/-- The seconds to wait, or none when the key may spend one more. -/
def verdict : Option ℤ × CountsMap :=
  match live budget now key map with
  | none => (none, map)
  | some counts =>
    if counts.Room budget.limit budget.windowMs now then
      (none, Recency.adjust key (Counts.roll budget.windowMs now) map)
    else (some (waitSeconds budget now counts), touch key map counts)

def spend : CountsMap :=
  let counts := (live budget now key map).getD (Counts.fresh budget.windowMs now)
  Recency.evict most (sweep budget now (touch key map counts.more))

end Map

/-! ### The limiter -/

structure ToolLimiter where
  principals : CountsMap
  subjects : CountsMap
  tenants : CountsMap
  inFlight : AList fun _ : String ↦ ℕ

def ToolLimiter.new : ToolLimiter := ⟨∅, ∅, ∅, ∅⟩

/-- A call of `admit`. -/
structure Asking where
  now : ℚ
  tenantId : String
  subjectId : String
  clientId : String

def Asking.subjectKey (asking : Asking) : String := asking.tenantId ++ "\x00" ++ asking.subjectId

def Asking.principalKey (asking : Asking) : String := asking.subjectKey ++ "\x00" ++ asking.clientId

/-- Who has a budget, in the order in which they are asked. -/
inductive Spender where
  | tenant
  | subject
  | principal
  deriving DecidableEq

namespace Spender

def reason : Spender → Reason
  | .tenant => .tenant
  | .subject => .subject
  | .principal => .principal

def key (asking : Asking) : Spender → String
  | .tenant => asking.tenantId
  | .subject => asking.subjectKey
  | .principal => asking.principalKey

def budget (options : ToolLimiterOptions) : Spender → Budget
  | .tenant => options.perTenant
  | .subject => options.perSubject
  | .principal => options.perPrincipal

/-- How many keys the map may hold. -/
def most (options : ToolLimiterOptions) : Spender → ℕ
  | .tenant => options.maxTenants
  | .subject => options.maxSubjects
  | .principal => options.maxPrincipals

def map (limiter : ToolLimiter) : Spender → CountsMap
  | .tenant => limiter.tenants
  | .subject => limiter.subjects
  | .principal => limiter.principals

end Spender

/-- `inFlight.get(principalKey) ?? 0`. -/
def ToolLimiter.held (limiter : ToolLimiter) (principalKey : String) : ℕ :=
  (limiter.inFlight.lookup principalKey).getD 0

variable (options : ToolLimiterOptions)

/-- What the budget of a spender says of one more. -/
def verdictOf (limiter : ToolLimiter) (asking : Asking) (spender : Spender) :
    Option ℤ × CountsMap :=
  verdict (spender.budget options) asking.now (spender.key asking) (spender.map limiter)

def spendOf (asking : Asking) (spender : Spender) (map : CountsMap) : CountsMap :=
  spend (spender.budget options) (spender.most options) asking.now (spender.key asking) map

def admitCall (limiter : ToolLimiter) (asking : Asking) : Admission × ToolLimiter :=
  if options.maxConcurrentPerPrincipal ≤ limiter.held asking.principalKey then
    (.refused .concurrency 1, limiter)
  else
    let asked := verdictOf options limiter asking
    match [Spender.tenant, .subject, .principal].findSome? fun spender ↦
        (asked spender).1.map (.refused spender.reason) with
    | some refused =>
      (refused,
        { limiter with
          tenants := (asked .tenant).2
          subjects := (asked .subject).2
          principals := (asked .principal).2 })
    | none =>
      (.admitted,
        { tenants := spendOf options asking .tenant (asked .tenant).2
          subjects := spendOf options asking .subject (asked .subject).2
          principals := spendOf options asking .principal (asked .principal).2
          inFlight := AList.insert asking.principalKey (limiter.held asking.principalKey + 1)
            limiter.inFlight })

/-- What `release` does the first time. -/
def giveBack (principalKey : String) (limiter : ToolLimiter) : ToolLimiter :=
  let left := (limiter.inFlight.lookup principalKey).getD 1 - 1
  { limiter with
    inFlight :=
      if left ≤ 0 then limiter.inFlight.erase principalKey
      else limiter.inFlight.insert principalKey left }

/-! ### Runs -/

/-- An admitted call, as its `release` sees it. -/
structure Admitted where
  principalKey : String
  released : Bool

/-- The limiter, and the calls it admitted in turn. -/
structure Serving where
  limiter : ToolLimiter
  calls : List Admitted

def Serving.new : Serving := ⟨.new, []⟩

/-- A call of `admit`, or of the `release` that an admitted call was given. -/
inductive Event where
  | ask (asking : Asking)
  | release (call : ℕ)

def release (serving : Serving) (call : ℕ) : Serving :=
  match serving.calls[call]? with
  | none => serving
  | some admitted =>
    if admitted.released then serving
    else
      { limiter := giveBack admitted.principalKey serving.limiter
        calls := serving.calls.set call { admitted with released := true } }

def step (serving : Serving) : Event → Serving
  | .release call => release serving call
  | .ask asking =>
    let admission := admitCall options serving.limiter asking
    { limiter := admission.2
      calls :=
        if admission.1 = .admitted then
          serving.calls ++ [{ principalKey := asking.principalKey, released := false }]
        else serving.calls }

def servingAfter (serving : Serving) (events : List Event) : Serving :=
  events.foldl (step options) serving

def Event.now? : Event → Option ℚ
  | .ask asking => some asking.now
  | .release _ => none

/-- Each call of `admit` is no earlier than those before it. -/
def Timely (events : List Event) : Prop := (events.filterMap Event.now?).Pairwise (· ≤ ·)

/-! ### What a map says of a key -/

section Map

variable (budget : Budget) (later now : ℚ) (key : String) (map : CountsMap)

/-- The record of the key rolled to the window `later` is in; where there is none, that of no
spending. -/
def countsAt : Counts := (live budget later key map).getD (Counts.fresh budget.windowMs later)

variable {budget later now key map} {most : ℕ} {other : String} {counts : Counts}

theorem Budget.windowMs_pos (budget : Budget) : 0 < budget.windowMs :=
  mul_pos budget.windowSeconds_pos (by norm_num)

theorem countsAt_of_lookup (h : map.lookup key = some counts) :
    countsAt budget later key map = counts.roll budget.windowMs later := by
  rw [countsAt, live, h]
  rfl

theorem countsAt_of_none (h : map.lookup key = none) :
    countsAt budget later key map = Counts.fresh budget.windowMs later := by
  rw [countsAt, live, h]
  rfl

@[simp] theorem countsAt_window :
    (countsAt budget later key map).window = windowAt budget.windowMs later := by
  cases hlookup : map.lookup key with
  | none => rw [countsAt_of_none hlookup, Counts.fresh]
  | some => rw [countsAt_of_lookup hlookup, Counts.roll_window]

/-- A map of no more keys than it may hold, whose records are of no later window and within the
limit. -/
structure Kept (budget : Budget) (most : ℕ) (now : ℚ) (map : CountsMap) : Prop where
  windows : ∀ slot ∈ map.entries, slot.2.window ≤ windowAt budget.windowMs now
  within : ∀ slot ∈ map.entries, slot.2.current ≤ budget.limit
  size : map.size ≤ most

theorem kept_empty : Kept budget most now ∅ where
  windows := fun _ h ↦ absurd h List.not_mem_nil
  within := fun _ h ↦ absurd h List.not_mem_nil
  size := Nat.zero_le _

theorem Kept.mono (h : Kept budget most now map) (hlater : now ≤ later) :
    Kept budget most later map :=
  { h with
    windows := fun slot hslot ↦
      (h.windows slot hslot).trans (windowAt_mono budget.windowMs_pos hlater) }

/-- What is said of a key later is said of it already. -/
theorem Kept.countsAt_later (h : Kept budget most now map) (hlater : now ≤ later) :
    countsAt budget later key map =
      (countsAt budget now key map).roll budget.windowMs later := by
  cases hlookup : map.lookup key with
  | none =>
    rw [countsAt_of_none hlookup, countsAt_of_none hlookup,
      Counts.roll_fresh budget.windowMs_pos hlater]
  | some =>
    have hwindow := h.windows _ (Recency.mem_entries_of_lookup hlookup)
    rw [countsAt_of_lookup hlookup, countsAt_of_lookup hlookup,
      Counts.roll_roll budget.windowMs_pos hwindow hlater]

theorem Kept.countsAt_le (h : Kept budget most now map) :
    (countsAt budget later key map).current ≤ budget.limit := by
  cases hlookup : map.lookup key with
  | none =>
    rw [countsAt_of_none hlookup]
    exact Nat.zero_le _
  | some =>
    rw [countsAt_of_lookup hlookup]
    exact Counts.roll_current_le.trans (h.within _ (Recency.mem_entries_of_lookup hlookup))

/-! ### A look at a map -/

theorem lookup_touch (other : String) (counts : Counts) :
    (touch key map counts).lookup other =
      if other = key then some counts else map.lookup other := by
  unfold touch
  split
  · rename_i hkey
    subst hkey
    exact AList.lookup_insert _
  · rename_i hkey
    rw [AList.lookup_insert_ne hkey, AList.lookup_erase_ne hkey]

theorem mem_entries_touch {slot : Slot String Counts} (h : slot ∈ (touch key map counts).entries) :
    slot = ⟨key, counts⟩ ∨ slot ∈ map.entries := by
  rw [touch, Recency.entries_insert, Recency.entries_erase] at h
  rcases List.mem_cons.mp h with heq | hmem
  · exact Or.inl heq
  · exact Or.inr (List.mem_filter.mp (List.mem_filter.mp hmem).1).1

theorem verdict_fst :
    (verdict budget now key map).1 =
      if (countsAt budget now key map).Room budget.limit budget.windowMs now then none
      else some (waitSeconds budget now (countsAt budget now key map)) := by
  unfold verdict countsAt
  cases live budget now key map with
  | none => exact (if_pos (Counts.room_fresh budget.limit_pos)).symm
  | some =>
    simp only [Option.getD_some]
    split <;> rfl

/-- A look at a map changes nothing that it says later. -/
theorem countsAt_verdict (h : Kept budget most now map) (hlater : now ≤ later) (other : String) :
    countsAt budget later other (verdict budget now key map).2 =
      countsAt budget later other map := by
  cases hlookup : map.lookup key with
  | none =>
    rw [verdict, live, hlookup]
    rfl
  | some counts =>
    have hlive : live budget now key map = some (counts.roll budget.windowMs now) := by
      rw [live, hlookup]
      rfl
    have hlooked : (verdict budget now key map).2.lookup other =
        if other = key then some (counts.roll budget.windowMs now) else map.lookup other := by
      rw [verdict, hlive]
      simp only
      split
      · change (Recency.adjust key _ map).lookup other = _
        rw [Recency.lookup_adjust]
        split
        · rename_i hkey
          rw [hkey, hlookup, Option.map_some]
        · rfl
      · exact lookup_touch _ _
    by_cases hkey : other = key
    · subst hkey
      rw [if_pos rfl] at hlooked
      have hwindow := h.windows _ (Recency.mem_entries_of_lookup hlookup)
      rw [countsAt_of_lookup hlooked, countsAt_of_lookup hlookup,
        Counts.roll_roll budget.windowMs_pos hwindow hlater]
    · rw [if_neg hkey] at hlooked
      rw [countsAt, live, hlooked, countsAt, live]

/-- A key that is there goes to the front, and the map is as large as before. -/
theorem size_touch (h : key ∈ map) : (touch key map counts).size = map.size := by
  have hkeys : (map.erase key).entries.length = map.entries.length - 1 := by
    have herase := congrArg List.length (AList.keys_erase key map)
    rw [List.length_erase_of_mem (AList.mem_keys.mp h)] at herase
    simpa [AList.keys, List.keys] using herase
  have hpos : 0 < map.entries.length := by
    obtain ⟨value, hvalue⟩ := Option.isSome_iff_exists.mp (AList.lookup_isSome.mpr h)
    exact List.length_pos_of_mem (Recency.mem_entries_of_lookup hvalue)
  rw [touch, Recency.size, Recency.entries_insert, List.length_cons, List.filter_eq_self.mpr,
    hkeys, Recency.size]
  · omega
  · intro slot hslot
    rw [Recency.entries_erase] at hslot
    exact (List.mem_filter.mp hslot).2

theorem Kept.verdict (h : Kept budget most now map) (key : String) :
    Kept budget most now (verdict budget now key map).2 := by
  cases hlookup : map.lookup key with
  | none =>
    rw [Mcp.verdict, live, hlookup]
    exact h
  | some counts =>
    have hslot := Recency.mem_entries_of_lookup hlookup
    have hwithin : (counts.roll budget.windowMs now).current ≤ budget.limit :=
      Counts.roll_current_le.trans (h.within _ hslot)
    rw [Mcp.verdict, live, hlookup]
    simp only [Option.map_some]
    split
    · refine ⟨fun slot hmem ↦ ?_, fun slot hmem ↦ ?_, (Recency.size_adjust _).le.trans h.size⟩
      all_goals
        obtain ⟨before, hbefore, rfl⟩ := List.mem_map.mp hmem
        unfold Recency.adjustSlot
        split
      · exact (Counts.roll_window).le
      · exact h.windows _ hbefore
      · exact Counts.roll_current_le.trans (h.within _ hbefore)
      · exact h.within _ hbefore
    · have hmem : key ∈ map := by
        rw [← AList.lookup_isSome, hlookup]
        rfl
      refine ⟨fun slot hmem ↦ ?_, fun slot hmem ↦ ?_, (size_touch hmem).le.trans h.size⟩
      · rcases mem_entries_touch hmem with rfl | hbefore
        · exact (Counts.roll_window).le
        · exact h.windows _ hbefore
      · rcases mem_entries_touch hmem with rfl | hbefore
        · exact hwithin
        · exact h.within _ hbefore

/-! ### Spending -/

/-- What is dropped as stale was of no spending that counts. -/
theorem countsAt_sweep (hlater : now ≤ later) (other : String) :
    countsAt budget later other (sweep budget now map) = countsAt budget later other map := by
  rcases Recency.lookup_sweep
      (fun counts : Counts ↦ decide (counts.window ≤ windowAt budget.windowMs now - 2)) map other
    with heq | ⟨hnot, counts, hlookup, hstale⟩
  · rw [countsAt, live, sweep, heq, countsAt, live]
  · have hmono := windowAt_mono budget.windowMs_pos hlater
    have hpast := of_decide_eq_true hstale
    have hgone : (sweep budget now map).lookup other = none := AList.lookup_eq_none.mpr hnot
    rw [countsAt_of_none hgone, countsAt_of_lookup hlookup, Counts.roll_of_past (by omega)]

/-- A spend adds one to the key that is charged; a key may go to make room. -/
theorem countsAt_spend (h : now ≤ later) (other : String) :
    other ∉ spend budget most now key map ∨
      countsAt budget later other (spend budget most now key map) =
        if other = key then (countsAt budget now key map).more.roll budget.windowMs later
        else countsAt budget later other map := by
  by_cases hmem : other ∈ spend budget most now key map
  · right
    have hkept := Recency.lookup_eq_of_front (Recency.prefix_evict most _) hmem
    have hevict : countsAt budget later other (spend budget most now key map) =
        countsAt budget later other
          (sweep budget now (touch key map (countsAt budget now key map).more)) := by
      rw [countsAt, live, spend, hkept, countsAt, live]
      rfl
    rw [hevict, countsAt_sweep h]
    split
    · rename_i hkey
      rw [countsAt_of_lookup (by rw [lookup_touch, if_pos hkey])]
    · rename_i hkey
      rw [countsAt, live, lookup_touch, if_neg hkey, countsAt, live]
  · exact Or.inl hmem

theorem Kept.spend (h : Kept budget most now map)
    (hroom : (countsAt budget now key map).Room budget.limit budget.windowMs now) :
    Kept budget most now (spend budget most now key map) := by
  have hlt := hroom.current_lt budget.windowMs_pos countsAt_window
  have hfrom : ∀ slot ∈ (Mcp.spend budget most now key map).entries,
      slot = ⟨key, (countsAt budget now key map).more⟩ ∨ slot ∈ map.entries := fun slot hslot ↦
    mem_entries_touch
      ((Recency.prefix_sweep _ _).subset ((Recency.prefix_evict most _).subset hslot))
  refine ⟨fun slot hslot ↦ ?_, fun slot hslot ↦ ?_, Recency.size_evict_le most _⟩
  · rcases hfrom slot hslot with rfl | hbefore
    · exact countsAt_window.le
    · exact h.windows _ hbefore
  · rcases hfrom slot hslot with rfl | hbefore
    · exact hlt
    · exact h.within _ hbefore

end Map

/-! ### One call -/

/-- What a spender's map says of the key an asking charges. -/
def chargedAt (later : ℚ) (limiter : ToolLimiter) (asking : Asking) (spender : Spender) : Counts :=
  countsAt (spender.budget options) later (spender.key asking) (spender.map limiter)

/-- Whether a spender's budget has room for one more. -/
def HasRoom (limiter : ToolLimiter) (asking : Asking) (spender : Spender) : Prop :=
  (chargedAt options asking.now limiter asking spender).Room (spender.budget options).limit
    (spender.budget options).windowMs asking.now

instance (limiter : ToolLimiter) (asking : Asking) (spender : Spender) :
    Decidable (HasRoom options limiter asking spender) :=
  inferInstanceAs (Decidable (Counts.Room _ _ _ _))

/-- The wait a spender's budget asks for. -/
def waitOf (limiter : ToolLimiter) (asking : Asking) (spender : Spender) : ℤ :=
  waitSeconds (spender.budget options) asking.now
    (chargedAt options asking.now limiter asking spender)

/-- The first of the spenders whose budget has no room. -/
def refusing (limiter : ToolLimiter) (asking : Asking) : Option Spender :=
  [Spender.tenant, .subject, .principal].find? fun spender ↦
    ¬ HasRoom options limiter asking spender

variable {options} {limiter : ToolLimiter} {asking : Asking}

theorem verdictOf_fst (limiter : ToolLimiter) (asking : Asking) (spender : Spender) :
    (verdictOf options limiter asking spender).1 =
      if HasRoom options limiter asking spender then none
      else some (waitOf options limiter asking spender) :=
  verdict_fst

/-- What a call of `admit` comes to. -/
inductive Outcome (options : ToolLimiterOptions) (limiter : ToolLimiter) (asking : Asking) :
    Admission × ToolLimiter → Prop where
  | crowded
      (hheld : options.maxConcurrentPerPrincipal ≤ limiter.held asking.principalKey) :
      Outcome options limiter asking (.refused .concurrency 1, limiter)
  | refused {spender : Spender} {limiter' : ToolLimiter}
      (hheld : limiter.held asking.principalKey < options.maxConcurrentPerPrincipal)
      (hfirst : refusing options limiter asking = some spender)
      (hmaps : ∀ spender : Spender,
        spender.map limiter' = (verdictOf options limiter asking spender).2)
      (hinFlight : limiter'.inFlight = limiter.inFlight) :
      Outcome options limiter asking
        (.refused spender.reason (waitOf options limiter asking spender), limiter')
  | admitted {limiter' : ToolLimiter}
      (hheld : limiter.held asking.principalKey < options.maxConcurrentPerPrincipal)
      (hroom : ∀ spender, HasRoom options limiter asking spender)
      (hmaps : ∀ spender : Spender, spender.map limiter' =
        spendOf options asking spender (verdictOf options limiter asking spender).2)
      (hinFlight : limiter'.inFlight = limiter.inFlight.insert asking.principalKey
        (limiter.held asking.principalKey + 1)) :
      Outcome options limiter asking (.admitted, limiter')

theorem outcome_admit (options : ToolLimiterOptions) (limiter : ToolLimiter) (asking : Asking) :
    Outcome options limiter asking (admitCall options limiter asking) := by
  unfold admitCall
  split
  · rename_i hheld
    exact .crowded hheld
  · rename_i hheld
    have hfree := Nat.lt_of_not_le hheld
    simp only [List.findSome?_cons, List.findSome?_nil, verdictOf_fst]
    by_cases htenant : HasRoom options limiter asking .tenant
    · by_cases hsubject : HasRoom options limiter asking .subject
      · by_cases hprincipal : HasRoom options limiter asking .principal
        · simp only [htenant, hsubject, hprincipal, if_true, Option.map_none]
          refine .admitted hfree (fun spender ↦ ?_) (fun spender ↦ ?_) rfl
          · cases spender <;> assumption
          · cases spender <;> rfl
        · simp only [htenant, hsubject, hprincipal, if_true, if_false, Option.map_none,
            Option.map_some]
          refine .refused hfree ?_ (fun spender ↦ ?_) rfl
          · simp [refusing, htenant, hsubject, hprincipal]
          · cases spender <;> rfl
      · simp only [htenant, hsubject, if_true, if_false, Option.map_none, Option.map_some]
        refine .refused hfree ?_ (fun spender ↦ ?_) rfl
        · simp [refusing, htenant, hsubject]
        · cases spender <;> rfl
    · simp only [htenant, if_false, Option.map_some]
      refine .refused hfree ?_ (fun spender ↦ ?_) rfl
      · simp [refusing, htenant]
      · cases spender <;> rfl

end Odudu.Mcp
