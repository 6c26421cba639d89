import Mathlib.Tactic.Linarith
import Odudu.Maps.Recency

/-!
# The limiter of metadata-document fetches

`service/cimd-fetch-limiter.ts`: fixed windows for each host, across tenants, and for each
tenant, in two maps of bounded size from which the first inserted goes first.

The two maps are alike, so that what is said of one (`Windows`) is said for any key, limit and
bound: a window that is still open is kept with its count until as many other keys as the map
may hold have opened one (`stands_or_reset`).
-/

set_option autoImplicit false

namespace Odudu.ProtocolOidc.CimdFetchLimiter

open Maps

def CIMD_FETCHES_PER_HOST_PER_MINUTE : ℕ := 10

def CIMD_FETCHES_PER_TENANT_PER_MINUTE : ℕ := 60

def CIMD_LIMITER_MAX_HOSTS : ℕ := 1000

def CIMD_LIMITER_MAX_TENANTS : ℕ := 10_000

/-- The bounds of the maps are those of the deployment, which are positive. -/
structure FetchLimiterOptions where
  perHost : ℕ
  perTenant : ℕ
  windowMs : ℚ
  maxHosts : ℕ
  maxTenants : ℕ
  maxHosts_pos : 0 < maxHosts
  maxTenants_pos : 0 < maxTenants

/-- The options of the deployment. -/
def deployed : FetchLimiterOptions where
  perHost := CIMD_FETCHES_PER_HOST_PER_MINUTE
  perTenant := CIMD_FETCHES_PER_TENANT_PER_MINUTE
  windowMs := 60000
  maxHosts := CIMD_LIMITER_MAX_HOSTS
  maxTenants := CIMD_LIMITER_MAX_TENANTS
  maxHosts_pos := by decide
  maxTenants_pos := by decide

structure Window where
  start : ℚ
  count : ℕ

/-- `window.count += 1`. -/
def Window.more (window : Window) : Window := { window with count := window.count + 1 }

abbrev Windows : Type := Recency String Window

/-! ### One map -/

section Windows

variable (windowMs : ℚ) (max : ℕ)

/-- The key's window, where it is still open. -/
def live (now : ℚ) (key : String) (map : Windows) : Option Window :=
  (map.lookup key).filter fun found ↦ now - found.start < windowMs

/-- `live(map, key, now)?.count ?? 0`. -/
def spent (now : ℚ) (key : String) (map : Windows) : ℕ :=
  ((live windowMs now key map).map (·.count)).getD 0

/-- `open`: the map with a window of the key's that is still open. -/
def openWindow (now : ℚ) (key : String) (map : Windows) : Windows :=
  match live windowMs now key map with
  | some _ => map
  | none =>
    let others : Windows := map.erase key
    (if max ≤ others.size then others.dropColdest else others).insert key ⟨now, 0⟩

/-- `open(map, key, max, now).count += 1`. -/
def charge (now : ℚ) (key : String) (map : Windows) : Windows :=
  (openWindow windowMs max now key map).adjust key Window.more

/-- A charge of a key at an instant. -/
abbrev Charge : Type := ℚ × String

def chargeAll (map : Windows) (charges : List Charge) : Windows :=
  charges.foldl (fun map c ↦ charge windowMs max c.1 c.2 map) map

/-- The keys of the charges that opened a window. -/
def opened : Windows → List Charge → List String
  | _, [] => []
  | map, (now, key) :: rest =>
    (if (live windowMs now key map).isNone then [key] else []) ++
      opened (charge windowMs max now key map) rest

end Windows

/-! ### The limiter -/

structure FetchLimiter where
  hosts : Windows
  tenants : Windows

def FetchLimiter.new : FetchLimiter := ⟨∅, ∅⟩

/-- A call of `tryAcquire`. -/
structure Call where
  now : ℚ
  tenantId : String
  host : String

variable (options : FetchLimiterOptions)

/-- Whether neither budget is spent. -/
def admits (limiter : FetchLimiter) (call : Call) : Bool :=
  !(options.perTenant ≤ spent options.windowMs call.now call.tenantId limiter.tenants ||
    options.perHost ≤ spent options.windowMs call.now call.host limiter.hosts)

def tryAcquire (limiter : FetchLimiter) (call : Call) : Bool × FetchLimiter :=
  if admits options limiter call then
    (true,
      { hosts := charge options.windowMs options.maxHosts call.now call.host limiter.hosts
        tenants :=
          charge options.windowMs options.maxTenants call.now call.tenantId limiter.tenants })
  else (false, limiter)

def limiterAfter (limiter : FetchLimiter) (calls : List Call) : FetchLimiter :=
  calls.foldl (fun limiter call ↦ (tryAcquire options limiter call).2) limiter

/-- The calls that are admitted. -/
def admittedCalls : FetchLimiter → List Call → List Call
  | _, [] => []
  | limiter, call :: rest =>
    (if admits options limiter call then [call] else []) ++
      admittedCalls (tryAcquire options limiter call).2 rest

/-! ### What a charge does -/

section Windows

variable {windowMs : ℚ} {max : ℕ} {now : ℚ} {key other : String} {map : Windows} {window : Window}
  {charges : List Charge}

theorem live_eq_some_iff :
    live windowMs now key map = some window ↔
      map.lookup key = some window ∧ now - window.start < windowMs := by
  simp [live, Option.filter_eq_some_iff]

theorem charge_of_live (h : live windowMs now key map = some window) :
    charge windowMs max now key map = map.adjust key Window.more := by
  rw [charge, openWindow, h]

/-- The entries of the other keys. -/
def others (key : String) (map : Windows) : List (Slot String Window) :=
  map.entries.filter fun slot ↦ slot.1 ≠ key

/-- Those of them that are kept when the key opens a window. -/
def othersKept (max : ℕ) (key : String) (map : Windows) : List (Slot String Window) :=
  if max ≤ (others key map).length then (others key map).dropLast else others key map

theorem othersKept_sublist_others : (othersKept max key map).Sublist (others key map) := by
  unfold othersKept
  split
  · exact List.dropLast_sublist _
  · exact List.Sublist.refl _

theorem othersKept_sublist : (othersKept max key map).Sublist map.entries :=
  othersKept_sublist_others.trans List.filter_sublist

theorem ne_of_mem_othersKept {slot : Slot String Window} (h : slot ∈ othersKept max key map) :
    slot.1 ≠ key :=
  of_decide_eq_true (List.mem_filter.mp (othersKept_sublist_others.subset h)).2

variable (max) in
/-- A window that is opened comes first, with one fetch charged to it. -/
theorem entries_charge_of_not_live (h : live windowMs now key map = none) :
    (charge windowMs max now key map).entries =
      ⟨key, ⟨now, 1⟩⟩ :: othersKept max key map := by
  have hkept : (if max ≤ Recency.size (map.erase key) then Recency.dropColdest (map.erase key)
      else map.erase key).entries = othersKept max key map := by
    rw [apply_ite AList.entries, Recency.entries_dropColdest, Recency.size, Recency.entries_erase]
    rfl
  have hopened : (openWindow windowMs max now key map).entries =
      ⟨key, ⟨now, 0⟩⟩ :: othersKept max key map := by
    rw [openWindow, h]
    change (AList.insert key _ _).entries = _
    rw [Recency.entries_insert, hkept, List.filter_eq_self.mpr fun slot hslot ↦
      decide_eq_true (ne_of_mem_othersKept hslot)]
  change (openWindow windowMs max now key map).entries.map _ = _
  rw [hopened, List.map_cons, Recency.map_adjustSlot_of_ne _ fun slot hslot ↦
    ne_of_mem_othersKept hslot, Recency.adjustSlot, if_pos rfl]
  rfl

/-- The key's window has one more, and what the other keys have is theirs still, but for the
one that goes first where the map is full. -/
theorem lookup_charge (windowMs : ℚ) (max : ℕ) (now : ℚ) (key : String) (map : Windows) :
    (∃ start, (charge windowMs max now key map).lookup key =
        some ⟨start, spent windowMs now key map + 1⟩ ∧
          start = ((live windowMs now key map).map (·.start)).getD now) ∧
      ∀ other, other ≠ key →
        (charge windowMs max now key map).lookup other = map.lookup other ∨
          (charge windowMs max now key map).lookup other = none ∧
            live windowMs now key map = none ∧ max ≤ (others key map).length := by
  cases hlive : live windowMs now key map with
  | some window =>
    obtain ⟨hlookup, -⟩ := live_eq_some_iff.mp hlive
    rw [charge_of_live hlive]
    constructor
    · refine ⟨window.start, ?_, rfl⟩
      rw [Recency.lookup_adjust, if_pos rfl, hlookup, spent, hlive]
      rfl
    · intro other hother
      exact Or.inl (by rw [Recency.lookup_adjust, if_neg hother])
  | none =>
    have hentries := entries_charge_of_not_live max hlive
    constructor
    · refine ⟨now, ?_, rfl⟩
      have hmem : (⟨key, ⟨now, 1⟩⟩ : Slot String Window) ∈
          (charge windowMs max now key map).entries := by
        rw [hentries]
        exact List.mem_cons_self
      rw [Recency.lookup_of_mem_entries hmem, spent, hlive]
      rfl
    · intro other hother
      cases hafter : (charge windowMs max now key map).lookup other with
      | some =>
        have hmem := Recency.mem_entries_of_lookup hafter
        rw [hentries] at hmem
        rcases List.mem_cons.mp hmem with heq | hkept
        · exact absurd (congrArg Sigma.fst heq) hother
        · exact Or.inl (Recency.lookup_of_mem_entries (othersKept_sublist.subset hkept)).symm
      | none =>
        by_cases hfull : max ≤ (others key map).length
        · exact Or.inr ⟨rfl, rfl, hfull⟩
        · refine Or.inl ?_
          cases hbefore : map.lookup other with
          | none => rfl
          | some window =>
            have hmem : (⟨other, window⟩ : Slot String Window) ∈ othersKept max key map := by
              rw [othersKept, if_neg hfull]
              exact List.mem_filter.mpr
                ⟨Recency.mem_entries_of_lookup hbefore, decide_eq_true hother⟩
            have hmem' : (⟨other, window⟩ : Slot String Window) ∈
                (charge windowMs max now key map).entries := by
              rw [hentries]
              exact List.mem_cons_of_mem _ hmem
            rw [Recency.lookup_of_mem_entries hmem'] at hafter
            cases hafter

/-- No more windows than the map may hold, in order of their starts, the latest first. -/
structure Ordered (max : ℕ) (now : ℚ) (map : Windows) : Prop where
  starts : map.entries.Pairwise fun newer older ↦ older.2.start ≤ newer.2.start
  past : ∀ slot ∈ map.entries, slot.2.start ≤ now
  size : map.size ≤ max

theorem ordered_empty : Ordered max now ∅ where
  starts := List.Pairwise.nil
  past := fun _ h ↦ absurd h List.not_mem_nil
  size := Nat.zero_le _

theorem Ordered.mono {later : ℚ} (h : Ordered max now map) (hlater : now ≤ later) :
    Ordered max later map :=
  { h with past := fun slot hslot ↦ (h.past slot hslot).trans hlater }

/-- A charge leaves the windows in order, and no more than there may be. -/
theorem Ordered.charge (h : Ordered max now map) (hmax : 0 < max) (key : String) :
    Ordered max now (charge windowMs max now key map) := by
  cases hlive : live windowMs now key map with
  | some =>
    rw [charge_of_live hlive]
    have hstart : ∀ slot : Slot String Window,
        (Recency.adjustSlot key Window.more slot).2.start = slot.2.start := by
      intro slot
      unfold Recency.adjustSlot
      split <;> rfl
    refine ⟨?_, fun slot hslot ↦ ?_, (Recency.size_adjust _).le.trans h.size⟩
    · refine List.pairwise_map.mpr (h.starts.imp fun {newer older} hle ↦ ?_)
      rw [hstart, hstart]
      exact hle
    · obtain ⟨before, hbefore, rfl⟩ := List.mem_map.mp hslot
      rw [hstart]
      exact h.past before hbefore
  | none =>
    have hentries := entries_charge_of_not_live max hlive
    have hlate : ∀ slot ∈ othersKept max key map, slot.2.start ≤ now :=
      fun slot hslot ↦ h.past slot (othersKept_sublist.subset hslot)
    have hlength : (othersKept max key map).length < max := by
      have hothers : (others key map).length ≤ max :=
        (List.length_filter_le _ _).trans h.size
      unfold othersKept
      split
      · rw [List.length_dropLast]
        omega
      · omega
    refine ⟨?_, ?_, ?_⟩
    · rw [hentries]
      exact List.pairwise_cons.mpr ⟨hlate, h.starts.sublist othersKept_sublist⟩
    · rw [hentries]
      intro slot hslot
      rcases List.mem_cons.mp hslot with rfl | hkept
      · exact le_rfl
      · exact hlate slot hkept
    · rw [Recency.size, hentries, List.length_cons]
      exact hlength

/-! ### A window that stands -/

/-- The window stands in the map, and only keys of the set stand before it. -/
def Stands (key : String) (window : Window) (newer : Finset String) (map : Windows) : Prop :=
  ∃ front back, map.entries = front ++ ⟨key, window⟩ :: back ∧ ∀ slot ∈ front, slot.1 ∈ newer

variable {newer : Finset String}

theorem Stands.lookup (h : Stands key window newer map) :
    map.lookup key = some window := by
  obtain ⟨front, back, hentries, -⟩ := h
  refine Recency.lookup_of_mem_entries (?_ : (⟨key, window⟩ : Slot String Window) ∈ _)
  rw [hentries]
  simp

theorem stands_opened (h : live windowMs now key map = none) :
    Stands key ⟨now, 1⟩ ∅ (charge windowMs max now key map) :=
  ⟨[], othersKept max key map, entries_charge_of_not_live max h,
    fun _ h ↦ absurd h List.not_mem_nil⟩

/-- A charge of the key itself, while its window is open. -/
theorem Stands.charge_self (h : Stands key window newer map)
    (hopen : now - window.start < windowMs) :
    Stands key window.more newer (charge windowMs max now key map) := by
  rw [charge_of_live (live_eq_some_iff.mpr ⟨h.lookup, hopen⟩)]
  obtain ⟨front, back, hentries, hnewer⟩ := h
  refine ⟨front.map (Recency.adjustSlot key Window.more),
    back.map (Recency.adjustSlot key Window.more), ?_, ?_⟩
  · change map.entries.map _ = _
    rw [hentries, List.map_append, List.map_cons]
    congr 2
    exact if_pos rfl
  · intro slot hslot
    obtain ⟨before, hbefore, rfl⟩ := List.mem_map.mp hslot
    rw [Recency.adjustSlot_fst]
    exact hnewer before hbefore

/-- A charge of another key leaves the window where it is, or as many keys as the map may hold
have opened one since. -/
theorem Stands.charge_other (h : Stands key window newer map)
    (hother : other ≠ key) :
    Stands key window
        (if (live windowMs now other map).isNone then insert other newer else newer)
        (charge windowMs max now other map) ∨
      (live windowMs now other map).isNone ∧ max ≤ (insert other newer).card := by
  obtain ⟨front, back, hentries, hnewer⟩ := h
  cases hlive : live windowMs now other map with
  | some =>
    left
    rw [charge_of_live hlive]
    refine ⟨front.map (Recency.adjustSlot other Window.more),
      back.map (Recency.adjustSlot other Window.more), ?_, ?_⟩
    · change map.entries.map _ = _
      rw [hentries, List.map_append, List.map_cons]
      congr 2
      exact if_neg (Ne.symm hother)
    · intro slot hslot
      obtain ⟨before, hbefore, rfl⟩ := List.mem_map.mp hslot
      rw [Recency.adjustSlot_fst]
      exact hnewer before hbefore
  | none =>
    have hcharged := entries_charge_of_not_live max hlive
    have hothers : others other map = (front.filter fun slot ↦ slot.1 ≠ other) ++ ⟨key, window⟩ ::
        back.filter fun slot ↦ slot.1 ≠ other := by
      rw [others, hentries, List.filter_append]
      congr 1
      exact List.filter_cons_of_pos (decide_eq_true (Ne.symm hother))
    have hfront : ∀ slot ∈ (⟨other, ⟨now, 1⟩⟩ : Slot String Window) ::
        front.filter fun slot ↦ slot.1 ≠ other, slot.1 ∈ insert other newer := by
      intro slot hslot
      rcases List.mem_cons.mp hslot with rfl | hmem
      · exact Finset.mem_insert_self _ _
      · exact Finset.mem_insert_of_mem (hnewer slot (List.mem_filter.mp hmem).1)
    rcases List.eq_nil_or_concat (back.filter fun slot ↦ slot.1 ≠ other) with
      hnil | ⟨rest, last, hback⟩
    · by_cases hfull : max ≤ (others other map).length
      · right
        refine ⟨rfl, hfull.trans ?_⟩
        rw [hothers, hnil, List.length_append, List.length_singleton]
        have hnodup : ((⟨other, ⟨now, 1⟩⟩ : Slot String Window) ::
            front.filter fun slot ↦ slot.1 ≠ other).NodupKeys := by
          refine List.nodupKeys_cons.mpr ⟨List.ne_key.mpr fun slot hslot ↦ ?_, ?_⟩
          · exact Ne.symm (of_decide_eq_true (List.mem_filter.mp hslot).2)
          · have hsub : front.Sublist map.entries := by
              rw [hentries]
              exact List.sublist_append_left _ _
            exact map.nodupKeys.sublist (List.filter_sublist.trans hsub)
        have hle := Recency.length_le_card hnodup hfront
        rwa [List.length_cons] at hle
      · left
        refine ⟨_, [], ?_, hfront⟩
        rw [hcharged, othersKept, if_neg hfull, hothers, hnil, List.cons_append]
    · left
      rw [List.concat_eq_append] at hback
      by_cases hfull : max ≤ (others other map).length
      · refine ⟨_, rest, ?_, hfront⟩
        rw [hcharged, othersKept, if_pos hfull, hothers, hback, ← List.cons_append,
          ← List.append_assoc, List.dropLast_concat, List.cons_append]
      · refine ⟨_, rest ++ [last], ?_, hfront⟩
        rw [hcharged, othersKept, if_neg hfull, hothers, hback, List.cons_append]

/-- How many of the charges are the key's. -/
def chargesOf (key : String) (charges : List Charge) : ℕ := charges.countP (·.2 = key)

theorem chargesOf_cons_self : chargesOf key ((now, key) :: charges) = chargesOf key charges + 1 :=
  List.countP_cons_of_pos (decide_eq_true rfl)

theorem chargesOf_cons_of_ne (h : other ≠ key) :
    chargesOf key ((now, other) :: charges) = chargesOf key charges :=
  List.countP_cons_of_neg (by simpa using h)

/-- The other keys that opened a window. -/
def openedBeside (windowMs : ℚ) (max : ℕ) (key : String) (map : Windows) (charges : List Charge) :
    Finset String :=
  (opened windowMs max map charges).toFinset.erase key

theorem union_openedBeside_cons (hother : other ≠ key) :
    newer ∪ openedBeside windowMs max key map ((now, other) :: charges) =
      (if (live windowMs now other map).isNone then insert other newer else newer) ∪
        openedBeside windowMs max key (charge windowMs max now other map) charges := by
  unfold openedBeside
  rw [opened]
  split
  · ext name
    simp only [List.cons_append, List.nil_append, List.toFinset_cons, Finset.mem_union,
      Finset.mem_erase, Finset.mem_insert]
    constructor
    · rintro (hnew | ⟨hne, rfl | hopened⟩)
      · exact Or.inl (Or.inr hnew)
      · exact Or.inl (Or.inl rfl)
      · exact Or.inr ⟨hne, hopened⟩
    · rintro ((rfl | hnew) | ⟨hne, hopened⟩)
      · exact Or.inr ⟨hother, Or.inl rfl⟩
      · exact Or.inl hnew
      · exact Or.inr ⟨hne, Or.inr hopened⟩
  · rfl

/-- Over charges made while the window is open, it is kept with those of its key counted, or as
many keys as the map may hold have opened one since. -/
theorem stands_or_reset (h : Stands key window newer map)
    (hopen : ∀ c ∈ charges, c.1 - window.start < windowMs) :
    (Stands key { window with count := window.count + chargesOf key charges }
        (newer ∪ openedBeside windowMs max key map charges) (chargeAll windowMs max map charges)) ∨
      max ≤ (newer ∪ openedBeside windowMs max key map charges).card := by
  induction charges generalizing map window newer with
  | nil =>
    left
    simpa [openedBeside, opened, chargeAll, chargesOf] using h
  | cons c rest ih =>
    obtain ⟨now, k⟩ := c
    have hfirst := hopen (now, k) List.mem_cons_self
    have hrest : ∀ c ∈ rest, c.1 - window.start < windowMs :=
      fun c hc ↦ hopen c (List.mem_cons_of_mem _ hc)
    by_cases hkey : k = key
    · subst hkey
      have hlive : live windowMs now k map = some window :=
        live_eq_some_iff.mpr ⟨h.lookup, hfirst⟩
      have hsame : openedBeside windowMs max k map ((now, k) :: rest) =
          openedBeside windowMs max k (charge windowMs max now k map) rest := by
        simp [openedBeside, opened, hlive]
      have hcount : window.count + chargesOf k ((now, k) :: rest) =
          window.more.count + chargesOf k rest := by
        rw [chargesOf_cons_self]
        change window.count + (chargesOf k rest + 1) = window.count + 1 + chargesOf k rest
        omega
      rw [hsame, hcount]
      exact ih (h.charge_self hfirst) hrest
    · rw [chargesOf_cons_of_ne hkey, union_openedBeside_cons hkey]
      rcases h.charge_other hkey with hstands | ⟨hnone, hfull⟩
      · exact ih hstands hrest
      · right
        rw [if_pos hnone]
        exact hfull.trans (Finset.card_le_card Finset.subset_union_left)

theorem Stands.spent (h : Stands key window newer map)
    (hopen : now - window.start < windowMs) : spent windowMs now key map = window.count := by
  rw [CimdFetchLimiter.spent, live_eq_some_iff.mpr ⟨h.lookup, hopen⟩]
  rfl

/-! ### Charges within a limit -/

/-- Each charge is made while less than the limit is spent. -/
def Limited (windowMs : ℚ) (max limit : ℕ) : Windows → List Charge → Prop
  | _, [] => True
  | map, (now, key) :: rest =>
    spent windowMs now key map < limit ∧
      Limited windowMs max limit (charge windowMs max now key map) rest

/-- No window has more than the limit charged to it. -/
def CountsWithin (limit : ℕ) (map : Windows) : Prop :=
  ∀ key window, map.lookup key = some window → window.count ≤ limit

variable {limit : ℕ}

theorem CountsWithin.charge (h : CountsWithin limit map)
    (hspent : spent windowMs now key map < limit) :
    CountsWithin limit (charge windowMs max now key map) := by
  intro other window hlookup
  obtain ⟨⟨start, hself, -⟩, hothers⟩ := lookup_charge windowMs max now key map
  by_cases hkey : other = key
  · subst hkey
    rw [hself] at hlookup
    rw [← Option.some.inj hlookup]
    exact hspent
  · rcases hothers other hkey with hsame | ⟨hnone, -⟩
    · exact h other window (hsame ▸ hlookup)
    · rw [hnone] at hlookup
      cases hlookup

theorem CountsWithin.chargeAll (h : CountsWithin limit map)
    (hlimited : Limited windowMs max limit map charges) :
    CountsWithin limit (chargeAll windowMs max map charges) := by
  induction charges generalizing map with
  | nil => exact h
  | cons _ _ ih => exact ih (h.charge hlimited.1) hlimited.2

/-- What a key may have charged before it opens a window. -/
def remaining (limit : ℕ) (key : String) (map : Windows) : ℕ :=
  ((map.lookup key).map fun window ↦ limit - window.count).getD 0

theorem remaining_le (limit : ℕ) (key : String) (map : Windows) :
    remaining limit key map ≤ limit := by
  unfold remaining
  cases map.lookup key with
  | none => exact Nat.zero_le _
  | some => exact Nat.sub_le _ _

/-- A key that opens no window has no more charged than was left of the one it has. -/
theorem chargesOf_le_of_unopened (hlimited : Limited windowMs max limit map charges)
    (hunopened : key ∉ opened windowMs max map charges) :
    chargesOf key charges ≤ remaining limit key map := by
  induction charges generalizing map with
  | nil => exact Nat.zero_le _
  | cons c _ ih =>
    obtain ⟨now, k⟩ := c
    obtain ⟨hfirst, hrest⟩ := hlimited
    rw [opened, List.mem_append, not_or] at hunopened
    have htail := ih hrest hunopened.2
    obtain ⟨⟨start, hself, -⟩, hothers⟩ := lookup_charge windowMs max now k map
    by_cases hkey : k = key
    · subst hkey
      rw [chargesOf_cons_self]
      cases hlive : live windowMs now k map with
      | none => simp [hlive] at hunopened
      | some window =>
        have hspent : spent windowMs now k map = window.count := by
          rw [spent, hlive]
          rfl
        rw [remaining, hself, hspent] at htail
        rw [hspent] at hfirst
        rw [remaining, (live_eq_some_iff.mp hlive).1]
        simp only [Option.map_some, Option.getD_some] at htail ⊢
        omega
    · rw [chargesOf_cons_of_ne hkey]
      refine htail.trans ?_
      rcases hothers key (Ne.symm hkey) with hsame | ⟨hnone, -⟩
      · rw [remaining, remaining, hsame]
      · rw [remaining, hnone]
        exact Nat.zero_le _

theorem opened_append (rest : List Charge) :
    opened windowMs max map (charges ++ rest) =
      opened windowMs max map charges ++
        opened windowMs max (chargeAll windowMs max map charges) rest := by
  induction charges generalizing map with
  | nil => rfl
  | cons _ _ ih =>
    rw [List.cons_append, opened, opened, ih, List.append_assoc]
    rfl

theorem limited_append {rest : List Charge} :
    Limited windowMs max limit map (charges ++ rest) ↔
      Limited windowMs max limit map charges ∧
        Limited windowMs max limit (chargeAll windowMs max map charges) rest := by
  induction charges generalizing map with
  | nil => exact (true_and _).to_iff.symm
  | cons _ _ ih =>
    rw [List.cons_append, Limited, Limited, ih, and_assoc]
    rfl

/-- The charges up to the first that opens a window of the key's. -/
theorem exists_opening (h : key ∈ opened windowMs max map charges) :
    ∃ before now after, charges = before ++ (now, key) :: after ∧
      key ∉ opened windowMs max map before ∧
        live windowMs now key (chargeAll windowMs max map before) = none := by
  induction charges generalizing map with
  | nil => exact absurd h List.not_mem_nil
  | cons c rest ih =>
    obtain ⟨now, k⟩ := c
    by_cases hhere : k = key ∧ live windowMs now k map = none
    · obtain ⟨rfl, hlive⟩ := hhere
      exact ⟨[], now, rest, rfl, List.not_mem_nil, hlive⟩
    · have hnot : key ∉ (if (live windowMs now k map).isNone then [k] else []) := by
        split
        · rename_i hnone
          rw [List.mem_singleton]
          exact fun heq ↦ hhere ⟨heq.symm, Option.isNone_iff_eq_none.mp hnone⟩
        · exact List.not_mem_nil
      rw [opened, List.mem_append] at h
      obtain ⟨before, at_, after, rfl, hunopened, hlive⟩ := ih (h.resolve_left hnot)
      refine ⟨(now, k) :: before, at_, after, rfl, ?_, hlive⟩
      rw [opened, List.mem_append, not_or]
      exact ⟨hnot, hunopened⟩

/-- Within less than a window a key has at most twice the limit charged, or as many others as
the map may hold have opened a window. -/
theorem chargesOf_le_twice (hcounts : CountsWithin limit map)
    (hlimited : Limited windowMs max limit map charges)
    (hspan : ∀ c ∈ charges, ∀ d ∈ charges, c.1 - d.1 < windowMs) :
    chargesOf key charges ≤ 2 * limit ∨
      max ≤ (openedBeside windowMs max key map charges).card := by
  by_cases hopened : key ∈ opened windowMs max map charges
  · obtain ⟨before, now, after, rfl, hunopened, hlive⟩ := exists_opening hopened
    obtain ⟨hbefore, hfirst, hafter⟩ := limited_append.mp hlimited
    have hcount := (chargesOf_le_of_unopened hbefore hunopened).trans (remaining_le _ _ _)
    have hopen : ∀ c ∈ after, c.1 - (⟨now, 1⟩ : Window).start < windowMs :=
      fun c hc ↦ hspan c (by simp [hc]) (now, key) (by simp)
    rcases stands_or_reset (stands_opened hlive) hopen with hstands | hreset
    · left
      have hmore := (hcounts.chargeAll hlimited) key _ (by
        rw [chargeAll, List.foldl_append, List.foldl_cons]
        exact hstands.lookup)
      have hsplit : chargesOf key (before ++ (now, key) :: after) =
          chargesOf key before + (1 + chargesOf key after) := by
        rw [chargesOf, List.countP_append, ← chargesOf, ← chargesOf, chargesOf_cons_self]
        omega
      rw [hsplit]
      change 1 + chargesOf key after ≤ limit at hmore
      omega
    · right
      refine hreset.trans (Finset.card_le_card ?_)
      rw [Finset.empty_union]
      refine Finset.erase_subset_erase _ fun name hname ↦ ?_
      rw [opened_append, List.mem_toFinset, List.mem_append]
      refine Or.inr ?_
      rw [opened, List.mem_append]
      exact Or.inr (List.mem_toFinset.mp hname)
  · left
    have hle := (chargesOf_le_of_unopened hlimited hopened).trans (remaining_le _ _ _)
    omega

end Windows

/-! ### The two budgets -/

/-- The two budgets of a call. -/
inductive Side where
  | host
  | tenant

namespace Side

def key : Side → Call → String
  | host, call => call.host
  | tenant, call => call.tenantId

def map : Side → FetchLimiter → Windows
  | host, limiter => limiter.hosts
  | tenant, limiter => limiter.tenants

def limit (options : FetchLimiterOptions) : Side → ℕ
  | host => options.perHost
  | tenant => options.perTenant

def max (options : FetchLimiterOptions) : Side → ℕ
  | host => options.maxHosts
  | tenant => options.maxTenants

/-- What calls charge to a budget. -/
def charges (side : Side) (calls : List Call) : List Charge :=
  calls.map fun call ↦ (call.now, side.key call)

end Side

/-- How many calls of the key are admitted. -/
def admissions (side : Side) (key : String) (limiter : FetchLimiter) (calls : List Call) : ℕ :=
  (admittedCalls options limiter calls).countP fun call ↦ side.key call = key

/-- The other keys that open a window in calls. -/
def openedBy (side : Side) (key : String) (limiter : FetchLimiter) (calls : List Call) :
    Finset String :=
  openedBeside options.windowMs (side.max options) key (side.map limiter)
    (side.charges (admittedCalls options limiter calls))

variable {options} {limiter : FetchLimiter} {call : Call} {calls : List Call} {side : Side}

theorem Side.max_pos (options : FetchLimiterOptions) : ∀ side : Side, 0 < side.max options
  | .host => options.maxHosts_pos
  | .tenant => options.maxTenants_pos

theorem map_of_admits (h : admits options limiter call = true) (side : Side) :
    side.map (tryAcquire options limiter call).2 =
      charge options.windowMs (side.max options) call.now (side.key call) (side.map limiter) := by
  rw [tryAcquire, if_pos h]
  cases side <;> rfl

theorem tryAcquire_of_refused (h : admits options limiter call = false) :
    tryAcquire options limiter call = (false, limiter) := by
  rw [tryAcquire, if_neg (by simp [h])]

theorem tryAcquire_fst : (tryAcquire options limiter call).1 = admits options limiter call := by
  unfold tryAcquire
  split <;> simp_all

theorem spent_lt_of_admits (h : admits options limiter call = true) (side : Side) :
    spent options.windowMs call.now (side.key call) (side.map limiter) < side.limit options := by
  unfold admits at h
  simp only [Bool.not_eq_true', Bool.or_eq_false_iff, decide_eq_false_iff_not, not_le] at h
  cases side with
  | host => exact h.2
  | tenant => exact h.1

theorem admittedCalls_cons_of_admits (h : admits options limiter call = true) :
    admittedCalls options limiter (call :: calls) =
      call :: admittedCalls options (tryAcquire options limiter call).2 calls := by
  rw [admittedCalls, if_pos h]
  rfl

theorem admittedCalls_cons_of_refused (h : admits options limiter call = false) :
    admittedCalls options limiter (call :: calls) = admittedCalls options limiter calls := by
  rw [admittedCalls, if_neg (by simp [h]), tryAcquire_of_refused h]
  rfl

/-- Each budget after calls is as charged by those that were admitted, each within its limit. -/
theorem charged_calls (side : Side) (limiter : FetchLimiter) (calls : List Call) :
    side.map (limiterAfter options limiter calls) =
        chargeAll options.windowMs (side.max options) (side.map limiter)
          (side.charges (admittedCalls options limiter calls)) ∧
      Limited options.windowMs (side.max options) (side.limit options) (side.map limiter)
        (side.charges (admittedCalls options limiter calls)) := by
  induction calls generalizing limiter with
  | nil => exact ⟨rfl, trivial⟩
  | cons call _ ih =>
    obtain ⟨hmap, hlimited⟩ := ih (tryAcquire options limiter call).2
    cases hadmits : admits options limiter call with
    | true =>
      rw [map_of_admits hadmits] at hmap hlimited
      rw [admittedCalls_cons_of_admits hadmits]
      exact ⟨hmap, spent_lt_of_admits hadmits side, hlimited⟩
    | false =>
      rw [tryAcquire_of_refused hadmits] at hmap hlimited
      rw [admittedCalls_cons_of_refused hadmits]
      refine ⟨?_, hlimited⟩
      rw [limiterAfter, List.foldl_cons, tryAcquire_of_refused hadmits]
      exact hmap

theorem admissions_eq (side : Side) (key : String) :
    admissions options side key limiter calls =
      chargesOf key (side.charges (admittedCalls options limiter calls)) := by
  rw [admissions, chargesOf, Side.charges, List.countP_map]
  rfl

theorem mem_charges {c : Charge} (h : c ∈ side.charges (admittedCalls options limiter calls)) :
    ∃ call ∈ calls, c = (call.now, side.key call) := by
  obtain ⟨call, hcall, rfl⟩ := List.mem_map.mp h
  refine ⟨call, ?_, rfl⟩
  clear h
  induction calls generalizing limiter with
  | nil => exact hcall
  | cons _ _ ih =>
    rw [admittedCalls, List.mem_append] at hcall
    rcases hcall with hfirst | hrest
    · split at hfirst
      · rw [List.mem_singleton.mp hfirst]
        exact List.mem_cons_self
      · exact absurd hfirst List.not_mem_nil
    · exact List.mem_cons_of_mem _ (ih hrest)

/-! ### Over runs -/

/-- Both maps are in order and within their bounds, and no window is charged past its limit. -/
structure Kept (options : FetchLimiterOptions) (now : ℚ) (limiter : FetchLimiter) : Prop where
  ordered : ∀ side : Side, Ordered (side.max options) now (side.map limiter)
  counts : ∀ side : Side, CountsWithin (side.limit options) (side.map limiter)

variable (options) in
theorem kept_new (now : ℚ) : Kept options now .new where
  ordered := fun side ↦ by cases side <;> exact ordered_empty
  counts := fun side key window h ↦ by
    cases side <;> exact absurd h (by simp [Side.map, FetchLimiter.new])

theorem Kept.tryAcquire (h : Kept options call.now limiter) :
    Kept options call.now (tryAcquire options limiter call).2 := by
  cases hadmits : admits options limiter call with
  | true =>
    refine ⟨fun side ↦ ?_, fun side ↦ ?_⟩
    · rw [map_of_admits hadmits]
      exact (h.ordered side).charge (side.max_pos options) _
    · rw [map_of_admits hadmits]
      exact (h.counts side).charge (spent_lt_of_admits hadmits side)
  | false =>
    rw [tryAcquire_of_refused hadmits]
    exact h

theorem Kept.mono {now later : ℚ} (h : Kept options now limiter) (hlater : now ≤ later) :
    Kept options later limiter :=
  ⟨fun side ↦ (h.ordered side).mono hlater, h.counts⟩

/-- Each call is no earlier than those before it. -/
def Timely (calls : List Call) : Prop := calls.Pairwise fun a b ↦ a.now ≤ b.now

theorem kept_limiterAfter {now last : ℚ} (h : Kept options now limiter)
    (hnow : ∀ call ∈ calls, now ≤ call.now) (htimely : Timely calls)
    (hlast : ∀ call ∈ calls, call.now ≤ last) (hle : now ≤ last) :
    Kept options last (limiterAfter options limiter calls) := by
  induction calls generalizing limiter now with
  | nil => exact h.mono hle
  | cons call _ ih =>
    obtain ⟨hlater, hrest⟩ := List.pairwise_cons.mp htimely
    have hfirst := (h.mono (hnow call List.mem_cons_self)).tryAcquire
    exact ih hfirst hlater hrest (fun c hc ↦ hlast c (List.mem_cons_of_mem _ hc))
      (hlast call List.mem_cons_self)

/-- The calls of one key that are admitted, the first of which opens its window. -/
theorem admissions_cons_of_admits {key : String} (h : admits options limiter call = true)
    (hkey : side.key call = key) :
    admissions options side key limiter (call :: calls) =
      admissions options side key (tryAcquire options limiter call).2 calls + 1 := by
  rw [admissions, admittedCalls_cons_of_admits h]
  exact List.countP_cons_of_pos (decide_eq_true hkey)

variable {opener again : Call}

/-- A key whose window is open is admitted past its limit only once as many others as the map
may hold have opened one since. -/
theorem overspent_only_reset (hopens : admits options limiter opener = true)
    (hnew : live options.windowMs opener.now (side.key opener) (side.map limiter) = none)
    (hopen : ∀ call ∈ calls, call.now - opener.now < options.windowMs)
    (hkey : side.key again = side.key opener) (hagain : again.now - opener.now < options.windowMs)
    (hspent : side.limit options ≤
      admissions options side (side.key opener) limiter (opener :: calls))
    (hadmits : admits options (limiterAfter options limiter (opener :: calls)) again = true) :
    side.max options ≤ (openedBy options side (side.key opener)
      (tryAcquire options limiter opener).2 calls).card := by
  have hstands : Stands (side.key opener) ⟨opener.now, 1⟩ ∅
      (side.map (tryAcquire options limiter opener).2) := by
    rw [map_of_admits hopens]
    exact stands_opened hnew
  obtain ⟨hmap, -⟩ := @charged_calls options side (tryAcquire options limiter opener).2 calls
  rcases stands_or_reset hstands (fun c hc ↦ by
      obtain ⟨call, hcall, rfl⟩ := mem_charges hc
      exact hopen call hcall) with hkept | hreset
  · have hlt := spent_lt_of_admits hadmits side
    have hafter : side.map (limiterAfter options limiter (opener :: calls)) =
        chargeAll options.windowMs (side.max options)
          (side.map (tryAcquire options limiter opener).2)
          (side.charges (admittedCalls options (tryAcquire options limiter opener).2 calls)) := hmap
    rw [hafter, hkey, hkept.spent hagain] at hlt
    rw [admissions_cons_of_admits hopens rfl, admissions_eq] at hspent
    simp only at hlt
    omega
  · rwa [Finset.empty_union] at hreset

theorem length_opened_le {windowMs : ℚ} {max : ℕ} {map : Windows} {charges : List Charge} :
    (opened windowMs max map charges).length ≤ charges.length := by
  induction charges generalizing map with
  | nil => exact le_rfl
  | cons c _ ih =>
    rw [opened, List.length_append, List.length_cons]
    have hrest := @ih (charge windowMs max c.1 c.2 map)
    split
    · rw [List.length_singleton]
      omega
    · rw [List.length_nil]
      omega

/-- Within less than a window a tenant is admitted at most twice its limit, or as many others as
the map may hold have opened a window. -/
theorem admissions_le_twice (hcounts : CountsWithin (side.limit options) (side.map limiter))
    (hspan : ∀ c ∈ calls, ∀ d ∈ calls, c.now - d.now < options.windowMs) (key : String) :
    admissions options side key limiter calls ≤ 2 * side.limit options ∨
      side.max options ≤ (openedBy options side key limiter calls).card := by
  rw [admissions_eq]
  refine chargesOf_le_twice hcounts (charged_calls side limiter calls).2 fun c hc d hd ↦ ?_
  obtain ⟨first, hfirst, rfl⟩ := mem_charges hc
  obtain ⟨second, hsecond, rfl⟩ := mem_charges hd
  exact hspan first hfirst second hsecond

theorem mem_of_mem_opened {windowMs : ℚ} {max : ℕ} {map : Windows} {charges : List Charge}
    {key : String} (h : key ∈ opened windowMs max map charges) : ∃ c ∈ charges, c.2 = key := by
  obtain ⟨before, now, after, rfl, -⟩ := exists_opening h
  exact ⟨(now, key), by simp, rfl⟩

/-- One tenant's calls do not reset a host that they may not open a window for. -/
theorem not_reset_by_tenant {host tenantId : String}
    (hcounts : CountsWithin options.perTenant limiter.tenants)
    (htenant : ∀ call ∈ calls, call.tenantId = tenantId)
    (hbound : 2 * options.perTenant < options.maxHosts)
    (hspan : ∀ c ∈ calls, ∀ d ∈ calls, c.now - d.now < options.windowMs)
    (hreset : options.maxHosts ≤
      (openedBy options .host host limiter calls).card) : False := by
  have hall : admissions options .tenant tenantId limiter calls =
      (admittedCalls options limiter calls).length := by
    refine List.countP_eq_length.mpr fun call hcall ↦ decide_eq_true ?_
    have hcharge : (call.now, Side.tenant.key call) ∈
        Side.tenant.charges (admittedCalls options limiter calls) := List.mem_map_of_mem hcall
    obtain ⟨other, hother, heq⟩ := mem_charges hcharge
    exact (Prod.mk.inj heq).2.trans (htenant other hother)
  have hcard : (openedBy options .host host limiter calls).card ≤
      (admittedCalls options limiter calls).length := by
    refine (Finset.card_erase_le).trans ((List.toFinset_card_le _).trans ?_)
    exact length_opened_le.trans (List.length_map _).le
  have hcounts' : CountsWithin (Side.tenant.limit options) (Side.tenant.map limiter) := hcounts
  have htwice : admissions options .tenant tenantId limiter calls ≤ 2 * options.perTenant ∨
      Side.tenant.max options ≤ (openedBy options .tenant tenantId limiter calls).card :=
    admissions_le_twice hcounts' hspan tenantId
  rcases htwice with hle | hothers
  · omega
  · have hnone : openedBy options .tenant tenantId limiter calls = ∅ := by
      refine Finset.eq_empty_of_forall_notMem fun name hname ↦ ?_
      obtain ⟨hne, hopened⟩ := Finset.mem_erase.mp hname
      obtain ⟨c, hc, rfl⟩ := mem_of_mem_opened (List.mem_toFinset.mp hopened)
      obtain ⟨call, hcall, rfl⟩ := mem_charges hc
      exact hne (htenant call hcall)
    have hpos : 0 < Side.tenant.max options := Side.tenant.max_pos options
    rw [hnone, Finset.card_empty] at hothers
    omega

theorem limiterAfter_append (first rest : List Call) :
    limiterAfter options limiter (first ++ rest) =
      limiterAfter options (limiterAfter options limiter first) rest :=
  List.foldl_append

/-- What is kept when a run reaches a call. -/
theorem kept_before {past : List Call} (htimely : Timely (past ++ call :: calls)) :
    Kept options call.now (limiterAfter options .new past) := by
  obtain ⟨hpast, -, hlast⟩ := List.pairwise_append.mp htimely
  cases past with
  | nil => exact kept_new options call.now
  | cons first rest =>
    have hend : ∀ c ∈ first :: rest, c.now ≤ call.now :=
      fun c hc ↦ hlast c hc call List.mem_cons_self
    refine kept_limiterAfter (kept_new options first.now) (fun c hc ↦ ?_) hpast hend
      (hend first List.mem_cons_self)
    rcases List.mem_cons.mp hc with rfl | hmem
    · exact le_rfl
    · exact (List.pairwise_cons.mp hpast).1 c hmem

/-- The clock between a call that opens a window and a later one within it. -/
theorem Timely.between {past rest : List Call}
    (h : Timely (past ++ opener :: calls ++ again :: rest)) {c : Call} (hc : c ∈ calls) :
    opener.now ≤ c.now ∧ c.now ≤ again.now := by
  obtain ⟨hfront, -, hlast⟩ := List.pairwise_append.mp h
  refine ⟨(List.pairwise_cons.mp (List.pairwise_append.mp hfront).2.1).1 c hc, ?_⟩
  exact hlast c (by simp [hc]) again List.mem_cons_self

/-- With a clock that does not go back: a refused call changes neither budget, and one that is
admitted is charged to its host's window and its tenant's and to no other; both maps are within
their bounds and in order of start; a key is admitted past its limit within its window only if
as many others as its map may hold have opened one since, and where twice the tenants' limit is
less than that of hosts, no one tenant's calls have. -/
theorem fetch_limits_hold (htimely : Timely calls) :
    (∀ past call rest, calls = past ++ call :: rest →
      ((tryAcquire options (limiterAfter options .new past) call).1 = false →
        (tryAcquire options (limiterAfter options .new past) call).2 =
          limiterAfter options .new past) ∧
      ((tryAcquire options (limiterAfter options .new past) call).1 = true → ∀ side : Side,
        (∃ start, (side.map (tryAcquire options (limiterAfter options .new past) call).2).lookup
            (side.key call) = some ⟨start, spent options.windowMs call.now (side.key call)
              (side.map (limiterAfter options .new past)) + 1⟩ ∧
          start = ((live options.windowMs call.now (side.key call)
            (side.map (limiterAfter options .new past))).map (·.start)).getD call.now) ∧
        ∀ other, other ≠ side.key call →
          (side.map (tryAcquire options (limiterAfter options .new past) call).2).lookup other =
              (side.map (limiterAfter options .new past)).lookup other ∨
            (side.map (tryAcquire options (limiterAfter options .new past) call).2).lookup other =
                none ∧
              live options.windowMs call.now (side.key call)
                (side.map (limiterAfter options .new past)) = none ∧
              side.max options ≤
                (others (side.key call) (side.map (limiterAfter options .new past))).length)) ∧
    (∀ side : Side, (side.map (limiterAfter options .new calls)).size ≤ side.max options ∧
      (side.map (limiterAfter options .new calls)).entries.Pairwise
        fun newer older ↦ older.2.start ≤ newer.2.start) ∧
    (∀ (side : Side) past opener mid again rest,
      calls = past ++ opener :: mid ++ again :: rest →
      admits options (limiterAfter options .new past) opener = true →
      live options.windowMs opener.now (side.key opener)
        (side.map (limiterAfter options .new past)) = none →
      side.key again = side.key opener → again.now - opener.now < options.windowMs →
      side.limit options ≤ admissions options side (side.key opener)
        (limiterAfter options .new past) (opener :: mid) →
      admits options (limiterAfter options .new (past ++ opener :: mid)) again = true →
        side.max options ≤ (openedBy options side (side.key opener)
          (limiterAfter options .new (past ++ [opener])) mid).card ∧
        (side = .host → 2 * options.perTenant < options.maxHosts →
          ∀ tenantId, ∃ call ∈ mid, call.tenantId ≠ tenantId)) := by
  refine ⟨fun past call rest _ ↦ ⟨fun hrefused ↦ ?_, fun hadmitted side ↦ ?_⟩, fun side ↦ ?_,
    fun side past opener mid again rest hcalls hopens hnew hkey hagain hspent hadmits ↦ ?_⟩
  · rw [tryAcquire_fst] at hrefused
    rw [tryAcquire_of_refused hrefused]
  · rw [tryAcquire_fst] at hadmitted
    rw [map_of_admits hadmitted]
    exact lookup_charge _ _ _ _ _
  · rcases List.eq_nil_or_concat calls with rfl | ⟨past, last, rfl⟩
    · have hkept := (kept_new options 0).ordered side
      exact ⟨hkept.size, hkept.starts⟩
    · rw [List.concat_eq_append] at htimely ⊢
      have hkept := (@kept_before options _ _ _ htimely).tryAcquire.ordered side
      rw [limiterAfter_append]
      exact ⟨hkept.size, hkept.starts⟩
  · subst hcalls
    have hafter : limiterAfter options .new (past ++ [opener]) =
        (tryAcquire options (limiterAfter options .new past) opener).2 := by
      rw [limiterAfter_append]
      rfl
    have hreset : side.max options ≤ (openedBy options side (side.key opener)
        (limiterAfter options .new (past ++ [opener])) mid).card := by
      rw [limiterAfter_append] at hadmits
      rw [hafter]
      refine overspent_only_reset hopens hnew (fun c hc ↦ ?_) hkey hagain hspent hadmits
      have hle := (htimely.between hc).2
      linarith
    refine ⟨hreset, ?_⟩
    rintro rfl hbound tenantId
    by_contra hnone
    have hall : ∀ call ∈ mid, call.tenantId = tenantId :=
      fun call hcall ↦ by_contra fun hne ↦ hnone ⟨call, hcall, hne⟩
    have hkept : Kept options opener.now (limiterAfter options .new (past ++ [opener])) := by
      rw [hafter, List.append_assoc, List.cons_append] at *
      exact (kept_before htimely).tryAcquire
    refine not_reset_by_tenant (hkept.counts .tenant) hall hbound (fun c hc d hd ↦ ?_) hreset
    have hle := (htimely.between hc).2
    have hge := (htimely.between hd).1
    linarith

/-- One fetch of a host and room for one host: a second fetch is admitted once another host has
taken the first one's place.  In the deployment a host is fetched from past its limit only if as
many hosts as there is room for came between, for more than one tenant. -/
theorem fetch_limits_hold_evicted :
    1 ≤ (openedBy ⟨1, 5, 60000, 1, 1, Nat.one_pos, Nat.one_pos⟩ .host "a.example"
      (limiterAfter ⟨1, 5, 60000, 1, 1, Nat.one_pos, Nat.one_pos⟩ .new
        ([] ++ [⟨0, "t1", "a.example"⟩])) [⟨1000, "t1", "b.example"⟩]).card ∧
    ∀ past opener mid again rest, Timely (past ++ opener :: mid ++ again :: rest) →
      admits deployed (limiterAfter deployed .new past) opener = true →
      live deployed.windowMs opener.now opener.host (limiterAfter deployed .new past).hosts = none →
      again.host = opener.host → again.now - opener.now < 60000 →
      CIMD_FETCHES_PER_HOST_PER_MINUTE ≤ admissions deployed .host opener.host
        (limiterAfter deployed .new past) (opener :: mid) →
      admits deployed (limiterAfter deployed .new (past ++ opener :: mid)) again = true →
        CIMD_LIMITER_MAX_HOSTS ≤ (openedBy deployed .host opener.host
          (limiterAfter deployed .new (past ++ [opener])) mid).card ∧
        ∀ tenantId, ∃ call ∈ mid, call.tenantId ≠ tenantId := by
  have htimely : Timely ([] ++ ⟨0, "t1", "a.example"⟩ :: [⟨1000, "t1", "b.example"⟩] ++
      [⟨2000, "t1", "a.example"⟩]) := by
    simp only [Timely, List.nil_append, List.cons_append, List.pairwise_cons]
    norm_num
  constructor
  · exact ((@fetch_limits_hold ⟨1, 5, 60000, 1, 1, Nat.one_pos, Nat.one_pos⟩ _ htimely).2.2 .host []
      ⟨0, "t1", "a.example"⟩ [⟨1000, "t1", "b.example"⟩] ⟨2000, "t1", "a.example"⟩ [] rfl
      (by decide) rfl rfl (by decide +kernel) (by decide +kernel) (by decide +kernel)).1
  · intro past opener mid again rest htimely hopens hnew hkey hagain hspent hadmits
    obtain ⟨hreset, htenants⟩ := (@fetch_limits_hold deployed _ htimely).2.2 .host past opener mid
      again rest rfl hopens hnew hkey hagain hspent hadmits
    exact ⟨hreset, htenants rfl (by decide)⟩

end Odudu.ProtocolOidc.CimdFetchLimiter
