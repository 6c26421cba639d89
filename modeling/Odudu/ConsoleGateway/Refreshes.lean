import Mathlib.Data.List.Nodup
import Mathlib.Data.List.Perm.Subperm
import Mathlib.Data.List.Range

/-!
# The refreshes of the console

`semaphore` and `singleFlight` (`service/semaphore.ts`, `service/single-flight.ts`) as
`freshAccessToken` puts one inside the other: a call for a session joins the flight of that
session, or makes one, which waits for a slot.  A flight whose run has ended hands its slot to the
next that waits; its session is forgotten later, in a step of its own.  Of a run it is only said
that it ends.

Whatever the order, flights begin in the order they were made, as many as there is room for, and
no two of one session are under way at once (`refreshes_in_turn`).
-/

set_option autoImplicit false

namespace Odudu.ConsoleGateway

/-- `semaphore`: how many have a slot, and who waits for one, first to last. -/
structure Semaphore where
  running : ℕ
  waiting : List ℕ

def Semaphore.acquire (limit : ℕ) (sem : Semaphore) (flight : ℕ) : Semaphore :=
  if sem.running < limit then { sem with running := sem.running + 1 }
  else { sem with waiting := sem.waiting ++ [flight] }

/-- The slot is handed to the next that waits. -/
def Semaphore.release (sem : Semaphore) : Semaphore :=
  match sem.waiting with
  | [] => { sem with running := sem.running - 1 }
  | _ :: waiting => { sem with waiting }

def refreshConcurrency (poolMax : ℤ) : ℤ := max 1 (min 2 ((poolMax - 2) / 3))

/-- The flights, numbered as they are made. -/
structure Refreshes (Session : Type) where
  /-- The session of each flight. -/
  made : List Session
  inFlight : Session → Option ℕ
  slots : Semaphore
  /-- The flights whose run has ended. -/
  ended : List ℕ
  /-- Those whose `finally` has run. -/
  forgotten : List ℕ

inductive Act (Session : Type) where
  | call (session : Session)
  | finish (flight : ℕ)
  | forget (flight : ℕ)

namespace Refreshes

variable {Session : Type}

/-- A flight that has a slot. -/
def IsUnderWay (r : Refreshes Session) (flight : ℕ) : Prop :=
  flight < r.made.length ∧ flight ∉ r.slots.waiting ∧ flight ∉ r.ended

instance (r : Refreshes Session) (flight : ℕ) : Decidable (r.IsUnderWay flight) :=
  inferInstanceAs (Decidable (_ ∧ _ ∧ _))

def start : Refreshes Session := ⟨[], fun _ ↦ none, ⟨0, []⟩, [], []⟩

/-- What every step keeps. -/
structure InTurn (limit : ℕ) (r : Refreshes Session) : Prop where
  begun : r.slots.running + r.ended.length ≤ r.made.length
  waiting : r.slots.waiting = List.range' (r.slots.running + r.ended.length)
    (r.made.length - (r.slots.running + r.ended.length))
  running : r.slots.running ≤ limit
  idle : r.slots.running < limit → r.slots.running + r.ended.length = r.made.length
  nodup : r.ended.Nodup
  ended : ∀ flight ∈ r.ended, flight < r.slots.running + r.ended.length
  forgotten : r.forgotten ⊆ r.ended
  inFlight : ∀ session flight, r.inFlight session = some flight ↔
    r.made[flight]? = some session ∧ flight ∉ r.forgotten

variable {limit flight : ℕ} {r : Refreshes Session} {session other : Session}

theorem InTurn.isUnderWay_iff (h : r.InTurn limit) :
    r.IsUnderWay flight ↔ flight < r.slots.running + r.ended.length ∧ flight ∉ r.ended := by
  have hbegun := h.begun
  rw [IsUnderWay, h.waiting, List.mem_range'_1, ← and_assoc]
  exact and_congr_left fun _ ↦ by omega

/-- Those that are under way are no more than the slots that are taken. -/
theorem InTurn.length_le (h : r.InTurn limit) {busy : List ℕ} (hnodup : busy.Nodup)
    (hbusy : ∀ flight ∈ busy, r.IsUnderWay flight) : busy.length ≤ r.slots.running := by
  have hboth : (busy ++ r.ended).Nodup := by
    refine List.nodup_append.mpr ⟨hnodup, h.nodup, ?_⟩
    rintro flight hflight _ hended rfl
    exact (hbusy flight hflight).2.2 hended
  have hsubset : busy ++ r.ended ⊆ List.range (r.slots.running + r.ended.length) := by
    intro flight hflight
    rw [List.mem_range]
    rcases List.mem_append.mp hflight with hflight | hended
    · exact (h.isUnderWay_iff.mp (hbusy flight hflight)).1
    · exact h.ended flight hended
  have hlength := (hboth.subperm hsubset).length_le
  rw [List.length_append, List.length_range] at hlength
  exact Nat.le_of_add_le_add_right hlength

variable [DecidableEq Session]

/-- A step that cannot be made changes nothing. -/
def act (limit : ℕ) (r : Refreshes Session) : Act Session → Refreshes Session
  | .call session =>
    if (r.inFlight session).isSome then r
    else
      { r with
        made := r.made ++ [session]
        inFlight := Function.update r.inFlight session (some r.made.length)
        slots := r.slots.acquire limit r.made.length }
  | .finish flight =>
    if r.IsUnderWay flight then
      { r with slots := r.slots.release, ended := r.ended ++ [flight] }
    else r
  | .forget flight =>
    match r.made[flight]? with
    | none => r
    | some session =>
      if flight ∈ r.ended ∧ flight ∉ r.forgotten then
        { r with
          inFlight := Function.update r.inFlight session none
          forgotten := r.forgotten ++ [flight] }
      else r

/-- After these steps, the latest first. -/
def after (limit : ℕ) : List (Act Session) → Refreshes Session
  | [] => start
  | act :: acts => (after limit acts).act limit act

/-- A new flight begins where a slot is free, or waits behind the others. -/
theorem InTurn.call (h : r.InTurn limit) (hfree : r.inFlight session = none) :
    (r.act limit (.call session)).InTurn limit := by
  obtain ⟨hbegun, hwaiting, hrunning, hidle, hnodup, hended, hforgotten, hflights⟩ := h
  have hnew : r.made.length ∉ r.forgotten := fun hmem ↦ by
    have hlt := hended _ (hforgotten hmem)
    omega
  have hflights' : ∀ other flight, Function.update r.inFlight session (some r.made.length) other =
      some flight ↔ (r.made ++ [session])[flight]? = some other ∧ flight ∉ r.forgotten := by
    intro other flight
    have hbefore := hflights other flight
    have hnone := hflights session flight
    rw [hfree] at hnone
    simp only [Function.update_apply]
    grind
  simp only [Refreshes.act, hfree, Option.isSome_none, Bool.false_eq_true, if_false]
  by_cases hslot : r.slots.running < limit
  · have hall := hidle hslot
    rw [hall, Nat.sub_self, List.range'_zero] at hwaiting
    rw [Semaphore.acquire, if_pos hslot]
    constructor <;> simp only [List.length_append, List.length_singleton] <;>
      first | omega | assumption | skip
    · rw [hwaiting, show r.made.length + 1 - _ = 0 by omega, List.range'_zero]
    · exact fun flight hflight ↦ by have hlt := hended flight hflight; omega
  · rw [Semaphore.acquire, if_neg hslot]
    constructor <;> simp only [List.length_append, List.length_singleton] <;>
      first | omega | assumption | skip
    · rw [hwaiting, Nat.sub_add_comm hbegun, List.range'_concat]
      congr 2
      omega

/-- The slot of a flight that ends goes to the first that waits. -/
theorem InTurn.finish (h : r.InTurn limit) (hbusy : r.IsUnderWay flight) :
    (r.act limit (.finish flight)).InTurn limit := by
  have hslots : [flight].length ≤ r.slots.running :=
    h.length_le (List.nodup_singleton flight) (by simpa using hbusy)
  obtain ⟨hlt, hfresh⟩ := h.isUnderWay_iff.mp hbusy
  obtain ⟨hbegun, hwaiting, hrunning, hidle, hnodup, hended, hforgotten, hflights⟩ := h
  rw [List.length_singleton] at hslots
  have hends : ∀ other ∈ r.ended ++ [flight], other < r.slots.running + r.ended.length := by
    simpa [or_imp, forall_and, hlt] using hended
  have hnodup' : (r.ended ++ [flight]).Nodup := List.concat_eq_append ▸ hnodup.concat hfresh
  have hforgotten' := List.Subset.trans hforgotten (List.subset_append_left r.ended [flight])
  rw [Refreshes.act, if_pos hbusy, Semaphore.release]
  cases hleft : r.made.length - (r.slots.running + r.ended.length) with
  | zero =>
    rw [hleft, List.range'_zero] at hwaiting
    simp only [hwaiting]
    constructor <;> simp only [List.length_append, List.length_singleton] <;>
      first | omega | assumption | skip
    · rw [show r.made.length - _ = 0 by omega, List.range'_zero]
    · exact fun other hother ↦ by have hlt := hends other hother; omega
  | succ left =>
    rw [hleft, List.range'_succ] at hwaiting
    simp only [hwaiting]
    constructor <;> simp only [List.length_append, List.length_singleton] <;>
      first | omega | assumption | skip
    · rw [show r.made.length - _ = left by omega, Nat.add_assoc]
    · exact fun other hother ↦ by have hlt := hends other hother; omega

theorem InTurn.forget (h : r.InTurn limit) (hmade : r.made[flight]? = some session)
    (hended : flight ∈ r.ended) (hkept : flight ∉ r.forgotten) :
    (r.act limit (.forget flight)).InTurn limit := by
  have hflight := (h.inFlight session flight).mpr ⟨hmade, hkept⟩
  simp only [Refreshes.act, hmade, if_pos (And.intro hended hkept)]
  refine { h with
    forgotten := List.append_subset.mpr ⟨h.forgotten, by simpa using hended⟩
    inFlight := fun other later ↦ ?_ }
  have hbefore := h.inFlight other later
  simp only [Function.update_apply]
  grind

theorem InTurn.act (h : r.InTurn limit) (act : Act Session) : (r.act limit act).InTurn limit := by
  cases act with
  | call session =>
    cases hfree : r.inFlight session with
    | none => exact h.call hfree
    | some => simpa [Refreshes.act, hfree] using h
  | finish flight =>
    by_cases hbusy : r.IsUnderWay flight
    · exact h.finish hbusy
    · rwa [Refreshes.act, if_neg hbusy]
  | forget flight =>
    cases hmade : r.made[flight]? with
    | none => simpa [Refreshes.act, hmade] using h
    | some session =>
      by_cases hover : flight ∈ r.ended ∧ flight ∉ r.forgotten
      · exact h.forget hmade hover.1 hover.2
      · simpa [Refreshes.act, hmade, hover] using h

theorem inTurn_after (acts : List (Act Session)) : (after limit acts).InTurn limit := by
  induction acts with
  | nil => constructor <;> simp [after, start]
  | cons act acts ih => exact ih.act act

/-- In every run the flights that wait are the last that were made, in their order, once as many
as have ended and a slot for each more have begun; those under way are of different sessions, and
no more than slots, which leaves connections free where the pool has five; and a call joins the
flight of its session that is not forgotten. -/
theorem refreshes_in_turn (poolMax : ℤ) (acts : List (Act Session)) :
    let limit := (refreshConcurrency poolMax).toNat
    let r := after limit acts
    let begun := min r.made.length (r.ended.length + limit)
    r.slots.waiting = List.range' begun (r.made.length - begun) ∧
      (∀ busy : List ℕ, busy.Nodup → (∀ flight ∈ busy, r.IsUnderWay flight) →
        (busy.map fun flight ↦ r.made[flight]?).Nodup ∧ busy.length ≤ limit ∧
          (5 ≤ poolMax → 3 * (busy.length : ℤ) + 2 ≤ poolMax)) ∧
      ∀ session flight, r.inFlight session = some flight ↔
        r.made[flight]? = some session ∧ flight ∉ r.forgotten := by
  intro limit r begun
  have h : r.InTurn limit := inTurn_after acts
  refine ⟨?_, fun busy hnodup hbusy ↦ ⟨?_, ?_⟩, h.inFlight⟩
  · have hbegun : begun = r.slots.running + r.ended.length := by
      have hle := h.begun
      have hrunning := h.running
      have hidle := h.idle
      omega
    rw [hbegun]
    exact h.waiting
  · refine List.Nodup.map_on (fun flight hflight later hlater hsame ↦ ?_) hnodup
    have hsession (flight : ℕ) (hflight : flight ∈ busy) :
        ∃ session, r.inFlight session = some flight ∧ r.made[flight]? = some session := by
      obtain ⟨hlt, -, hended⟩ := hbusy flight hflight
      have hmade := List.getElem?_eq_getElem hlt
      exact ⟨_, (h.inFlight _ _).mpr ⟨hmade, mt (h.forgotten ·) hended⟩, hmade⟩
    obtain ⟨session, hin, hmade⟩ := hsession flight hflight
    obtain ⟨_, hin', hmade'⟩ := hsession later hlater
    obtain rfl := Option.some.inj (hmade.symm.trans (hsame.trans hmade'))
    exact Option.some.inj (hin.symm.trans hin')
  · have hle := (h.length_le hnodup hbusy).trans h.running
    have hlimit : (limit : ℤ) = max 1 (min 2 ((poolMax - 2) / 3)) :=
      Int.toNat_of_nonneg (by unfold refreshConcurrency; omega)
    omega

end Refreshes

end Odudu.ConsoleGateway
