import Mathlib.Algebra.Order.Floor.Ring
import Mathlib.Tactic.Positivity
import Mathlib.Tactic.Ring

/-!
# A sliding window counted in two fixed ones

Time is cut into windows of one width.  A record holds how many events fell in its window and
how many in the one before, and is rolled on when a later window has begun; the estimate weights
the earlier count by how much of the earlier window lies in the last `width`.

While nothing is added the estimate only falls, and there is room for one more from exactly
`untilRoom` on (`room_iff_untilRoom_le`).  A limit of one has room for an event only where no
other lies within a window before it (`eq_nil_of_room_one`).
-/

set_option autoImplicit false

namespace Odudu.Windows

variable {K : Type*} [Field K] [LinearOrder K] [FloorRing K]

/-- The number of the window an instant is in. -/
def windowAt (width now : K) : ℤ := ⌊now / width⌋

structure Counts where
  window : ℤ
  previous : ℕ
  current : ℕ

namespace Counts

/-- The record of no event. -/
def fresh (width now : K) : Counts := ⟨windowAt width now, 0, 0⟩

def more (counts : Counts) : Counts := { counts with current := counts.current + 1 }

/-- The record rolled to the window `now` is in. -/
def roll (width now : K) (counts : Counts) : Counts :=
  if counts.window = windowAt width now then counts
  else
    { window := windowAt width now
      previous := if counts.window = windowAt width now - 1 then counts.current else 0
      current := 0 }

def elapsed (width now : K) (counts : Counts) : K := (now - counts.window * width) / width

def estimate (width now : K) (counts : Counts) : K :=
  counts.previous * (1 - counts.elapsed width now) + counts.current

/-- Whether the estimate admits one more. -/
def Room (limit : ℕ) (width now : K) (counts : Counts) : Prop :=
  counts.estimate width now + 1 ≤ limit

instance (limit : ℕ) (width now : K) (counts : Counts) : Decidable (counts.Room limit width now) :=
  inferInstanceAs (Decidable (_ ≤ _))

/-- What the limit leaves once one more is counted in this window. -/
def left (limit : ℕ) (counts : Counts) : ℤ := limit - 1 - counts.current

/-- How long it is until the estimate admits one more. -/
def untilRoom (limit : ℕ) (width now : K) (counts : Counts) : K :=
  if 0 ≤ counts.left limit ∧ 0 < counts.previous then
    (1 - counts.left limit / counts.previous - counts.elapsed width now) * width
  else (1 - counts.elapsed width now) * width + width / limit

end Counts

/-- How many instants of a log are in a window. -/
def inWindow (width : K) (window : ℤ) (log : List K) : ℕ :=
  log.countP fun t ↦ windowAt width t = window

/-- The record of the instants of a log. -/
def tally (width now : K) (log : List K) : Counts where
  window := windowAt width now
  previous := inWindow width (windowAt width now - 1) log
  current := inWindow width (windowAt width now) log

variable [IsStrictOrderedRing K] {width now later t : K} {limit : ℕ} {counts : Counts}

/-! ### Windows -/

theorem windowAt_mono (hwidth : 0 < width) (h : now ≤ later) :
    windowAt width now ≤ windowAt width later :=
  Int.floor_mono (div_le_div_of_nonneg_right h hwidth.le)

theorem windowAt_eq_iff (hwidth : 0 < width) {n : ℤ} :
    windowAt width now = n ↔ n * width ≤ now ∧ now < (n + 1) * width := by
  rw [windowAt, Int.floor_eq_iff, le_div_iff₀ hwidth, div_lt_iff₀ hwidth]

/-- Instants no more than a window apart are in the same window or in adjacent ones. -/
theorem windowAt_le_add_one (hwidth : 0 < width) (h : later ≤ now + width) :
    windowAt width later ≤ windowAt width now + 1 := by
  have hquot : later / width ≤ now / width + 1 := by
    rw [← div_self hwidth.ne', ← add_div]
    exact div_le_div_of_nonneg_right h hwidth.le
  have hfloor := Int.floor_mono hquot
  rwa [Int.floor_add_one] at hfloor

namespace Counts

/-! ### Rolling on -/

omit [IsStrictOrderedRing K] in
@[simp] theorem roll_window : (counts.roll width now).window = windowAt width now := by
  unfold roll
  split
  · assumption
  · rfl

omit [IsStrictOrderedRing K] in
theorem roll_of_window (h : counts.window = windowAt width now) :
    counts.roll width now = counts :=
  if_pos h

omit [IsStrictOrderedRing K] in
theorem roll_of_next (h : counts.window = windowAt width now - 1) :
    counts.roll width now = ⟨windowAt width now, counts.current, 0⟩ := by
  rw [roll, if_neg (by omega), if_pos h]

omit [IsStrictOrderedRing K] in
theorem roll_of_past (h : counts.window < windowAt width now - 1) :
    counts.roll width now = fresh width now := by
  rw [roll, if_neg (by omega), if_neg (by omega), fresh]

theorem roll_fresh (hwidth : 0 < width) (h : now ≤ later) :
    (fresh width now).roll width later = fresh width later := by
  have hmono : (fresh width now).window ≤ windowAt width later := windowAt_mono hwidth h
  rcases eq_or_lt_of_le hmono with heq | hlt
  · rw [roll_of_window heq, fresh, fresh, ← heq]
    rfl
  · rcases eq_or_lt_of_le (show (fresh width now).window ≤ windowAt width later - 1 by omega) with
      hnext | hpast
    · rw [roll_of_next hnext]
      rfl
    · exact roll_of_past hpast

/-- A record that is rolled on twice is rolled on once. -/
theorem roll_roll (hwidth : 0 < width) (hcounts : counts.window ≤ windowAt width now)
    (h : now ≤ later) : (counts.roll width now).roll width later = counts.roll width later := by
  have hmono := windowAt_mono hwidth h
  rcases eq_or_lt_of_le hcounts with hsame | hbefore
  · rw [roll_of_window hsame]
  rcases eq_or_lt_of_le hmono with heq | hlt
  · rw [roll_of_window (by rw [roll_window, heq]), roll, roll, heq]
  · have hpast : counts.roll width later = fresh width later := roll_of_past (by omega)
    have hnone : (counts.roll width now).current = 0 := by
      rw [roll, if_neg hbefore.ne]
    rw [hpast]
    rcases eq_or_lt_of_le (show windowAt width now ≤ windowAt width later - 1 by omega) with
      heq | hlt'
    · rw [roll_of_next (by rw [roll_window, heq]), hnone]
      rfl
    · exact roll_of_past (by rw [roll_window]; exact hlt')

omit [IsStrictOrderedRing K] in
theorem roll_current_le : (counts.roll width now).current ≤ counts.current := by
  unfold roll
  split
  · exact le_rfl
  · exact Nat.zero_le _

/-! ### The estimate -/

theorem elapsed_nonneg (hwidth : 0 < width) (h : counts.window = windowAt width now) :
    0 ≤ counts.elapsed width now := by
  have hle := ((windowAt_eq_iff hwidth).mp h.symm).1
  exact div_nonneg (by linarith) hwidth.le

theorem elapsed_lt_one (hwidth : 0 < width) (h : counts.window = windowAt width now) :
    counts.elapsed width now < 1 := by
  have hlt := ((windowAt_eq_iff hwidth).mp h.symm).2
  rw [elapsed, div_lt_one hwidth]
  linarith

omit [FloorRing K] [IsStrictOrderedRing K] in
/-- As much has elapsed more as time has gone by, less the windows rolled on. -/
theorem elapsed_later (hwidth : 0 < width) (counts counts' : Counts) (now later : K) :
    counts'.elapsed width later =
      counts.elapsed width now + (later - now) / width - (counts'.window - counts.window) := by
  unfold elapsed
  field_simp
  ring

theorem room_fresh (hlimit : 1 ≤ limit) : (fresh width now).Room limit width now := by
  unfold Room estimate fresh
  simpa using hlimit

/-- What there is room for this window counts within the limit. -/
theorem Room.current_lt (hwidth : 0 < width) (hwindow : counts.window = windowAt width now)
    (h : counts.Room limit width now) : counts.current < limit := by
  have hone := elapsed_lt_one hwidth hwindow
  have hweighted : 0 ≤ (counts.previous : K) * (1 - counts.elapsed width now) :=
    mul_nonneg (Nat.cast_nonneg _) (by linarith)
  have hcast : ((counts.current + 1 : ℕ) : K) ≤ limit := by
    unfold Room estimate at h
    push_cast
    linarith
  exact Nat.cast_le.mp hcast

omit [IsStrictOrderedRing K] in
/-- In the next window this one's count is weighted. -/
theorem room_roll_next_iff (hnext : counts.window = windowAt width later - 1) :
    (counts.roll width later).Room limit width later ↔
      (counts.current : K) * (1 - (counts.roll width later).elapsed width later) + 1 ≤ limit := by
  rw [roll_of_next hnext]
  unfold Room estimate
  simp

theorem room_roll_past (hlimit : 1 ≤ limit) (hpast : counts.window < windowAt width later - 1) :
    (counts.roll width later).Room limit width later := by
  rw [roll_of_past hpast]
  exact room_fresh hlimit

/-- While this window's count leaves room, so does what is left of it in a later window. -/
theorem room_roll_of_left (hwidth : 0 < width) (hleft : 0 ≤ counts.left limit)
    (hlimit : 1 ≤ limit) (hwindow : counts.window < windowAt width later) :
    (counts.roll width later).Room limit width later := by
  rcases eq_or_lt_of_le (show counts.window ≤ windowAt width later - 1 by omega) with heq | hlt
  · rw [room_roll_next_iff heq]
    have hrolled : (counts.roll width later).window = windowAt width later := roll_window
    have hpart := elapsed_nonneg hwidth hrolled
    have hcount : ((counts.current + 1 : ℕ) : K) ≤ limit := by
      refine Nat.cast_le.mpr ?_
      unfold left at hleft
      omega
    have hless : (counts.current : K) * (1 - (counts.roll width later).elapsed width later) ≤
        counts.current := mul_le_of_le_one_right (Nat.cast_nonneg _) (by linarith)
    push_cast at hcount
    linarith
  · exact room_roll_past hlimit hlt

/-- Room is not lost while nothing is added. -/
theorem Room.roll (hwidth : 0 < width) (hlimit : 1 ≤ limit)
    (hwindow : counts.window = windowAt width now) (hroom : counts.Room limit width now)
    (h : now ≤ later) : (counts.roll width later).Room limit width later := by
  have hlt := hroom.current_lt hwidth hwindow
  rcases eq_or_lt_of_le (hwindow ▸ windowAt_mono hwidth h : counts.window ≤ _) with heq | hbefore
  · have helapsed := elapsed_later hwidth counts counts now later
    have hgone : 0 ≤ (later - now) / width := div_nonneg (by linarith) hwidth.le
    have hless : (counts.previous : K) * (1 - counts.elapsed width later) ≤
        counts.previous * (1 - counts.elapsed width now) :=
      mul_le_mul_of_nonneg_left (by linarith) (Nat.cast_nonneg _)
    rw [roll_of_window heq]
    unfold Room estimate at hroom ⊢
    linarith
  · exact room_roll_of_left hwidth (by unfold left; omega) hlimit hbefore

/-- A record that has no room has it from exactly `untilRoom` on, while nothing is added. -/
theorem room_iff_untilRoom_le (hwidth : 0 < width) (hlimit : 1 ≤ limit)
    (hwindow : counts.window = windowAt width now) (hcurrent : counts.current ≤ limit)
    (hfull : ¬ counts.Room limit width now) (h : now ≤ later) :
    (counts.roll width later).Room limit width later ↔
      counts.untilRoom limit width now ≤ later - now := by
  have hmono : counts.window ≤ windowAt width later := hwindow ▸ windowAt_mono hwidth h
  have hzero := elapsed_nonneg hwidth hwindow
  have hlimit' : (1 : K) ≤ limit := Nat.one_le_cast.mpr hlimit
  -- all is said of the parts of a window that have gone by
  have helapsed := elapsed_later hwidth counts (counts.roll width later) now later
  have hrolled : (counts.roll width later).window = windowAt width later := roll_window
  have hpart := elapsed_nonneg hwidth hrolled
  have hpart' := elapsed_lt_one hwidth hrolled
  have hscale : ∀ x : K, x * width ≤ later - now ↔ x ≤ (later - now) / width := fun x ↦
    (le_div_iff₀ hwidth).symm
  rw [roll_window] at helapsed
  unfold untilRoom
  split
  · rename_i hroom
    obtain ⟨hleft, hprevious⟩ := hroom
    have hprevious' : (0 : K) < counts.previous := Nat.cast_pos.mpr hprevious
    rw [hscale]
    rcases eq_or_lt_of_le hmono with heq | hlt
    · rw [roll_of_window heq] at helapsed ⊢
      have hweight : (1 : K) - counts.left limit / counts.previous -
          counts.elapsed width now ≤ (later - now) / width ↔
            (1 : K) - counts.elapsed width later ≤ counts.left limit / counts.previous := by
        rw [helapsed, heq]
        constructor <;> intro hle <;> linarith
      rw [hweight, le_div_iff₀ hprevious', mul_comm, Room, estimate, left]
      push_cast
      constructor <;> intro hle <;> linarith
    · refine iff_of_true (room_roll_of_left hwidth hleft hlimit hlt) ?_
      have hleft' : (0 : K) ≤ counts.left limit / counts.previous :=
        div_nonneg (Int.cast_nonneg hleft) hprevious'.le
      have hstep : (counts.window : K) + 1 ≤ windowAt width later := by exact_mod_cast hlt
      linarith
  · rename_i hnone
    have hall : counts.current = limit := by
      rw [Room, estimate, not_le] at hfull
      by_contra hne
      have hleft : 0 ≤ counts.left limit := by
        unfold left
        omega
      have hprevious : counts.previous = 0 := by
        by_contra hsome
        exact hnone ⟨hleft, Nat.pos_of_ne_zero hsome⟩
      rw [hprevious, Nat.cast_zero, zero_mul, zero_add] at hfull
      have hcast : limit < counts.current + 1 := by exact_mod_cast hfull
      omega
    have hwait : (1 - counts.elapsed width now) * width + width / limit =
        (1 - counts.elapsed width now + 1 / limit) * width := by ring
    have hshare : (1 : K) / limit ≤ 1 := (div_le_one (by linarith)).mpr hlimit'
    have hshare' : (0 : K) < 1 / limit := by positivity
    rw [hwait, hscale]
    rcases eq_or_lt_of_le hmono with heq | hlt
    · rw [roll_of_window heq] at helapsed hpart' ⊢
      rw [heq] at helapsed
      refine iff_of_false (fun hroom ↦ ?_) (by intro hle; linarith)
      exact absurd (hroom.current_lt hwidth heq) (by omega)
    · rcases eq_or_lt_of_le (show counts.window ≤ windowAt width later - 1 by omega) with
        hnext | hpast
      · rw [room_roll_next_iff hnext, hall]
        have hstep : (windowAt width later : K) = counts.window + 1 := by
          rw [hnext]
          push_cast
          ring
        rw [hstep] at helapsed
        have hpaid : (limit : K) * (1 - (counts.roll width later).elapsed width later) + 1 ≤ limit ↔
            1 / (limit : K) ≤ (counts.roll width later).elapsed width later := by
          rw [div_le_iff₀ (by linarith)]
          constructor <;> intro hle <;> linarith
        rw [hpaid]
        constructor <;> intro hle <;> linarith
      · refine iff_of_true (room_roll_past hlimit hpast) ?_
        have hstep : (counts.window : K) + 2 ≤ windowAt width later := by
          have hle : counts.window + 2 ≤ windowAt width later := by omega
          exact_mod_cast hle
        linarith

/-- What a limit of one has room for is alone in two windows. -/
theorem Room.alone (hwidth : 0 < width) (hwindow : counts.window = windowAt width now)
    (h : counts.Room 1 width now) : counts.previous = 0 ∧ counts.current = 0 := by
  have hnone : counts.current = 0 := Nat.lt_one_iff.mp (h.current_lt hwidth hwindow)
  refine ⟨?_, hnone⟩
  have hone := elapsed_lt_one hwidth hwindow
  rw [Room, estimate, hnone, Nat.cast_zero, add_zero, Nat.cast_one] at h
  by_contra hsome
  have hprevious : (0 : K) < counts.previous := Nat.cast_pos.mpr (Nat.pos_of_ne_zero hsome)
  have hweighted : 0 < (counts.previous : K) * (1 - counts.elapsed width now) :=
    mul_pos hprevious (by linarith)
  linarith

end Counts

/-! ### Logs -/

variable {log log' : List K} {n : ℤ}

omit [IsStrictOrderedRing K] in
theorem inWindow_append :
    inWindow width n (log ++ log') = inWindow width n log + inWindow width n log' :=
  List.countP_append

omit [IsStrictOrderedRing K] in
theorem inWindow_eq_zero (h : ∀ t ∈ log, windowAt width t ≠ n) : inWindow width n log = 0 :=
  List.countP_eq_zero.mpr fun t ht ↦ by simpa using h t ht

omit [IsStrictOrderedRing K] in
theorem more_tally (now : K) (log : List K) :
    (tally width now log).more = tally width now (log ++ [now]) := by
  have hnot : windowAt width now ≠ windowAt width now - 1 := by omega
  simp [tally, Counts.more, inWindow, hnot]

theorem roll_tally (hwidth : 0 < width) (hlate : ∀ t ∈ log, t ≤ now) (h : now ≤ later) :
    (tally width now log).roll width later = tally width later log := by
  have hnot : ∀ {n : ℤ}, windowAt width now < n → inWindow width n log = 0 := fun hn ↦
    inWindow_eq_zero fun t ht ↦ ((windowAt_mono hwidth (hlate t ht)).trans_lt hn).ne
  have hmono : (tally width now log).window ≤ windowAt width later := windowAt_mono hwidth h
  rcases eq_or_lt_of_le hmono with heq | hlt
  · rw [Counts.roll_of_window heq, tally, tally, ← heq]
    rfl
  · have hcurrent : inWindow width (windowAt width later) log = 0 := hnot hlt
    rcases eq_or_lt_of_le (show (tally width now log).window ≤ windowAt width later - 1 by omega)
      with hnext | hpast
    · rw [Counts.roll_of_next hnext, tally, tally, ← hnext, hcurrent]
      rfl
    · have hprevious : inWindow width (windowAt width later - 1) log = 0 := hnot hpast
      rw [Counts.roll_of_past hpast, tally, Counts.fresh, hcurrent, hprevious]

/-- A record is that of some log. -/
theorem exists_log (hwidth : 0 < width) (hcounts : counts.window ≤ windowAt width now) :
    ∃ log : List K, (∀ t ∈ log, t ≤ now) ∧
      ∀ later, now ≤ later → counts.roll width later = tally width later log := by
  have hstart : ∀ n : ℤ, windowAt width (n * width) = n := fun n ↦
    (windowAt_eq_iff hwidth).mpr ⟨le_rfl, by linarith⟩
  let log : List K := List.replicate counts.previous (((counts.window - 1 : ℤ) : K) * width) ++
    List.replicate counts.current ((counts.window : K) * width)
  have hcount : ∀ n : ℤ, inWindow width n log =
      (if counts.window - 1 = n then counts.previous else 0) +
        if counts.window = n then counts.current else 0 := by
    intro n
    rw [inWindow_append, inWindow, inWindow, List.countP_replicate, List.countP_replicate, hstart,
      hstart]
    simp only [decide_eq_true_eq]
  have hopen := ((windowAt_eq_iff hwidth).mp (rfl : windowAt width now = _)).1
  have hfloor : (counts.window : K) * width ≤ now :=
    (mul_le_mul_of_nonneg_right (Int.cast_le.mpr hcounts) hwidth.le).trans hopen
  refine ⟨log, fun t ht ↦ ?_, fun later hlater ↦ ?_⟩
  · rcases List.mem_append.mp ht with hbefore | hthis
    · rw [List.eq_of_mem_replicate hbefore]
      push_cast
      linarith
    · rw [List.eq_of_mem_replicate hthis]
      exact hfloor
  · rw [tally, hcount, hcount]
    rcases eq_or_lt_of_le (hcounts.trans (windowAt_mono hwidth hlater)) with heq | hlt
    · rw [Counts.roll_of_window heq, if_pos (by omega), if_neg (by omega), if_neg (by omega),
        if_pos heq, ← heq, add_zero, zero_add]
    · rcases eq_or_lt_of_le (show counts.window ≤ windowAt width later - 1 by omega) with
        hnext | hpast
      · rw [Counts.roll_of_next hnext, if_neg (by omega), if_pos hnext, if_neg (by omega),
          if_neg hlt.ne, zero_add]
      · rw [Counts.roll_of_past hpast, if_neg (by omega), if_neg hpast.ne, if_neg (by omega),
          if_neg hlt.ne]
        rfl

/-- Where a limit of one has room, no instant of the log lies within a window before. -/
theorem eq_nil_of_room_one (hwidth : 0 < width) {base stretch : List K}
    (hnear : ∀ t ∈ stretch, t ≤ now ∧ now ≤ t + width)
    (h : (tally width now (base ++ stretch)).Room 1 width now) : stretch = [] := by
  obtain ⟨hprevious, hcurrent⟩ := h.alone hwidth rfl
  refine List.eq_nil_iff_forall_not_mem.mpr fun t ht ↦ ?_
  have hto := windowAt_mono hwidth (hnear t ht).1
  have hfrom := windowAt_le_add_one hwidth (hnear t ht).2
  have hnone : ∀ n : ℤ, inWindow width n (base ++ stretch) = 0 → windowAt width t ≠ n :=
    fun n hzero ↦ by simpa using List.countP_eq_zero.mp hzero t (List.mem_append_right _ ht)
  have hbefore := hnone _ hprevious
  have hthis := hnone _ hcurrent
  omega

end Odudu.Windows
