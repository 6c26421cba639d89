import Odudu.Runs.Reached
import Mathlib.Data.Fintype.Basic

/-!
# The lock file

`adapter/file-lock.ts`: `tryTake`, `stealIfStale` and `createFileLock`, as the steps of any number
of calls of `run` over one file system, each call known by its owner token.  A step is one
file-system operation and what its call then decides; any of them may fail, a call may crash at
any point, and between steps time passes.

A call creates one file at most, so a file is known by the call that created it, and what is moved
aside has a name that nobody else reads.  The directory that is made first is left out.

A call that has taken the lock is the creator of the file at the path (`Held`), for as long as
nobody else moves that file or deletes it.  A punctual holder's file is not stale, so a move of a
dead lock leaves it there (`held_act`), and no two calls are inside (`excludes_of_deadMoves`).

The move itself does not look at what it moves.  Of two calls that both found a dead lock stale,
the slower one moves away the lock that the faster has taken since (`slow_steps_break_the_lock`).
-/

set_option autoImplicit false

namespace Odudu.Mcp.FileLock

open Runs

structure FileLockOptions where
  staleMs : ℕ
  waitMs : ℕ
  pollMs : ℕ

/-- A file at the lock's path. -/
structure LockFile (Owner : Type) where
  creator : Owner
  /-- The owner token in it, once it is written. -/
  content : Option Owner
  mtimeMs : ℕ
  deriving DecidableEq

/-- What a call of `run` does next. -/
inductive Point where
  | starting
  | taking (deadline : ℕ)
  | writing (takenAt : ℕ)
  | judging (deadline : ℕ)
  | judgingAgain (deadline : ℕ)
  | moving (deadline : ℕ)
  | clearing (deadline : ℕ)
  | checking (deadline : ℕ)
  | pausing (until_ deadline : ℕ)
  | working (takenAt : ℕ)
  | reading
  | removing
  | gone
  deriving DecidableEq

/-- When a call took the lock it holds. -/
def Point.takenAt : Point → Option ℕ
  | writing takenAt => some takenAt
  | working takenAt => some takenAt
  | _ => none

/-- Inside the protected work. -/
def Point.inside : Point → Bool
  | working _ => true
  | _ => false

/-- About to move a file aside. -/
def Point.isMoving : Point → Bool
  | moving _ => true
  | _ => false

variable {Owner : Type}

structure State (Owner : Type) where
  now : ℕ
  /-- The file at the path, if there is one. -/
  file : Option (LockFile Owner)
  point : Owner → Point

/-- No call has begun, and there is no file. -/
def State.new : State Owner := ⟨0, none, fun _ ↦ .starting⟩

inductive Event (Owner : Type) where
  | elapse (ms : ℕ)
  /-- The next step of a call, and whether its operation succeeds. -/
  | act (owner : Owner) (succeeds : Bool)
  | crash (owner : Owner)

section Steps

variable [DecidableEq Owner] (options : FileLockOptions)

/-- `Date.now() - info.mtimeMs > staleMs` -/
def LockFile.isStale (now : ℕ) (file : LockFile Owner) : Prop :=
  options.staleMs < now - file.mtimeMs

instance (now : ℕ) (file : LockFile Owner) : Decidable (file.isStale options now) :=
  inferInstanceAs (Decidable (_ < _))

def State.goes (s : State Owner) (owner : Owner) (point : Point) : State Owner :=
  { s with point := Function.update s.point owner point }

/-- `handle.writeFile(owner)`, which reaches the file wherever it is by now. -/
def State.writeOwner (s : State Owner) (owner : Owner) : State Owner :=
  { s with file := s.file.map fun file ↦
      if file.creator = owner then ⟨file.creator, some owner, s.now⟩ else file }

/-- `tryTake`, up to the write: a file that exists is not taken, any other failure is thrown. -/
def State.tryTake (s : State Owner) (owner : Owner) (deadline : ℕ) (succeeds : Bool) :
    State Owner :=
  if !succeeds then s.goes owner .gone
  else
    match s.file with
    | some _ => s.goes owner (.judging deadline)
    | none => { s with file := some ⟨owner, none, s.now⟩ }.goes owner (.writing s.now)

/-- Whether a `stat` finds the file stale; one that fails finds none. -/
def State.findsStale (s : State Owner) (succeeds : Bool) : Bool :=
  succeeds && s.file.any fun file ↦ file.isStale options s.now

/-- The next step of a call. -/
def State.act (s : State Owner) (owner : Owner) (succeeds : Bool) : State Owner :=
  match s.point owner with
  | .starting => s.goes owner (.taking (s.now + options.waitMs))
  | .taking deadline => s.tryTake owner deadline succeeds
  | .writing takenAt =>
    if succeeds then (s.writeOwner owner).goes owner (.working takenAt) else s.goes owner .gone
  | .judging deadline =>
    s.goes owner (if s.findsStale options succeeds then .judgingAgain deadline
      else .checking deadline)
  | .judgingAgain deadline =>
    s.goes owner (if s.findsStale options succeeds then .moving deadline else .checking deadline)
  -- The rename moves whatever is at the path by now, and a failure of it is let pass.
  | .moving deadline =>
    { s with file := if succeeds then none else s.file }.goes owner (.clearing deadline)
  | .clearing deadline => s.goes owner (if succeeds then .checking deadline else .gone)
  | .checking deadline =>
    s.goes owner (if deadline ≤ s.now then .gone else .pausing (s.now + options.pollMs) deadline)
  | .pausing until_ deadline => if until_ ≤ s.now then s.goes owner (.taking deadline) else s
  | .working _ => s.goes owner .reading
  | .reading =>
    s.goes owner (if succeeds && s.file.any (fun file ↦ file.content = some owner) then .removing
      else .gone)
  -- The delete takes whatever is at the path by now.
  | .removing => { s with file := if succeeds then none else s.file }.goes owner .gone
  | .gone => s

def step (s : State Owner) : Event Owner → State Owner
  | .elapse ms => { s with now := s.now + ms }
  | .act owner succeeds => s.act options owner succeeds
  | .crash owner => s.goes owner .gone

end Steps

/-! ### What is asked of the lock -/

/-- Every live holder is within `staleMs` of having taken the lock. -/
def State.Punctual (options : FileLockOptions) (s : State Owner) : Prop :=
  ∀ owner, ∀ takenAt ∈ (s.point owner).takenAt, s.now ≤ takenAt + options.staleMs

/-- At most one call is inside the protected work. -/
def State.Exclusive (s : State Owner) : Prop :=
  ∀ owner other, (s.point owner).inside → (s.point other).inside → owner = other

/-- What a call is about to delete is a lock it took itself. -/
def State.ReleasesOwn (s : State Owner) : Prop :=
  ∀ owner, s.point owner = .removing → ∀ file ∈ s.file, file.creator = owner

/-- A state of a run in which every live holder is punctual. -/
def Reachable [DecidableEq Owner] (options : FileLockOptions) : State Owner → Prop :=
  Reached (step options) (fun _ _ t ↦ t.Punctual options) .new

/-- A file that is moved aside is stale at that moment, and its holder is not between reading it
back and deleting it. -/
def MovesDead (options : FileLockOptions) (s : State Owner) : Event Owner → Prop
  | .act owner true => (s.point owner).isMoving →
      ∀ file ∈ s.file, file.isStale options s.now ∧ s.point file.creator ≠ .removing
  | _ => True

instance [Fintype Owner] (options : FileLockOptions) (s : State Owner) :
    Decidable (s.Punctual options) :=
  inferInstanceAs (Decidable (∀ owner, ∀ takenAt ∈ (s.point owner).takenAt, _))

instance (options : FileLockOptions) (s : State Owner) :
    ∀ e, Decidable (MovesDead options s e)
  | .act owner true => inferInstanceAs (Decidable ((s.point owner).isMoving → _))
  | .act _ false => inferInstanceAs (Decidable True)
  | .elapse _ => inferInstanceAs (Decidable True)
  | .crash _ => inferInstanceAs (Decidable True)

/-- A state of such a run whose every move is of a dead lock. -/
def ReachableByDeadMoves [DecidableEq Owner] (options : FileLockOptions) : State Owner → Prop :=
  Reached (step options) (fun s e t ↦ MovesDead options s e ∧ t.Punctual options) .new

variable {options : FileLockOptions} {s : State Owner} {owner other : Owner}
  {point : Point} {deadline takenAt : ℕ}

/-- What the file at the path tells of the calls. -/
structure Held (s : State Owner) : Prop where
  content : ∀ file ∈ s.file, ∀ owner ∈ file.content, file.creator = owner
  past : ∀ file ∈ s.file, file.mtimeMs ≤ s.now
  taken : ∀ owner, ∀ takenAt ∈ (s.point owner).takenAt,
    ∃ file ∈ s.file, file.creator = owner ∧ takenAt ≤ file.mtimeMs
  removing : ∀ owner, s.point owner = .removing → ∃ file ∈ s.file, file.creator = owner

theorem held_new : Held (State.new : State Owner) where
  content := nofun
  past := nofun
  taken := nofun
  removing := nofun

theorem Point.takenAt_of_inside (h : point.inside) : ∃ takenAt, takenAt ∈ point.takenAt := by
  unfold Point.inside at h
  split at h
  next takenAt => exact ⟨takenAt, rfl⟩
  next => exact nomatch h

theorem Held.exclusive (h : Held s) : s.Exclusive := by
  have hcreator : ∀ owner, (s.point owner).inside → ∃ file ∈ s.file, file.creator = owner := by
    intro owner hinside
    obtain ⟨takenAt, htaken⟩ := Point.takenAt_of_inside hinside
    obtain ⟨file, hfile, hcreator, -⟩ := h.taken owner takenAt htaken
    exact ⟨file, hfile, hcreator⟩
  intro owner other howner hother
  obtain ⟨file, hfile, rfl⟩ := hcreator owner howner
  obtain ⟨file', hfile', rfl⟩ := hcreator other hother
  rw [Option.mem_unique hfile hfile']

theorem Held.releasesOwn (h : Held s) : s.ReleasesOwn := by
  intro owner hpoint file hfile
  obtain ⟨file', hfile', hcreator⟩ := h.removing owner hpoint
  rwa [Option.mem_unique hfile hfile']

/-! ### Steps -/

theorem Held.elapse (h : Held s) (ms : ℕ) : Held { s with now := s.now + ms } where
  content := h.content
  past := fun file hfile ↦ (h.past file hfile).trans (Nat.le_add_right _ _)
  taken := h.taken
  removing := h.removing

variable [DecidableEq Owner]

@[simp] theorem goes_now : (s.goes owner point).now = s.now := rfl

@[simp] theorem goes_file : (s.goes owner point).file = s.file := rfl

@[simp] theorem goes_point_self : (s.goes owner point).point owner = point :=
  Function.update_self ..

theorem goes_point_of_ne (h : other ≠ owner) : (s.goes owner point).point other = s.point other :=
  Function.update_of_ne h ..

/-- A call goes on without a lock, and the file stays. -/
theorem Held.goes (h : Held s) (htaken : point.takenAt = none) (hremoving : point ≠ .removing) :
    Held (s.goes owner point) where
  content := h.content
  past := h.past
  taken := by
    intro other takenAt hother
    by_cases heq : other = owner
    · subst heq
      rw [goes_point_self, htaken] at hother
      exact nomatch hother
    · rw [goes_point_of_ne heq] at hother
      exact h.taken other takenAt hother
  removing := by
    intro other hother
    by_cases heq : other = owner
    · subst heq
      rw [goes_point_self] at hother
      exact absurd hother hremoving
    · rw [goes_point_of_ne heq] at hother
      exact h.removing other hother

/-- With no file at the path no call holds a lock. -/
theorem Held.create (h : Held s) (hfile : s.file = none) :
    Held ({ s with file := some ⟨owner, none, s.now⟩ }.goes owner (.writing s.now)) where
  content := by
    rintro _ ⟨⟩ _ ⟨⟩
  past := by
    rintro _ ⟨⟩
    exact le_rfl
  taken := by
    intro other takenAt hother
    by_cases heq : other = owner
    · subst heq
      rw [goes_point_self] at hother
      cases hother
      exact ⟨_, rfl, rfl, le_rfl⟩
    · rw [goes_point_of_ne heq] at hother
      obtain ⟨file, hmem, -⟩ := h.taken other takenAt hother
      rw [hfile] at hmem
      exact nomatch hmem
  removing := by
    intro other hother
    by_cases heq : other = owner
    · subst heq
      rw [goes_point_self] at hother
      exact nomatch hother
    · rw [goes_point_of_ne heq] at hother
      obtain ⟨file, hmem, -⟩ := h.removing other hother
      rw [hfile] at hmem
      exact nomatch hmem

/-- A holder writes its token into the file it created. -/
theorem Held.write (h : Held s) (hpoint : s.point owner = .writing takenAt) :
    Held ((s.writeOwner owner).goes owner (.working takenAt)) := by
  obtain ⟨file, hfile, hcreator, hle⟩ := h.taken owner takenAt (by rw [hpoint]; rfl)
  have hwritten : (s.writeOwner owner).file = some ⟨owner, some owner, s.now⟩ := by
    rw [State.writeOwner, Option.mem_def.mp hfile, Option.map_some, if_pos hcreator, hcreator]
  have hothers : ∀ other, (∃ file ∈ s.file, file.creator = other) → other = owner := by
    rintro other ⟨file', hfile', rfl⟩
    rw [Option.mem_unique hfile' hfile, hcreator]
  constructor
  · intro file' hfile' owner' howner'
    rw [goes_file, hwritten] at hfile'
    cases hfile'
    exact Option.some.inj howner'
  · intro file' hfile'
    rw [goes_file, hwritten] at hfile'
    cases hfile'
    exact le_rfl
  · intro other takenAt' hother
    by_cases heq : other = owner
    · subst heq
      rw [goes_point_self] at hother
      cases hother
      exact ⟨_, hwritten, rfl, hle.trans (h.past file hfile)⟩
    · rw [goes_point_of_ne heq] at hother
      obtain ⟨file', hfile', hcreator', -⟩ := h.taken other takenAt' hother
      exact absurd (hothers other ⟨file', hfile', hcreator'⟩) heq
  · intro other hother
    by_cases heq : other = owner
    · subst heq
      rw [goes_point_self] at hother
      exact nomatch hother
    · rw [goes_point_of_ne heq] at hother
      exact absurd (hothers other (h.removing other hother)) heq

/-- A call that read its own token back is about to delete its own file. -/
theorem Held.readBack (h : Held s) (hread : ∃ file ∈ s.file, file.content = some owner) :
    Held (s.goes owner .removing) where
  content := h.content
  past := h.past
  taken := by
    intro other takenAt hother
    by_cases heq : other = owner
    · subst heq
      rw [goes_point_self] at hother
      exact nomatch hother
    · rw [goes_point_of_ne heq] at hother
      exact h.taken other takenAt hother
  removing := by
    intro other hother
    by_cases heq : other = owner
    · subst heq
      obtain ⟨file, hfile, hcontent⟩ := hread
      exact ⟨file, hfile, h.content file hfile other hcontent⟩
    · rw [goes_point_of_ne heq] at hother
      exact h.removing other hother

/-- The file leaves the path, and it was of no other call that holds or deletes one. -/
theorem Held.unlink (h : Held s) (htaken : point.takenAt = none) (hremoving : point ≠ .removing)
    (hfile : ∀ other, other ≠ owner → (∃ file ∈ s.file, file.creator = other) →
      (s.point other).takenAt = none ∧ s.point other ≠ .removing) :
    Held ({ s with file := none }.goes owner point) where
  content := nofun
  past := nofun
  taken := by
    intro other takenAt hother
    by_cases heq : other = owner
    · subst heq
      rw [goes_point_self, htaken] at hother
      exact nomatch hother
    · rw [goes_point_of_ne heq] at hother
      obtain ⟨file, hmem, hcreator, -⟩ := h.taken other takenAt hother
      rw [(hfile other heq ⟨file, hmem, hcreator⟩).1] at hother
      exact nomatch hother
  removing := by
    intro other hother
    by_cases heq : other = owner
    · subst heq
      rw [goes_point_self] at hother
      exact absurd hother hremoving
    · rw [goes_point_of_ne heq] at hother
      exact absurd hother (hfile other heq (h.removing other hother)).2

/-- A dead lock is moved aside. -/
theorem Held.move (h : Held s) (hpunctual : s.Punctual options)
    (hdead : ∀ file ∈ s.file, file.isStale options s.now ∧ s.point file.creator ≠ .removing) :
    Held ({ s with file := none }.goes owner (.clearing deadline)) := by
  refine h.unlink rfl nofun fun other _ ⟨file, hfile, hcreator⟩ ↦ ?_
  obtain ⟨hstale, hremoving⟩ := hdead file hfile
  rw [hcreator] at hremoving
  refine ⟨Option.eq_none_iff_forall_not_mem.mpr fun takenAt htaken ↦ ?_, hremoving⟩
  have hnow : s.now ≤ takenAt + options.staleMs := hpunctual other takenAt htaken
  obtain ⟨file', hfile', -, hle⟩ := h.taken other takenAt htaken
  rw [Option.mem_unique hfile' hfile] at hle
  unfold LockFile.isStale at hstale
  omega

theorem Held.release (h : Held s) (hpoint : s.point owner = .removing) :
    Held ({ s with file := none }.goes owner .gone) := by
  refine h.unlink rfl nofun fun other hne ⟨file, hfile, hcreator⟩ ↦ ?_
  exact absurd (hcreator.symm.trans (h.releasesOwn owner hpoint file hfile)) hne

/-- What a step of a call keeps. -/
theorem held_act (h : Held s) (hpunctual : s.Punctual options) (succeeds : Bool)
    (hmoves : MovesDead options s (.act owner succeeds)) :
    Held (s.act options owner succeeds) := by
  unfold State.act
  cases hpoint : s.point owner with
  | starting | working => exact h.goes rfl nofun
  | taking =>
    cases succeeds with
    | false => exact h.goes rfl nofun
    | true =>
      cases hfile : s.file with
      | none =>
        simp only [State.tryTake, hfile]
        exact h.create hfile
      | some =>
        simp only [State.tryTake, hfile]
        exact h.goes rfl nofun
  | writing =>
    cases succeeds with
    | false => exact h.goes rfl nofun
    | true => exact h.write hpoint
  | judging | judgingAgain | clearing | checking => dsimp only; split <;> exact h.goes rfl nofun
  | moving =>
    cases succeeds with
    | false => exact h.goes rfl nofun
    | true => exact h.move hpunctual (hmoves (by rw [hpoint]; rfl))
  | pausing =>
    dsimp only
    split
    · exact h.goes rfl nofun
    · exact h
  | reading =>
    dsimp only
    split
    next hread =>
      rw [Bool.and_eq_true, Option.any_eq_true] at hread
      obtain ⟨file, hfile, hcontent⟩ := hread.2
      exact h.readBack ⟨file, hfile, of_decide_eq_true hcontent⟩
    next => exact h.goes rfl nofun
  | removing =>
    cases succeeds with
    | false => exact h.goes rfl nofun
    | true => exact h.release hpoint
  | gone => exact h

/-- A step that moves aside only a stale file keeps what the file tells of the calls. -/
theorem held_step (h : Held s) (hpunctual : s.Punctual options) (e : Event Owner)
    (hmoves : MovesDead options s e) : Held (step options s e) := by
  cases e with
  | elapse ms => exact h.elapse ms
  | act _ succeeds => exact held_act h hpunctual succeeds hmoves
  | crash => exact h.goes rfl nofun

/-! ### Runs -/

theorem held_of_deadMoves (h : ReachableByDeadMoves options s) :
    Held s ∧ s.Punctual options := by
  refine Reached.invariant (I := fun s ↦ Held s ∧ s.Punctual options) h ⟨held_new, nofun⟩ ?_
  rintro s e ⟨hheld, hpunctual⟩ ⟨hmoves, hpunctual'⟩
  exact ⟨held_step hheld hpunctual e hmoves, hpunctual'⟩

/-- In a run of punctual holders whose every move is of a dead lock, at most one call is inside
the protected work, and a call deletes only a lock it took itself. -/
theorem excludes_of_deadMoves (h : ReachableByDeadMoves options s) :
    s.Exclusive ∧ s.ReleasesOwn :=
  ⟨(held_of_deadMoves h).1.exclusive, (held_of_deadMoves h).1.releasesOwn⟩

/-! ### Slow steps -/

/-- A call takes the lock and crashes, and its file grows stale. -/
def crashes (owner : Fin 3) : List (Event (Fin 3)) :=
  [.act owner true, .act owner true, .crash owner, .elapse 11]

/-- A call runs into the lock, finds it stale and is about to move it. -/
def judges (owner : Fin 3) : List (Event (Fin 3)) := List.replicate 4 (.act owner true)

/-- It moves what is there by now, waits a poll and takes the lock. -/
def movesAndTakes (owner : Fin 3) : List (Event (Fin 3)) :=
  List.replicate 3 (.act owner true) ++ .elapse 1 :: List.replicate 3 (.act owner true)

/-- A call takes the lock, works, reads its own token back and is slow to delete the file. -/
def readsBack (owner : Fin 3) : List (Event (Fin 3)) :=
  List.replicate 5 (.act owner true) ++ [.elapse 11]

/-- Of two calls that found a dead lock stale, the slower moves away what the faster has taken,
and both are inside.  A holder that was slow to delete its file deletes the lock of another. -/
theorem slow_steps_break_the_lock :
    (∃ s : State (Fin 3), Reachable ⟨10, 100, 1⟩ s ∧ ¬s.Exclusive) ∧
      ∃ s : State (Fin 3), Reachable ⟨10, 100, 1⟩ s ∧ ¬s.ReleasesOwn := by
  constructor
  · refine ⟨_, reached_foldl
      (crashes 0 ++ judges 1 ++ judges 2 ++ movesAndTakes 2 ++ movesAndTakes 1)
      (by decide), fun hexclusive ↦ ?_⟩
    exact absurd (hexclusive 1 2 (by decide) (by decide)) (by decide)
  · refine ⟨_, reached_foldl (readsBack 0 ++ judges 1 ++ movesAndTakes 1) (by decide),
      fun hreleases ↦ ?_⟩
    have hown := hreleases 0 (by decide) ⟨1, some 1, 12⟩ (by decide)
    exact absurd hown (by decide)

/-- A call moves the lock of a crashed one and takes it. -/
theorem excludes_of_deadMoves_stolen :
    ((crashes 0 ++ judges 2 ++ movesAndTakes 2).foldl (step ⟨10, 100, 1⟩) .new).Exclusive ∧
      ((crashes 0 ++ judges 2 ++ movesAndTakes 2).foldl (step ⟨10, 100, 1⟩) .new).ReleasesOwn :=
  have hrun : ReachableByDeadMoves ⟨10, 100, 1⟩
      ((crashes 0 ++ judges 2 ++ movesAndTakes 2).foldl (step ⟨10, 100, 1⟩) .new) :=
    reached_foldl _ (by decide)
  excludes_of_deadMoves hrun

end Odudu.Mcp.FileLock
