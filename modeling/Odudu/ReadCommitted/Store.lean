import Mathlib.Logic.Function.Basic

/-!
# Rows, statements and pending writes

A database as a transaction at READ COMMITTED meets it.  A store assigns a cell to
every row key; a statement is an atomic question to the rows it sees, with the answers
it may give and an effect.  A transaction sees its own pending writes laid over whatever is
committed when the statement runs, which is what `Writes.laidOver` says.  Holding a
pending write on a row is holding the row's lock, so two transactions never hold
writes on one row at once; `Writes.Apart` is that exclusion.

`SELECT ... FOR UPDATE` is a write of the cell the statement saw, and an advisory
lock is a row of its own whose cell carries nothing.

Scope: shared locks, deadlock detection and predicate locks are absent.  Leaving out
a shared lock only adds interleavings.
-/

set_option autoImplicit false

namespace Odudu.ReadCommitted

/-- A database: its rows, the statements that may be run on it, and what each
statement may answer and writes, given the rows it sees. -/
structure Database where
  /-- The key of a row, its table included. -/
  Key : Type
  /-- What a row of that key holds. -/
  Cell : Key → Type
  /-- A statement with its parameters bound. -/
  Op : Type
  /-- What a statement returns. -/
  Answer : Op → Type
  /-- What a statement may answer on the rows it sees. -/
  Answers : (op : Op) → ((k : Key) → Cell k) → Answer op → Prop
  /-- The rows a statement writes, given the rows it sees. -/
  effect : Op → ((k : Key) → Cell k) → (k : Key) → Option (Cell k)

/-- The committed rows. -/
abbrev Store (db : Database) : Type := (k : db.Key) → db.Cell k

/-- The rows a transaction has written and not committed. -/
abbrev Writes (db : Database) : Type := (k : db.Key) → Option (db.Cell k)

namespace Writes

variable {db : Database}

/-- No write at all. -/
def nothing : Writes db := fun _ ↦ none

/-- The rows a transaction sees: its own writes over the committed rows. -/
def laidOver (w : Writes db) (s : Store db) : Store db := fun k ↦ (w k).getD (s k)

/-- The pending writes after a further statement. -/
def andThen (w later : Writes db) : Writes db := fun k ↦ (later k).or (w k)

/-- The pending writes after a rollback to a savepoint: what was saved, on rows that are
still locked. -/
def restore (saved w : Writes db) : Writes db := fun k ↦ (w k).bind fun _ ↦ saved k

/-- All that was locked when the writes were saved is locked. -/
def Within (saved w : Writes db) : Prop := ∀ k, w k = none → saved k = none

theorem Within.refl (w : Writes db) : w.Within w := fun _ hk ↦ hk

/-- A rollback of writes that only grew since they were saved. -/
theorem Within.restore_eq {saved w : Writes db} (h : saved.Within w) : restore saved w = saved := by
  funext k
  cases hk : w k with
  | none => simp [restore, hk, h k hk]
  | some => simp [restore, hk]

/-- A rollback to before the first write. -/
theorem restore_nothing_laidOver (w : Writes db) (s : Store db) :
    (restore nothing w).laidOver s = s := by
  funext k
  cases hk : w k <;> simp [restore, laidOver, nothing, hk]

/-- No row is written by both. -/
def Apart (w w' : Writes db) : Prop := ∀ k, w k = none ∨ w' k = none

@[simp] theorem nothing_apply (k : db.Key) : (nothing : Writes db) k = none := rfl

@[simp] theorem nothing_laidOver (s : Store db) : (nothing : Writes db).laidOver s = s := rfl

theorem laidOver_of_none {w : Writes db} {k : db.Key} (h : w k = none) (s : Store db) :
    w.laidOver s k = s k := by
  simp [laidOver, h]

theorem laidOver_of_some {w : Writes db} {k : db.Key} {v : db.Cell k} (h : w k = some v)
    (s : Store db) : w.laidOver s k = v := by
  simp [laidOver, h]

theorem andThen_of_some {w later : Writes db} {k : db.Key} {v : db.Cell k}
    (h : later k = some v) : w.andThen later k = some v := by
  simp [andThen, h]

theorem andThen_of_none {w later : Writes db} {k : db.Key} (h : later k = none) :
    w.andThen later k = w k := by
  simp [andThen, h]

@[simp] theorem nothing_andThen (w : Writes db) : nothing.andThen w = w := by
  funext k
  simp [andThen]

@[simp] theorem andThen_nothing (w : Writes db) : w.andThen nothing = w := by
  funext k
  simp [andThen]

theorem andThen_eq_none {w later : Writes db} {k : db.Key} :
    w.andThen later k = none ↔ w k = none ∧ later k = none := by
  simp only [andThen, Option.or_eq_none_iff]
  exact and_comm

/-- A further statement's writes are seen over the earlier ones. -/
theorem andThen_laidOver (w later : Writes db) (s : Store db) :
    (w.andThen later).laidOver s = later.laidOver (w.laidOver s) := by
  funext k
  cases hlater : later k <;> simp [laidOver, andThen, hlater]

theorem Apart.symm {w w' : Writes db} (h : w.Apart w') : w'.Apart w :=
  fun k ↦ (h k).symm

theorem nothing_apart (w : Writes db) : nothing.Apart w := fun _ ↦ Or.inl rfl

theorem apart_nothing (w : Writes db) : w.Apart nothing := fun _ ↦ Or.inr rfl

theorem Apart.andThen {w later w' : Writes db} (hw : w.Apart w') (hlater : later.Apart w') :
    (w.andThen later).Apart w' := by
  intro k
  rcases hw k with hnone | hnone
  · rcases hlater k with hnone' | hnone'
    · exact Or.inl (andThen_eq_none.mpr ⟨hnone, hnone'⟩)
    · exact Or.inr hnone'
  · exact Or.inr hnone

theorem Apart.restore {saved w w' : Writes db} (h : w.Apart w') : (restore saved w).Apart w' := by
  intro k
  rcases h k with hnone | hnone
  · exact Or.inl (by simp [Writes.restore, hnone])
  · exact Or.inr hnone

theorem Within.andThen {saved w : Writes db} (h : saved.Within w) (later : Writes db) :
    saved.Within (w.andThen later) :=
  fun k hk ↦ h k (andThen_eq_none.mp hk).1

theorem Within.apart {saved w w' : Writes db} (h : saved.Within w) (hapart : w'.Apart w) :
    w'.Apart saved :=
  fun k ↦ (hapart k).imp_right (h k)

/-- Writes of other rows are seen alike in either order. -/
theorem Apart.laidOver_comm {w w' : Writes db} (h : w'.Apart w) (s : Store db) :
    w.laidOver (w'.laidOver s) = w'.laidOver (w.laidOver s) := by
  funext k
  rcases h k with hk | hk
  · rw [laidOver_of_none hk]
    cases hw : w k with
    | none => rw [laidOver_of_none hw, laidOver_of_none hw, laidOver_of_none hk]
    | some => rw [laidOver_of_some hw, laidOver_of_some hw]
  · rw [laidOver_of_none hk]
    cases hw' : w' k with
    | none => rw [laidOver_of_none hw', laidOver_of_none hw', laidOver_of_none hk]
    | some => rw [laidOver_of_some hw', laidOver_of_some hw']

/-- A commit that holds no lock on a row leaves it as it was. -/
theorem Apart.laidOver_eq {w w' : Writes db} (h : w.Apart w') {k : db.Key} {v : db.Cell k}
    (hlocked : w' k = some v) (s : Store db) : w.laidOver s k = s k := by
  rcases h k with hnone | hnone
  · exact laidOver_of_none hnone s
  · simp [hlocked] at hnone

/-- Rows that are locked, and none changed, are so still when another has committed. -/
theorem Apart.laidOver_same {w w' : Writes db} (h : w'.Apart w) {s : Store db}
    (hsame : w.laidOver s = s) : w.laidOver (w'.laidOver s) = w'.laidOver s := by
  funext k
  cases hk : w k with
  | none => exact laidOver_of_none hk _
  | some =>
    rw [laidOver_of_some hk, h.laidOver_eq hk]
    exact (laidOver_of_some hk s).symm.trans (congrFun hsame k)

theorem laidOver_same {w : Writes db} {s : Store db} (h : ∀ k v, w k = some v → s k = v) :
    w.laidOver s = s := by
  funext k
  cases hk : w k with
  | none => exact laidOver_of_none hk s
  | some v => exact (laidOver_of_some hk s).trans (h k v hk).symm

end Writes

end Odudu.ReadCommitted
