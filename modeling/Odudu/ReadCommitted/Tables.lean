import Odudu.ReadCommitted.Store

/-!
# Tables

Rows kept in tables, and what the statements of a relational database write to them.  A
`Layout` gives each table its primary key and its row type; a cell holds the row of its
key, or nothing.  `update`, `insert` and `delete` are the writes of `UPDATE ... SET ...
WHERE ...`, of `INSERT` (which writes nothing when the key is taken) and of `DELETE ...
WHERE ...`, each atomic over the rows it sees.  `UPDATE` of a set of rows and `UPDATE` of
one row are the same statement with a different condition.

A statement here is judged by its own table: the lemmas `update_self`, `update_of_ne` and
their siblings are all that the proofs about it use.
-/

set_option autoImplicit false

namespace Odudu.ReadCommitted

/-- The tables of a database, their primary keys and their rows. -/
structure Layout where
  Table : Type
  /-- The primary key of a table. -/
  Id : Table → Type
  /-- A row of a table, its primary key apart. -/
  Row : Table → Type

namespace Layout

variable (L : Layout)

/-- The key of a row. -/
abbrev Key : Type := (table : L.Table) × L.Id table

/-- The rows: nothing where the key is free. -/
abbrev Rows : Type := (k : L.Key) → Option (L.Row k.1)

/-- What a statement writes: nothing written, a row removed, or a row put. -/
abbrev Change : Type := (k : L.Key) → Option (Option (L.Row k.1))

variable {L} [DecidableEq L.Table]

/-- A change confined to one table. -/
def onTable (table : L.Table) (change : (id : L.Id table) → Option (Option (L.Row table))) :
    L.Change :=
  fun k ↦ (Function.update (fun _ _ ↦ none) table change :
    (t : L.Table) → L.Id t → Option (Option (L.Row t))) k.1 k.2

@[simp] theorem onTable_self (table : L.Table)
    (change : (id : L.Id table) → Option (Option (L.Row table))) (id : L.Id table) :
    onTable table change ⟨table, id⟩ = change id := by
  simp [onTable]

@[simp] theorem onTable_of_ne {table table' : L.Table} (h : table' ≠ table)
    (change : (id : L.Id table) → Option (Option (L.Row table))) (id : L.Id table') :
    onTable table change ⟨table', id⟩ = none := by
  simp [onTable, Function.update_of_ne h]

/-- Two changes confined to a table are the same when they are on its rows. -/
theorem onTable_congr {table : L.Table}
    {change change' : (id : L.Id table) → Option (Option (L.Row table))}
    (h : ∀ id, change id = change' id) : onTable table change = onTable table change' :=
  congrArg (onTable table) (funext h)

/-- `UPDATE table SET ... WHERE ...`. -/
def update (table : L.Table) (wanted : L.Id table → L.Row table → Bool)
    (set : L.Row table → L.Row table) (rows : L.Rows) : L.Change :=
  onTable table fun id ↦
    match rows ⟨table, id⟩ with
    | none => none
    | some row => if wanted id row then some (some (set row)) else none

/-- `INSERT INTO table`, which writes nothing when the key is taken. -/
def insert (table : L.Table) [DecidableEq (L.Id table)] (id : L.Id table)
    (row : L.Row table) (rows : L.Rows) : L.Change :=
  onTable table fun id' ↦
    if id' = id then (if (rows ⟨table, id⟩).isSome then none else some (some row)) else none

/-- `DELETE FROM table WHERE ...`. -/
def delete (table : L.Table) (wanted : L.Id table → L.Row table → Bool)
    (rows : L.Rows) : L.Change :=
  onTable table fun id ↦
    match rows ⟨table, id⟩ with
    | none => none
    | some row => if wanted id row then some none else none

/-- One cell written. -/
def put (table : L.Table) [DecidableEq (L.Id table)] (id : L.Id table)
    (cell : Option (L.Row table)) : L.Change :=
  onTable table fun id' ↦ if id' = id then some cell else none

/-- `SELECT ... FOR UPDATE` of one row: the row is locked as it is. -/
def lock (table : L.Table) [DecidableEq (L.Id table)] (id : L.Id table) (rows : L.Rows) :
    L.Change :=
  update table (fun id' _ ↦ decide (id' = id)) (fun row ↦ row) rows

section Put

variable {table table' : L.Table} [DecidableEq (L.Id table)] {id id' : L.Id table}
  {cell : Option (L.Row table)}

@[simp] theorem put_self : put table id cell ⟨table, id⟩ = some cell := by
  simp [put]

@[simp] theorem put_other (h : id' ≠ id) : put table id cell ⟨table, id'⟩ = none := by
  simp [put, h]

@[simp] theorem put_of_ne (h : table' ≠ table) (other : L.Id table') :
    put table id cell ⟨table', other⟩ = none := by
  simp [put, h]

theorem put_of_key_ne {k : L.Key} (h : k ≠ ⟨table, id⟩) : put table id cell k = none := by
  obtain ⟨table', id'⟩ := k
  by_cases htable : table' = table
  · subst htable
    exact put_other fun hid ↦ h (hid ▸ rfl)
  · exact put_of_ne htable id'

end Put

section Update

variable {table table' : L.Table} {wanted : L.Id table → L.Row table → Bool}
  {set : L.Row table → L.Row table} {rows : L.Rows}

@[simp] theorem update_of_ne (h : table' ≠ table) (id : L.Id table') :
    update table wanted set rows ⟨table', id⟩ = none := by
  simp [update, h]

theorem update_of_none {id : L.Id table} (h : rows ⟨table, id⟩ = none) :
    update table wanted set rows ⟨table, id⟩ = none := by
  simp [update, h]

theorem update_of_wanted {id : L.Id table} {row : L.Row table}
    (h : rows ⟨table, id⟩ = some row) (hwanted : wanted id row = true) :
    update table wanted set rows ⟨table, id⟩ = some (some (set row)) := by
  simp [update, h, hwanted]

theorem update_of_unwanted {id : L.Id table} {row : L.Row table}
    (h : rows ⟨table, id⟩ = some row) (hunwanted : wanted id row = false) :
    update table wanted set rows ⟨table, id⟩ = none := by
  simp [update, h, hunwanted]

/-- What an `UPDATE` wrote it wrote to a row that was there and was wanted. -/
theorem update_eq_some {id : L.Id table} {written : Option (L.Row table)}
    (h : update table wanted set rows ⟨table, id⟩ = some written) :
    ∃ row, rows ⟨table, id⟩ = some row ∧ wanted id row = true ∧ written = some (set row) := by
  cases hrow : rows ⟨table, id⟩ with
  | none => simp [update_of_none hrow] at h
  | some row =>
    by_cases hwanted : wanted id row = true
    · rw [update_of_wanted hrow hwanted] at h
      exact ⟨row, rfl, hwanted, (Option.some.inj h).symm⟩
    · rw [update_of_unwanted hrow (by simpa using hwanted)] at h
      simp at h

/-- Rows that are locked are written as they are. -/
theorem eq_of_update_same {k : L.Key} {cell : Option (L.Row k.1)}
    (h : update table wanted (fun row ↦ row) rows k = some cell) : rows k = cell := by
  obtain ⟨table', id⟩ := k
  by_cases htable : table' = table
  · subst htable
    obtain ⟨row, hrow, -, rfl⟩ := update_eq_some h
    exact hrow
  · rw [update_of_ne htable] at h
    cases h

theorem update_eq_none (h : ∀ id row, rows ⟨table, id⟩ = some row → wanted id row = false) :
    update table wanted set rows = fun _ ↦ none := by
  funext ⟨table', id⟩
  by_cases htable : table' = table
  · subst htable
    cases hrow : rows ⟨table', id⟩ with
    | none => exact update_of_none hrow
    | some row => exact update_of_unwanted hrow (h id row hrow)
  · exact update_of_ne htable id

theorem update_eq_put [DecidableEq (L.Id table)] {id : L.Id table} {row : L.Row table}
    (hrow : rows ⟨table, id⟩ = some row) (hwanted : wanted id row = true)
    (honly : ∀ id' row', id' ≠ id → wanted id' row' = false) :
    update table wanted set rows = put table id (some (set row)) := by
  refine onTable_congr fun id' ↦ ?_
  by_cases hid : id' = id
  · subst hid
    simp [hrow, hwanted]
  · cases hrow' : rows ⟨table, id'⟩ with
    | none => simp [hid]
    | some row' => simp [hid, honly id' row' hid]

end Update

section Insert

variable {table table' : L.Table} [DecidableEq (L.Id table)] {id id' : L.Id table}
  {row : L.Row table} {rows : L.Rows}

@[simp] theorem insert_of_ne (h : table' ≠ table) (other : L.Id table') :
    insert table id row rows ⟨table', other⟩ = none := by
  simp [insert, h]

@[simp] theorem insert_other (h : id' ≠ id) : insert table id row rows ⟨table, id'⟩ = none := by
  simp [insert, h]

/-- An `INSERT` of a free key puts the row. -/
theorem insert_eq_put (h : rows ⟨table, id⟩ = none) :
    insert table id row rows = put table id (some row) := by
  simp [insert, put, h]

theorem insert_eq_none {taken : L.Row table} (h : rows ⟨table, id⟩ = some taken) :
    insert table id row rows = fun _ ↦ none := by
  funext ⟨table', id'⟩
  by_cases htable : table' = table
  · subst htable
    simp [insert, h]
  · exact insert_of_ne htable id'

theorem insert_of_free (h : rows ⟨table, id⟩ = none) :
    insert table id row rows ⟨table, id⟩ = some (some row) := by
  simp [insert, h]

theorem insert_of_taken {taken : L.Row table} (h : rows ⟨table, id⟩ = some taken) :
    insert table id row rows ⟨table, id⟩ = none := by
  simp [insert, h]

/-- What an `INSERT` writes is its row. -/
theorem insert_eq_some {written : Option (L.Row table)}
    (h : insert table id row rows ⟨table, id'⟩ = some written) :
    id' = id ∧ written = some row := by
  by_cases hid : id' = id
  · subst hid
    cases hrow : rows ⟨table, id'⟩ with
    | none =>
      rw [insert_of_free hrow] at h
      exact ⟨rfl, (Option.some.inj h).symm⟩
    | some =>
      rw [insert_of_taken hrow] at h
      exact nomatch h
  · rw [insert_other hid] at h
    exact nomatch h

end Insert

section Delete

variable {table table' : L.Table} {wanted : L.Id table → L.Row table → Bool} {rows : L.Rows}

@[simp] theorem delete_of_ne (h : table' ≠ table) (id : L.Id table') :
    delete table wanted rows ⟨table', id⟩ = none := by
  simp [delete, h]

/-- A `DELETE` writes only removals, of rows that were there and were wanted. -/
theorem delete_eq_some {id : L.Id table} {written : Option (L.Row table)}
    (h : delete table wanted rows ⟨table, id⟩ = some written) :
    written = none ∧ ∃ row, rows ⟨table, id⟩ = some row ∧ wanted id row = true := by
  cases hrow : rows ⟨table, id⟩ with
  | none => simp [delete, hrow] at h
  | some row =>
    by_cases hwanted : wanted id row = true
    · simp only [delete, onTable_self, hrow, hwanted, if_true, Option.some.injEq] at h
      exact ⟨h.symm, row, rfl, hwanted⟩
    · simp [delete, hrow, hwanted] at h

end Delete

end Layout

end Odudu.ReadCommitted
