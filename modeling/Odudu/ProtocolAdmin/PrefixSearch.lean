import Odudu.Listings.StartsWith
import Odudu.ProtocolAdmin.RecentPage
import Odudu.Texts.Unicode
import Mathlib.Data.String.Basic

/-!
# Search by how a name starts

`service/list-query.ts`, `usecase/prefix-search.ts`, `service/in-order.ts` and the listing of
client scopes (`usecase/scopes.ts`): the names that start with a text, folded by the database,
as one range of the folded column, in pages by (folded name, id).

The application's strings are of UTF-16 units and those of the database of characters, in
code-point order.  The database's `lower()` is a parameter, the same for both sides.  The text a
cursor is packed into is left out, and so is what a listing makes of its rows for the wire.
-/

set_option autoImplicit false

namespace Odudu.ProtocolAdmin.PrefixSearch

open Listings Texts
open RecentPage (Uuid Filters)

def MAX_CODE_POINT : ℕ := 0x10ffff

def SURROGATE_FIRST : ℕ := 0xd800

def SURROGATE_LAST : ℕ := 0xdfff

/-- `String.fromCodePoint` of one code point. -/
def fromCodePoint (point : ℕ) : Utf16 :=
  if point < 0x10000 then [UInt16.ofNat point]
  else [UInt16.ofNat (0xD800 + (point - 0x10000) / 0x400),
    UInt16.ofNat (0xDC00 + (point - 0x10000) % 0x400)]

def nextPoint (last : ℕ) : ℕ := if last + 1 = SURROGATE_FIRST then SURROGATE_LAST + 1 else last + 1

/-- The code points of the bound, of those of the folded text. -/
def boundPoints (points : List ℕ) : Option (List ℕ) :=
  let kept := points.rdropWhile fun point ↦ point = MAX_CODE_POINT
  kept.getLast?.map fun last ↦ kept.dropLast ++ [nextPoint last]

def prefixUpperBound (folded : Utf16) : Option Utf16 :=
  (boundPoints ((codePoints folded).map CodePoint.value)).map fun points ↦
    points.flatMap fromCodePoint

/-- The last row a searched page returned: its id and its search key. -/
structure SearchPosition where
  id : Uuid
  sort : Utf16

/-- Where a listing resumes: the last row's id, and its search key when searched. -/
structure ListPosition where
  id : Uuid
  sort : Option Utf16

/-- A row of `client_scopes`. -/
structure ScopeRow where
  id : Uuid
  name : String

/-- The rows of `client_scopes`, whose primary key is the id. -/
structure ScopesTable where
  rows : List ScopeRow
  ids_nodup : (rows.map ScopeRow.id).Nodup

variable (lower : String → String)

/-- The stored column `name_search`. -/
def ScopeRow.nameSearch (row : ScopeRow) : String := lower row.name

/-- What a text is once it is sent to the database, folded there and read back. -/
def foldedByDatabase (asked : Utf16) : Utf16 := unitsOf (lower (usvString asked))

/-- The rows whose key starts with the text, past a position in (key, id) order. -/
def prefixRangeConditions (asked : Utf16) (after : Option SearchPosition) (row : ScopeRow) : Bool :=
  decide (lower (usvString asked) ≤ row.nameSearch lower) &&
    (prefixUpperBound (foldedByDatabase lower asked)).all (fun upper ↦
      decide (row.nameSearch lower < usvString upper)) &&
    after.all fun after ↦
      decide (toLex (usvString after.sort, after.id) < toLex (row.nameSearch lower, row.id))

/-- The WHERE clause of the listing. -/
def scopeListConditions (name : Option Utf16) (after : Option ListPosition) (row : ScopeRow) :
    Bool :=
  match name with
  | none => after.all fun after ↦ decide (after.id < row.id)
  | some asked =>
    prefixRangeConditions lower asked
      (after.bind fun after ↦ after.sort.map fun sort ↦ ⟨after.id, sort⟩) row

/-! ### Pages -/

/-- `rows` in the order of `keys`; a key with no row is left out. -/
def inOrderOf {R K : Type} [DecidableEq K] (keys : List K) (rows : List R) (keyOf : R → K) :
    List R :=
  keys.filterMap fun key ↦ rows.reverse.find? fun row ↦ keyOf row = key

/-- How many times a page is read again because a row vanished under it. -/
def ATTEMPTS : ℕ := 5

/-- A page read as its keys, then its rows by key, from what each attempt finds. -/
def readKeyedPage {R K : Type} [DecidableEq K] (readKeys : ℕ → List K)
    (readRows : ℕ → List K → List R) (keyOf : R → K) : ℕ → List R → List R
  | 0, page => page
  | left + 1, _ =>
    let attempt := ATTEMPTS - (left + 1)
    let keys := readKeys attempt
    if keys = [] then []
    else
      let page := inOrderOf keys (readRows attempt keys) keyOf
      if page.length = keys.length then page
      else readKeyedPage readKeys readRows keyOf left page

structure CursorPayload where
  after : Uuid
  sort : Option Utf16
  collection : String
  tenantId : String
  filters : String

structure Cursor (Tag : Type) where
  payload : CursorPayload
  tag : Tag

/-- The keyed hash over a payload, and the digest of the filters of a list. -/
structure Sealing (Key Tag : Type) where
  tag : Key → CursorPayload → Tag
  filterDigest : Option Utf16 → String

/-- The limit is one the query schema lets by. -/
structure ListScopesInput (Key Tag : Type) where
  limit : ℕ
  limit_pos : 0 < limit
  cursor : Option (Cursor Tag)
  cursorKey : Key
  tenantId : String
  name : Option Utf16

inductive ListScopesOutcome (Tag : Type) where
  | invalidCursor
  | ok (items : List ScopeRow) (next : Option (Cursor Tag))

/-- What following a listing sees of a page. -/
def ListScopesOutcome.page {Tag : Type} :
    ListScopesOutcome Tag → Option (List ScopeRow × Option (Cursor Tag))
  | invalidCursor => none
  | ok items next => some (items, next)

def COLLECTION : String := "scopes"

variable {Key Tag : Type} [DecidableEq Tag] (sealing : Sealing Key Tag)

def encodeCursor (key : Key) (payload : CursorPayload) : Cursor Tag :=
  ⟨payload, sealing.tag key payload⟩

def decodeCursor (key : Key) (collection tenantId filters : String) (raw : Cursor Tag) :
    Option ListPosition :=
  if raw.tag ≠ sealing.tag key raw.payload then none
  else if raw.payload.collection ≠ collection || raw.payload.tenantId ≠ tenantId ||
      raw.payload.filters ≠ filters then none
  else some ⟨raw.payload.after, raw.payload.sort⟩

/-- Where a request resumes, if its cursor is one of this listing's. -/
def resumeAfter (input : ListScopesInput Key Tag) : Option (Option ListPosition) :=
  match input.cursor with
  | none => some none
  | some raw =>
    match decodeCursor sealing input.cursorKey COLLECTION input.tenantId
        (sealing.filterDigest input.name) raw with
    | none => none
    | some decoded =>
      if input.name.isSome && decoded.sort.isNone then none else some (some decoded)

/-- The order of a searched listing. -/
def searchOrder (row : ScopeRow) : String ×ₗ Uuid := toLex (row.nameSearch lower, row.id)

/-- The rows that are fetched, one past the limit at most. -/
def fetchScopes (input : ListScopesInput Key Tag) (after : Option ListPosition)
    (table : ScopesTable) : List ScopeRow :=
  let wanted := table.rows.filter (scopeListConditions lower input.name after)
  match input.name with
  | none => (ascending ScopeRow.id wanted).take (input.limit + 1)
  | some _ =>
    readKeyedPage
      (fun _ ↦ ((ascending (searchOrder lower) wanted).take (input.limit + 1)).map ScopeRow.id)
      (fun _ ids ↦ table.rows.filter fun row ↦ row.id ∈ ids) ScopeRow.id ATTEMPTS []

def listScopes (input : ListScopesInput Key Tag) (table : ScopesTable) : ListScopesOutcome Tag :=
  match resumeAfter sealing input with
  | none => .invalidCursor
  | some after =>
    let rows := fetchScopes lower input after table
    let page := rows.take input.limit
    .ok page <|
      if input.limit < rows.length then
        page.getLast?.map fun last ↦
          encodeCursor sealing input.cursorKey
            { after := last.id
              sort := input.name.map fun _ ↦ unitsOf (last.nameSearch lower)
              collection := COLLECTION
              tenantId := input.tenantId
              filters := sealing.filterDigest input.name }
      else none

end Odudu.ProtocolAdmin.PrefixSearch
