import Odudu.Texts.Ascii

/-!
# Slots of a page template

`slots.ts` and `page-kinds.ts` of the kernel.  A slot of a template is `{{part.name}}` or
`{{t "catalogue.key"}}`; any other pair of braces is a malformed one.  `fillTemplate` puts a
part, or a text of the catalogue that is escaped, in the place of each slot, and never reads
what it put there again: what it makes is the pieces of the template, which are there before
any part is (`fillTemplate_eq`).
-/

set_option autoImplicit false

namespace Odudu.DomainTheme.Templates

open Texts

def MAX_TEMPLATE_LENGTH : ℕ := 65536

def MAX_SLOT_NAME_LENGTH : ℕ := 64

inductive SlotKind where
  | part
  | text
  | malformed
  deriving DecidableEq

structure Slot where
  kind : SlotKind
  name : Utf16
  index : ℕ
  «end» : ℕ

/-! ### The scanner -/

def isNameUnit (u : UInt16) : Bool := isLetterUnit u || isDigitUnit u

def DOT : UInt16 := 0x2E

/-- How many units go on with a name: a dot goes on with it where a letter follows. -/
def restOfName : Utf16 → ℕ
  | [] => 0
  | u :: rest =>
    if isNameUnit u then 1 + restOfName rest
    else if u = DOT ∧ rest.head?.any isLetterUnit then 1 + restOfName rest
    else 0

/-- The length of the name at the head of a text.  No shorter one can have a brace or a quotation
mark behind it, so the pattern does not have to look for one. -/
def nameLength : Utf16 → Option ℕ
  | [] => none
  | u :: rest => if isLetterUnit u then some (1 + restOfName rest) else none

def OPEN : Utf16 := ofAscii "\x7b\x7b"

def CLOSE : Utf16 := ofAscii "\x7d\x7d"

/-- The name between what opens and what closes it. -/
def nameBetween (opening closing text : Utf16) : Option Utf16 :=
  if opening.isPrefixOf text then
    match nameLength (text.drop opening.length) with
    | none => none
    | some length =>
      if closing.isPrefixOf (text.drop (opening.length + length)) then
        some ((text.drop opening.length).take length)
      else none
  else none

/-- `TOKEN`, at the head of a text: the group that matched with its name, if one did, and the length
of the match. -/
def token (text : Utf16) : Option (Option (SlotKind × Utf16) × ℕ) :=
  match nameBetween OPEN CLOSE text with
  | some name => some (some (.part, name), name.length + 4)
  | none =>
    match nameBetween (OPEN ++ ofAscii "t \"") (ofAscii "\"" ++ CLOSE) text with
    | some name => some (some (.text, name), name.length + 8)
    | none => if OPEN.isPrefixOf text || CLOSE.isPrefixOf text then some (none, 2) else none

/-- The slot of a match. -/
def slotAt (index length : ℕ) : Option (SlotKind × Utf16) → Slot
  | none => ⟨.malformed, [], index, index + length⟩
  | some (kind, name) =>
    if name.length > MAX_SLOT_NAME_LENGTH then ⟨.malformed, [], index, index + length⟩
    else ⟨kind, name, index, index + length⟩

/-- The matches in a text from an index on, of which so many units are of the last match. -/
def scanFrom (index skip : ℕ) : Utf16 → List Slot
  | [] => []
  | u :: rest =>
    if skip > 0 then scanFrom (index + 1) (skip - 1) rest
    else
      match token (u :: rest) with
      | none => scanFrom (index + 1) 0 rest
      | some (group, length) => slotAt index length group :: scanFrom (index + 1) (length - 1) rest

def scanSlots (template : Utf16) : List Slot := scanFrom 0 0 template

/-! ### Filling -/

def replaceAll (unit : UInt16) (replacement text : Utf16) : Utf16 :=
  text.flatMap fun u ↦ if u = unit then replacement else [u]

def escapeText (value : Utf16) : Utf16 :=
  replaceAll 0x60 (ofAscii "&#96;") <| replaceAll 0x27 (ofAscii "&#39;") <|
    replaceAll 0x22 (ofAscii "&quot;") <| replaceAll 0x3E (ofAscii "&gt;") <|
      replaceAll 0x3C (ofAscii "&lt;") <| replaceAll 0x26 (ofAscii "&amp;") value

/-- `text.slice(from, to)` -/
def slice (text : Utf16) (start stop : ℕ) : Utf16 := (text.drop start).take (stop - start)

section Fill

variable (template : Utf16) (parts : Utf16 → Option Utf16) (t : Utf16 → Except Utf16 Utf16)

/-- The loop of `fillTemplate`; an error is its message. -/
def fillFrom (start : ℕ) (out : Utf16) : List Slot → Except Utf16 Utf16
  | [] => .ok (out ++ template.drop start)
  | slot :: slots =>
    let out := out ++ slice template start slot.index
    match slot.kind with
    | .malformed => .error (ofAscii "malformed slot at " ++ decimal slot.index)
    | .text =>
      match t slot.name with
      | .error message => .error message
      | .ok text => fillFrom slot.end (out ++ escapeText text) slots
    | .part =>
      match parts slot.name with
      | none => .error (ofAscii "unknown slot " ++ slot.name)
      | some part => fillFrom slot.end (out ++ part) slots

def fillTemplate : Except Utf16 Utf16 :=
  if template.length > MAX_TEMPLATE_LENGTH then
    .error (ofAscii "template too long: " ++ decimal template.length ++ ofAscii " characters")
  else fillFrom template parts t 0 [] (scanSlots template)

end Fill

/-! ### Pieces -/

/-- What a template is made of. -/
inductive Piece where
  | literal (text : Utf16)
  | part (name : Utf16)
  | message (key : Utf16)
  | malformed

def Slot.piece (slot : Slot) : Piece :=
  match slot.kind with
  | .part => .part slot.name
  | .text => .message slot.name
  | .malformed => .malformed

def piecesFrom (template : Utf16) (start : ℕ) : List Slot → List Piece
  | [] => [.literal (template.drop start)]
  | slot :: slots =>
    .literal (slice template start slot.index) :: slot.piece :: piecesFrom template slot.end slots

/-- The pieces of a template: what lies between the slots, and the slots. -/
def pieces (template : Utf16) : List Piece := piecesFrom template 0 (scanSlots template)

/-- What is put in the place of a piece: a part as it is, a message escaped. -/
def Piece.render (parts : Utf16 → Option Utf16) (t : Utf16 → Except Utf16 Utf16) : Piece → Utf16
  | literal text => text
  | part name => (parts name).getD []
  | message key =>
    match t key with
    | .error _ => []
    | .ok text => escapeText text
  | malformed => []

def Piece.part? : Piece → Option Utf16
  | part name => some name
  | _ => none

/-- The parts in their order. -/
def partsIn (pieces : List Piece) : List Utf16 := pieces.filterMap Piece.part?

/-- A slot that can be filled. -/
def Fillable (parts : Utf16 → Option Utf16) (t : Utf16 → Except Utf16 Utf16) (slot : Slot) : Prop :=
  match slot.kind with
  | .malformed => False
  | .part => ∃ part, parts slot.name = some part
  | .text => ∃ text, t slot.name = .ok text

section Filled

variable {template : Utf16} {parts : Utf16 → Option Utf16} {t : Utf16 → Except Utf16 Utf16}
  {slots : List Slot}

theorem fillFrom_eq (h : ∀ slot ∈ slots, Fillable parts t slot) (start : ℕ) (out : Utf16) :
    fillFrom template parts t start out slots =
      .ok (out ++ (piecesFrom template start slots).flatMap (Piece.render parts t)) := by
  induction slots generalizing start out with
  | nil => simp [fillFrom, piecesFrom, Piece.render]
  | cons slot _ ih =>
    have hrest := ih fun other hother ↦ h other (List.mem_cons_of_mem _ hother)
    have hslot := h slot List.mem_cons_self
    rw [fillFrom, piecesFrom]
    unfold Fillable at hslot
    cases hkind : slot.kind with
    | malformed => simp [hkind] at hslot
    | part =>
      simp only [hkind] at hslot ⊢
      obtain ⟨part, hpart⟩ := hslot
      simp [hpart, hrest, Slot.piece, hkind, Piece.render]
    | text =>
      simp only [hkind] at hslot ⊢
      obtain ⟨text, htext⟩ := hslot
      simp [htext, hrest, Slot.piece, hkind, Piece.render]

/-- A template whose slots can all be filled is filled with what its pieces are rendered as. -/
theorem fillTemplate_eq (hlength : template.length ≤ MAX_TEMPLATE_LENGTH)
    (h : ∀ slot ∈ scanSlots template, Fillable parts t slot) :
    fillTemplate template parts t = .ok ((pieces template).flatMap (Piece.render parts t)) := by
  rw [fillTemplate, if_neg (by omega), fillFrom_eq h]
  rfl

theorem partsIn_piecesFrom (start : ℕ) :
    partsIn (piecesFrom template start slots) =
      (slots.filter fun slot ↦ slot.kind = .part).map Slot.name := by
  induction slots generalizing start with
  | nil => rfl
  | cons slot _ ih =>
    have hrest := ih slot.end
    unfold partsIn at hrest ⊢
    rw [piecesFrom, List.filterMap_cons_none rfl]
    cases hkind : slot.kind with
    | part =>
      rw [List.filter_cons_of_pos (by simpa using hkind), List.map_cons, ← hrest]
      simp [Slot.piece, hkind, Piece.part?]
    | text | malformed =>
      rw [List.filter_cons_of_neg (by simp [hkind]), ← hrest]
      simp only [Slot.piece, hkind]
      rw [List.filterMap_cons_none rfl]

theorem index_le_of_mem_scanFrom {index skip : ℕ} {text : Utf16} :
    ∀ slot ∈ scanFrom index skip text, index ≤ slot.index := by
  induction text generalizing index skip with
  | nil => exact fun slot hslot ↦ absurd hslot List.not_mem_nil
  | cons u rest ih =>
    intro slot hslot
    have hlater : ∀ skip, slot ∈ scanFrom (index + 1) skip rest → index ≤ slot.index :=
      fun skip hmem ↦ Nat.le_of_succ_le (ih slot hmem)
    unfold scanFrom at hslot
    split at hslot
    · exact hlater _ hslot
    · split at hslot
      · exact hlater _ hslot
      · rcases List.mem_cons.mp hslot with rfl | hmem
        · unfold slotAt
          split
          · exact Nat.le_refl _
          · split <;> exact Nat.le_refl _
        · exact hlater _ hmem

/-- Slots come in the order of where they begin. -/
theorem pairwise_scanFrom {index skip : ℕ} {text : Utf16} :
    (scanFrom index skip text).Pairwise fun slot other ↦ slot.index < other.index := by
  induction text generalizing index skip with
  | nil => exact List.Pairwise.nil
  | cons _ _ ih =>
    unfold scanFrom
    split
    · exact ih
    · split
      · exact ih
      · refine List.pairwise_cons.mpr ⟨fun other hother ↦ ?_, ih⟩
        have hindex : ∀ length group, (slotAt index length group).index = index := by
          intro length group
          unfold slotAt
          split
          · rfl
          · split <;> rfl
        rw [hindex]
        exact index_le_of_mem_scanFrom other hother

end Filled

end Odudu.DomainTheme.Templates
