import Odudu.Texts.Stringify
import Mathlib.Data.List.Sort
import Mathlib.Data.List.Lex

/-!
# Entity tags

`service/etag.ts`.  A record's tag is the digest of its canonical text, in which the members of
an object are in the order of their names.  The digest is SHA-256, of which nothing is used but
that no two texts of it are known to agree (`Sha256`).

`If-Match` lists tags, and the wildcard counts as no header at all where a precondition is
required.
-/

set_option autoImplicit false

namespace Odudu.ProtocolAdmin.Etag

open Texts

/-- SHA-256 in hexadecimal digits, taken to be free of collisions. -/
structure Sha256 where
  hex : Utf16 → Utf16
  collisionFree : Function.Injective hex

/-! ### Canonical records -/

/-- The order of `Array.prototype.sort` on texts: unit by unit. -/
def NotAfter (a b : Utf16) : Prop := a.map UInt16.toNat ≤ b.map UInt16.toNat

instance : DecidableRel NotAfter := fun a b ↦
  inferInstanceAs (Decidable (a.map UInt16.toNat ≤ b.map UInt16.toNat))

instance : Std.Total NotAfter where
  total := fun a b ↦ Std.Total.total (r := (· ≤ ·)) (a.map UInt16.toNat) (b.map UInt16.toNat)

instance : IsTrans Utf16 NotAfter where
  trans := fun _ _ _ h h' ↦ le_trans h h'

instance : Std.Antisymm NotAfter where
  antisymm := fun _ _ h h' ↦
    List.map_injective_iff.mpr (fun _ _ ↦ UInt16.toNat_inj.mp) (le_antisymm h h')

/-- `[...texts].sort()` -/
def sortTexts (texts : List Utf16) : List Utf16 := texts.insertionSort NotAfter

/-- The members of an object in the order of their names. -/
def sortMembers (members : List (Utf16 × Record)) : List (Utf16 × Record) :=
  members.insertionSort fun a b ↦ NotAfter a.1 b.1

mutual

def canonicalize : Record → Record
  | .array items => .array (canonicalizeItems items)
  | .object members => .object (sortMembers (canonicalizeMembers members))
  | .null => .null
  | .bool b => .bool b
  | .number n => .number n
  | .string text => .string text

def canonicalizeItems : List Record → List Record
  | [] => []
  | item :: items => canonicalize item :: canonicalizeItems items

def canonicalizeMembers : List (Utf16 × Record) → List (Utf16 × Record)
  | [] => []
  | (name, value) :: members => (name, canonicalize value) :: canonicalizeMembers members

end

theorem canonicalizeItems_eq (items : List Record) :
    canonicalizeItems items = items.map canonicalize := by
  induction items with
  | nil => rfl
  | cons _ _ ih => rw [canonicalizeItems, ih, List.map_cons]

theorem sortMembers_perm (members : List (Utf16 × Record)) : (sortMembers members).Perm members :=
  List.perm_insertionSort _ _

theorem sortTexts_perm_self (texts : List Utf16) : (sortTexts texts).Perm texts :=
  List.perm_insertionSort _ _

/-- In the order of what is read, the texts sorted are the same. -/
theorem sortTexts_perm {texts texts' : List Utf16} (h : texts.Perm texts') :
    sortTexts texts = sortTexts texts' := by
  refine List.Perm.eq_of_pairwise' (r := NotAfter) (List.pairwise_insertionSort _ _)
    (List.pairwise_insertionSort _ _) ?_
  exact (List.perm_insertionSort _ texts).trans (h.trans (List.perm_insertionSort _ texts').symm)

/-! ### Tags -/

/-- A digest as an entity tag. -/
def quotedTag (digest : Utf16) : Utf16 := 0x22 :: (digest ++ [0x22])

theorem quotedTag_injective : Function.Injective quotedTag := by
  intro digest digest' h
  exact List.append_cancel_right (List.cons.inj h).2

def etagOf (sha : Sha256) (record : Record) : Utf16 :=
  quotedTag (sha.hex (stringify (canonicalize record)))

theorem etagOf_eq_iff {sha : Sha256} {record record' : Record} :
    etagOf sha record = etagOf sha record' ↔ canonicalize record = canonicalize record' := by
  refine ⟨fun h ↦ ?_, fun h ↦ by rw [etagOf, etagOf, h]⟩
  exact stringify_injective (sha.collisionFree (quotedTag_injective h))

/-! ### Preconditions -/

/-- What `String.prototype.trim` takes off. -/
def isSpace (u : UInt16) : Bool :=
  (decide (0x09 ≤ u.toNat) && decide (u.toNat ≤ 0x0D)) || u == 0x20 || u == 0xA0 || u == 0x1680 ||
    (decide (0x2000 ≤ u.toNat) && decide (u.toNat ≤ 0x200A)) || u == 0x2028 || u == 0x2029 ||
    u == 0x202F || u == 0x205F || u == 0x3000 || u == 0xFEFF

def trim (text : Utf16) : Utf16 := ((text.dropWhile isSpace).reverse.dropWhile isSpace).reverse

def wildcard : Utf16 := [0x2A]

/-- The tags a header lists. -/
def members (ifMatch : Utf16) : List Utf16 := (ifMatch.splitOn 0x2C).map trim

def hasPrecondition : Option Utf16 → Bool
  | none => false
  | some ifMatch => !(members ifMatch).contains wildcard

inductive Match where
  | absent
  | found
  | mismatch
  deriving DecidableEq

/-- `matches` -/
def tagMatches (ifMatch : Option Utf16) (current : Utf16) : Match :=
  match ifMatch with
  | none => .absent
  | some ifMatch =>
    if (members ifMatch).any fun member ↦ member == wildcard || member == current then .found
    else .mismatch

inductive Precondition where
  | required
  | failed
  | ok

def requiredPrecondition (ifMatch : Option Utf16) (current : Utf16) : Precondition :=
  if !hasPrecondition ifMatch then .required
  else if tagMatches ifMatch current = .found then .ok
  else .failed

/-- The precondition holds of a header that names the current tag, and not the wildcard. -/
theorem requiredPrecondition_eq_ok_iff {ifMatch : Option Utf16} {current : Utf16} :
    requiredPrecondition ifMatch current = .ok ↔
      ∃ header, ifMatch = some header ∧ wildcard ∉ members header ∧ current ∈ members header := by
  unfold requiredPrecondition hasPrecondition tagMatches
  cases ifMatch with
  | none => simp
  | some header =>
    by_cases hwildcard : wildcard ∈ members header
    · simp [hwildcard]
    · have hnone : ∀ member ∈ members header, member ≠ wildcard := fun member hmember heq ↦
        hwildcard (heq ▸ hmember)
      by_cases hcurrent : current ∈ members header
      · have hany : (members header).any (fun member ↦ member == wildcard || member == current) :=
          List.any_eq_true.mpr ⟨current, hcurrent, by simp⟩
        simp [hwildcard, hcurrent, hany]
      · have hany : (members header).any
            (fun member ↦ member == wildcard || member == current) = false := by
          refine List.any_eq_false.mpr fun member hmember ↦ ?_
          have hne : member ≠ current := fun heq ↦ hcurrent (heq ▸ hmember)
          simp [hnone member hmember, hne]
        simp [hwildcard, hcurrent, hany]

end Odudu.ProtocolAdmin.Etag
