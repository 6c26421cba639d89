import Mathlib.Data.List.Basic
import Mathlib.Data.Nat.Digits.Defs

/-!
# Internet addresses as text

The spellings of an IPv4 and an IPv6 address, and the address each denotes: a dotted quad is
one number of 32 bits; eight groups of 16 bits, the last two of which may be written as a
quad and a run of zeros among them as `::`, are one number of 128 bits, with or without a
zone after it.  Blocks of addresses are given by a prefix.
-/

set_option autoImplicit false

namespace Odudu.Addresses

/-- A string, by its characters. -/
abbrev Text : Type := List Char

/-! ### Dotted quads -/

/-- A number in decimal, without leading zeros. -/
def decimal (n : ℕ) : Text := Nat.toDigits 10 n

structure Quad where
  a : Fin 256
  b : Fin 256
  c : Fin 256
  d : Fin 256

def Quad.text (q : Quad) : Text :=
  ['.'].intercalate [decimal q.a, decimal q.b, decimal q.c, decimal q.d]

/-- The 32 bits of a quad. -/
def Quad.address (q : Quad) : ℕ := ((q.a.val * 256 + q.b) * 256 + q.c) * 256 + q.d

/-! ### Groups of sixteen bits -/

def isHexDigit (c : Char) : Bool :=
  c.isDigit || (decide ('a' ≤ c) && decide (c ≤ 'f')) || (decide ('A' ≤ c) && decide (c ≤ 'F'))

def hexDigitValue (c : Char) : ℕ :=
  if c.isDigit then c.toNat - '0'.toNat
  else if decide ('a' ≤ c) && decide (c ≤ 'f') then c.toNat - 'a'.toNat + 10
  else c.toNat - 'A'.toNat + 10

/-- The number written in hexadecimal digits. -/
def hexNumber (digits : Text) : ℕ := Nat.ofDigits 16 (digits.reverse.map hexDigitValue)

/-- One to four hexadecimal digits. -/
structure Group where
  digits : Text
  nonempty : digits ≠ []
  length_le : digits.length ≤ 4
  hex : ∀ c ∈ digits, isHexDigit c = true

namespace Group

variable (g : Group)

def value : ℕ := hexNumber g.digits

theorem hexDigitValue_lt {c : Char} (h : isHexDigit c = true) : hexDigitValue c < 16 := by
  simp only [isHexDigit, Bool.or_eq_true, Bool.and_eq_true, decide_eq_true_eq] at h
  unfold hexDigitValue
  split_ifs with hdigit hlower
  · have hle : c.toNat ≤ '9'.toNat := by
      simp only [Char.isDigit, Bool.and_eq_true, decide_eq_true_eq] at hdigit
      exact hdigit.2
    have h9 : '9'.toNat = 57 := rfl
    have h0 : '0'.toNat = 48 := rfl
    omega
  · simp only [Bool.and_eq_true, decide_eq_true_eq] at hlower
    have hle : c.toNat ≤ 'f'.toNat := hlower.2
    have hf : 'f'.toNat = 102 := rfl
    have ha : 'a'.toNat = 97 := rfl
    omega
  · rcases h with (h | h) | h
    · exact absurd h hdigit
    · exact absurd (by simpa using h) hlower
    · have hle : c.toNat ≤ 'F'.toNat := h.2
      have hF : 'F'.toNat = 70 := rfl
      have hA : 'A'.toNat = 65 := rfl
      omega

theorem value_lt : g.value < 65536 := by
  have hlt : g.value < 16 ^ (g.digits.reverse.map hexDigitValue).length := by
    refine Nat.ofDigits_lt_base_pow_length (by decide) fun x hx ↦ ?_
    obtain ⟨c, hc, rfl⟩ := List.mem_map.mp hx
    exact hexDigitValue_lt (g.hex c (List.mem_reverse.mp hc))
  refine hlt.trans_le ?_
  rw [List.length_map, List.length_reverse]
  exact Nat.pow_le_pow_right (by decide) g.length_le

end Group

/-! ### Spellings -/

/-- Groups joined by colons, with a quad after them or none. -/
structure Side where
  groups : List Group
  quad : Option Quad

namespace Side

variable (s : Side)

def parts : List Text := s.groups.map Group.digits ++ s.quad.toList.map Quad.text

def text : Text := [':'].intercalate s.parts

/-- The two groups a quad stands for. -/
def quadHextets (q : Quad) : List ℕ := [q.a.val * 256 + q.b, q.c.val * 256 + q.d]

def hextets : List ℕ := s.groups.map Group.value ++ s.quad.toList.flatMap quadHextets

end Side

/-- The eight groups of an address as they may be written. -/
inductive Spelling where
  | full (side : Side) (h : side.hextets.length = 8)
  /-- `::` stands for one or more groups of zero. -/
  | elided (head : List Group) (tail : Side) (h : head.length + tail.hextets.length ≤ 7)

namespace Spelling

def text : Spelling → Text
  | full side _ => side.text
  | elided head tail _ => Side.text ⟨head, none⟩ ++ ':' :: ':' :: tail.text

/-- The eight groups. -/
def hextets : Spelling → List ℕ
  | full side _ => side.hextets
  | elided head tail _ => head.map Group.value ++
      List.replicate (8 - head.length - tail.hextets.length) 0 ++ tail.hextets

end Spelling

theorem Quad.text_eq (q : Quad) : q.text =
    decimal q.a ++ '.' :: (decimal q.b ++ '.' :: (decimal q.c ++ '.' :: decimal q.d)) := by
  simp [Quad.text, List.intercalate]

theorem isDigit_of_mem_decimal {n : ℕ} {c : Char} (h : c ∈ decimal n) : c.isDigit = true :=
  Nat.isDigit_of_mem_toDigits (by decide) (by decide) h

theorem dot_mem_quad (q : Quad) : '.' ∈ q.text := by
  simp [Quad.text_eq]

theorem Quad.isDigit_of_mem {q : Quad} {c : Char} (h : c ∈ q.text) : c.isDigit = true ∨ c = '.' := by
  simp only [Quad.text_eq, List.mem_append, List.mem_cons] at h
  rcases h with h | rfl | h | rfl | h | rfl | h
  · exact Or.inl (isDigit_of_mem_decimal h)
  · exact Or.inr rfl
  · exact Or.inl (isDigit_of_mem_decimal h)
  · exact Or.inr rfl
  · exact Or.inl (isDigit_of_mem_decimal h)
  · exact Or.inr rfl
  · exact Or.inl (isDigit_of_mem_decimal h)

/-- A part of an address: not empty, and without colon or zone. -/
def Part (part : Text) : Prop := part ≠ [] ∧ ':' ∉ part ∧ '%' ∉ part

theorem Group.part (g : Group) : Part g.digits := by
  refine ⟨g.nonempty, fun h ↦ ?_, fun h ↦ ?_⟩
  · exact absurd (g.hex _ h) (by decide)
  · exact absurd (g.hex _ h) (by decide)

theorem Group.dot_notMem (g : Group) : '.' ∉ g.digits := fun h ↦ absurd (g.hex _ h) (by decide)

theorem Quad.part (q : Quad) : Part q.text := by
  refine ⟨List.ne_nil_of_mem (dot_mem_quad q), fun h ↦ ?_, fun h ↦ ?_⟩
  · exact absurd (Quad.isDigit_of_mem h) (by decide)
  · exact absurd (Quad.isDigit_of_mem h) (by decide)

theorem Side.part_of_mem {s : Side} {part : Text} (h : part ∈ s.parts) : Part part := by
  rcases List.mem_append.mp h with h | h
  · obtain ⟨g, -, rfl⟩ := List.mem_map.mp h
    exact g.part
  · obtain ⟨q, -, rfl⟩ := List.mem_map.mp h
    exact q.part

theorem Side.lt_of_mem {s : Side} {x : ℕ} (h : x ∈ s.hextets) : x < 65536 := by
  rcases List.mem_append.mp h with h | h
  · obtain ⟨g, -, rfl⟩ := List.mem_map.mp h
    exact g.value_lt
  · obtain ⟨q, -, hx⟩ := List.mem_flatMap.mp h
    simp only [Side.quadHextets, List.mem_cons, List.not_mem_nil, or_false] at hx
    omega

theorem Side.length_hextets_le (s : Side) : s.hextets.length ≤ 2 * s.parts.length := by
  obtain ⟨groups, quad⟩ := s
  cases quad <;>
    simp only [hextets, parts, quadHextets, Option.toList_none, Option.toList_some,
      List.length_append, List.length_map, List.flatMap_nil, List.flatMap_cons, List.length_nil,
      List.length_cons, List.append_nil] <;>
    omega

theorem Spelling.length_hextets (s : Spelling) : s.hextets.length = 8 := by
  cases s with
  | full _ h => exact h
  | elided =>
    simp only [hextets, List.length_append, List.length_map, List.length_replicate]
    omega

theorem Spelling.lt_of_mem {s : Spelling} {x : ℕ} (h : x ∈ s.hextets) : x < 65536 := by
  cases s with
  | full => exact Side.lt_of_mem h
  | elided =>
    rcases List.mem_append.mp h with h | h
    · rcases List.mem_append.mp h with h | h
      · obtain ⟨g, -, rfl⟩ := List.mem_map.mp h
        exact g.value_lt
      · obtain rfl := List.eq_of_mem_replicate h
        decide
    · exact Side.lt_of_mem h

/-- The number whose digits are groups of sixteen bits. -/
def addressOf (hextets : List ℕ) : ℕ := hextets.foldl (fun n h ↦ n * 65536 + h) 0

/-- The eight groups of sixteen bits of a number. -/
def hextetsOf (address : ℕ) : List ℕ :=
  (List.range 8).map fun i ↦ address / 65536 ^ (7 - i) % 65536

theorem hextetsOf_addressOf {hextets : List ℕ} (hlength : hextets.length = 8)
    (hlt : ∀ x ∈ hextets, x < 65536) : hextetsOf (addressOf hextets) = hextets := by
  match hextets, hlength with
  | [a, b, c, d, e, f, g, h], _ =>
    simp only [List.mem_cons, List.not_mem_nil, or_false, forall_eq_or_imp, forall_eq] at hlt
    simp only [hextetsOf, addressOf, List.foldl_cons, List.foldl_nil, List.range_succ_eq_map,
      List.range_zero, List.map_cons, List.map_nil, List.cons.injEq, and_true, Nat.succ_eq_add_one,
      Nat.reduceAdd, Nat.reduceSub, Nat.reducePow]
    refine ⟨?_, ?_, ?_, ?_, ?_, ?_, ?_, ?_⟩ <;> omega

/-- An address of 128 bits, with a zone after it or none. -/
structure Ipv6Text where
  spelling : Spelling
  zone : Option Text

namespace Ipv6Text

variable (t : Ipv6Text)

def text : Text := t.spelling.text ++ (t.zone.map ('%' :: ·)).getD []

def hextets : List ℕ := t.spelling.hextets

def address : ℕ := addressOf t.hextets

theorem hextetsOf_address : hextetsOf t.address = t.hextets :=
  hextetsOf_addressOf t.spelling.length_hextets fun _ ↦ t.spelling.lt_of_mem

theorem exists_hextets : ∃ a b c d e f g h, t.hextets = [a, b, c, d, e, f, g, h] := by
  have hlength : t.hextets.length = 8 := t.spelling.length_hextets
  match t.hextets, hlength with
  | [a, b, c, d, e, f, g, h], _ => exact ⟨a, b, c, d, e, f, g, h, rfl⟩

end Ipv6Text

/-! ### Blocks -/

/-- The addresses of `width` bits whose first `length` bits are those of `start`. -/
structure Block (width : ℕ) where
  start : ℕ
  length : ℕ
  deriving DecidableEq

/-- The address is one of the block's. -/
def Block.Contains {width : ℕ} (block : Block width) (address : ℕ) : Prop :=
  address / 2 ^ (width - block.length) = block.start / 2 ^ (width - block.length)

instance {width : ℕ} (block : Block width) (address : ℕ) : Decidable (block.Contains address) :=
  inferInstanceAs (Decidable (_ = _))

end Odudu.Addresses
