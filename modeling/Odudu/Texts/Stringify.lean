import Odudu.Texts.Json
import Mathlib.Data.Nat.Digits.Defs

/-!
# `JSON.stringify`

The text of a record of strings, natural numbers, booleans, nulls, arrays and objects.  A text
is read back in one way: what a record is written as, with anything after it that does not go
on with a digit, is written of no other record (`stringify_reads`).

Numbers that are no natural numbers are left out, and so is the order in which a runtime lists
names that are array indices.
-/

set_option autoImplicit false

namespace Odudu.Texts

inductive Record where
  | null
  | bool (b : Bool)
  | number (n : ℕ)
  | string (text : Utf16)
  | array (items : List Record)
  | object (members : List (Utf16 × Record))

/-! ### Numbers -/

def isDigitUnit (u : UInt16) : Bool := decide (0x30 ≤ u.toNat) && decide (u.toNat ≤ 0x39)

/-- The digits of a number, the last one first. -/
def digitsOf (n : ℕ) : List ℕ := if n = 0 then [0] else Nat.digits 10 n

def decimal (n : ℕ) : Utf16 := (digitsOf n).reverse.map fun d ↦ UInt16.ofNat (0x30 + d)

theorem ofDigits_digitsOf (n : ℕ) : Nat.ofDigits 10 (digitsOf n) = n := by
  unfold digitsOf
  split
  case isTrue hzero => simp [hzero]
  case isFalse => exact Nat.ofDigits_digits 10 n

theorem digitsOf_lt {n d : ℕ} (h : d ∈ digitsOf n) : d < 10 := by
  unfold digitsOf at h
  split at h
  · obtain rfl := List.mem_singleton.mp h
    decide
  · exact Nat.digits_lt_base (by decide) h

theorem toNat_digit {d : ℕ} (h : d < 10) : (UInt16.ofNat (0x30 + d)).toNat = 0x30 + d := by
  rw [UInt16.toNat_ofNat']
  omega

theorem decimal_digits (n : ℕ) : ∀ u ∈ decimal n, isDigitUnit u = true := by
  intro u hu
  obtain ⟨d, hd, rfl⟩ := List.mem_map.mp hu
  have hlt := digitsOf_lt (List.mem_reverse.mp hd)
  rw [isDigitUnit, toNat_digit hlt]
  simp only [Bool.and_eq_true, decide_eq_true_eq]
  omega

theorem decimal_ne_nil (n : ℕ) : decimal n ≠ [] := by
  have hdigits : digitsOf n ≠ [] := by
    unfold digitsOf
    split
    case isTrue => exact List.cons_ne_nil _ _
    case isFalse hzero => exact Nat.digits_ne_nil_iff_ne_zero.mpr hzero
  simp [decimal, hdigits]

theorem decimal_injective {n m : ℕ} (h : decimal n = decimal m) : n = m := by
  have hback : ∀ k, (decimal k).map (fun u ↦ u.toNat - 0x30) = (digitsOf k).reverse := by
    intro k
    have hone : ∀ d ∈ (digitsOf k).reverse, (UInt16.ofNat (0x30 + d)).toNat - 0x30 = id d := by
      intro d hd
      rw [toNat_digit (digitsOf_lt (List.mem_reverse.mp hd)), id]
      omega
    rw [decimal, List.map_map]
    exact (List.map_congr_left hone).trans (List.map_id _)
  have hdigits : digitsOf n = digitsOf m := by
    rw [← List.reverse_inj, ← hback, ← hback, h]
  rw [← ofDigits_digitsOf n, hdigits, ofDigits_digitsOf]

/-- What does not go on with a digit. -/
def Closed (x : Utf16) : Prop := ∀ u ∈ x.head?, isDigitUnit u = false

variable {x y : Utf16}

theorem decimal_reads {n m : ℕ} (hx : Closed x) (hy : Closed y)
    (h : decimal n ++ x = decimal m ++ y) : n = m ∧ x = y := by
  have htake : ∀ k z, Closed z → (decimal k ++ z).takeWhile isDigitUnit = decimal k := by
    intro k z hz
    rw [List.takeWhile_append_of_pos (decimal_digits k)]
    cases z with
    | nil => simp
    | cons u => simp [hz u rfl]
  have hdecimal : decimal n = decimal m := by rw [← htake n x hx, h, htake m y hy]
  rw [hdecimal] at h
  exact ⟨decimal_injective hdecimal, List.append_cancel_left h⟩

/-! ### Strings -/

/-- One of sixteen digits. -/
def hexDigit (n : ℕ) : UInt16 := UInt16.ofNat (if n < 10 then 0x30 + n else 0x57 + n)

/-- `\u` and four digits. -/
def unicodeEscape (u : UInt16) : Utf16 :=
  [0x5C, 0x75, hexDigit (u.toNat / 0x1000), hexDigit (u.toNat / 0x100 % 0x10),
    hexDigit (u.toNat / 0x10 % 0x10), hexDigit (u.toNat % 0x10)]

/-- The second unit of an escape of two units, where there is one. -/
def shortEscape (u : UInt16) : Option UInt16 :=
  if u = 0x08 then some 0x62
  else if u = 0x09 then some 0x74
  else if u = 0x0A then some 0x6E
  else if u = 0x0C then some 0x66
  else if u = 0x0D then some 0x72
  else if u = 0x22 then some 0x22
  else if u = 0x5C then some 0x5C
  else none

/-- A code point as it is quoted: a surrogate that stands alone is escaped. -/
def quotePoint : CodePoint → Utf16
  | .pair high low => [high, low]
  | .unit u =>
    match shortEscape u with
    | some second => [0x5C, second]
    | none =>
      if u.toNat < 0x20 ∨ isHigh u ∨ isLow u then unicodeEscape u else [u]

def quoted (text : Utf16) : Utf16 := 0x22 :: ((codePoints text).flatMap quotePoint ++ [0x22])

/-! A quoted code point is read back. -/

def hexValue (u : UInt16) : ℕ := if u.toNat < 0x3A then u.toNat - 0x30 else u.toNat - 0x57

/-- The unit that an escape of two units is of. -/
def unescaped (second : UInt16) : UInt16 :=
  if second = 0x62 then 0x08
  else if second = 0x74 then 0x09
  else if second = 0x6E then 0x0A
  else if second = 0x66 then 0x0C
  else if second = 0x72 then 0x0D
  else second

/-- The code point that a quoted text begins with, and what comes after it. -/
def readPoint : Utf16 → Option (CodePoint × Utf16)
  | u :: rest =>
    if u = 0x5C then
      match rest with
      | second :: x =>
        if second = 0x75 then
          match x with
          | a :: b :: c :: d :: x => some (.unit (UInt16.ofNat
              (hexValue a * 0x1000 + hexValue b * 0x100 + hexValue c * 0x10 + hexValue d)), x)
          | _ => none
        else some (.unit (unescaped second), x)
      | [] => none
    else if isHigh u then
      match rest with
      | low :: x => some (.pair u low, x)
      | [] => none
    else some (.unit u, rest)
  | [] => none

theorem hexValue_hexDigit {n : ℕ} (h : n < 0x10) : hexValue (hexDigit n) = n := by
  have hdigit : (hexDigit n).toNat = if n < 10 then 0x30 + n else 0x57 + n := by
    rw [hexDigit, UInt16.toNat_ofNat']
    split <;> omega
  rw [hexValue, hdigit]
  split <;> split <;> omega

theorem readPoint_unicodeEscape (u : UInt16) (x : Utf16) :
    readPoint (unicodeEscape u ++ x) = some (.unit u, x) := by
  have hu := u.toNat_lt
  have hvalue : u.toNat / 0x1000 * 0x1000 + u.toNat / 0x100 % 0x10 * 0x100 +
      u.toNat / 0x10 % 0x10 * 0x10 + u.toNat % 0x10 = u.toNat := by omega
  simp only [unicodeEscape, List.cons_append, List.nil_append, readPoint, if_true]
  rw [hexValue_hexDigit (by omega), hexValue_hexDigit (by omega), hexValue_hexDigit (by omega),
    hexValue_hexDigit (by omega), hvalue, UInt16.ofNat_toNat]

theorem unescaped_of_short {u second : UInt16} (h : shortEscape u = some second) :
    unescaped second = u ∧ second ≠ 0x75 := by
  unfold shortEscape at h
  split_ifs at h <;> obtain rfl := Option.some.inj h <;> subst u <;> exact ⟨rfl, by decide⟩

variable {u : UInt16}

theorem ne_backslash_of_high (h : isHigh u) : u ≠ 0x5C := by
  rintro rfl
  revert h
  decide

theorem ne_backslash_of_plain (h : shortEscape u = none) : u ≠ 0x5C := by
  rintro rfl
  revert h
  decide

variable {point : CodePoint}

theorem readPoint_quotePoint
    (hpaired : ∀ high low, point = .pair high low → isHigh high) (x : Utf16) :
    readPoint (quotePoint point ++ x) = some (point, x) := by
  cases point with
  | pair high low =>
    have hhigh := hpaired high low rfl
    simp [quotePoint, readPoint, hhigh, ne_backslash_of_high hhigh]
  | unit u =>
    simp only [quotePoint]
    cases hshort : shortEscape u with
    | some =>
      obtain ⟨hunescaped, hunicode⟩ := unescaped_of_short hshort
      simp [readPoint, hunescaped, hunicode]
    | none =>
      split_ifs with hescaped
      · exact readPoint_unicodeEscape u x
      · have hhigh : ¬isHigh u := fun hhigh ↦ hescaped (Or.inr (Or.inl hhigh))
        simp [readPoint, hhigh, ne_backslash_of_plain hshort]

/-- A quoted code point does not begin as a quote does. -/
theorem quotePoint_head
    (hpaired : ∀ high low, point = .pair high low → isHigh high) :
    ∃ u rest, quotePoint point = u :: rest ∧ u ≠ 0x22 := by
  cases point with
  | pair high low =>
    refine ⟨high, [low], rfl, ?_⟩
    rintro rfl
    exact absurd (hpaired _ _ rfl) (by decide)
  | unit u =>
    simp only [quotePoint]
    cases hshort : shortEscape u with
    | some => exact ⟨_, _, rfl, by decide⟩
    | none =>
      split_ifs
      · exact ⟨_, _, rfl, by decide⟩
      · refine ⟨u, [], rfl, ?_⟩
        rintro rfl
        exact absurd hshort (by decide)

theorem quotePoints_read {points points' : List CodePoint} (h : Paired points)
    (h' : Paired points')
    (heq : points.flatMap quotePoint ++ 0x22 :: x = points'.flatMap quotePoint ++ 0x22 :: y) :
    points = points' ∧ x = y := by
  have hhead : ∀ {point : CodePoint} {rest : List CodePoint}, Paired (point :: rest) →
      ∀ high low, point = .pair high low → isHigh high :=
    fun hpaired high low hpoint ↦ (hpaired high low (hpoint ▸ List.mem_cons_self)).1
  induction points generalizing points' with
  | nil =>
    cases points' with
    | nil => exact ⟨rfl, (List.cons.inj heq).2⟩
    | cons =>
      obtain ⟨u, units, hquote, hne⟩ := quotePoint_head (hhead h')
      rw [List.flatMap_cons, hquote] at heq
      exact absurd (List.cons.inj heq).1.symm hne
  | cons _ _ ih =>
    cases points' with
    | nil =>
      obtain ⟨u, units, hquote, hne⟩ := quotePoint_head (hhead h)
      rw [List.flatMap_cons, hquote] at heq
      exact absurd (List.cons.inj heq).1 hne
    | cons =>
      rw [List.flatMap_cons, List.flatMap_cons, List.append_assoc, List.append_assoc] at heq
      have hread := congrArg readPoint heq
      rw [readPoint_quotePoint (hhead h), readPoint_quotePoint (hhead h')] at hread
      obtain ⟨rfl, hrest⟩ := Prod.mk.inj (Option.some.inj hread)
      obtain ⟨rfl, hxy⟩ := ih h.tail h'.tail hrest
      exact ⟨rfl, hxy⟩

theorem quoted_reads {text text' x y : Utf16} (h : quoted text ++ x = quoted text' ++ y) :
    text = text' ∧ x = y := by
  simp only [quoted, List.cons_append, List.append_assoc, List.nil_append, List.cons.injEq,
    true_and] at h
  obtain ⟨hpoints, hrest⟩ := quotePoints_read (paired_codePoints text) (paired_codePoints text') h
  exact ⟨by rw [← ofCodePoints_codePoints text, hpoints, ofCodePoints_codePoints], hrest⟩

/-! ### Records -/

mutual

/-- `JSON.stringify` -/
def stringify : Record → Utf16
  | .null => [0x6E, 0x75, 0x6C, 0x6C]
  | .bool true => [0x74, 0x72, 0x75, 0x65]
  | .bool false => [0x66, 0x61, 0x6C, 0x73, 0x65]
  | .number n => decimal n
  | .string text => quoted text
  | .array [] => [0x5B, 0x5D]
  | .array (item :: items) => 0x5B :: (stringify item ++ stringifyItems items)
  | .object [] => [0x7B, 0x7D]
  | .object ((name, value) :: members) =>
    0x7B :: (quoted name ++ 0x3A :: (stringify value ++ stringifyMembers members))

/-- The items after the first, and the bracket. -/
def stringifyItems : List Record → Utf16
  | [] => [0x5D]
  | item :: items => 0x2C :: (stringify item ++ stringifyItems items)

/-- The members after the first, and the bracket. -/
def stringifyMembers : List (Utf16 × Record) → Utf16
  | [] => [0x7D]
  | (name, value) :: members =>
    0x2C :: (quoted name ++ 0x3A :: (stringify value ++ stringifyMembers members))

end

/-- What a text that begins so is of. -/
inductive Kind where
  | null
  | bool (b : Bool)
  | number
  | string
  | array
  | object
  | none
  deriving DecidableEq

def Record.kind : Record → Kind
  | null => .null
  | bool b => .bool b
  | number _ => .number
  | string _ => .string
  | array _ => .array
  | object _ => .object

def kindOfUnit (u : UInt16) : Kind :=
  if isDigitUnit u then .number
  else if u = 0x6E then .null
  else if u = 0x74 then .bool true
  else if u = 0x66 then .bool false
  else if u = 0x22 then .string
  else if u = 0x5B then .array
  else if u = 0x7B then .object
  else .none

theorem stringify_head (a : Record) :
    ∃ u rest, stringify a = u :: rest ∧ kindOfUnit u = a.kind := by
  cases a with
  | null => exact ⟨_, _, by rw [stringify], by decide⟩
  | bool b => cases b <;> exact ⟨_, _, by rw [stringify], by decide⟩
  | number n =>
    obtain ⟨u, rest, hdecimal⟩ := List.exists_cons_of_ne_nil (decimal_ne_nil n)
    refine ⟨u, rest, by rw [stringify, hdecimal], ?_⟩
    have hdigit := decimal_digits n u (hdecimal ▸ List.mem_cons_self)
    simp [kindOfUnit, hdigit, Record.kind]
  | string => exact ⟨_, _, by rw [stringify, quoted], rfl⟩
  | array items => cases items <;> exact ⟨_, _, by rw [stringify], rfl⟩
  | object members =>
    cases members with
    | nil | cons => exact ⟨_, _, by rw [stringify], rfl⟩

theorem kind_eq {a b : Record} (h : stringify a ++ x = stringify b ++ y) :
    a.kind = b.kind := by
  obtain ⟨u, rest, ha, hkind⟩ := stringify_head a
  obtain ⟨v, rest', hb, hkind'⟩ := stringify_head b
  rw [ha, hb] at h
  rw [← hkind, ← hkind', (List.cons.inj h).1]

theorem closed_cons (h : isDigitUnit u = false) (x : Utf16) : Closed (u :: x) := by
  intro v hv
  obtain rfl := Option.some.inj hv
  exact h

theorem closed_stringifyItems (items : List Record) (x : Utf16) :
    Closed (stringifyItems items ++ x) := by
  cases items <;> rw [stringifyItems] <;> exact closed_cons (by decide) _

theorem closed_stringifyMembers (members : List (Utf16 × Record)) (x : Utf16) :
    Closed (stringifyMembers members ++ x) := by
  cases members <;> rw [stringifyMembers] <;> exact closed_cons (by decide) _

/-- A record begins as nothing that closes an array does. -/
theorem stringify_ne_close {a : Record} : stringify a ++ x ≠ 0x5D :: y := by
  intro h
  obtain ⟨u, rest, ha, hkind⟩ := stringify_head a
  rw [ha] at h
  have hnone : kindOfUnit 0x5D = .none := rfl
  rw [(List.cons.inj h).1, hnone] at hkind
  cases a <;> exact nomatch hkind

mutual

/-- What is written of a value is read back before what may follow it. -/
theorem stringify_reads : ∀ (a b : Record) {x y : Utf16}, Closed x → Closed y →
    stringify a ++ x = stringify b ++ y → a = b ∧ x = y
  | a, .null, x, y, _, _, h => by
    have hkind := kind_eq h
    cases a <;> simp only [Record.kind, reduceCtorEq] at hkind
    exact ⟨rfl, List.append_cancel_left h⟩
  | a, .bool b, x, y, _, _, h => by
    have hkind := kind_eq h
    cases a <;> simp only [Record.kind, reduceCtorEq, Kind.bool.injEq] at hkind
    subst hkind
    exact ⟨rfl, List.append_cancel_left h⟩
  | a, .number m, x, y, hx, hy, h => by
    have hkind := kind_eq h
    cases a <;> simp only [Record.kind, reduceCtorEq] at hkind
    rw [stringify, stringify] at h
    obtain ⟨rfl, hxy⟩ := decimal_reads hx hy h
    exact ⟨rfl, hxy⟩
  | a, .string text, x, y, _, _, h => by
    have hkind := kind_eq h
    cases a <;> simp only [Record.kind, reduceCtorEq] at hkind
    rw [stringify, stringify] at h
    obtain ⟨rfl, hxy⟩ := quoted_reads h
    exact ⟨rfl, hxy⟩
  | a, .array [], x, y, _, _, h => by
    have hkind := kind_eq h
    cases a with
    | array items =>
      cases items with
      | nil => exact ⟨rfl, List.append_cancel_left h⟩
      | cons =>
        simp only [stringify, List.cons_append, List.append_assoc, List.cons.injEq, true_and,
          List.nil_append] at h
        exact absurd h stringify_ne_close
    | _ => simp [Record.kind] at hkind
  | a, .array (item' :: items'), x, y, _, _, h => by
    have hkind := kind_eq h
    cases a with
    | array items =>
      cases items with
      | nil =>
        simp only [stringify, List.cons_append, List.append_assoc, List.cons.injEq, true_and,
          List.nil_append] at h
        exact absurd h.symm stringify_ne_close
      | cons item items =>
        simp only [stringify, List.cons_append, List.append_assoc, List.cons.injEq, true_and] at h
        obtain ⟨rfl, hitems⟩ := stringify_reads item item' (closed_stringifyItems _ _)
          (closed_stringifyItems _ _) h
        obtain ⟨rfl, hxy⟩ := stringifyItems_reads items items' hitems
        exact ⟨rfl, hxy⟩
    | _ => simp [Record.kind] at hkind
  | a, .object [], x, y, _, _, h => by
    have hkind := kind_eq h
    cases a with
    | object members =>
      cases members with
      | nil => exact ⟨rfl, List.append_cancel_left h⟩
      | cons =>
        simp only [stringify, quoted, List.cons_append, List.cons.injEq, true_and] at h
        exact absurd h.1 (by decide)
    | _ => simp [Record.kind] at hkind
  | a, .object ((name', value') :: members'), x, y, _, _, h => by
    have hkind := kind_eq h
    cases a with
    | object members =>
      cases members with
      | nil =>
        simp only [stringify, quoted, List.cons_append, List.cons.injEq, true_and] at h
        exact absurd h.1 (by decide)
      | cons member members =>
        obtain ⟨name, value⟩ := member
        simp only [stringify, List.cons_append, List.append_assoc, List.cons.injEq, true_and] at h
        obtain ⟨rfl, hrest⟩ := quoted_reads h
        obtain ⟨rfl, hmembers⟩ := stringify_reads value value' (closed_stringifyMembers _ _)
          (closed_stringifyMembers _ _) (List.cons.inj hrest).2
        obtain ⟨rfl, hxy⟩ := stringifyMembers_reads members members' hmembers
        exact ⟨rfl, hxy⟩
    | _ => simp [Record.kind] at hkind

theorem stringifyItems_reads : ∀ (items items' : List Record) {x y : Utf16},
    stringifyItems items ++ x = stringifyItems items' ++ y → items = items' ∧ x = y
  | items, [], x, y, h => by
    cases items with
    | nil => exact ⟨rfl, List.append_cancel_left h⟩
    | cons =>
      simp only [stringifyItems, List.cons_append, List.cons.injEq] at h
      exact absurd h.1 (by decide)
  | items, item' :: items', x, y, h => by
    cases items with
    | nil =>
      simp only [stringifyItems, List.cons_append, List.cons.injEq] at h
      exact absurd h.1 (by decide)
    | cons item items =>
      simp only [stringifyItems, List.cons_append, List.append_assoc, List.cons.injEq,
        true_and] at h
      obtain ⟨rfl, hitems⟩ := stringify_reads item item' (closed_stringifyItems _ _)
        (closed_stringifyItems _ _) h
      obtain ⟨rfl, hxy⟩ := stringifyItems_reads items items' hitems
      exact ⟨rfl, hxy⟩

theorem stringifyMembers_reads : ∀ (members members' : List (Utf16 × Record)) {x y : Utf16},
    stringifyMembers members ++ x = stringifyMembers members' ++ y → members = members' ∧ x = y
  | members, [], x, y, h => by
    cases members with
    | nil => exact ⟨rfl, List.append_cancel_left h⟩
    | cons =>
      simp only [stringifyMembers, List.cons_append, List.cons.injEq] at h
      exact absurd h.1 (by decide)
  | members, (name', value') :: members', x, y, h => by
    cases members with
    | nil =>
      simp only [stringifyMembers, List.cons_append, List.cons.injEq] at h
      exact absurd h.1 (by decide)
    | cons member members =>
      obtain ⟨name, value⟩ := member
      simp only [stringifyMembers, List.cons_append, List.append_assoc, List.cons.injEq,
        true_and] at h
      obtain ⟨rfl, hrest⟩ := quoted_reads h
      obtain ⟨rfl, hmembers⟩ := stringify_reads value value' (closed_stringifyMembers _ _)
        (closed_stringifyMembers _ _) (List.cons.inj hrest).2
      obtain ⟨rfl, hxy⟩ := stringifyMembers_reads members members' hmembers
      exact ⟨rfl, hxy⟩

end

theorem stringify_injective : Function.Injective stringify := by
  intro a b h
  have hclosed : Closed [] := fun u hu ↦ nomatch hu
  exact (stringify_reads a b hclosed hclosed (by rw [h])).1

end Odudu.Texts
