import Odudu.Texts.Stringify
import Odudu.Texts.Unicode
import Mathlib.Data.Nat.Digits.Lemmas

/-!
# `JSON.parse`

The grammar of a JSON text, read with fuel: every call that goes into a value, or on to the
next item, takes one, and the length of the text is enough.  A number is kept as it is written.
Of members with one name the last one counts, at the place of the first.

What `stringify` writes is read back, whatever it was written of (`parseJson_stringify`), and
no surrogate stands alone in it (`wellFormed_stringify`).
-/

set_option autoImplicit false

namespace Odudu.Texts

inductive Parsed where
  | null
  | bool (b : Bool)
  | number (literal : Utf16)
  | string (text : Utf16)
  | array (items : List Parsed)
  | object (members : List (Utf16 × Parsed))

/-! ### White space -/

def isSpaceUnit (u : UInt16) : Bool := u == 0x20 || u == 0x09 || u == 0x0A || u == 0x0D

def skipSpace (text : Utf16) : Utf16 := text.dropWhile isSpaceUnit

variable {u : UInt16}

theorem skipSpace_cons (h : isSpaceUnit u = false) (text : Utf16) :
    skipSpace (u :: text) = u :: text :=
  List.dropWhile_cons_of_neg (by simp [h])

/-! ### Strings -/

def hexUnit (u : UInt16) : Option ℕ :=
  if 0x30 ≤ u.toNat ∧ u.toNat ≤ 0x39 then some (u.toNat - 0x30)
  else if 0x41 ≤ u.toNat ∧ u.toNat ≤ 0x46 then some (u.toNat - 0x37)
  else if 0x61 ≤ u.toNat ∧ u.toNat ≤ 0x66 then some (u.toNat - 0x57)
  else none

/-- The unit of four digits. -/
def hexUnits (a b c d : UInt16) : Option UInt16 :=
  match hexUnit a, hexUnit b, hexUnit c, hexUnit d with
  | some a, some b, some c, some d => some (UInt16.ofNat (a * 0x1000 + b * 0x100 + c * 0x10 + d))
  | _, _, _, _ => none

/-- The unit that an escape of two units is of, where it is one. -/
def unescape (second : UInt16) : Option UInt16 :=
  if second = 0x22 ∨ second = 0x5C ∨ second = 0x2F then some second
  else if second = 0x62 then some 0x08
  else if second = 0x66 then some 0x0C
  else if second = 0x6E then some 0x0A
  else if second = 0x72 then some 0x0D
  else if second = 0x74 then some 0x09
  else none

/-- A unit before what is read. -/
def before (u : UInt16) (read : Utf16 × Utf16) : Utf16 × Utf16 := (u :: read.1, read.2)

/-- A string whose first quote is read, and what comes after it. -/
def readString : Utf16 → Option (Utf16 × Utf16)
  | [] => none
  | u :: rest =>
    if u = 0x22 then some ([], rest)
    else if u = 0x5C then
      match rest with
      | [] => none
      | second :: rest =>
        if second = 0x75 then
          match rest with
          | a :: b :: c :: d :: rest =>
            (hexUnits a b c d).bind fun v ↦ (readString rest).map (before v)
          | _ => none
        else (unescape second).bind fun v ↦ (readString rest).map (before v)
    else if u.toNat < 0x20 then none
    else (readString rest).map (before u)

/-! ### Numbers -/

/-- One digit or more, and what comes after them. -/
def readDigits (text : Utf16) : Option (Utf16 × Utf16) :=
  if (text.takeWhile isDigitUnit).isEmpty then none
  else some (text.takeWhile isDigitUnit, text.dropWhile isDigitUnit)

/-- No digit goes on after a zero that comes first. -/
def readInteger (text : Utf16) : Option (Utf16 × Utf16) :=
  match text with
  | u :: rest => if u = 0x30 then some ([0x30], rest) else readDigits text
  | [] => none

def readFraction (text : Utf16) : Option (Utf16 × Utf16) :=
  match text with
  | u :: rest => if u = 0x2E then (readDigits rest).map (before u) else some ([], text)
  | [] => some ([], text)

def readExponent (text : Utf16) : Option (Utf16 × Utf16) :=
  match text with
  | u :: rest =>
    if u = 0x65 ∨ u = 0x45 then
      match rest with
      | sign :: digits =>
        if sign = 0x2B ∨ sign = 0x2D then
          (readDigits digits).map fun read ↦ before u (before sign read)
        else (readDigits rest).map (before u)
      | [] => none
    else some ([], text)
  | [] => some ([], text)

/-- A number without its sign. -/
def readUnsigned (text : Utf16) : Option (Utf16 × Utf16) :=
  (readInteger text).bind fun integer ↦
    (readFraction integer.2).bind fun fraction ↦
      (readExponent fraction.2).map fun exponent ↦
        (integer.1 ++ fraction.1 ++ exponent.1, exponent.2)

def readNumber (text : Utf16) : Option (Utf16 × Utf16) :=
  match text with
  | u :: rest => if u = 0x2D then (readUnsigned rest).map (before u) else readUnsigned text
  | [] => none

/-! ### Values -/

/-- What comes after the name and the colon of a member. -/
def readName (text : Utf16) : Option (Utf16 × Utf16) :=
  match skipSpace text with
  | u :: rest =>
    if u = 0x22 then
      (readString rest).bind fun name ↦
        match skipSpace name.2 with
        | colon :: rest => if colon = 0x3A then some (name.1, rest) else none
        | [] => none
    else none
  | [] => none

def NULL_TEXT : Utf16 := [0x6E, 0x75, 0x6C, 0x6C]

def TRUE_TEXT : Utf16 := [0x74, 0x72, 0x75, 0x65]

def FALSE_TEXT : Utf16 := [0x66, 0x61, 0x6C, 0x73, 0x65]

/-- A word of the grammar, and what comes after it. -/
def readWord (word : Utf16) (value : Parsed) (text : Utf16) : Option (Parsed × Utf16) :=
  if text.take word.length = word then some (value, text.drop word.length) else none

mutual

def readValue : ℕ → Utf16 → Option (Parsed × Utf16)
  | 0, _ => none
  | fuel + 1, text =>
    match skipSpace text with
    | [] => none
    | u :: rest =>
      if u = 0x22 then (readString rest).map fun read ↦ (.string read.1, read.2)
      else if u = 0x5B then
        match skipSpace rest with
        | [] => none
        | v :: rest' =>
          if v = 0x5D then some (.array [], rest')
          else
            (readValue fuel (v :: rest')).bind fun item ↦
              (readItems fuel item.2).map fun items ↦ (.array (item.1 :: items.1), items.2)
      else if u = 0x7B then
        match skipSpace rest with
        | [] => none
        | v :: rest' =>
          if v = 0x7D then some (.object [], rest')
          else
            (readName (v :: rest')).bind fun name ↦
              (readValue fuel name.2).bind fun value ↦
                (readMembers fuel value.2).map fun members ↦
                  (.object (fromEntries ((name.1, value.1) :: members.1)), members.2)
      else if u = 0x6E then readWord NULL_TEXT .null (u :: rest)
      else if u = 0x74 then readWord TRUE_TEXT (.bool true) (u :: rest)
      else if u = 0x66 then readWord FALSE_TEXT (.bool false) (u :: rest)
      else (readNumber (u :: rest)).map fun read ↦ (.number read.1, read.2)

/-- The items after the first, to the bracket. -/
def readItems : ℕ → Utf16 → Option (List Parsed × Utf16)
  | 0, _ => none
  | fuel + 1, text =>
    match skipSpace text with
    | [] => none
    | u :: rest =>
      if u = 0x5D then some ([], rest)
      else if u = 0x2C then
        (readValue fuel rest).bind fun item ↦
          (readItems fuel item.2).map fun items ↦ (item.1 :: items.1, items.2)
      else none

/-- The members after the first, to the bracket. -/
def readMembers : ℕ → Utf16 → Option (List (Utf16 × Parsed) × Utf16)
  | 0, _ => none
  | fuel + 1, text =>
    match skipSpace text with
    | [] => none
    | u :: rest =>
      if u = 0x7D then some ([], rest)
      else if u = 0x2C then
        (readName rest).bind fun name ↦
          (readValue fuel name.2).bind fun value ↦
            (readMembers fuel value.2).map fun members ↦
              ((name.1, value.1) :: members.1, members.2)
      else none

end

/-- `JSON.parse`, nothing where it throws. -/
def parseJson (text : Utf16) : Option Parsed :=
  (readValue (text.length + 1) text).bind fun read ↦
    if skipSpace read.2 = [] then some read.1 else none

/-! ### What is written is read back -/

mutual

/-- What a record is read back as. -/
def Record.parsed : Record → Parsed
  | .null => .null
  | .bool b => .bool b
  | .number n => .number (decimal n)
  | .string text => .string text
  | .array items => .array (parsedItems items)
  | .object members => .object (fromEntries (parsedMembers members))

def parsedItems : List Record → List Parsed
  | [] => []
  | item :: items => item.parsed :: parsedItems items

def parsedMembers : List (Utf16 × Record) → List (Utf16 × Parsed)
  | [] => []
  | (name, value) :: members => (name, value.parsed) :: parsedMembers members

end

/-- What may come after a value. -/
def Follows (x : Utf16) : Prop := ∀ u ∈ x.head?, u = 0x2C ∨ u = 0x5D ∨ u = 0x7D

theorem Follows.nil : Follows [] := nofun

theorem Follows.cons (h : u = 0x2C ∨ u = 0x5D ∨ u = 0x7D) (x : Utf16) :
    Follows (u :: x) := by
  intro v hv
  obtain rfl := Option.some.inj hv
  exact h

theorem hexUnit_hexDigit : ∀ n : Fin 0x10, hexUnit (hexDigit n) = some n.val := by decide

theorem hexUnits_digits (u : UInt16) :
    hexUnits (hexDigit (u.toNat / 0x1000)) (hexDigit (u.toNat / 0x100 % 0x10))
      (hexDigit (u.toNat / 0x10 % 0x10)) (hexDigit (u.toNat % 0x10)) = some u := by
  have hu := u.toNat_lt
  have hdigit : ∀ n < 0x10, hexUnit (hexDigit n) = some n := fun n hn ↦ hexUnit_hexDigit ⟨n, hn⟩
  have hvalue : u.toNat / 0x1000 * 0x1000 + u.toNat / 0x100 % 0x10 * 0x100 +
      u.toNat / 0x10 % 0x10 * 0x10 + u.toNat % 0x10 = u.toNat := by omega
  rw [hexUnits, hdigit _ (by omega), hdigit _ (by omega), hdigit _ (by omega),
    hdigit _ (by omega)]
  simp only [hvalue, UInt16.ofNat_toNat]

theorem unescape_of_short {u second : UInt16} (h : shortEscape u = some second) :
    unescape second = some u ∧ second ≠ 0x75 := by
  unfold shortEscape at h
  split_ifs at h <;> obtain rfl := Option.some.inj h <;> subst u <;> exact ⟨rfl, by decide⟩

/-- A unit that stands for itself. -/
theorem readString_plain (hquote : u ≠ 0x22) (hback : u ≠ 0x5C)
    (hcontrol : ¬u.toNat < 0x20) (rest : Utf16) :
    readString (u :: rest) = (readString rest).map (before u) := by
  rw [readString.eq_def]
  simp only [if_neg hquote, if_neg hback, if_neg hcontrol]

theorem readString_short {second v : UInt16} (hunicode : second ≠ 0x75)
    (h : unescape second = some v) (rest : Utf16) :
    readString (0x5C :: second :: rest) = (readString rest).map (before v) := by
  rw [readString.eq_def]
  simp [hunicode, h]

theorem readString_unicode (u : UInt16) (rest : Utf16) :
    readString (unicodeEscape u ++ rest) = (readString rest).map (before u) := by
  rw [unicodeEscape, readString.eq_def]
  simp [hexUnits_digits]

theorem plain_of_high (h : 0xD800 ≤ u.toNat) :
    u ≠ 0x22 ∧ u ≠ 0x5C ∧ ¬u.toNat < 0x20 := by
  refine ⟨?_, ?_, by omega⟩
  · rintro rfl
    exact absurd h (by decide)
  · rintro rfl
    exact absurd h (by decide)

variable {point : CodePoint}

theorem readString_quotePoint
    (hpaired : ∀ high low, point = .pair high low → isHigh high ∧ isLow low) {rest text x : Utf16}
    (h : readString rest = some (text, x)) :
    readString (quotePoint point ++ rest) = some (point.units ++ text, x) := by
  cases point with
  | pair high low =>
    obtain ⟨hhigh, hlow⟩ := hpaired high low rfl
    obtain ⟨hquote, hback, hcontrol⟩ := plain_of_high hhigh.1
    obtain ⟨hquote', hback', hcontrol'⟩ := plain_of_high (u := low) (by
      have hle := hlow.1
      omega)
    rw [quotePoint, List.cons_append, List.singleton_append, readString_plain hquote hback hcontrol,
      readString_plain hquote' hback' hcontrol', h]
    rfl
  | unit u =>
    simp only [quotePoint]
    cases hshort : shortEscape u with
    | some =>
      obtain ⟨hunescape, hunicode⟩ := unescape_of_short hshort
      simp only [List.cons_append, List.nil_append]
      rw [readString_short hunicode hunescape, h]
      rfl
    | none =>
      split_ifs with hescaped
      · rw [readString_unicode, h]
        rfl
      · have hquote : u ≠ 0x22 := by
          rintro rfl
          exact absurd hshort (by decide)
        rw [List.singleton_append, readString_plain hquote (ne_backslash_of_plain hshort)
          (fun hcontrol ↦ hescaped (Or.inl hcontrol)), h]
        rfl

theorem readString_quotePoints {points : List CodePoint} (h : Paired points) (x : Utf16) :
    readString (points.flatMap quotePoint ++ 0x22 :: x) = some (ofCodePoints points, x) := by
  induction points with
  | nil =>
    rw [List.flatMap_nil, List.nil_append, readString.eq_def]
    rfl
  | cons _ _ ih =>
    rw [List.flatMap_cons, List.append_assoc, ofCodePoints_cons]
    exact readString_quotePoint (fun high low hpoint ↦ h high low (hpoint ▸ List.mem_cons_self))
      (ih h.tail)

theorem quoted_append (text x : Utf16) :
    quoted text ++ x = 0x22 :: ((codePoints text).flatMap quotePoint ++ 0x22 :: x) := by
  simp [quoted]

theorem readString_quoted (text x : Utf16) :
    readString ((codePoints text).flatMap quotePoint ++ 0x22 :: x) = some (text, x) := by
  rw [readString_quotePoints (paired_codePoints text), ofCodePoints_codePoints]

theorem readName_quoted (name x : Utf16) :
    readName (quoted name ++ 0x3A :: x) = some (name, x) := by
  rw [quoted_append, readName, skipSpace_cons (by decide)]
  simp [readString_quoted, skipSpace_cons (by decide : isSpaceUnit 0x3A = false)]

/-! Numbers -/

theorem decimal_head {n : ℕ} (hn : n ≠ 0) : ∃ u rest, decimal n = u :: rest ∧ u ≠ 0x30 := by
  obtain ⟨u, rest, hdecimal⟩ := List.exists_cons_of_ne_nil (decimal_ne_nil n)
  refine ⟨u, rest, hdecimal, ?_⟩
  have hne : Nat.digits 10 n ≠ [] := Nat.digits_ne_nil_iff_ne_zero.mpr hn
  have hlast : (Nat.digits 10 n).getLast hne ≠ 0 := Nat.getLast_digit_ne_zero 10 hn
  have hlt : (Nat.digits 10 n).getLast hne < 10 :=
    Nat.digits_lt_base (by decide) (List.getLast_mem hne)
  have hhead : u = UInt16.ofNat (0x30 + (Nat.digits 10 n).getLast hne) := by
    have hfirst := congrArg List.head? hdecimal
    rw [decimal, digitsOf, if_neg hn, List.head?_map, List.head?_reverse,
      List.getLast?_eq_some_getLast hne] at hfirst
    exact (Option.some.inj hfirst).symm
  rintro rfl
  have hvalue := congrArg UInt16.toNat hhead
  rw [toNat_digit hlt] at hvalue
  have hzero : (0x30 : UInt16).toNat = 0x30 := rfl
  omega

variable {x : Utf16}

theorem readInteger_decimal (n : ℕ) (hx : Follows x) :
    readInteger (decimal n ++ x) = some (decimal n, x) := by
  rcases Nat.eq_zero_or_pos n with rfl | hpos
  · rfl
  have hclosed : Closed x := fun u hu ↦ by
    rcases hx u hu with rfl | rfl | rfl <;> rfl
  obtain ⟨u, rest, hdecimal, hzero⟩ := decimal_head (Nat.ne_of_gt hpos)
  have htake : (decimal n ++ x).takeWhile isDigitUnit = decimal n := by
    rw [List.takeWhile_append_of_pos (decimal_digits n)]
    cases x with
    | nil => simp
    | cons v => simp [hclosed v rfl]
  have hdrop : (decimal n ++ x).dropWhile isDigitUnit = x := by
    rw [List.dropWhile_append_of_pos (decimal_digits n)]
    cases x with
    | nil => rfl
    | cons v => exact List.dropWhile_cons_of_neg (by simp [hclosed v rfl])
  have hread : readInteger (decimal n ++ x) = readDigits (decimal n ++ x) := by
    rw [hdecimal, List.cons_append, readInteger, if_neg hzero]
  rw [hread, readDigits, htake, hdrop, hdecimal]
  rfl

theorem readNumber_decimal (n : ℕ) (hx : Follows x) :
    readNumber (decimal n ++ x) = some (decimal n, x) := by
  have hfraction : readFraction x = some ([], x) := by
    cases x with
    | nil => rfl
    | cons u => rcases hx u rfl with rfl | rfl | rfl <;> rfl
  have hexponent : readExponent x = some ([], x) := by
    cases x with
    | nil => rfl
    | cons u => rcases hx u rfl with rfl | rfl | rfl <;> rfl
  have hunsigned : readUnsigned (decimal n ++ x) = some (decimal n, x) := by
    rw [readUnsigned, readInteger_decimal n hx]
    simp [hfraction, hexponent]
  obtain ⟨u, rest, hdecimal⟩ := List.exists_cons_of_ne_nil (decimal_ne_nil n)
  have hsign : u ≠ 0x2D := by
    rintro rfl
    exact absurd (decimal_digits n 0x2D (hdecimal ▸ List.mem_cons_self)) (by decide)
  rw [hdecimal, List.cons_append, readNumber, if_neg hsign, ← List.cons_append, ← hdecimal,
    hunsigned]

/-! Values -/

/-- A record begins with no space, and as nothing that closes an array does. -/
theorem stringify_starts (a : Record) :
    ∃ u rest, stringify a = u :: rest ∧ isSpaceUnit u = false ∧ u ≠ 0x5D := by
  obtain ⟨u, rest, ha, hkind⟩ := stringify_head a
  have hsome : kindOfUnit u ≠ .none := by
    rw [hkind]
    cases a <;> exact nofun
  refine ⟨u, rest, ha, ?_, ?_⟩
  · by_contra hspace
    simp only [Bool.not_eq_false, isSpaceUnit, Bool.or_eq_true, beq_iff_eq] at hspace
    rcases hspace with ((rfl | rfl) | rfl) | rfl <;> exact hsome rfl
  · rintro rfl
    exact hsome rfl

theorem follows_stringifyItems (items : List Record) (x : Utf16) :
    Follows (stringifyItems items ++ x) := by
  cases items <;> rw [stringifyItems] <;> exact Follows.cons (by decide) _

theorem follows_stringifyMembers (members : List (Utf16 × Record)) (x : Utf16) :
    Follows (stringifyMembers members ++ x) := by
  cases members <;> rw [stringifyMembers] <;> exact Follows.cons (by decide) _

theorem readValue_decimal (n fuel : ℕ) (hx : Follows x) :
    readValue (fuel + 1) (decimal n ++ x) = some (.number (decimal n), x) := by
  obtain ⟨u, rest, hdecimal⟩ := List.exists_cons_of_ne_nil (decimal_ne_nil n)
  have hdigit : isDigitUnit u = true := decimal_digits n u (hdecimal ▸ List.mem_cons_self)
  have hspace : isSpaceUnit u = false := by
    obtain ⟨v, rest', hv, hspace, -⟩ := stringify_starts (.number n)
    rw [stringify, hdecimal] at hv
    exact (List.cons.inj hv).1 ▸ hspace
  have hother : ∀ v : UInt16, isDigitUnit v = false → u ≠ v := by
    rintro v hv rfl
    exact absurd (hdigit.symm.trans hv) (by decide)
  have hnumber := readNumber_decimal n hx
  rw [hdecimal, List.cons_append] at hnumber ⊢
  rw [readValue, skipSpace_cons hspace]
  simp only [if_neg (hother 0x22 (by decide)), if_neg (hother 0x5B (by decide)),
    if_neg (hother 0x7B (by decide)), if_neg (hother 0x6E (by decide)),
    if_neg (hother 0x74 (by decide)), if_neg (hother 0x66 (by decide)), hnumber, Option.map_some]

mutual

/-- A value as it is written is read as it is. -/
theorem readValue_stringify : ∀ (a : Record) (fuel : ℕ) {x : Utf16},
    (stringify a).length ≤ fuel → Follows x →
      readValue fuel (stringify a ++ x) = some (a.parsed, x)
  | a, 0, x, h, _ => by
    obtain ⟨u, rest, ha, -⟩ := stringify_starts a
    rw [ha] at h
    exact absurd h (by simp)
  | .null, fuel + 1, x, _, _ => by rw [stringify, Record.parsed]; rfl
  | .bool true, fuel + 1, x, _, _ => by rw [stringify, Record.parsed]; rfl
  | .bool false, fuel + 1, x, _, _ => by rw [stringify, Record.parsed]; rfl
  | .number n, fuel + 1, x, _, hx => by
    rw [stringify, Record.parsed]
    exact readValue_decimal n fuel hx
  | .string text, fuel + 1, x, _, _ => by
    rw [stringify, quoted_append, readValue, skipSpace_cons (by decide), Record.parsed]
    simp [readString_quoted]
  | .array [], fuel + 1, x, _, _ => by rw [stringify, Record.parsed, parsedItems]; rfl
  | .array (item :: items), fuel + 1, x, h, _ => by
    simp only [stringify, List.length_cons, List.length_append, Nat.add_le_add_iff_right] at h
    obtain ⟨u, rest, hitem, hspace, hclose⟩ := stringify_starts item
    have hvalue := readValue_stringify item fuel (x := stringifyItems items ++ x) (by omega)
      (follows_stringifyItems items x)
    have hitems := readItems_stringify items fuel (x := x) (by omega)
    rw [hitem, List.cons_append] at hvalue
    rw [stringify, Record.parsed, parsedItems, List.cons_append, List.append_assoc, readValue,
      skipSpace_cons (by decide), hitem, List.cons_append]
    simp [skipSpace_cons hspace, hclose, hvalue, hitems]
  | .object [], fuel + 1, x, _, _ => by rw [stringify, Record.parsed, parsedMembers]; rfl
  | .object ((name, value) :: members), fuel + 1, x, h, _ => by
    simp only [stringify, List.length_cons, List.length_append, Nat.add_le_add_iff_right] at h
    have hname := readName_quoted name (stringify value ++ (stringifyMembers members ++ x))
    have hvalue := readValue_stringify value fuel (x := stringifyMembers members ++ x) (by omega)
      (follows_stringifyMembers members x)
    have hmembers := readMembers_stringify members fuel (x := x) (by omega)
    rw [quoted_append] at hname
    rw [stringify, Record.parsed, parsedMembers, List.cons_append, List.append_assoc,
      List.cons_append, List.append_assoc, quoted_append, readValue, skipSpace_cons (by decide)]
    simp [skipSpace_cons (by decide : isSpaceUnit 0x22 = false), hname, hvalue, hmembers]

theorem readItems_stringify : ∀ (items : List Record) (fuel : ℕ) {x : Utf16},
    (stringifyItems items).length ≤ fuel →
      readItems fuel (stringifyItems items ++ x) = some (parsedItems items, x)
  | [], 0, x, h => absurd h (by simp [stringifyItems])
  | _ :: _, 0, x, h => absurd h (by simp [stringifyItems])
  | [], fuel + 1, x, _ => by rw [stringifyItems, parsedItems]; rfl
  | item :: items, fuel + 1, x, h => by
    simp only [stringifyItems, List.length_cons, List.length_append,
      Nat.add_le_add_iff_right] at h
    have hvalue := readValue_stringify item fuel (x := stringifyItems items ++ x) (by omega)
      (follows_stringifyItems items x)
    have hitems := readItems_stringify items fuel (x := x) (by omega)
    rw [stringifyItems, parsedItems, List.cons_append, List.append_assoc, readItems,
      skipSpace_cons (by decide)]
    simp [hvalue, hitems]

theorem readMembers_stringify : ∀ (members : List (Utf16 × Record)) (fuel : ℕ) {x : Utf16},
    (stringifyMembers members).length ≤ fuel →
      readMembers fuel (stringifyMembers members ++ x) = some (parsedMembers members, x)
  | [], 0, x, h => absurd h (by simp [stringifyMembers])
  | _ :: _, 0, x, h => absurd h (by simp [stringifyMembers])
  | [], fuel + 1, x, _ => by rw [stringifyMembers, parsedMembers]; rfl
  | (name, value) :: members, fuel + 1, x, h => by
    simp only [stringifyMembers, List.length_cons, List.length_append,
      Nat.add_le_add_iff_right] at h
    have hname := readName_quoted name (stringify value ++ (stringifyMembers members ++ x))
    have hvalue := readValue_stringify value fuel (x := stringifyMembers members ++ x) (by omega)
      (follows_stringifyMembers members x)
    have hmembers := readMembers_stringify members fuel (x := x) (by omega)
    rw [stringifyMembers, parsedMembers, List.cons_append, List.append_assoc, List.cons_append,
      List.append_assoc, readMembers, skipSpace_cons (by decide)]
    simp [hname, hvalue, hmembers]

end

/-- What is written is read back. -/
theorem parseJson_stringify (a : Record) : parseJson (stringify a) = some a.parsed := by
  have hread := readValue_stringify a ((stringify a).length + 1) (Nat.le_succ _) Follows.nil
  rw [List.append_nil] at hread
  rw [parseJson, hread]
  rfl

/-! ### What is written is well formed -/

theorem wellFormed_quotePoint
    (hpaired : ∀ high low, point = .pair high low → isHigh high ∧ isLow low) :
    WellFormed (quotePoint point) := by
  have hhex : ∀ n : Fin 0x10, (hexDigit n).toNat < 0xD800 := by decide
  cases point with
  | pair high low =>
    obtain ⟨hhigh, hlow⟩ := hpaired high low rfl
    exact .pair hhigh hlow
  | unit u =>
    simp only [quotePoint]
    cases hshort : shortEscape u with
    | some =>
      refine .of_small fun v hv ↦ ?_
      unfold shortEscape at hshort
      split_ifs at hshort <;> obtain rfl := Option.some.inj hshort <;>
        · simp only [List.mem_cons, List.not_mem_nil, or_false] at hv
          rcases hv with rfl | rfl <;> decide
    | none =>
      split_ifs with hescaped
      · have hu := u.toNat_lt
        refine .of_small fun v hv ↦ ?_
        simp only [unicodeEscape, List.mem_cons, List.not_mem_nil, or_false] at hv
        rcases hv with rfl | rfl | rfl | rfl | rfl | rfl
        · decide
        · decide
        · exact hhex ⟨u.toNat / 0x1000, by omega⟩
        · exact hhex ⟨u.toNat / 0x100 % 0x10, by omega⟩
        · exact hhex ⟨u.toNat / 0x10 % 0x10, by omega⟩
        · exact hhex ⟨u.toNat % 0x10, by omega⟩
      · exact .unit (fun hhigh ↦ hescaped (Or.inr (Or.inl hhigh)))
          fun hlow ↦ hescaped (Or.inr (Or.inr hlow))

theorem wellFormed_quoted (text : Utf16) : WellFormed (quoted text) := by
  have hpoints : ∀ {points : List CodePoint}, Paired points →
      WellFormed (points.flatMap quotePoint) := by
    intro points hpaired
    induction points with
    | nil => exact .nil
    | cons _ _ ih =>
      rw [List.flatMap_cons]
      exact (wellFormed_quotePoint fun high low hpoint ↦
        hpaired high low (hpoint ▸ List.mem_cons_self)).append (ih hpaired.tail)
  have hquote : WellFormed [0x22] := .of_all (by decide)
  exact hquote.append ((hpoints (paired_codePoints text)).append hquote)

theorem wellFormed_decimal (n : ℕ) : WellFormed (decimal n) := by
  refine .of_small fun u hu ↦ ?_
  have hdigit := decimal_digits n u hu
  simp only [isDigitUnit, Bool.and_eq_true, decide_eq_true_eq] at hdigit
  omega

mutual

/-- No surrogate stands alone in what is written. -/
theorem wellFormed_stringify : ∀ a : Record, WellFormed (stringify a)
  | .null => .of_all (by rw [stringify]; decide)
  | .bool true => .of_all (by rw [stringify]; decide)
  | .bool false => .of_all (by rw [stringify]; decide)
  | .number n => by rw [stringify]; exact wellFormed_decimal n
  | .string text => by rw [stringify]; exact wellFormed_quoted text
  | .array [] => .of_all (by rw [stringify]; decide)
  | .array (item :: items) => by
    rw [stringify]
    exact .cons (by decide) (by decide)
      ((wellFormed_stringify item).append (wellFormed_stringifyItems items))
  | .object [] => .of_all (by rw [stringify]; decide)
  | .object ((name, value) :: members) => by
    rw [stringify]
    exact .cons (by decide) (by decide) ((wellFormed_quoted name).append
      (.cons (by decide) (by decide)
        ((wellFormed_stringify value).append (wellFormed_stringifyMembers members))))

theorem wellFormed_stringifyItems : ∀ items : List Record, WellFormed (stringifyItems items)
  | [] => .of_all (by rw [stringifyItems]; decide)
  | item :: items => by
    rw [stringifyItems]
    exact .cons (by decide) (by decide)
      ((wellFormed_stringify item).append (wellFormed_stringifyItems items))

theorem wellFormed_stringifyMembers : ∀ members : List (Utf16 × Record),
    WellFormed (stringifyMembers members)
  | [] => .of_all (by rw [stringifyMembers]; decide)
  | (name, value) :: members => by
    rw [stringifyMembers]
    exact .cons (by decide) (by decide) ((wellFormed_quoted name).append
      (.cons (by decide) (by decide)
        ((wellFormed_stringify value).append (wellFormed_stringifyMembers members))))

end

end Odudu.Texts
