import Odudu.Numbers.BitOperators
import Odudu.Numbers.Regrouping

/-!
# Secrets in base32

`base32Encode` and `base32Decode` of `service/totp.ts`: bytes are shifted into one number and read
off it five bits at a time, and back.  The number is one of the language's, whose shifts keep
thirty-two bits, and nothing takes off it what was read.

However long the input is, the number is what is left of the whole number that was shifted in, and
what is read off it are the digits of that (`encodeBytes_eq`, `decodeChars_eq`).  So the secret
is got back (`base32_round_trip`).

A text is its characters; an error is its message.
-/

set_option autoImplicit false

namespace Odudu.Crypto.Totp

open Numbers

structure RangeError where
  message : String
  deriving DecidableEq

def BASE32_ALPHABET : List Char := "ABCDEFGHIJKLMNOPQRSTUVWXYZ234567".toList

def alphabetChar (index : ℤ) : Except RangeError Char :=
  match if 0 ≤ index then BASE32_ALPHABET[index.toNat]? else none with
  | some char => .ok char
  | none => .error ⟨"base32 alphabet index out of range: " ++ toString index⟩

/-- The variables of `base32Encode`. -/
structure Encoding where
  bits : ℕ
  value : ℤ
  output : List Char

/-- The `while` loop. -/
def emitDigits (value : ℤ) (bits : ℕ) (output : List Char) :
    Except RangeError (ℕ × List Char) :=
  if 5 ≤ bits then do
    let char ← alphabetChar (bitAnd (shiftRightUnsigned value (bits - 5)) 0x1f)
    emitDigits value (bits - 5) (output ++ [char])
  else .ok (bits, output)
termination_by bits

def encodeByte (s : Encoding) (byte : UInt8) : Except RangeError Encoding := do
  let value := bitOr (shiftLeft s.value 8) byte.toNat
  let (bits, output) ← emitDigits value (s.bits + 8) s.output
  .ok ⟨bits, value, output⟩

/-- The `for` loop. -/
def encodeBytes (bytes : List UInt8) : Except RangeError Encoding :=
  bytes.foldlM encodeByte ⟨0, 0, []⟩

def base32Encode (bytes : List UInt8) : Except RangeError (List Char) := do
  let s ← encodeBytes bytes
  if 0 < s.bits then do
    let char ← alphabetChar (bitAnd (shiftLeft s.value (5 - s.bits)) 0x1f)
    .ok (s.output ++ [char])
  else .ok s.output

/-- The variables of `base32Decode`. -/
structure Decoding where
  bits : ℕ
  value : ℤ
  bytes : List ℤ

/-- `BASE32_ALPHABET.indexOf(char)` -/
def alphabetIndex (char : Char) : ℤ :=
  match BASE32_ALPHABET.idxOf? char with
  | some index => index
  | none => -1

def decodeChar (s : Decoding) (char : Char) : Except RangeError Decoding :=
  let index := alphabetIndex char
  if index = -1 then .error ⟨"not a base32 character: " ++ char.toString⟩
  else
    let value := bitOr (shiftLeft s.value 5) index
    let bits := s.bits + 5
    if 8 ≤ bits then
      .ok ⟨bits - 8, value, s.bytes ++ [bitAnd (shiftRightUnsigned value (bits - 8)) 0xff]⟩
    else .ok ⟨bits, value, s.bytes⟩

/-- The `for` loop. -/
def decodeChars (encoded : List Char) : Except RangeError Decoding :=
  encoded.foldlM decodeChar ⟨0, 0, []⟩

/-- `Buffer.from`, which takes each number modulo 256. -/
def bufferFrom (bytes : List ℤ) : List UInt8 := bytes.map UInt8.ofInt

def base32Decode (encoded : List Char) : Except RangeError (List UInt8) := do
  let s ← decodeChars encoded
  .ok (bufferFrom s.bytes)

/-! ### Digits and characters -/

/-- The character of a digit of five bits. -/
def digitChar (digit : ℕ) : Char := BASE32_ALPHABET.getD digit 'A'

theorem alphabetChar_digit : ∀ digit < 32, alphabetChar (digit : ℕ) = .ok (digitChar digit) := by
  decide

theorem alphabetIndex_digitChar : ∀ digit < 32, alphabetIndex (digitChar digit) = (digit : ℕ) := by
  decide

theorem alphabetChar_mod (number : ℕ) :
    alphabetChar (number % 2 ^ 5 : ℕ) = .ok (digitChar (number % 2 ^ 5)) :=
  alphabetChar_digit _ (Nat.mod_lt number (Nat.two_pow_pos 5))

/-! ### The loops over whole numbers -/

theorem mask_five : (0x1f : ℤ) = (2 ^ 5 - 1 : ℕ) := rfl

theorem mask_eight : (0xff : ℤ) = (2 ^ 8 - 1 : ℕ) := rfl

/-- The variables, where a register of whole numbers is what was shifted in and what was read. -/
def Encoding.of (r : Register) : Encoding := ⟨r.bits, int32 r.number, r.digits.map digitChar⟩

def Decoding.of (r : Register) : Decoding :=
  ⟨r.bits, int32 r.number, r.digits.map Nat.cast⟩

theorem emitDigits_eq (number : ℕ) {bits : ℕ} (hbits : bits ≤ 32) (output : List Char) :
    emitDigits (int32 number) bits output =
      .ok (bits % 5, output ++ (taken 5 number bits).map digitChar) := by
  induction bits using Nat.strong_induction_on generalizing output with
  | _ bits ih =>
    rcases Nat.lt_or_ge bits 5 with hlt | hle
    · rw [emitDigits, if_neg (Nat.not_le.mpr hlt), taken_of_lt number hlt, Nat.mod_eq_of_lt hlt,
        List.map_nil, List.append_nil]
    · have hmod : (bits - 5) % 5 = bits % 5 := (Nat.mod_eq_sub_mod hle).symm
      have hrest := ih (bits - 5) (by omega) (by omega)
        (output ++ [digitChar (number / 2 ^ (bits - 5) % 2 ^ 5)])
      rw [emitDigits, if_pos hle, mask_five, int32_digit number (by omega) (by omega) (by omega),
        alphabetChar_mod]
      refine hrest.trans ?_
      rw [hmod, taken_of_le number (by omega) hle, List.map_cons, List.append_assoc,
        List.singleton_append]

theorem encodeByte_of {r : Register} (hbits : r.bits < 5) (byte : UInt8) :
    encodeByte (.of r) byte = .ok (.of (r.shift 8 5 byte.toNat)) := by
  have hvalue : bitOr (shiftLeft (int32 r.number) 8) byte.toNat =
      int32 (r.number * 2 ^ 8 + byte.toNat) :=
    int32_shift r.number (by omega) byte.toNat_lt
  have hemit := emitDigits_eq (r.number * 2 ^ 8 + byte.toNat) (by omega : r.bits + 8 ≤ 32)
    (r.digits.map digitChar)
  simp only [encodeByte, Encoding.of, hvalue, hemit, Register.shift, List.map_append]
  rfl

theorem encodeBytes_eq (bytes : List UInt8) :
    encodeBytes bytes = .ok (.of (regroup 8 5 (bytes.map UInt8.toNat))) := by
  induction bytes using List.reverseRecOn with
  | nil => rfl
  | append_singleton bytes byte ih =>
    have hbits : (regroup 8 5 (bytes.map UInt8.toNat)).bits < 5 := by
      rw [bits_regroup]
      exact Nat.mod_lt _ (by omega)
    have hbyte := encodeByte_of hbits byte
    rw [encodeBytes] at ih
    rw [encodeBytes, List.foldlM_append, ih, List.map_append, List.map_singleton, regroup_concat,
      ← hbyte]
    exact bind_pure (m := Except RangeError) _

/-- The digits of five bits of some bytes, filled up with zeros. -/
def digitsOf (bytes : List UInt8) : List ℕ := (regroup 8 5 (bytes.map UInt8.toNat)).padded 5

theorem base32Encode_eq (bytes : List UInt8) :
    base32Encode bytes = .ok ((digitsOf bytes).map digitChar) := by
  have hlt : (regroup 8 5 (bytes.map UInt8.toNat)).bits < 5 := by
    rw [bits_regroup]
    exact Nat.mod_lt _ (by omega)
  rw [base32Encode, encodeBytes_eq, digitsOf]
  generalize regroup 8 5 (bytes.map UInt8.toNat) = r at hlt
  show (if 0 < r.bits then
    alphabetChar (bitAnd (shiftLeft (int32 r.number) (5 - r.bits)) 0x1f) >>= _ else _) = _
  unfold Register.padded
  split
  next =>
    rw [mask_five, int32_filled r.number (by omega) (by omega), alphabetChar_mod,
      List.map_append, List.map_singleton]
    rfl
  next => rfl

theorem decodeChar_of {r : Register} (hbits : r.bits < 8) {digit : ℕ} (hdigit : digit < 32) :
    decodeChar (.of r) (digitChar digit) = .ok (.of (r.shift 5 8 digit)) := by
  have hvalue : bitOr (shiftLeft (int32 r.number) 5) (digit : ℕ) =
      int32 (r.number * 2 ^ 5 + digit) :=
    int32_shift r.number (by omega) hdigit
  rw [decodeChar, alphabetIndex_digitChar digit hdigit, if_neg (by omega)]
  simp only [Decoding.of, hvalue]
  split
  next hle =>
    have hlt : r.bits + 5 - 8 < 8 := by omega
    have hmod : (r.bits + 5) % 8 = r.bits + 5 - 8 := by omega
    rw [mask_eight, int32_digit _ (by omega) (by omega) (by omega), Register.shift, hmod,
      taken_of_le _ (by omega) hle, taken_of_lt _ hlt, List.map_append, List.map_singleton]
  next hgt =>
    have hlt : r.bits + 5 < 8 := Nat.not_le.mp hgt
    rw [Register.shift, Nat.mod_eq_of_lt hlt, taken_of_lt _ hlt, List.append_nil]

theorem decodeChars_eq {digits : List ℕ} (hdigits : ∀ digit ∈ digits, digit < 2 ^ 5) :
    decodeChars (digits.map digitChar) = .ok (.of (regroup 5 8 digits)) := by
  induction digits using List.reverseRecOn with
  | nil => rfl
  | append_singleton digits digit ih =>
    have hbefore := ih fun d hd ↦ hdigits d (List.mem_append_left _ hd)
    have hdigit : digit < 2 ^ 5 := hdigits digit (List.mem_append_right _ List.mem_cons_self)
    have hbits : (regroup 5 8 digits).bits < 8 := by
      rw [bits_regroup]
      exact Nat.mod_lt _ (by omega)
    have hchar := decodeChar_of hbits hdigit
    rw [decodeChars] at hbefore
    rw [decodeChars, List.map_append, List.map_singleton, List.foldlM_append, hbefore,
      regroup_concat, ← hchar]
    exact bind_pure (m := Except RangeError) _

theorem bufferFrom_bytes (bytes : List UInt8) :
    bufferFrom ((bytes.map UInt8.toNat).map Nat.cast) = bytes := by
  have hbyte : ∀ byte : UInt8, UInt8.ofInt (byte.toNat : ℕ) = byte := by
    intro byte
    have hmod : ((byte.toNat : ℤ) % 2 ^ 8).toNat = byte.toNat := by
      have hlt := byte.toNat_lt
      omega
    rw [UInt8.ofInt, hmod, UInt8.ofNat_toNat]
  rw [bufferFrom, List.map_map, List.map_map]
  exact (List.map_congr_left fun byte _ ↦ hbyte byte).trans (List.map_id _)

/-- A secret is got back from its text.  However long it is, the variables of both loops are what
is left of the whole number that was shifted in, and what was read off it are that number's
digits. -/
theorem base32_round_trip (bytes : List UInt8) :
    (base32Encode bytes >>= base32Decode) = .ok bytes ∧
    encodeBytes bytes = .ok (.of (regroup 8 5 (bytes.map UInt8.toNat))) ∧
    base32Encode bytes = .ok ((digitsOf bytes).map digitChar) ∧
    decodeChars ((digitsOf bytes).map digitChar) = .ok (.of (regroup 5 8 (digitsOf bytes))) := by
  have hbytes : ∀ d ∈ bytes.map UInt8.toNat, d < 2 ^ 8 := by
    intro d hd
    obtain ⟨byte, -, rfl⟩ := List.mem_map.mp hd
    exact byte.toNat_lt
  have hencode := base32Encode_eq bytes
  have hdecode : decodeChars ((digitsOf bytes).map digitChar) =
      .ok (.of (regroup 5 8 (digitsOf bytes))) := decodeChars_eq (padded_lt _)
  refine ⟨?_, encodeBytes_eq bytes, hencode, hdecode⟩
  rw [hencode]
  show base32Decode _ = _
  rw [base32Decode, hdecode]
  show Except.ok (bufferFrom ((regroup 5 8 (digitsOf bytes)).digits.map Nat.cast)) = _
  rw [digitsOf, regroup_padded (by omega) (by omega) hbytes, bufferFrom_bytes]

end Odudu.Crypto.Totp
