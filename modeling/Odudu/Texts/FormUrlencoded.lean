import Mathlib.Data.List.Basic

/-!
# `application/x-www-form-urlencoded`

Pairs of names and values as the text of a query: the bytes of a text are written as they are,
as a plus sign, or with a percent sign and two digits.  What is written is read back
(`parseForm_serializeForm`).

A part that is no UTF-8 once its signs are read is kept as it was sent.
-/

set_option autoImplicit false

namespace Odudu.Texts

/-! ### Bytes -/

def hexChar (n : ℕ) : Char := Char.ofNat (if n < 10 then 0x30 + n else 0x37 + n)

def hexCharValue (c : Char) : Option ℕ :=
  if c.isDigit then some (c.toNat - 0x30)
  else if 0x41 ≤ c.toNat ∧ c.toNat ≤ 0x46 then some (c.toNat - 0x37)
  else if 0x61 ≤ c.toNat ∧ c.toNat ≤ 0x66 then some (c.toNat - 0x57)
  else none

/-- The bytes that are written as they are: letters, digits and four signs. -/
def isPlainByte (b : UInt8) : Bool :=
  let c := Char.ofNat b.toNat
  decide (b.toNat < 0x80) && (c.isAlphanum || c == '*' || c == '-' || c == '.' || c == '_')

def encodeByte (b : UInt8) : List Char :=
  if b.toNat = 0x20 then ['+']
  else if isPlainByte b then [Char.ofNat b.toNat]
  else ['%', hexChar (b.toNat / 0x10), hexChar (b.toNat % 0x10)]

/-- A plus sign is a space, and a percent sign stands before two digits. -/
def decodeBytes : List Char → List UInt8
  | [] => []
  | c :: rest =>
    if c = '+' then 0x20 :: decodeBytes rest
    else if c = '%' then
      match rest with
      | a :: b :: rest' =>
        match hexCharValue a, hexCharValue b with
        | some high, some low => UInt8.ofNat (high * 0x10 + low) :: decodeBytes rest'
        | _, _ => 0x25 :: decodeBytes (a :: b :: rest')
      | [a] => 0x25 :: decodeBytes [a]
      | [] => [0x25]
    else String.utf8EncodeChar c ++ decodeBytes rest

theorem decodeBytes_plus (rest : List Char) :
    decodeBytes ('+' :: rest) = 0x20 :: decodeBytes rest := by
  rw [decodeBytes.eq_def]
  rfl

theorem decodeBytes_escape {a b : Char} {high low : ℕ} (ha : hexCharValue a = some high)
    (hb : hexCharValue b = some low) (rest : List Char) :
    decodeBytes ('%' :: a :: b :: rest) =
      UInt8.ofNat (high * 0x10 + low) :: decodeBytes rest := by
  rw [decodeBytes.eq_def]
  simp [ha, hb]

variable {c : Char}

theorem decodeBytes_plain (hplus : c ≠ '+') (hpercent : c ≠ '%') (rest : List Char) :
    decodeBytes (c :: rest) = String.utf8EncodeChar c ++ decodeBytes rest := by
  rw [decodeBytes.eq_def]
  simp only [if_neg hplus, if_neg hpercent]

theorem hexCharValue_hexChar : ∀ n : Fin 0x10, hexCharValue (hexChar n) = some n.val := by decide

theorem plain_byte : ∀ n : Fin 0x100, isPlainByte (UInt8.ofNat n) = true →
    Char.ofNat n ∉ ['+', '%', '&', '='] ∧
      String.utf8EncodeChar (Char.ofNat n) = [UInt8.ofNat n] := by
  decide +kernel

theorem decodeBytes_encodeByte (b : UInt8) (rest : List Char) :
    decodeBytes (encodeByte b ++ rest) = b :: decodeBytes rest := by
  have hb : b.toNat < 0x100 := b.toNat_lt
  unfold encodeByte
  split
  case isTrue hspace =>
    have hback : b = 0x20 := UInt8.toNat_inj.mp hspace
    rw [List.singleton_append, decodeBytes_plus, hback]
  case isFalse =>
    split
    case isTrue hplain =>
      have hofNat : UInt8.ofNat b.toNat = b := UInt8.ofNat_toNat
      obtain ⟨hsigns, hbytes⟩ := plain_byte ⟨b.toNat, hb⟩ (hofNat.symm ▸ hplain)
      simp only [List.mem_cons, not_or] at hsigns
      rw [List.singleton_append, decodeBytes_plain hsigns.1 hsigns.2.1, hbytes, hofNat,
        List.singleton_append]
    case isFalse =>
      have hhigh := hexCharValue_hexChar ⟨b.toNat / 0x10, by omega⟩
      have hlow := hexCharValue_hexChar ⟨b.toNat % 0x10, by omega⟩
      have hsum : b.toNat / 0x10 * 0x10 + b.toNat % 0x10 = b.toNat := by omega
      simp only [List.cons_append, List.nil_append]
      rw [decodeBytes_escape hhigh hlow, hsum, UInt8.ofNat_toNat]

theorem decodeBytes_encode (bytes : List UInt8) :
    decodeBytes (bytes.flatMap encodeByte) = bytes := by
  induction bytes with
  | nil => rfl
  | cons _ _ ih => rw [List.flatMap_cons, decodeBytes_encodeByte, ih]

/-- What is written has no sign that parts pairs, or names from values. -/
theorem signs_encodeByte {b : UInt8} (h : c ∈ encodeByte b) : c ≠ '&' ∧ c ≠ '=' := by
  have hb : b.toNat < 0x100 := b.toNat_lt
  have hhex : ∀ n : Fin 0x10, hexChar n ≠ '&' ∧ hexChar n ≠ '=' := by decide
  unfold encodeByte at h
  split at h
  case isTrue =>
    obtain rfl := List.mem_singleton.mp h
    decide
  case isFalse =>
    split at h
    case isTrue hplain =>
      obtain rfl := List.mem_singleton.mp h
      have hofNat : UInt8.ofNat b.toNat = b := UInt8.ofNat_toNat
      obtain ⟨hsigns, -⟩ := plain_byte ⟨b.toNat, hb⟩ (hofNat.symm ▸ hplain)
      simp only [List.mem_cons, List.not_mem_nil, or_false, not_or] at hsigns
      exact hsigns.2.2
    case isFalse =>
      simp only [List.mem_cons, List.not_mem_nil, or_false] at h
      rcases h with rfl | rfl | rfl
      · decide
      · exact hhex ⟨b.toNat / 0x10, by omega⟩
      · exact hhex ⟨b.toNat % 0x10, by omega⟩

/-! ### Names and values -/

def encodePart (text : String) : List Char := text.toByteArray.data.toList.flatMap encodeByte

def decodePart (chars : List Char) : String :=
  (String.fromUTF8? ⟨(decodeBytes chars).toArray⟩).getD (String.ofList chars)

theorem decodePart_encodePart (text : String) : decodePart (encodePart text) = text := by
  have hbytes : (⟨(decodeBytes (encodePart text)).toArray⟩ : ByteArray) = text.toByteArray := by
    rw [encodePart, decodeBytes_encode]
  rw [decodePart, hbytes, String.fromUTF8?, dif_pos text.isValidUTF8]
  rfl

theorem signs_encodePart {text : String} (h : c ∈ encodePart text) :
    c ≠ '&' ∧ c ≠ '=' := by
  obtain ⟨b, -, hb⟩ := List.mem_flatMap.mp h
  exact signs_encodeByte hb

/-! ### Pairs -/

def encodePair (pair : String × String) : List Char :=
  encodePart pair.1 ++ '=' :: encodePart pair.2

/-- `URLSearchParams.prototype.toString` -/
def serializeForm (pairs : List (String × String)) : List Char :=
  ['&'].intercalate (pairs.map encodePair)

/-- A pair is parted at the first equals sign. -/
def decodePair (chars : List Char) : String × String :=
  (decodePart (chars.takeWhile (· != '=')), decodePart ((chars.dropWhile (· != '=')).drop 1))

def parseForm (query : List Char) : List (String × String) :=
  ((query.splitOn '&').filter fun part ↦ !part.isEmpty).map decodePair

theorem decodePair_encodePair (pair : String × String) : decodePair (encodePair pair) = pair := by
  have hname : ∀ c ∈ encodePart pair.1, (c != '=') = true :=
    fun c hc ↦ bne_iff_ne.mpr (signs_encodePart hc).2
  have htake : (encodePair pair).takeWhile (· != '=') = encodePart pair.1 := by
    rw [encodePair, List.takeWhile_append_of_pos hname, List.takeWhile_cons_of_neg (by simp),
      List.append_nil]
  have hdrop : (encodePair pair).dropWhile (· != '=') = '=' :: encodePart pair.2 := by
    rw [encodePair, List.dropWhile_append_of_pos hname, List.dropWhile_cons_of_neg (by simp)]
  rw [decodePair, htake, hdrop, List.drop_one, List.tail_cons, decodePart_encodePart,
    decodePart_encodePart]

/-- What is written is read back. -/
theorem parseForm_serializeForm (pairs : List (String × String)) :
    parseForm (serializeForm pairs) = pairs := by
  cases hpairs : pairs with
  | nil => rfl
  | cons =>
    rw [← hpairs]
    have hsplit : (serializeForm pairs).splitOn '&' = pairs.map encodePair := by
      refine List.splitOn_intercalate '&' (fun part hpart hsign ↦ ?_) (by simp [hpairs])
      obtain ⟨pair, -, rfl⟩ := List.mem_map.mp hpart
      rcases List.mem_append.mp hsign with hname | hvalue
      · exact (signs_encodePart hname).1 rfl
      · rcases List.mem_cons.mp hvalue with heq | hvalue
        · exact absurd heq (by decide)
        · exact (signs_encodePart hvalue).1 rfl
    have hfilter : (pairs.map encodePair).filter (fun part ↦ !part.isEmpty) =
        pairs.map encodePair := by
      refine List.filter_eq_self.mpr fun part hpart ↦ ?_
      obtain ⟨pair, -, rfl⟩ := List.mem_map.mp hpart
      simp [encodePair]
    rw [parseForm, hsplit, hfilter, List.map_map]
    exact List.map_id'' decodePair_encodePair pairs

/-! ### The query of a link -/

/-- What comes after the first question mark. -/
def queryOf (url : List Char) : List Char := (url.dropWhile (· != '?')).drop 1

theorem queryOf_append {path query : List Char} (h : '?' ∉ path) :
    queryOf (path ++ '?' :: query) = query := by
  have hpath : ∀ c ∈ path, (c != '?') = true := fun c hc ↦ bne_iff_ne.mpr fun heq ↦ h (heq ▸ hc)
  rw [queryOf, List.dropWhile_append_of_pos hpath, List.dropWhile_cons_of_neg (by simp),
    List.drop_one, List.tail_cons]

example : serializeForm [("scope", "openid é"), ("state", "a&b")] =
    "scope=openid+%C3%A9&state=a%26b".toList := by
  decide

end Odudu.Texts
