import Odudu.Addresses.IpText

/-!
# The outbound address guard

Which resolved addresses a request may be sent to (`service/remote-address.ts`).  Texts are
lists of characters.  The platform's `isIPv4` and `isIPv6` are given; the text of a refusal
names the address as it was given, a verdict does not.
-/

set_option autoImplicit false

namespace Odudu.ProtocolOidc.RemoteAddress

open Addresses

/-- `node:net` -/
structure Platform where
  isIPv4 : Text → Bool
  isIPv6 : Text → Bool

/-- Why an address is refused. -/
inductive RemoteAddressRefused where
  | notAnAddress
  | notIPv4
  | notIPv6
  | loopback
  | unspecified
  | linkLocal
  | broadcast
  | reserved
  | multicast
  | protocolAssignment
  | carrierGradeNat
  | isPrivate
  | uniqueLocal
  deriving DecidableEq

abbrev Verdict : Type := Except RemoteAddressRefused Unit

/-- `Number`, of decimal digits. -/
def number (text : Text) : ℕ := Nat.ofDigitChars 10 text 0

/-- The first four parts between dots. -/
def ipv4Octets (address : Text) : Except RemoteAddressRefused (ℕ × ℕ × ℕ × ℕ) :=
  match (address.splitOn '.').map number with
  | a :: b :: c :: d :: _ => .ok (a, b, c, d)
  | _ => .error .notIPv4

def assertPublicIPv4 (address : Text) (allowPrivate : Bool) : Verdict :=
  match ipv4Octets address with
  | .error refused => .error refused
  | .ok (a, b, c, d) =>
    if a = 127 then .error .loopback
    else if a = 0 then .error .unspecified
    else if a = 169 ∧ b = 254 then .error .linkLocal
    else if a = 255 ∧ b = 255 ∧ c = 255 ∧ d = 255 then .error .broadcast
    else if 240 ≤ a then .error .reserved
    else if 224 ≤ a ∧ a ≤ 239 then .error .multicast
    else if a = 192 ∧ b = 0 ∧ c = 0 then .error .protocolAssignment
    else if a = 100 ∧ 64 ≤ b ∧ b ≤ 127 then .error .carrierGradeNat
    else if (a = 10 ∨ (a = 172 ∧ 16 ≤ b ∧ b ≤ 31) ∨ (a = 192 ∧ b = 168)) ∧ allowPrivate = false then
      .error .isPrivate
    else .ok ()

/-- `HEX_GROUP`: one to four hexadecimal digits. -/
def isHexGroup (group : Text) : Bool :=
  group.all isHexDigit && decide (1 ≤ group.length) && decide (group.length ≤ 4)

variable (platform : Platform)

/-- The groups of one side of `::`, one after another: a dotted quad is only legal as the
last group of the whole address. -/
def parseGroups (allowDotted : Bool) : List Text → Except RemoteAddressRefused (List ℕ)
  | [] => .ok []
  | group :: rest =>
    if '.' ∈ group then
      if !allowDotted || !rest.isEmpty || !platform.isIPv4 group then .error .notIPv6
      else do
        let (a, b, c, d) ← ipv4Octets group
        let hextets ← parseGroups allowDotted rest
        pure ((a <<< 8 ||| b) :: (c <<< 8 ||| d) :: hextets)
    else if !isHexGroup group then .error .notIPv6
    else do
      let hextets ← parseGroups allowDotted rest
      pure (hexNumber group :: hextets)

def parseIPv6Half (half : Text) (allowDotted : Bool) : Except RemoteAddressRefused (List ℕ) :=
  if half = [] then .ok [] else parseGroups platform allowDotted (half.splitOn ':')

/-- `text.split('::')` -/
def splitElision : Text → List Text
  | ':' :: ':' :: rest => [] :: splitElision rest
  | c :: rest =>
    match splitElision rest with
    | [] => [[c]]
    | part :: parts => (c :: part) :: parts
  | [] => [[]]

def ipv6Hextets (address : Text) : Except RemoteAddressRefused (List ℕ) :=
  -- `address.split('%')[0]`
  match splitElision (address.takeWhile (· ≠ '%')) with
  | [whole] => do
    let hextets ← parseIPv6Half platform whole true
    if hextets.length ≠ 8 then .error .notIPv6 else pure hextets
  | [first, last] => do
    let head ← parseIPv6Half platform first false
    let tail ← parseIPv6Half platform last true
    if 8 < head.length + tail.length + 1 then .error .notIPv6
    else pure (head ++ List.replicate (8 - head.length - tail.length) 0 ++ tail)
  | _ => .error .notIPv6

/-- An IPv4-in-IPv6 form: which groups are fixed, and where the address sits. -/
structure Encapsulation where
  applies : List ℕ → Bool
  highIndex : ℕ
  lowIndex : ℕ

def encapsulations : List Encapsulation :=
  [ -- `::a.b.c.d` and `::ffff:a.b.c.d`
    { applies := fun h ↦ h[0]? == some 0 && h[1]? == some 0 && h[2]? == some 0 &&
        h[3]? == some 0 && h[4]? == some 0 && (h[5]? == some 0 || h[5]? == some 0xffff)
      highIndex := 6
      lowIndex := 7 },
    -- `::ffff:0:a.b.c.d`
    { applies := fun h ↦ h[0]? == some 0 && h[1]? == some 0 && h[2]? == some 0 &&
        h[3]? == some 0 && h[4]? == some 0xffff && h[5]? == some 0
      highIndex := 6
      lowIndex := 7 },
    -- `64:ff9b::a.b.c.d`
    { applies := fun h ↦ h[0]? == some 0x0064 && h[1]? == some 0xff9b && h[2]? == some 0 &&
        h[3]? == some 0 && h[4]? == some 0 && h[5]? == some 0
      highIndex := 6
      lowIndex := 7 },
    -- `64:ff9b:1::a.b.c.d`, NAT64 local-use prefix, /48
    { applies := fun h ↦ h[0]? == some 0x0064 && h[1]? == some 0xff9b && h[2]? == some 1 &&
        h[3]? == some 0 && h[4]? == some 0 && h[5]? == some 0
      highIndex := 6
      lowIndex := 7 },
    -- `2002:a.b.c.d::`
    { applies := fun h ↦ h[0]? == some 0x2002
      highIndex := 1
      lowIndex := 2 } ]

def embeddedIPv4 (hextets : List ℕ) : Option Text :=
  (encapsulations.find? fun candidate ↦ candidate.applies hextets).map fun encapsulation ↦
    let high := hextets[encapsulation.highIndex]?.getD 0
    let low := hextets[encapsulation.lowIndex]?.getD 0
    ['.'].intercalate ([high >>> 8 &&& 0xff, high &&& 0xff, low >>> 8 &&& 0xff, low &&& 0xff].map
      decimal)

def assertPublicIPv6 (address : Text) (allowPrivate : Bool) : Verdict :=
  match ipv6Hextets platform address with
  | .error refused => .error refused
  | .ok hextets =>
    match hextets with
    | [] => .error .notIPv6
    | first :: _ =>
      if hextets.all (· == 0) then .error .unspecified
      else if (hextets.take 7).all (· == 0) && hextets[7]? == some 1 then .error .loopback
      else
        match embeddedIPv4 hextets with
        | some embedded => assertPublicIPv4 embedded allowPrivate
        | none =>
          if first &&& 0xffc0 = 0xfe80 then .error .linkLocal
          else if first &&& 0xff00 = 0xff00 then .error .multicast
          else if first &&& 0xfe00 = 0xfc00 ∧ allowPrivate = false then .error .uniqueLocal
          else .ok ()

def assertPublicAddress (address : Text) (allowPrivate : Bool) : Verdict :=
  if platform.isIPv4 address then assertPublicIPv4 address allowPrivate
  else if platform.isIPv6 address then assertPublicIPv6 platform address allowPrivate
  else .error .notAnAddress

end Odudu.ProtocolOidc.RemoteAddress
