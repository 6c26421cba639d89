import Odudu.ProtocolOidc.AddressGuard

/-!
# The addresses that are refused

The named ranges and encapsulations as blocks of addresses.  Each range is refused, and so is
each address that carries a refused IPv4 address under a named encapsulation, save under
the local-use NAT64 prefix outside its first /96 (`addresses_guarded_iff`).
-/

set_option autoImplicit false

namespace Odudu.ProtocolOidc.RemoteAddress

open Addresses

/-- Loopback, unspecified, link-local, broadcast, reserved, multicast, IETF protocol
assignments and carrier-grade NAT. -/
def specialRanges4 : List (Block 32) :=
  [⟨0x7f000000, 8⟩, ⟨0x00000000, 8⟩, ⟨0xa9fe0000, 16⟩, ⟨0xffffffff, 32⟩, ⟨0xf0000000, 4⟩,
    ⟨0xe0000000, 4⟩, ⟨0xc0000000, 24⟩, ⟨0x64400000, 10⟩]

/-- 10.0.0.0/8, 172.16.0.0/12 and 192.168.0.0/16. -/
def privateRanges4 : List (Block 32) := [⟨0x0a000000, 8⟩, ⟨0xac100000, 12⟩, ⟨0xc0a80000, 16⟩]

/-- Unspecified, loopback, link-local and multicast. -/
def specialRanges6 : List (Block 128) :=
  [⟨0, 128⟩, ⟨1, 128⟩, ⟨0xfe80 <<< 112, 10⟩, ⟨0xff00 <<< 112, 8⟩]

/-- fc00::/7 -/
def uniqueLocal6 : Block 128 := ⟨0xfc00 <<< 112, 7⟩

/-- An IPv4 address in an address of a block, with so many bits after it. -/
structure Tunnel where
  block : Block 128
  shift : ℕ

def Tunnel.Carries (tunnel : Tunnel) (address carried : ℕ) : Prop :=
  tunnel.block.Contains address ∧ address / 2 ^ tunnel.shift % 2 ^ 32 = carried

/-- 64:ff9b:1::/48 -/
def localUseNat64 : Block 128 := ⟨0x0064ff9b0001 <<< 80, 48⟩

/-- Mapped, compatible, translated, NAT64 under the well-known and the local-use prefix,
and 6to4. -/
def tunnels : List Tunnel :=
  [⟨⟨0xffff <<< 32, 96⟩, 0⟩, ⟨⟨0, 96⟩, 0⟩, ⟨⟨0xffff <<< 48, 96⟩, 0⟩,
    ⟨⟨0x0064ff9b <<< 96, 96⟩, 0⟩, ⟨localUseNat64, 0⟩, ⟨⟨0x2002 <<< 112, 16⟩, 80⟩]

/-- An IPv4 address that is not public. -/
def Refused4 (allowPrivate : Bool) (address : ℕ) : Prop :=
  (∃ range ∈ specialRanges4, range.Contains address) ∨
    (allowPrivate = false ∧ ∃ range ∈ privateRanges4, range.Contains address)

variable {platform : Platform} {isZone : Text → Bool}

theorem ite_error_eq_ok {c : Prop} [Decidable c] {refused : RemoteAddressRefused}
    {rest : Verdict} :
    (if c then .error refused else rest) = .ok () ↔ ¬c ∧ rest = .ok () := by
  split_ifs with h <;> simp [h]

/-- The named ranges, by their octets. -/
theorem refused4_iff (q : Quad) (allowPrivate : Bool) :
    Refused4 allowPrivate q.address ↔
      (q.a.val = 127 ∨ q.a.val = 0 ∨ (q.a.val = 169 ∧ q.b.val = 254) ∨
        (q.a.val = 255 ∧ q.b.val = 255 ∧ q.c.val = 255 ∧ q.d.val = 255) ∨ 240 ≤ q.a.val ∨
        (224 ≤ q.a.val ∧ q.a.val ≤ 239) ∨ (q.a.val = 192 ∧ q.b.val = 0 ∧ q.c.val = 0) ∨
        (q.a.val = 100 ∧ 64 ≤ q.b.val ∧ q.b.val ≤ 127)) ∨
      (q.a.val = 10 ∨ (q.a.val = 172 ∧ 16 ≤ q.b.val ∧ q.b.val ≤ 31) ∨
        (q.a.val = 192 ∧ q.b.val = 168)) ∧ allowPrivate = false := by
  obtain ⟨⟨a, ha⟩, ⟨b, hb⟩, ⟨c, hc⟩, ⟨d, hd⟩⟩ := q
  simp only [Refused4, specialRanges4, privateRanges4, Block.Contains, Quad.address,
    List.mem_cons, List.not_mem_nil, or_false, exists_eq_or_imp, exists_eq_left, Nat.reduceSub,
    Nat.reducePow, Nat.reduceDiv]
  rw [and_comm (a := allowPrivate = false)]
  refine or_congr ?_ (and_congr_left' ?_)
  · refine or_congr (by omega) (or_congr (by omega) (or_congr (by omega) (or_congr (by omega)
      (or_congr (by omega) (or_congr (by omega) (or_congr (by omega) (by omega)))))))
  · exact or_congr (by omega) (or_congr (by omega) (by omega))

/-- The guard admits a quad exactly when it is in none of the named ranges. -/
theorem assertPublicIPv4_eq_ok (q : Quad) (allowPrivate : Bool) :
    assertPublicIPv4 q.text allowPrivate = .ok () ↔ ¬Refused4 allowPrivate q.address := by
  rw [refused4_iff]
  simp only [assertPublicIPv4, ipv4Octets_text, ite_error_eq_ok, not_or, and_true, and_assoc]

/-! ### Encapsulations -/

/-- The quad two groups are written as. -/
def quadOf (high low : ℕ) : Quad :=
  ⟨Fin.ofNat 256 (high / 256), Fin.ofNat 256 high, Fin.ofNat 256 (low / 256), Fin.ofNat 256 low⟩

theorem text_quadOf (high low : ℕ) :
    ['.'].intercalate ([high >>> 8 &&& 0xff, high &&& 0xff, low >>> 8 &&& 0xff, low &&& 0xff].map
      decimal) = (quadOf high low).text := by
  have hmask (n : ℕ) : n &&& 0xff = n % 256 := Nat.and_two_pow_sub_one_eq_mod n 8
  simp only [hmask, Nat.shiftRight_eq_div_pow]
  rfl

theorem address_quadOf {high low : ℕ} (hhigh : high < 65536) (hlow : low < 65536) :
    (quadOf high low).address = high * 65536 + low := by
  simp only [quadOf, Quad.address, Fin.ofNat]
  omega

/-- A form whose IPv4 address is the last two groups. -/
def EndsInIPv4 (a b c d e f : ℕ) : Prop :=
  (a = 0 ∧ b = 0 ∧ c = 0 ∧ d = 0 ∧ e = 0 ∧ (f = 0 ∨ f = 0xffff)) ∨
    (a = 0 ∧ b = 0 ∧ c = 0 ∧ d = 0 ∧ e = 0xffff ∧ f = 0) ∨
    (a = 0x64 ∧ b = 0xff9b ∧ c = 0 ∧ d = 0 ∧ e = 0 ∧ f = 0) ∨
    (a = 0x64 ∧ b = 0xff9b ∧ c = 1 ∧ d = 0 ∧ e = 0 ∧ f = 0)

instance (a b c d e f : ℕ) : Decidable (EndsInIPv4 a b c d e f) :=
  inferInstanceAs (Decidable (_ ∨ _ ∨ _ ∨ _))

theorem EndsInIPv4.first {a b c d e f : ℕ} (h : EndsInIPv4 a b c d e f) : a = 0 ∨ a = 0x64 := by
  unfold EndsInIPv4 at h
  omega

theorem embeddedIPv4_eq (a b c d e f g h : ℕ) :
    embeddedIPv4 [a, b, c, d, e, f, g, h] =
      if EndsInIPv4 a b c d e f then some (quadOf g h).text
      else if a = 0x2002 then some (quadOf b c).text else none := by
  rw [← text_quadOf, ← text_quadOf]
  split_ifs with hends h6to4
  · rcases hends with ⟨rfl, rfl, rfl, rfl, rfl, rfl | rfl⟩ | ⟨rfl, rfl, rfl, rfl, rfl, rfl⟩ |
      ⟨rfl, rfl, rfl, rfl, rfl, rfl⟩ | ⟨rfl, rfl, rfl, rfl, rfl, rfl⟩ <;> rfl
  · subst h6to4
    rfl
  · have hnone : ∀ form ∈ encapsulations, ¬form.applies [a, b, c, d, e, f, g, h] = true := by
      intro form hform
      simp only [encapsulations, List.mem_cons, List.not_mem_nil, or_false] at hform
      rcases hform with rfl | rfl | rfl | rfl | rfl <;>
        simp only [List.getElem?_cons_zero, List.getElem?_cons_succ, Option.some_beq_some,
          Bool.and_eq_true, Bool.or_eq_true, beq_iff_eq]
      · exact fun ⟨⟨⟨⟨⟨ha, hb⟩, hc⟩, hd⟩, he⟩, hf⟩ ↦ hends (Or.inl ⟨ha, hb, hc, hd, he, hf⟩)
      · exact fun ⟨⟨⟨⟨⟨ha, hb⟩, hc⟩, hd⟩, he⟩, hf⟩ ↦
          hends (Or.inr (Or.inl ⟨ha, hb, hc, hd, he, hf⟩))
      · exact fun ⟨⟨⟨⟨⟨ha, hb⟩, hc⟩, hd⟩, he⟩, hf⟩ ↦
          hends (Or.inr (Or.inr (Or.inl ⟨ha, hb, hc, hd, he, hf⟩)))
      · exact fun ⟨⟨⟨⟨⟨ha, hb⟩, hc⟩, hd⟩, he⟩, hf⟩ ↦
          hends (Or.inr (Or.inr (Or.inr ⟨ha, hb, hc, hd, he, hf⟩)))
      · exact h6to4
    rw [embeddedIPv4, List.find?_eq_none.mpr hnone, Option.map_none]

/-! ### Verdicts -/

theorem and_mask {n k m : ℕ} : n &&& ((2 ^ m - 1) <<< k) = (n / 2 ^ k % 2 ^ m) * 2 ^ k := by
  rw [← Nat.shiftRight_eq_div_pow, ← Nat.shiftLeft_eq, ← Nat.and_two_pow_sub_one_eq_mod]
  refine Nat.eq_of_testBit_eq fun i ↦ ?_
  simp only [Nat.testBit_and, Nat.testBit_shiftLeft, Nat.testBit_shiftRight]
  by_cases hi : k ≤ i
  · simp [hi]
  · simp [hi]

variable {t : Ipv6Text}

/-- The guard's verdict on eight groups. -/
theorem assertPublicIPv6_eq_ok (hstandard : platform.Standard isZone)
    {a b c d e f g h : ℕ} (ht : t.hextets = [a, b, c, d, e, f, g, h]) (ha : a < 65536)
    (hb : b < 65536) (hc : c < 65536) (hg : g < 65536) (hh : h < 65536) (allowPrivate : Bool) :
    assertPublicIPv6 platform t.text allowPrivate = .ok () ↔
      ¬(a = 0 ∧ b = 0 ∧ c = 0 ∧ d = 0 ∧ e = 0 ∧ f = 0 ∧ g = 0 ∧ h ≤ 1) ∧
      if EndsInIPv4 a b c d e f then ¬Refused4 allowPrivate (g * 65536 + h)
      else if a = 0x2002 then ¬Refused4 allowPrivate (b * 65536 + c)
      else a / 64 ≠ 0x3fa ∧ a / 256 ≠ 0xff ∧ ¬(a / 512 = 0x7e ∧ allowPrivate = false) := by
  have hlinkLocal : a &&& 0xffc0 = 0xfe80 ↔ a / 64 = 0x3fa := by
    rw [show 0xffc0 = (2 ^ 10 - 1) <<< 6 from rfl, and_mask]
    omega
  have hmulticast : a &&& 0xff00 = 0xff00 ↔ a / 256 = 0xff := by
    rw [show a &&& 0xff00 = a &&& (2 ^ 8 - 1) <<< 8 from rfl, and_mask]
    omega
  have huniqueLocal : a &&& 0xfe00 = 0xfc00 ↔ a / 512 = 0x7e := by
    rw [show 0xfe00 = (2 ^ 7 - 1) <<< 9 from rfl, and_mask]
    omega
  simp only [assertPublicIPv6, ipv6Hextets_text hstandard, ht, embeddedIPv4_eq, ite_error_eq_ok,
    ← and_assoc (c := _ = _)]
  refine and_congr ?_ ?_
  · simp only [List.all_cons, List.all_nil, List.take_succ_cons, List.take_zero, Bool.and_true,
      Bool.and_eq_true, beq_iff_eq, List.getElem?_cons_succ, List.getElem?_cons_zero,
      Option.some_beq_some]
    omega
  · by_cases hends : EndsInIPv4 a b c d e f
    · simp only [if_pos hends, assertPublicIPv4_eq_ok, address_quadOf hg hh]
    · by_cases h6to4 : a = 0x2002
      · simp only [if_neg hends, if_pos h6to4, assertPublicIPv4_eq_ok, address_quadOf hb hc]
      · simp only [if_neg hends, if_neg h6to4, ite_error_eq_ok, hlinkLocal, hmulticast,
          huniqueLocal, and_true, ne_eq]

/-! ### Addresses -/

/-- A spelling of an IPv6 address is no dotted quad. -/
theorem isIPv4_text (hstandard : platform.Standard isZone) (t : Ipv6Text) :
    platform.isIPv4 t.text = false := by
  have hcolon : ':' ∈ t.spelling.text := by
    cases t.spelling with
    | elided => simp [Spelling.text]
    | full side h =>
      have hle := Side.length_hextets_le side
      rcases hparts : side.parts with _ | ⟨part, _ | ⟨next, rest⟩⟩
      · simp [h, hparts] at hle
      · simp [h, hparts] at hle
      · simp [Spelling.text, Side.text, hparts, List.intercalate]
  refine Bool.eq_false_iff.mpr fun hquad ↦ ?_
  obtain ⟨q, hq⟩ := (hstandard.isIPv4 _).mp hquad
  have hmem : ':' ∈ q.text := hq ▸ List.mem_append_left _ hcolon
  exact absurd (Quad.isDigit_of_mem hmem) (by decide)

theorem assertPublicAddress_text (hstandard : platform.Standard isZone)
    (hzone : platform.isIPv6 t.text = true) (allowPrivate : Bool) :
    assertPublicAddress platform t.text allowPrivate =
      assertPublicIPv6 platform t.text allowPrivate := by
  simp [assertPublicAddress, isIPv4_text hstandard, hzone]

/-- What is asked of the guard at a spelling of an IPv6 address. -/
structure Guards (platform : Platform) (t : Ipv6Text) (allowPrivate : Bool) : Prop where
  reads : ipv6Hextets platform t.text = .ok (hextetsOf t.address)
  sameForEverySpelling : ∀ t' : Ipv6Text, platform.isIPv6 t'.text = true →
    t'.address = t.address → assertPublicAddress platform t'.text allowPrivate =
      assertPublicAddress platform t.text allowPrivate
  special : ∀ range ∈ specialRanges6, range.Contains t.address →
    assertPublicAddress platform t.text allowPrivate ≠ .ok ()
  uniqueLocal : uniqueLocal6.Contains t.address → allowPrivate = false →
    assertPublicAddress platform t.text allowPrivate ≠ .ok ()
  carried : ∀ tunnel ∈ tunnels, ∀ address, tunnel.Carries t.address address →
    Refused4 allowPrivate address → assertPublicAddress platform t.text allowPrivate ≠ .ok ()

/-- A refused IPv4 address under the local-use prefix, outside the first /96 of it. -/
def PassedOver (allowPrivate : Bool) (address : ℕ) : Prop :=
  localUseNat64.Contains address ∧ ¬(⟨localUseNat64.start, 96⟩ : Block 128).Contains address ∧
    Refused4 allowPrivate (address % 2 ^ 32)

/-- Every spelling of an address is guarded, but where the address is passed over. -/
theorem guards_iff (hstandard : platform.Standard isZone)
    (hzone : platform.isIPv6 t.text = true) (allowPrivate : Bool) :
    Guards platform t allowPrivate ↔ ¬PassedOver allowPrivate t.address := by
  obtain ⟨a, b, c, d, e, f, g, h, ht⟩ := t.exists_hextets
  have hlt : ∀ x ∈ t.hextets, x < 65536 := fun _ ↦ t.spelling.lt_of_mem
  rw [ht] at hlt
  simp only [List.mem_cons, List.not_mem_nil, or_false, forall_eq_or_imp, forall_eq] at hlt
  obtain ⟨ha, hb, hc, hd, he, hf, hg, hh⟩ := hlt
  have hverdict := assertPublicIPv6_eq_ok hstandard ht ha hb hc hg hh allowPrivate
  have haddress : t.address = ((((((a * 65536 + b) * 65536 + c) * 65536 + d) * 65536 + e) *
      65536 + f) * 65536 + g) * 65536 + h := by
    simp [Ipv6Text.address, ht, addressOf]
  have hlow : t.address % 2 ^ 32 = g * 65536 + h := by omega
  have hnotEnds (h0 : a ≠ 0) (h64 : a ≠ 0x64) : ¬EndsInIPv4 a b c d e f :=
    fun hends ↦ hends.first.elim h0 h64
  have hdirect := assertPublicAddress_text hstandard hzone allowPrivate
  simp only [PassedOver, localUseNat64, Block.Contains, Nat.reduceShiftLeft, Nat.reduceSub,
    Nat.reducePow, Nat.reduceDiv] at hlow ⊢
  constructor
  · rintro hguards ⟨hlocal, hout, hrefused⟩
    refine hguards.carried ⟨localUseNat64, 0⟩ (by simp [tunnels]) (t.address % 2 ^ 32)
      ⟨by simpa [localUseNat64, Block.Contains] using hlocal, by simp⟩ hrefused ?_
    have hgroups : a = 0x64 ∧ b = 0xff9b ∧ c = 1 := by omega
    have hends : ¬EndsInIPv4 a b c d e f := by
      unfold EndsInIPv4
      omega
    rw [hdirect, hverdict, if_neg hends, if_neg (by omega)]
    omega
  · intro hpassed
    refine ⟨?_, ?_, ?_, ?_, ?_⟩
    · rw [t.hextetsOf_address]
      exact ipv6Hextets_text hstandard t
    · intro t' hzone' hsame
      have hhextets : t'.hextets = t.hextets := by
        rw [← t'.hextetsOf_address, ← t.hextetsOf_address, hsame]
      rw [hdirect, assertPublicAddress_text hstandard hzone', assertPublicIPv6, assertPublicIPv6,
        ipv6Hextets_text hstandard, ipv6Hextets_text hstandard, hhextets]
    · intro range hrange hcontains hok
      obtain ⟨hnot, hcase⟩ := hverdict.mp (hdirect ▸ hok)
      simp only [specialRanges6, List.mem_cons, List.not_mem_nil, or_false] at hrange
      rcases hrange with rfl | rfl | rfl | rfl <;>
        simp only [Block.Contains, Nat.reduceShiftLeft, Nat.reduceSub, Nat.reducePow,
          Nat.reduceDiv] at hcontains
      · exact hnot (by omega)
      · exact hnot (by omega)
      · have hlinkLocal : a / 64 = 0x3fa := by omega
        rw [if_neg (hnotEnds (by omega) (by omega)), if_neg (by omega)] at hcase
        exact hcase.1 hlinkLocal
      · have hmulticast : a / 256 = 0xff := by omega
        rw [if_neg (hnotEnds (by omega) (by omega)), if_neg (by omega)] at hcase
        exact hcase.2.1 hmulticast
    · intro hcontains hprivate hok
      obtain ⟨hnot, hcase⟩ := hverdict.mp (hdirect ▸ hok)
      simp only [uniqueLocal6, Block.Contains, Nat.reduceShiftLeft, Nat.reduceSub, Nat.reducePow,
        Nat.reduceDiv] at hcontains
      have huniqueLocal : a / 512 = 0x7e := by omega
      rw [if_neg (hnotEnds (by omega) (by omega)), if_neg (by omega)] at hcase
      exact hcase.2.2 ⟨huniqueLocal, hprivate⟩
    · rintro tunnel htunnel address ⟨hcontains, rfl⟩ hrefused hok
      obtain ⟨hnot, hcase⟩ := hverdict.mp (hdirect ▸ hok)
      have hends (hcarried : t.address / 2 ^ tunnel.shift % 2 ^ 32 = g * 65536 + h)
          (hends : EndsInIPv4 a b c d e f) : False := by
        rw [if_pos hends, ← hcarried] at hcase
        exact hcase hrefused
      simp only [tunnels, List.mem_cons, List.not_mem_nil, or_false] at htunnel
      rcases htunnel with rfl | rfl | rfl | rfl | rfl | rfl <;>
        simp only [localUseNat64, Block.Contains, Nat.reduceShiftLeft, Nat.reduceSub,
          Nat.reducePow, Nat.reduceDiv, pow_zero, Nat.div_one] at hcontains hends hrefused
      · exact hends hlow (Or.inl (by omega))
      · exact hends hlow (Or.inl (by omega))
      · exact hends hlow (Or.inr (Or.inl (by omega)))
      · exact hends hlow (Or.inr (Or.inr (Or.inl (by omega))))
      · by_cases hfirst : t.address / 4294967296 = 0x0064ff9b0001 * 2 ^ 48
        · exact hends hlow (Or.inr (Or.inr (Or.inr (by omega))))
        · exact hpassed ⟨hcontains, by simpa using hfirst, hrefused⟩
      · have h6to4 : a = 0x2002 := by omega
        have hcarried : t.address / 1208925819614629174706176 % 4294967296 = b * 65536 + c := by
          omega
        rw [if_neg (hnotEnds (by omega) (by omega)), if_pos h6to4, ← hcarried] at hcase
        exact hcase hrefused

/-! ### Texts -/

theorem isIPv6_of_accepted (hstandard : platform.Standard isZone)
    (haccepted : platform.isIPv4 t.text = true ∨ platform.isIPv6 t.text = true) :
    platform.isIPv6 t.text = true := by
  rcases haccepted with h | h
  · simp [isIPv4_text hstandard] at h
  · exact h

/-- What is asked of the guard at a text: a quad is admitted when it is public, and a
spelling of an IPv6 address is guarded. -/
structure Guarded (platform : Platform) (address : Text) (allowPrivate : Bool) : Prop where
  quad : ∀ q : Quad, address = q.text →
    (assertPublicAddress platform address allowPrivate = .ok () ↔
      ¬Refused4 allowPrivate q.address)
  groups : ∀ t : Ipv6Text, address = t.text → Guards platform t allowPrivate

/-- The guard depends only on the address a text denotes and refuses every address of the
named ranges, under the named encapsulations too, exactly when the text is no address under
the local-use NAT64 prefix that is passed over. -/
theorem addresses_guarded_iff (hstandard : platform.Standard isZone) (address : Text)
    (haccepted : platform.isIPv4 address = true ∨ platform.isIPv6 address = true)
    (allowPrivate : Bool) :
    Guarded platform address allowPrivate ↔
      ∀ t : Ipv6Text, address = t.text → ¬PassedOver allowPrivate t.address := by
  constructor
  · rintro hguarded t rfl
    exact (guards_iff hstandard (isIPv6_of_accepted hstandard haccepted) allowPrivate).mp
      (hguarded.groups t rfl)
  · intro hpassed
    refine ⟨?_, ?_⟩
    · rintro q rfl
      have hquad : platform.isIPv4 q.text = true := (hstandard.isIPv4 _).mpr ⟨q, rfl⟩
      rw [assertPublicAddress, if_pos hquad, assertPublicIPv4_eq_ok]
    · rintro t rfl
      exact (guards_iff hstandard (isIPv6_of_accepted hstandard haccepted) allowPrivate).mpr
        (hpassed t rfl)

open Classical in
/-- The platform of the standard grammar, with the zones it takes. -/
noncomputable def standard (isZone : Text → Bool) : Platform where
  isIPv4 text := decide (∃ q : Quad, text = q.text)
  isIPv6 text := decide (∃ t : Ipv6Text, t.zone.all isZone = true ∧ text = t.text)

theorem standard_standard (isZone : Text → Bool) : (standard isZone).Standard isZone where
  isIPv4 _ := by simp [standard]
  isIPv6 _ := by simp [standard]

/-- `::ffff:127.0.0.1` -/
def mappedLoopback : Ipv6Text where
  spelling := .elided [] ⟨[⟨['f', 'f', 'f', 'f'], by decide, by decide, List.all_eq_true.mp rfl⟩],
    some ⟨127, 0, 0, 1⟩⟩ (by decide)
  zone := none

/-- Loopback as a mapped address is guarded, so that it is refused. -/
theorem addresses_guarded_mapped :
    Guarded (standard fun _ ↦ true) mappedLoopback.text false := by
  have hstandard := standard_standard fun _ ↦ true
  have hzone : (standard fun _ ↦ true).isIPv6 mappedLoopback.text = true :=
    (hstandard.isIPv6 _).mpr ⟨mappedLoopback, rfl, rfl⟩
  refine (addresses_guarded_iff hstandard _ (Or.inr hzone) false).mpr fun t ht hpassed ↦ ?_
  -- Every spelling that reads so denotes the same address.
  have hsame : t.hextets = mappedLoopback.hextets := by
    have hread := ipv6Hextets_text hstandard t
    rw [← ht, ipv6Hextets_text hstandard] at hread
    exact (Except.ok.inj hread).symm
  have hcontains : ¬localUseNat64.Contains mappedLoopback.address := by decide
  rw [Ipv6Text.address, hsame] at hpassed
  exact hcontains hpassed.1

/-- `64:ff9b:1:1::7f00:1` -/
def localUseLoopback : Ipv6Text where
  spelling := .elided
    [⟨['6', '4'], by decide, by decide, List.all_eq_true.mp rfl⟩,
      ⟨['f', 'f', '9', 'b'], by decide, by decide, List.all_eq_true.mp rfl⟩,
      ⟨['1'], by decide, by decide, List.all_eq_true.mp rfl⟩,
      ⟨['1'], by decide, by decide, List.all_eq_true.mp rfl⟩]
    ⟨[⟨['7', 'f', '0', '0'], by decide, by decide, List.all_eq_true.mp rfl⟩,
      ⟨['1'], by decide, by decide, List.all_eq_true.mp rfl⟩], none⟩ (by decide)
  zone := none

/-- Loopback under the local-use NAT64 prefix is admitted outside its first /96. -/
theorem localUseLoopback_admitted :
    (standard fun _ ↦ true).isIPv6 localUseLoopback.text = true ∧
      (⟨localUseNat64, 0⟩ : Tunnel).Carries localUseLoopback.address
        (Quad.address ⟨127, 0, 0, 1⟩) ∧
      assertPublicAddress (standard fun _ ↦ true) localUseLoopback.text false = .ok () ∧
      ¬Guarded (standard fun _ ↦ true) localUseLoopback.text false := by
  have hstandard := standard_standard fun _ ↦ true
  have hzone : (standard fun _ ↦ true).isIPv6 localUseLoopback.text = true :=
    (hstandard.isIPv6 _).mpr ⟨localUseLoopback, rfl, rfl⟩
  have hpassed : PassedOver false localUseLoopback.address :=
    ⟨by decide, by decide, Or.inl ⟨⟨0x7f000000, 8⟩, by decide, by decide⟩⟩
  refine ⟨hzone, ⟨by decide, by decide⟩, ?_, fun hguarded ↦ ?_⟩
  · rw [assertPublicAddress_text hstandard hzone, assertPublicIPv6, ipv6Hextets_text hstandard]
    decide
  · exact (guards_iff hstandard hzone false).mp (hguarded.groups _ rfl) hpassed

end Odudu.ProtocolOidc.RemoteAddress
