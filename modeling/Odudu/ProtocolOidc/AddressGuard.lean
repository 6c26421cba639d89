import Odudu.ProtocolOidc.RemoteAddress
import Mathlib.Data.List.Chain

/-!
# The guard and the addresses that texts denote

`ipv6Hextets` reads every spelling of an address as the eight groups of it
(`ipv6Hextets_text`), so a verdict is one about the address.
-/

set_option autoImplicit false

namespace Odudu.ProtocolOidc.RemoteAddress

open Addresses

/-- `isIPv4` and `isIPv6` accept exactly the standard spellings; which zones the platform
takes is its own affair. -/
structure Platform.Standard (platform : Platform) (isZone : Text → Bool) : Prop where
  isIPv4 : ∀ text, platform.isIPv4 text = true ↔ ∃ q : Quad, text = q.text
  isIPv6 : ∀ text, platform.isIPv6 text = true ↔
    ∃ t : Ipv6Text, t.zone.all isZone = true ∧ text = t.text

/-! ### Splitting -/

/-- No two colons in a row. -/
def NoElision (text : Text) : Prop := text.IsChain fun a b ↦ ¬(a = ':' ∧ b = ':')

theorem splitElision_cons {c : Char} {rest part : Text} {parts : List Text}
    (h : c = ':' → rest.head? ≠ some ':') (hrest : splitElision rest = part :: parts) :
    splitElision (c :: rest) = (c :: part) :: parts := by
  unfold splitElision
  split
  · rename_i heq
    obtain ⟨rfl, rfl⟩ := List.cons.inj heq
    exact absurd rfl (h rfl)
  · rename_i heq
    obtain ⟨rfl, rfl⟩ := List.cons.inj heq
    simp [hrest]
  · rename_i heq
    exact nomatch heq

theorem NoElision.head?_tail {c : Char} {rest : Text} (h : NoElision (c :: rest)) (hc : c = ':') :
    rest.head? ≠ some ':' := by
  intro hhead
  cases rest with
  | nil => simp at hhead
  | cons d =>
    obtain rfl : d = ':' := by simpa using hhead
    exact (List.isChain_cons_cons.mp h).1 ⟨hc, rfl⟩

theorem splitElision_of_noElision {text : Text} (h : NoElision text) :
    splitElision text = [text] := by
  induction text with
  | nil => rfl
  | cons _ _ ih => exact splitElision_cons h.head?_tail (ih (List.IsChain.tail h))

/-- The first `::` of an address is where it is split. -/
theorem splitElision_append {text rest : Text} (h : NoElision text)
    (hlast : text.getLast? ≠ some ':') :
    splitElision (text ++ ':' :: ':' :: rest) = text :: splitElision rest := by
  induction text with
  | nil => rfl
  | cons c tail ih =>
    have htail : tail.getLast? ≠ some ':' := by
      intro heq
      refine hlast ?_
      cases tail with
      | nil => simp at heq
      | cons => simpa using heq
    refine splitElision_cons (fun hc ↦ ?_) (ih (List.IsChain.tail h) htail)
    cases tail with
    | nil => exact absurd (by simp [hc]) hlast
    | cons => simpa using h.head?_tail hc

/-- Parts joined by colons have no elision, and neither begin nor end with a colon. -/
theorem noElision_intercalate {parts : List Text} (h : ∀ part ∈ parts, Part part) :
    NoElision ([':'].intercalate parts) ∧ ([':'].intercalate parts).getLast? ≠ some ':' ∧
      ([':'].intercalate parts).head? ≠ some ':' ∧ '%' ∉ [':'].intercalate parts := by
  induction parts with
  | nil => simp [NoElision, List.intercalate]
  | cons part rest ih =>
    obtain ⟨hne, hcolon, hzone⟩ := h part List.mem_cons_self
    have hpart : NoElision part := by
      refine List.isChain_iff_getElem.mpr fun i hi ⟨ha, _⟩ ↦ hcolon ?_
      rw [← ha]
      exact List.getElem_mem _
    have hlast : part.getLast? ≠ some ':' := fun heq ↦ hcolon (List.mem_of_getLast? heq)
    have hhead : part.head? ≠ some ':' := fun heq ↦ hcolon (List.mem_of_head? heq)
    cases rest with
    | nil => simpa [List.intercalate] using ⟨hpart, hlast, hhead, hzone⟩
    | cons next rest =>
      obtain ⟨hchain, hlast', hhead', hzone'⟩ := ih fun p hp ↦ h p (List.mem_cons_of_mem _ hp)
      have hcons : [':'].intercalate (part :: next :: rest) =
          part ++ ':' :: [':'].intercalate (next :: rest) := by
        simp [List.intercalate]
      have hrest : [':'].intercalate (next :: rest) ≠ [] := by
        obtain ⟨hnext, -⟩ := h next (List.mem_cons_of_mem _ List.mem_cons_self)
        cases rest <;> simp [List.intercalate, hnext]
      rw [hcons]
      refine ⟨?_, ?_, ?_, ?_⟩
      · refine List.isChain_append.mpr ⟨hpart, List.isChain_cons.mpr ⟨?_, hchain⟩, ?_⟩
        · exact fun y hy ⟨_, hy'⟩ ↦ hhead' (by rw [Option.mem_def.mp hy, hy'])
        · exact fun x hx y _ ⟨hx', _⟩ ↦ hlast (by rw [Option.mem_def.mp hx, hx'])
      · rw [List.getLast?_append, List.getLast?_cons_of_ne_nil hrest]
        simpa [hrest] using hlast'
      · rwa [List.head?_append_of_ne_nil _ hne]
      · simp [hzone, hzone']

/-! ### Reading -/

variable {platform : Platform} {isZone : Text → Bool}

theorem number_decimal (n : ℕ) : number (decimal n) = n := Nat.ofDigitChars_ten_toDigits

theorem splitOn_dot (q : Quad) :
    q.text.splitOn '.' = [decimal q.a, decimal q.b, decimal q.c, decimal q.d] := by
  refine List.splitOn_intercalate '.' ?_ (by simp)
  have hdot (n : ℕ) : '.' ∉ decimal n := fun h ↦ absurd (isDigit_of_mem_decimal h) (by decide)
  simp [hdot]

theorem ipv4Octets_text (q : Quad) : ipv4Octets q.text = .ok (q.a, q.b, q.c, q.d) := by
  simp [ipv4Octets, splitOn_dot, number_decimal]

theorem or_octet {high low : ℕ} (h : low < 256) : high <<< 8 ||| low = high * 256 + low := by
  rw [← Nat.shiftLeft_add_eq_or_of_lt (i := 8) h, Nat.shiftLeft_eq]

theorem isHexGroup_digits (g : Group) : isHexGroup g.digits = true := by
  have hpos : 1 ≤ g.digits.length := List.length_pos_of_ne_nil g.nonempty
  simp only [isHexGroup, Bool.and_eq_true, decide_eq_true_eq, List.all_eq_true]
  exact ⟨⟨g.hex, hpos⟩, g.length_le⟩

/-- The parts of a side are read as its groups, a quad among them where one may be. -/
theorem parseGroups_parts (hstandard : platform.Standard isZone) (side : Side) {allowDotted : Bool}
    (hquad : side.quad = none ∨ allowDotted = true) :
    parseGroups platform allowDotted side.parts = .ok side.hextets := by
  obtain ⟨groups, quad⟩ := side
  simp only [Side.parts, Side.hextets]
  induction groups with
  | nil =>
    cases quad with
    | none => rfl
    | some q =>
      have hallowed : allowDotted = true := by simpa using hquad
      have hplatform : platform.isIPv4 q.text = true := (hstandard.isIPv4 _).mpr ⟨q, rfl⟩
      simp only [List.map_nil, Option.toList_some, List.map_cons, List.nil_append, parseGroups,
        dot_mem_quad, if_true, hallowed, hplatform, List.isEmpty_nil, Bool.not_true,
        Bool.or_false, ipv4Octets_text, List.flatMap_cons, List.flatMap_nil, List.append_nil,
        Side.quadHextets]
      change Except.ok [q.a.val <<< 8 ||| q.b.val, q.c.val <<< 8 ||| q.d.val] = _
      rw [or_octet q.b.isLt, or_octet q.d.isLt]
  | cons g _ ih =>
    simp only [List.map_cons, List.cons_append, parseGroups, g.dot_notMem, if_false,
      isHexGroup_digits, Bool.not_true, Bool.false_eq_true, ih hquad]
    rfl

theorem parseIPv6Half_text (hstandard : platform.Standard isZone) (side : Side)
    {allowDotted : Bool} (hquad : side.quad = none ∨ allowDotted = true) :
    parseIPv6Half platform side.text allowDotted = .ok side.hextets := by
  have hread := parseGroups_parts hstandard side hquad
  by_cases hparts : side.parts = []
  · rw [hparts] at hread
    rw [parseIPv6Half, if_pos (by simp [Side.text, hparts, List.intercalate]), ← hread]
    rfl
  · have htext : side.text ≠ [] := by
      obtain ⟨part, rest, hcons⟩ := List.exists_cons_of_ne_nil hparts
      obtain ⟨hne, -⟩ := Side.part_of_mem (s := side) (show part ∈ side.parts by simp [hcons])
      cases rest <;> simp [Side.text, hcons, List.intercalate, hne]
    have hsplit : side.text.splitOn ':' = side.parts :=
      List.splitOn_intercalate ':' (fun part hpart ↦ (Side.part_of_mem hpart).2.1) hparts
    rw [parseIPv6Half, if_neg htext, hsplit, hread]

theorem Side.noElision_text (side : Side) :
    NoElision side.text ∧ side.text.getLast? ≠ some ':' ∧ '%' ∉ side.text := by
  obtain ⟨hchain, hlast, -, hzone⟩ :=
    noElision_intercalate fun part hpart ↦ Side.part_of_mem (s := side) hpart
  exact ⟨hchain, hlast, hzone⟩

theorem Spelling.zone_notMem (s : Spelling) : '%' ∉ s.text := by
  cases s with
  | full side => exact (Side.noElision_text side).2.2
  | elided _ tail =>
    simp only [Spelling.text, List.mem_append, List.mem_cons, not_or]
    exact ⟨(Side.noElision_text _).2.2, by decide, by decide, (Side.noElision_text tail).2.2⟩

theorem takeWhile_text (t : Ipv6Text) : t.text.takeWhile (· ≠ '%') = t.spelling.text := by
  have hall : ∀ c ∈ t.spelling.text, decide (c ≠ '%') = true := by
    intro c hc
    refine decide_eq_true fun heq ↦ Spelling.zone_notMem t.spelling ?_
    rwa [← heq]
  rw [Ipv6Text.text, List.takeWhile_append_of_pos hall]
  cases t.zone <;> simp

/-- Every spelling of an address is read as the eight groups of it. -/
theorem ipv6Hextets_text (hstandard : platform.Standard isZone) (t : Ipv6Text) :
    ipv6Hextets platform t.text = .ok t.hextets := by
  rw [ipv6Hextets, takeWhile_text]
  obtain ⟨spelling, zone⟩ := t
  cases spelling with
  | full side h =>
    have hread := @parseIPv6Half_text _ _ hstandard side true (Or.inr rfl)
    simp only [Spelling.text, splitElision_of_noElision (Side.noElision_text side).1, hread]
    simp only [bind, Except.bind, h]
    rfl
  | elided head tail =>
    have hhead := @parseIPv6Half_text _ _ hstandard ⟨head, none⟩ false (Or.inl rfl)
    have htail := @parseIPv6Half_text _ _ hstandard tail true (Or.inr rfl)
    obtain ⟨hchain, hlast, -⟩ := Side.noElision_text ⟨head, none⟩
    have hhextets : Side.hextets ⟨head, none⟩ = head.map Group.value := by simp [Side.hextets]
    simp only [Spelling.text, splitElision_append hchain hlast,
      splitElision_of_noElision (Side.noElision_text tail).1, hhead, htail]
    have hroom : ¬8 < (head.map Group.value).length + tail.hextets.length + 1 := by
      rw [List.length_map]
      omega
    simp only [bind, Except.bind, hhextets, hroom, if_false]
    simp only [Ipv6Text.hextets, Spelling.hextets, List.length_map]
    rfl

end Odudu.ProtocolOidc.RemoteAddress
