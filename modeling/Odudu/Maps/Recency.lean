import Mathlib.Data.Finset.Card
import Mathlib.Data.List.AList
import Mathlib.Data.List.DropRight

/-!
# Maps in the order of insertion

A map whose keys are in the order in which they were last inserted, the latest first: an
insertion moves its key to the front (`AList.insert`), and what goes first is at the back.
`evict` keeps a map to a size and `sweep` drops what is stale from the back; both keep a front
of the entries (`entries_evict`, `entries_sweep`), and what a front holds is what the map held
(`lookup_of_front`).
-/

set_option autoImplicit false

namespace Odudu.Maps

variable {κ β : Type*} [DecidableEq κ]

abbrev Slot (κ β : Type*) : Type _ := Sigma fun _ : κ ↦ β

/-- A map by order of insertion, the latest first. -/
abbrev Recency (κ β : Type*) : Type _ := AList fun _ : κ ↦ β

namespace Recency

/-- `map.size`. -/
def size (m : Recency κ β) : ℕ := m.entries.length

/-- `map.entries().next()`. -/
def coldest (m : Recency κ β) : Option (κ × β) := m.entries.getLast?.map fun slot ↦ (slot.1, slot.2)

/-- `map.delete(map.keys().next().value)`, where there is a key. -/
def dropColdest (m : Recency κ β) : Recency κ β :=
  match m.coldest with
  | none => m
  | some (key, _) => m.erase key

/-- `while (map.size > max)` the coldest is dropped. -/
def evict (max : ℕ) (m : Recency κ β) : Recency κ β := dropColdest^[m.size - max] m

/-- The entries in turn, the coldest first, are dropped until one is not stale. -/
def sweepFrom (stale : β → Bool) : List (Slot κ β) → Recency κ β → Recency κ β
  | [], m => m
  | ⟨key, value⟩ :: rest, m => if stale value then sweepFrom stale rest (m.erase key) else m

def sweep (stale : β → Bool) (m : Recency κ β) : Recency κ β :=
  sweepFrom stale m.entries.reverse m

/-- A slot, with the value changed where it is the key's. -/
def adjustSlot (key : κ) (f : β → β) (slot : Slot κ β) : Slot κ β :=
  if slot.1 = key then ⟨slot.1, f slot.2⟩ else slot

@[simp] theorem adjustSlot_fst (key : κ) (f : β → β) (slot : Slot κ β) :
    (adjustSlot key f slot).1 = slot.1 := by
  unfold adjustSlot
  split <;> rfl

/-- The value of the key is changed where it stands. -/
def adjust (key : κ) (f : β → β) (m : Recency κ β) : Recency κ β where
  entries := m.entries.map (adjustSlot key f)
  nodupKeys := by
    have hkeys : List.keys (m.entries.map (adjustSlot key f)) = List.keys m.entries := by
      rw [List.keys, List.map_map]
      exact List.map_congr_left fun slot _ ↦ adjustSlot_fst key f slot
    rw [List.NodupKeys, hkeys]
    exact m.nodupKeys

variable {m m' : Recency κ β} {key key' : κ} {value : β}

/-! ### Lookups -/

theorem mem_entries_of_lookup (h : m.lookup key = some value) :
    (⟨key, value⟩ : Slot κ β) ∈ m.entries :=
  AList.mem_lookup_iff.mp h

variable {slot : Slot κ β}

theorem lookup_of_mem_entries (h : slot ∈ m.entries) :
    m.lookup slot.1 = some slot.2 :=
  AList.mem_lookup_iff.mpr h

theorem lookup_adjust (f : β → β) :
    (m.adjust key f).lookup key' = if key' = key then (m.lookup key').map f else m.lookup key' := by
  cases hlookup : m.lookup key' with
  | none =>
    have hnot : key' ∉ m.adjust key f := by
      intro hmem
      obtain ⟨changed, hchanged⟩ := Option.isSome_iff_exists.mp (AList.lookup_isSome.mpr hmem)
      obtain ⟨slot, hslot, heq⟩ := List.mem_map.mp (mem_entries_of_lookup hchanged)
      have hkey : slot.1 = key' := by
        rw [← adjustSlot_fst key f slot, heq]
      rw [← hkey, lookup_of_mem_entries hslot] at hlookup
      cases hlookup
    rw [AList.lookup_eq_none.mpr hnot]
    split <;> rfl
  | some value =>
    have hslot := mem_entries_of_lookup hlookup
    by_cases hkey : key' = key
    · have hchanged : (⟨key', f value⟩ : Slot κ β) ∈ (m.adjust key f).entries :=
        List.mem_map.mpr ⟨_, hslot, if_pos hkey⟩
      rw [if_pos hkey, lookup_of_mem_entries hchanged]
      rfl
    · have hsame : (⟨key', value⟩ : Slot κ β) ∈ (m.adjust key f).entries :=
        List.mem_map.mpr ⟨_, hslot, if_neg hkey⟩
      rw [if_neg hkey, lookup_of_mem_entries hsame]

/-- An erased key leaves the others as they were. -/
theorem entries_erase (m : Recency κ β) (key : κ) :
    (m.erase key).entries = m.entries.filter fun slot ↦ slot.1 ≠ key := by
  have hkerase : ∀ {slots : List (Slot κ β)}, slots.NodupKeys →
      List.kerase key slots = slots.filter fun slot ↦ slot.1 ≠ key := by
    intro slots
    induction slots with
    | nil => exact fun _ ↦ rfl
    | cons slot _ ih =>
      intro hnodup
      obtain ⟨hnot, hrest⟩ := List.nodupKeys_cons.mp hnodup
      by_cases hkey : slot.1 = key
      · subst hkey
        rw [List.kerase_cons_eq rfl, List.filter_cons_of_neg (by simp)]
        refine (List.filter_eq_self.mpr fun other hother ↦ ?_).symm
        have hne := List.ne_key.mp hnot other hother
        simpa using Ne.symm hne
      · rw [List.kerase_cons_ne (Ne.symm hkey), List.filter_cons_of_pos (by simpa using hkey),
          ih hrest]
  exact hkerase m.nodupKeys

theorem entries_insert (m : Recency κ β) (key : κ) (value : β) :
    (m.insert key value).entries = ⟨key, value⟩ :: m.entries.filter fun slot ↦ slot.1 ≠ key := by
  rw [← entries_erase]
  rfl

theorem size_adjust (f : β → β) : (m.adjust key f).size = m.size := List.length_map _

variable {slots : List (Slot κ β)}

theorem map_adjustSlot_of_ne (f : β → β)
    (h : ∀ slot ∈ slots, slot.1 ≠ key) : slots.map (adjustSlot key f) = slots :=
  (List.map_congr_left fun slot hslot ↦ if_neg (h slot hslot)).trans (List.map_id slots)

/-- Slots of different keys are no more than the keys they are of. -/
theorem length_le_card {keys : Finset κ} (hnodup : slots.NodupKeys)
    (h : ∀ slot ∈ slots, slot.1 ∈ keys) : slots.length ≤ keys.card := by
  have hsubset : (slots.map Sigma.fst).toFinset ⊆ keys := by
    intro key hkey
    obtain ⟨slot, hslot, rfl⟩ := List.mem_map.mp (List.mem_toFinset.mp hkey)
    exact h slot hslot
  have hcard : (slots.map Sigma.fst).toFinset.card = slots.length := by
    rw [List.toFinset_card_of_nodup (show (slots.map Sigma.fst).Nodup from hnodup), List.length_map]
  exact hcard ▸ Finset.card_le_card hsubset

/-! ### Fronts of the entries -/

theorem lookup_of_front (h : m'.entries <+: m.entries) (hlookup : m'.lookup key = some value) :
    m.lookup key = some value :=
  lookup_of_mem_entries (h.subset (mem_entries_of_lookup hlookup))

theorem lookup_eq_of_front (h : m'.entries <+: m.entries) (hmem : key ∈ m') :
    m'.lookup key = m.lookup key := by
  obtain ⟨value, hvalue⟩ := Option.isSome_iff_exists.mp (AList.lookup_isSome.mpr hmem)
  rw [hvalue, lookup_of_front h hvalue]

/-- The entries without the last, when that one's key is erased. -/
theorem entries_erase_last {front : List (Slot κ β)}
    (h : m.entries = front ++ [slot]) : (m.erase slot.1).entries = front := by
  have hnodup : (front.map Sigma.fst ++ [slot.1]).Nodup := by
    have hkeys := m.nodupKeys
    rwa [h, List.NodupKeys, List.keys, List.map_append] at hkeys
  have hnot : slot.1 ∉ List.keys front := fun hmem ↦
    (List.nodup_append.mp hnodup).2.2 _ hmem _ List.mem_cons_self rfl
  change List.kerase slot.1 m.entries = front
  rw [h, List.kerase_append_right hnot]
  simp

theorem entries_dropColdest (m : Recency κ β) : m.dropColdest.entries = m.entries.dropLast := by
  unfold dropColdest coldest
  rcases List.eq_nil_or_concat m.entries with hnil | ⟨front, slot, hconcat⟩
  · simp [hnil]
  · rw [List.concat_eq_append] at hconcat
    rw [hconcat, List.getLast?_concat, List.dropLast_concat]
    exact entries_erase_last hconcat

theorem entries_evict (max : ℕ) (m : Recency κ β) :
    (m.evict max).entries = m.entries.take max := by
  have hdrops : ∀ n, (dropColdest^[n] m).entries = m.entries.take (m.size - n) := by
    intro n
    induction n with
    | zero => simp [size]
    | succ n ih =>
      rw [Function.iterate_succ_apply', entries_dropColdest, ih, List.dropLast_eq_take,
        List.take_take, List.length_take]
      congr 1
      unfold size
      omega
  rw [evict, hdrops]
  rcases Nat.le_total m.size max with hle | hle
  · rw [Nat.sub_eq_zero_of_le hle, Nat.sub_zero, List.take_of_length_le hle,
      List.take_of_length_le (le_refl m.size)]
  · rw [Nat.sub_sub_self hle]

theorem size_evict_le (max : ℕ) (m : Recency κ β) : (m.evict max).size ≤ max := by
  rw [size, entries_evict]
  exact List.length_take_le _ _

theorem prefix_evict (max : ℕ) (m : Recency κ β) : (m.evict max).entries <+: m.entries := by
  rw [entries_evict]
  exact List.take_prefix _ _

/-- A sweep keeps the entries from the last on that is not stale. -/
theorem entries_sweep (stale : β → Bool) (m : Recency κ β) :
    (m.sweep stale).entries = m.entries.rdropWhile fun slot ↦ stale slot.2 := by
  have hsweeps : ∀ (slots : List (Slot κ β)) (m : Recency κ β),
      m.entries.reverse = slots →
        (sweepFrom stale slots m).entries = m.entries.rdropWhile fun slot ↦ stale slot.2 := by
    intro slots
    induction slots with
    | nil =>
      intro m h
      rw [List.reverse_eq_nil_iff] at h
      simp [sweepFrom, h]
    | cons slot rest ih =>
      intro m h
      have hconcat : m.entries = rest.reverse ++ [slot] := by
        rw [← List.reverse_reverse m.entries, h, List.reverse_cons]
      unfold sweepFrom
      by_cases hstale : stale slot.2 = true
      · have herase := entries_erase_last hconcat
        rw [if_pos hstale, ih (m.erase slot.1) (by rw [herase, List.reverse_reverse]), herase,
          hconcat]
        exact (List.rdropWhile_concat_pos (fun slot : Slot κ β ↦ stale slot.2) _ _ hstale).symm
      · rw [if_neg hstale, hconcat]
        exact (List.rdropWhile_concat_neg (fun slot : Slot κ β ↦ stale slot.2) _ _ hstale).symm
  exact hsweeps _ m rfl

theorem prefix_sweep (stale : β → Bool) (m : Recency κ β) :
    (m.sweep stale).entries <+: m.entries := by
  rw [entries_sweep]
  exact List.rdropWhile_prefix _ _

/-- What a sweep drops is stale. -/
theorem lookup_sweep (stale : β → Bool) (m : Recency κ β) (key : κ) :
    (m.sweep stale).lookup key = m.lookup key ∨
      key ∉ m.sweep stale ∧ ∃ value, m.lookup key = some value ∧ stale value = true := by
  by_cases hmem : key ∈ m.sweep stale
  · exact Or.inl (lookup_eq_of_front (prefix_sweep stale m) hmem)
  · rw [AList.lookup_eq_none.mpr hmem]
    cases hlookup : m.lookup key with
    | none => exact Or.inl rfl
    | some value =>
      refine Or.inr ⟨hmem, value, rfl, ?_⟩
      have hslot := mem_entries_of_lookup hlookup
      rw [← @List.rdropWhile_append_rtakeWhile _ (fun slot : Slot κ β ↦ stale slot.2)
        m.entries] at hslot
      rcases List.mem_append.mp hslot with hkept | hdropped
      · rw [← entries_sweep] at hkept
        have hfound := lookup_of_mem_entries hkept
        exact absurd (AList.lookup_isSome.mp (Option.isSome_iff_exists.mpr ⟨_, hfound⟩)) hmem
      · have hstale := List.mem_rtakeWhile_imp hdropped
        exact hstale

end Recency

end Odudu.Maps
