import Mathlib.Algebra.Order.Group.Int
import Mathlib.Data.List.AList
import Mathlib.Algebra.Ring.Int.Defs

/-!
# The branding cache

`service/branding-cache.ts`: entries by key, bounded by number and by weight, and for each
tenant a count of its invalidations, of which the oldest is forgotten for a floor above it.

Maps keep their entries latest first.  Times are milliseconds, and no time passes within a
call.
-/

set_option autoImplicit false

namespace Odudu.DomainTheme

/-- A string, by its characters. -/
abbrev Text : Type := List Char

abbrev Time : Type := ℤ

/-- The id of a tenant, which has no colon. -/
structure TenantId where
  text : Text
  noColon : ':' ∉ text
  deriving DecidableEq

structure CacheOptions where
  maxEntries : ℕ
  ttlMs : ℕ
  maxBytes : ℕ
  maxTenants : ℕ

structure Entry (V : Type) where
  tenantId : TenantId
  value : V
  bytes : ℕ
  expiresAt : Time

structure BrandingCache (V : Type) where
  entries : AList fun _ : Text ↦ Entry V
  generations : AList fun _ : TenantId ↦ ℕ
  floor : ℕ
  weight : ℤ

namespace BrandingCache

variable {V : Type}

def empty : BrandingCache V where
  entries := ∅
  generations := ∅
  floor := 0
  weight := 0

def generationOf (cache : BrandingCache V) (tenantId : TenantId) : ℕ :=
  (cache.generations.lookup tenantId).getD cache.floor

def drop (cache : BrandingCache V) (key : Text) (entry : Entry V) : BrandingCache V :=
  { cache with
    entries := cache.entries.erase key
    weight := cache.weight - entry.bytes }

/-- What is held under the key, and the cache after. -/
def get (cache : BrandingCache V) (key : Text) (now : Time) : Option V × BrandingCache V :=
  match cache.entries.lookup key with
  | none => (none, cache)
  | some entry =>
    if entry.expiresAt ≤ now then (none, cache.drop key entry)
    else (some entry.value, { cache with entries := cache.entries.insert key entry })

/-- The entries in turn, oldest first, are dropped until the rest are within the bounds. -/
def evict (options : CacheOptions) :
    List (Sigma fun _ : Text ↦ Entry V) → BrandingCache V → BrandingCache V
  | [], cache => cache
  | ⟨oldest, entry⟩ :: rest, cache =>
    if cache.entries.entries.length ≤ options.maxEntries ∧ cache.weight ≤ options.maxBytes then
      cache
    else evict options rest (cache.drop oldest entry)

/-- The cache with an entry that takes the place of the one held. -/
def put (cache : BrandingCache V) (key : Text) (entry : Entry V) : BrandingCache V :=
  let cache := match cache.entries.lookup key with
    | none => cache
    | some held => cache.drop key held
  { cache with
    entries := cache.entries.insert key entry
    weight := cache.weight + entry.bytes }

def set (options : CacheOptions) (cache : BrandingCache V) (key : Text) (tenantId : TenantId)
    (value : V) (bytes generation : ℕ) (now : Time) : BrandingCache V :=
  if generation ≠ cache.generationOf tenantId ∨ options.maxBytes < bytes then cache
  else
    let cache := cache.put key ⟨tenantId, value, bytes, now + options.ttlMs⟩
    evict options cache.entries.entries.reverse cache

/-- The entries of the tenant, in turn, are dropped. -/
def dropTenant (tenantId : TenantId) :
    List (Sigma fun _ : Text ↦ Entry V) → BrandingCache V → BrandingCache V
  | [], cache => cache
  | ⟨key, entry⟩ :: rest, cache =>
    dropTenant tenantId rest (if entry.tenantId = tenantId then cache.drop key entry else cache)

/-- The oldest count is forgotten when there are too many. -/
def forget (options : CacheOptions) (cache : BrandingCache V) : BrandingCache V :=
  if options.maxTenants < cache.generations.entries.length then
    match cache.generations.entries.getLast? with
    | none => cache
    | some ⟨oldest, count⟩ =>
      { cache with
        floor := max cache.floor (count + 1)
        generations := cache.generations.erase oldest }
  else cache

def invalidateTenant (options : CacheOptions) (cache : BrandingCache V) (tenantId : TenantId) :
    BrandingCache V :=
  let counted := { cache with
    generations := cache.generations.insert tenantId (cache.generationOf tenantId + 1) }
  let forgotten := counted.forget options
  dropTenant tenantId forgotten.entries.entries.reverse forgotten

/-! ### Weight -/

/-- The weight is that of the entries. -/
def Weighed (cache : BrandingCache V) : Prop :=
  cache.weight = (cache.entries.entries.map fun slot ↦ (slot.2.bytes : ℤ)).sum

/-- No more entries and no more weight than there may be. -/
def Within (options : CacheOptions) (cache : BrandingCache V) : Prop :=
  cache.entries.entries.length ≤ options.maxEntries ∧ cache.weight ≤ options.maxBytes

/-- Nothing is added. -/
structure Shrinks (cache cache' : BrandingCache V) : Prop where
  lookup : ∀ key entry, cache'.entries.lookup key = some entry →
    cache.entries.lookup key = some entry
  length : cache'.entries.entries.length ≤ cache.entries.entries.length
  weight : cache'.weight ≤ cache.weight
  weighed : cache.Weighed → cache'.Weighed
  generations : cache'.generations = cache.generations
  floor : cache'.floor = cache.floor

variable {cache cache' cache'' : BrandingCache V} {options : CacheOptions} {key : Text}
  {entry : Entry V} {tenantId tenantId' : TenantId} {now : Time}

namespace Shrinks

theorem refl (cache : BrandingCache V) : Shrinks cache cache where
  lookup := fun _ _ h ↦ h
  length := le_rfl
  weight := le_rfl
  weighed := id
  generations := rfl
  floor := rfl

theorem trans (h : Shrinks cache cache') (h' : Shrinks cache' cache'') : Shrinks cache cache'' where
  lookup := fun key entry hlookup ↦ h.lookup key entry (h'.lookup key entry hlookup)
  length := h'.length.trans h.length
  weight := h'.weight.trans h.weight
  weighed := h'.weighed ∘ h.weighed
  generations := h'.generations.trans h.generations
  floor := h'.floor.trans h.floor

theorem within (h : Shrinks cache cache') (hwithin : cache.Within options) :
    cache'.Within options :=
  ⟨h.length.trans hwithin.1, h.weight.trans hwithin.2⟩

theorem generationOf (h : Shrinks cache cache') (tenantId : TenantId) :
    cache'.generationOf tenantId = cache.generationOf tenantId := by
  rw [BrandingCache.generationOf, h.generations, h.floor, BrandingCache.generationOf]

end Shrinks

/-- The weight of the entries is that of one of them and that of the others. -/
theorem sum_erase (h : cache.entries.lookup key = some entry) :
    (cache.entries.entries.map fun slot ↦ (slot.2.bytes : ℤ)).sum =
      entry.bytes + ((cache.entries.erase key).entries.map fun slot ↦ (slot.2.bytes : ℤ)).sum := by
  have hmem : key ∈ cache.entries := AList.lookup_isSome.mp (by simp [h])
  obtain ⟨entry', before, after, -, hentries, herased⟩ := List.exists_of_kerase hmem
  have hlookup : cache.entries.lookup key = some entry' := by
    refine AList.mem_lookup_iff.mpr ?_
    rw [hentries]
    exact List.mem_append_right _ List.mem_cons_self
  obtain rfl : entry = entry' := Option.some.inj (h.symm.trans hlookup)
  change _ = _ + ((List.kerase key cache.entries.entries).map _).sum
  rw [herased, hentries]
  simp only [List.map_append, List.sum_append, List.map_cons, List.sum_cons]
  omega

theorem shrinks_drop (h : cache.entries.lookup key = some entry) :
    Shrinks cache (cache.drop key entry) where
  lookup := by
    intro key' entry' hlookup
    by_cases hkey : key' = key
    · subst hkey
      simp [drop] at hlookup
    · simpa [drop, AList.lookup_erase_ne hkey] using hlookup
  length := (List.kerase_sublist key cache.entries.entries).length_le
  weight := by
    simp only [drop]
    omega
  weighed := by
    intro hweighed
    have hsum := sum_erase h
    simp only [Weighed, drop] at hweighed ⊢
    omega
  generations := rfl
  floor := rfl

/-- An entry that is held is the latest. -/
theorem shrinks_latest (h : cache.entries.lookup key = some entry) :
    Shrinks cache { cache with entries := cache.entries.insert key entry } where
  lookup := by
    intro key' entry' hlookup
    by_cases hkey : key' = key
    · subst hkey
      simpa [h] using hlookup
    · rwa [AList.lookup_insert_ne hkey] at hlookup
  length := by
    have hmem : key ∈ cache.entries := AList.lookup_isSome.mp (by simp [h])
    obtain ⟨entry', before, after, -, hentries, herased⟩ := List.exists_of_kerase hmem
    rw [AList.entries_insert, herased, hentries]
    simp only [List.length_cons, List.length_append]
    omega
  weight := le_rfl
  weighed := by
    intro hweighed
    have hsum := sum_erase h
    simp only [Weighed] at hweighed ⊢
    rw [AList.entries_insert, List.map_cons, List.sum_cons, hweighed, hsum]
    rfl
  generations := rfl
  floor := rfl

theorem shrinks_get (cache : BrandingCache V) (key : Text) (now : Time) :
    Shrinks cache (cache.get key now).2 := by
  rw [get]
  split
  · exact Shrinks.refl cache
  · rename_i entry hlookup
    split_ifs
    · exact shrinks_drop hlookup
    · exact shrinks_latest hlookup

theorem lookup_of_get {value : V} (h : (cache.get key now).1 = some value) :
    ∃ entry, cache.entries.lookup key = some entry ∧ entry.value = value := by
  rw [get] at h
  split at h
  · simp at h
  · rename_i entry hlookup
    split_ifs at h
    · exact ⟨entry, hlookup, Option.some.inj h⟩

/-- The oldest entry is dropped, and the others are in their order. -/
theorem reverse_drop {rest : List (Sigma fun _ : Text ↦ Entry V)}
    (h : cache.entries.entries.reverse = ⟨key, entry⟩ :: rest) :
    cache.entries.lookup key = some entry ∧
      (cache.drop key entry).entries.entries.reverse = rest := by
  have hentries : cache.entries.entries = rest.reverse ++ [⟨key, entry⟩] := by
    rw [← List.reverse_reverse cache.entries.entries, h, List.reverse_cons]
  have hnodup := cache.entries.nodupKeys
  rw [hentries, List.nodupKeys_middle, List.append_nil, List.nodupKeys_cons] at hnodup
  constructor
  · refine AList.mem_lookup_iff.mpr ?_
    rw [hentries]
    exact List.mem_append_right _ (List.mem_singleton.mpr rfl)
  · change (List.kerase key cache.entries.entries).reverse = rest
    rw [hentries, List.kerase_append_right hnodup.1, List.kerase_cons_eq rfl]
    simp

/-- The oldest are dropped until the rest are within the bounds. -/
theorem evict_spec (options : CacheOptions) (slots : List (Sigma fun _ : Text ↦ Entry V))
    (h : cache.entries.entries.reverse = slots) (hweighed : cache.Weighed) :
    Shrinks cache (evict options slots cache) ∧ (evict options slots cache).Within options := by
  induction slots generalizing cache with
  | nil =>
    have hentries : cache.entries.entries = [] := List.reverse_eq_nil_iff.mp h
    refine ⟨Shrinks.refl cache, ?_⟩
    simp only [Weighed, hentries, List.map_nil, List.sum_nil] at hweighed
    constructor
    · simp [evict, hentries]
    · simp [evict, hweighed]
  | cons slot _ ih =>
    obtain ⟨oldest, entry⟩ := slot
    rw [evict]
    split_ifs with hwithin
    · exact ⟨Shrinks.refl cache, hwithin⟩
    · obtain ⟨hlookup, hrest⟩ := reverse_drop h
      have hdrop := shrinks_drop hlookup
      obtain ⟨hshrinks, hbound⟩ := ih hrest (hdrop.weighed hweighed)
      exact ⟨hdrop.trans hshrinks, hbound⟩

/-- What is held after an entry is put, and what the whole weighs. -/
theorem put_spec (cache : BrandingCache V) (key : Text) (entry : Entry V) :
    (∀ key' entry', (cache.put key entry).entries.lookup key' = some entry' →
      key' = key ∧ entry' = entry ∨ cache.entries.lookup key' = some entry') ∧
    (cache.Weighed → (cache.put key entry).Weighed) ∧
    ∀ tenantId, (cache.put key entry).generationOf tenantId = cache.generationOf tenantId := by
  have hput : ∀ base : BrandingCache V, Shrinks cache base → base.entries.lookup key = none →
      ∀ cache', cache' = { base with
        entries := base.entries.insert key entry, weight := base.weight + entry.bytes } →
      (∀ key' entry', cache'.entries.lookup key' = some entry' →
        key' = key ∧ entry' = entry ∨ cache.entries.lookup key' = some entry') ∧
      (cache.Weighed → cache'.Weighed) ∧
      ∀ tenantId, cache'.generationOf tenantId = cache.generationOf tenantId := by
    rintro base hbase hnone cache' rfl
    refine ⟨fun key' entry' hlookup ↦ ?_, fun hweighed ↦ ?_, fun tenantId ↦ ?_⟩
    · by_cases hkey : key' = key
      · subst hkey
        exact Or.inl ⟨rfl, by simpa using hlookup.symm⟩
      · rw [AList.lookup_insert_ne hkey] at hlookup
        exact Or.inr (hbase.lookup key' entry' hlookup)
    · have hbase' := hbase.weighed hweighed
      simp only [Weighed] at hbase' ⊢
      rw [AList.entries_insert_of_notMem (AList.lookup_eq_none.mp hnone), List.map_cons,
        List.sum_cons, hbase', add_comm]
    · exact hbase.generationOf tenantId
  cases hlookup : cache.entries.lookup key with
  | none => exact hput cache (Shrinks.refl cache) hlookup _ (by simp [put, hlookup])
  | some held =>
    exact hput (cache.drop key held) (shrinks_drop hlookup) (AList.lookup_erase key _) _
      (by simp [put, hlookup])

/-- What is set: nothing, of another generation or too heavy; or the entry, and the oldest are
dropped. -/
theorem set_spec (options : CacheOptions) (cache : BrandingCache V) (key : Text)
    (tenantId : TenantId) (value : V) (bytes generation : ℕ) (now : Time)
    (hweighed : cache.Weighed) (hwithin : cache.Within options) :
    let cache' := cache.set options key tenantId value bytes generation now
    cache'.Weighed ∧ cache'.Within options ∧
      (∀ tenantId', cache'.generationOf tenantId' = cache.generationOf tenantId') ∧
      ∀ key' entry', cache'.entries.lookup key' = some entry' →
        cache.entries.lookup key' = some entry' ∨
          key' = key ∧ entry'.tenantId = tenantId ∧ entry'.value = value ∧
            generation = cache.generationOf tenantId := by
  intro cache'
  by_cases hrefused : generation ≠ cache.generationOf tenantId ∨ options.maxBytes < bytes
  · have hcache : cache' = cache := if_pos hrefused
    rw [hcache]
    exact ⟨hweighed, hwithin, fun _ ↦ rfl, fun _ _ h ↦ Or.inl h⟩
  · obtain ⟨hlookup, hput, hgeneration⟩ :=
      cache.put_spec key ⟨tenantId, value, bytes, now + options.ttlMs⟩
    obtain ⟨hshrinks, hbound⟩ := evict_spec options _ rfl (hput hweighed)
    have hcache : cache' = evict options
        (cache.put key ⟨tenantId, value, bytes, now + options.ttlMs⟩).entries.entries.reverse
        (cache.put key ⟨tenantId, value, bytes, now + options.ttlMs⟩) := if_neg hrefused
    rw [hcache]
    refine ⟨hshrinks.weighed (hput hweighed), hbound, fun tenantId' ↦ ?_, fun key' entry' h ↦ ?_⟩
    · exact (hshrinks.generationOf tenantId').trans (hgeneration tenantId')
    · rcases hlookup key' entry' (hshrinks.lookup key' entry' h) with ⟨rfl, rfl⟩ | hold
      · have hsame : generation = cache.generationOf tenantId := by
          by_contra hne
          exact hrefused (Or.inl hne)
        exact Or.inr ⟨rfl, rfl, rfl, hsame⟩
      · exact Or.inl hold

/-- The entries of the tenant are gone, when all there are come in turn. -/
theorem dropTenant_spec (tenantId : TenantId) (slots : List (Sigma fun _ : Text ↦ Entry V))
    (hslots : slots.NodupKeys)
    (hheld : ∀ slot ∈ slots, cache.entries.lookup slot.1 = some slot.2)
    (hall : ∀ key entry, cache.entries.lookup key = some entry → entry.tenantId = tenantId →
      ⟨key, entry⟩ ∈ slots) :
    Shrinks cache (dropTenant tenantId slots cache) ∧
      ∀ key entry, (dropTenant tenantId slots cache).entries.lookup key = some entry →
        entry.tenantId ≠ tenantId := by
  induction slots generalizing cache with
  | nil =>
    refine ⟨Shrinks.refl cache, fun key entry hlookup htenant ↦ ?_⟩
    exact absurd (hall key entry hlookup htenant) List.not_mem_nil
  | cons slot rest ih =>
    obtain ⟨key, entry⟩ := slot
    obtain ⟨hfresh, hrest⟩ := List.nodupKeys_cons.mp hslots
    have hlookup := hheld ⟨key, entry⟩ List.mem_cons_self
    rw [dropTenant]
    split_ifs with htenant
    · have hdrop := shrinks_drop hlookup
      have hheld' : ∀ slot ∈ rest, (cache.drop key entry).entries.lookup slot.1 = some slot.2 := by
        intro slot hslot
        have hne : slot.1 ≠ key := by
          intro heq
          have hmem : slot.1 ∈ rest.keys := List.mem_keys_of_mem hslot
          exact hfresh (heq ▸ hmem)
        refine (AList.lookup_erase_ne hne).trans ?_
        exact hheld slot (List.mem_cons_of_mem _ hslot)
      have hall' : ∀ key' entry', (cache.drop key entry).entries.lookup key' = some entry' →
          entry'.tenantId = tenantId → ⟨key', entry'⟩ ∈ rest := by
        intro key' entry' hlookup' htenant'
        have hne : key' ≠ key := by
          rintro rfl
          simp [drop] at hlookup'
        have hmem := hall key' entry' (hdrop.lookup key' entry' hlookup') htenant'
        rcases List.mem_cons.mp hmem with heq | hmem
        · exact absurd (congrArg Sigma.fst heq) hne
        · exact hmem
      obtain ⟨hshrinks, hgone⟩ := ih hrest hheld' hall'
      exact ⟨hdrop.trans hshrinks, hgone⟩
    · refine ih hrest (fun slot hslot ↦ hheld slot (List.mem_cons_of_mem _ hslot)) ?_
      intro key' entry' hlookup' htenant'
      rcases List.mem_cons.mp (hall key' entry' hlookup' htenant') with heq | hmem
      · cases heq
        exact absurd htenant' htenant
      · exact hmem

/-! ### Generations -/

theorem forget_generationOf (options : CacheOptions) (cache : BrandingCache V)
    (tenantId : TenantId) :
    cache.generationOf tenantId ≤ (cache.forget options).generationOf tenantId := by
  rw [forget]
  split_ifs
  · split
    · exact le_rfl
    · rename_i oldest count hlast
      have hmem : ⟨oldest, count⟩ ∈ cache.generations.entries := List.mem_of_getLast? hlast
      have hlookup : cache.generations.lookup oldest = some count := AList.mem_lookup_iff.mpr hmem
      by_cases htenant : tenantId = oldest
      · subst htenant
        simp only [generationOf, hlookup, AList.lookup_erase, Option.getD_some, Option.getD_none]
        omega
      · simp only [generationOf, AList.lookup_erase_ne htenant]
        cases cache.generations.lookup tenantId with
        | none => simp
        | some => exact le_rfl
  · exact le_rfl

theorem forget_entries (options : CacheOptions) (cache : BrandingCache V) :
    (cache.forget options).entries = cache.entries ∧
      (cache.forget options).weight = cache.weight := by
  rw [forget]
  split_ifs
  · split <;> exact ⟨rfl, rfl⟩
  · exact ⟨rfl, rfl⟩

/-- An invalidation drops the entries of the tenant, and every generation is as it was or
later, that of the tenant later. -/
theorem invalidateTenant_spec (options : CacheOptions) (cache : BrandingCache V)
    (tenantId : TenantId) (hweighed : cache.Weighed) (hwithin : cache.Within options) :
    let cache' := cache.invalidateTenant options tenantId
    cache'.Weighed ∧ cache'.Within options ∧
      (∀ tenantId', cache.generationOf tenantId' ≤ cache'.generationOf tenantId') ∧
      cache.generationOf tenantId < cache'.generationOf tenantId ∧
      ∀ key entry, cache'.entries.lookup key = some entry →
        cache.entries.lookup key = some entry ∧ entry.tenantId ≠ tenantId := by
  intro cache'
  let counted : BrandingCache V := { cache with
    generations := cache.generations.insert tenantId (cache.generationOf tenantId + 1) }
  obtain ⟨hentries, hweight⟩ := counted.forget_entries options
  have hheld : ∀ slot, slot ∈ (counted.forget options).entries.entries.reverse ↔
      (counted.forget options).entries.lookup slot.1 = some slot.2 := by
    intro slot
    rw [List.mem_reverse]
    exact AList.mem_lookup_iff.symm
  obtain ⟨hshrinks, hgone⟩ := @dropTenant_spec V (counted.forget options) tenantId
    (counted.forget options).entries.entries.reverse
    (List.nodupKeys_iff_pairwise.mpr (List.pairwise_reverse.mpr
      ((List.nodupKeys_iff_pairwise.mp (counted.forget options).entries.nodupKeys).imp Ne.symm)))
    (fun slot hslot ↦ (hheld slot).mp hslot)
    (fun key entry hlookup _ ↦ (hheld ⟨key, entry⟩).mpr hlookup)
  have hcounted : ∀ tenantId', counted.generationOf tenantId' ≤ cache'.generationOf tenantId' := by
    intro tenantId'
    exact (counted.forget_generationOf options tenantId').trans_eq
      (hshrinks.generationOf tenantId').symm
  have hweighed' : (counted.forget options).Weighed := by
    rw [Weighed, hweight, hentries]
    exact hweighed
  have hwithin' : (counted.forget options).Within options := by
    rw [Within, hweight, hentries]
    exact hwithin
  have hself : counted.generationOf tenantId = cache.generationOf tenantId + 1 := by
    simp [counted, generationOf]
  refine ⟨hshrinks.weighed hweighed', hshrinks.within hwithin', fun tenantId' ↦ ?_, ?_,
    fun key entry hlookup ↦ ⟨?_, hgone key entry hlookup⟩⟩
  · by_cases htenant : tenantId' = tenantId
    · subst htenant
      exact (Nat.le_of_lt (by omega)).trans (hcounted tenantId')
    · refine le_trans ?_ (hcounted tenantId')
      simp [counted, generationOf, AList.lookup_insert_ne htenant]
  · exact lt_of_lt_of_le (by omega) (hcounted tenantId)
  · rw [← hentries]
    exact hshrinks.lookup key entry hlookup

end BrandingCache

end Odudu.DomainTheme
