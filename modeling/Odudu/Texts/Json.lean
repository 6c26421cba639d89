import Odudu.Texts.Utf16
import Mathlib.Data.List.Nodup

/-!
# JSON values

A value as `JSON.parse` gives it, an object being its own members.  The order in which a
runtime lists names that are array indices is not kept.
-/

set_option autoImplicit false

namespace Odudu.Texts

inductive Json where
  | null
  | bool (b : Bool)
  | number (n : Float)
  | string (text : Utf16)
  | array (items : List Json)
  | object (members : List (Utf16 × Json))

/-- A text of Latin letters, digits and signs. -/
def ofAscii (text : String) : Utf16 := text.toList.map fun c ↦ UInt16.ofNat c.toNat

/-! ### Entries -/

section Entries

variable {α β : Type}

/-- A member is added, or takes the value of the one that has its name. -/
def putEntry (entries : List (Utf16 × α)) (entry : Utf16 × α) : List (Utf16 × α) :=
  if entries.any (fun other ↦ other.1 == entry.1) then
    entries.map fun other ↦ if other.1 = entry.1 then entry else other
  else entries ++ [entry]

/-- `Object.fromEntries` -/
def fromEntries (entries : List (Utf16 × α)) : List (Utf16 × α) := entries.foldl putEntry []

/-- The same names, and values that are related. -/
abbrev Alike (R : α → β → Prop) (entry : Utf16 × α) (entry' : Utf16 × β) : Prop :=
  entry.1 = entry'.1 ∧ R entry.2 entry'.2

variable {R : α → β → Prop} {entries : List (Utf16 × α)} {entries' : List (Utf16 × β)}

theorem Alike.any (h : List.Forall₂ (Alike R) entries entries') (name : Utf16) :
    entries.any (fun other ↦ other.1 == name) = entries'.any (fun other ↦ other.1 == name) := by
  induction h with
  | nil => rfl
  | cons hhead _ ih => rw [List.any_cons, List.any_cons, hhead.1, ih]

variable {entry : Utf16 × α}

theorem Alike.putEntry {entry' : Utf16 × β}
    (h : List.Forall₂ (Alike R) entries entries') (hentry : Alike R entry entry') :
    List.Forall₂ (Alike R) (putEntry entries entry) (Texts.putEntry entries' entry') := by
  unfold Texts.putEntry
  rw [Alike.any h entry.1, hentry.1]
  split_ifs with hany
  · refine List.rel_map (fun other other' hother ↦ ?_) h
    rw [hother.1]
    split_ifs with hname
    · exact hentry
    · exact hother
  · exact List.rel_append h (.cons hentry .nil)

theorem Alike.fromEntries (h : List.Forall₂ (Alike R) entries entries') :
    List.Forall₂ (Alike R) (fromEntries entries) (Texts.fromEntries entries') :=
  List.rel_foldl (fun _ _ hsofar _ _ hentry ↦ Alike.putEntry hsofar hentry) .nil h

theorem mem_of_putEntry {entry other : Utf16 × α} (h : other ∈ putEntry entries entry) :
    other = entry ∨ other ∈ entries := by
  unfold putEntry at h
  split_ifs at h with hany
  · obtain ⟨before, hbefore, rfl⟩ := List.mem_map.mp h
    split_ifs with hname
    · exact Or.inl rfl
    · exact Or.inr hbefore
  · rcases List.mem_append.mp h with hold | hnew
    · exact Or.inr hold
    · exact Or.inl (List.mem_singleton.mp hnew)

theorem name_mem_putEntry (entry : Utf16 × α) : entry ∈ putEntry entries entry := by
  unfold putEntry
  split_ifs with hany
  · obtain ⟨other, hother, hname⟩ := List.any_eq_true.mp hany
    exact List.mem_map.mpr ⟨other, hother, if_pos (eq_of_beq hname)⟩
  · exact List.mem_append_right _ (List.mem_singleton.mpr rfl)

/-- The names that were there are there still. -/
theorem names_putEntry (entry : Utf16 × α) {other : Utf16 × α} (h : other ∈ entries) :
    ∃ value, (other.1, value) ∈ putEntry entries entry := by
  unfold putEntry
  split_ifs with hany
  · by_cases hname : other.1 = entry.1
    · exact ⟨entry.2, List.mem_map.mpr ⟨other, h, by rw [if_pos hname, hname]⟩⟩
    · exact ⟨other.2, List.mem_map.mpr ⟨other, h, if_neg hname⟩⟩
  · exact ⟨other.2, List.mem_append_left _ h⟩

private theorem foldl_putEntry (entries sofar : List (Utf16 × α)) :
    (∀ entry ∈ entries.foldl putEntry sofar, entry ∈ sofar ∨ entry ∈ entries) ∧
      ∀ entry, entry ∈ sofar ∨ entry ∈ entries →
        ∃ value, (entry.1, value) ∈ entries.foldl putEntry sofar := by
  induction entries generalizing sofar with
  | nil => exact ⟨fun entry h ↦ Or.inl h, fun entry h ↦ ⟨entry.2, h.resolve_right (by simp)⟩⟩
  | cons first _ ih =>
    obtain ⟨hof, hnames⟩ := ih (putEntry sofar first)
    refine ⟨fun entry h ↦ ?_, fun entry h ↦ ?_⟩
    · rcases hof entry h with hput | hrest
      · rcases mem_of_putEntry hput with rfl | hold
        · exact Or.inr (List.mem_cons_self ..)
        · exact Or.inl hold
      · exact Or.inr (List.mem_cons_of_mem _ hrest)
    · rcases h with hold | hmem
      · obtain ⟨value, hvalue⟩ := names_putEntry first hold
        exact hnames (entry.1, value) (Or.inl hvalue)
      · rcases List.mem_cons.mp hmem with rfl | hrest
        · exact hnames entry (Or.inl (name_mem_putEntry entry))
        · exact hnames entry (Or.inr hrest)

theorem mem_of_fromEntries (h : entry ∈ fromEntries entries) :
    entry ∈ entries :=
  ((foldl_putEntry entries []).1 entry h).resolve_left (by simp)

theorem names_fromEntries (h : entry ∈ entries) :
    ∃ value, (entry.1, value) ∈ fromEntries entries :=
  (foldl_putEntry entries []).2 entry (Or.inr h)

/-! Every name is there once -/

theorem names_putEntry_eq (entries : List (Utf16 × α)) (entry : Utf16 × α) :
    (putEntry entries entry).map Prod.fst =
      if entry.1 ∈ entries.map Prod.fst then entries.map Prod.fst
      else entries.map Prod.fst ++ [entry.1] := by
  have hany : entries.any (fun other ↦ other.1 == entry.1) = true ↔
      entry.1 ∈ entries.map Prod.fst := by
    simp [List.any_eq_true]
  unfold putEntry
  by_cases hmem : entry.1 ∈ entries.map Prod.fst
  · rw [if_pos (hany.mpr hmem), if_pos hmem, List.map_map]
    refine List.map_congr_left fun other _ ↦ ?_
    show (if other.1 = entry.1 then entry else other).1 = other.1
    split_ifs with hname
    · exact hname.symm
    · rfl
  · rw [if_neg (fun h ↦ hmem (hany.mp h)), if_neg hmem, List.map_append]
    rfl

theorem nodup_putEntry (h : (entries.map Prod.fst).Nodup) (entry : Utf16 × α) :
    ((putEntry entries entry).map Prod.fst).Nodup := by
  rw [names_putEntry_eq]
  split_ifs with hmem
  · exact h
  · exact List.nodup_append.mpr ⟨h, by simp, fun a ha b hb ↦ by
      obtain rfl := List.mem_singleton.mp hb
      exact fun heq ↦ hmem (heq ▸ ha)⟩

theorem nodup_fromEntries (entries : List (Utf16 × α)) :
    ((fromEntries entries).map Prod.fst).Nodup := by
  have hfold : ∀ sofar : List (Utf16 × α), (sofar.map Prod.fst).Nodup →
      ((entries.foldl putEntry sofar).map Prod.fst).Nodup := by
    induction entries with
    | nil => exact fun _ h ↦ h
    | cons entry _ ih => exact fun sofar h ↦ ih _ (nodup_putEntry h entry)
  exact hfold [] List.nodup_nil

/-- Members of different names are as they are. -/
theorem fromEntries_of_nodup (h : (entries.map Prod.fst).Nodup) :
    fromEntries entries = entries := by
  have hfold : ∀ sofar : List (Utf16 × α), ((sofar ++ entries).map Prod.fst).Nodup →
      entries.foldl putEntry sofar = sofar ++ entries := by
    clear h
    induction entries with
    | nil => exact fun sofar _ ↦ (List.append_nil sofar).symm
    | cons entry _ ih =>
      intro sofar h
      have hnew : sofar.any (fun other ↦ other.1 == entry.1) = false := by
        by_contra htrue
        obtain ⟨other, hother, hname⟩ := List.any_eq_true.mp (Bool.not_eq_false _ ▸ htrue)
        rw [List.map_append] at h
        exact (List.nodup_append.mp h).2.2 other.1 (List.mem_map_of_mem hother) entry.1
          (List.mem_map_of_mem List.mem_cons_self) (eq_of_beq hname)
      have hput : putEntry sofar entry = sofar ++ [entry] := by
        rw [putEntry, hnew, if_neg Bool.false_ne_true]
      rw [List.foldl_cons, hput, ih _ (by rwa [List.append_assoc]), List.append_assoc]
      rfl
  exact hfold [] h

/-- With different names, what is found under a name is what is there. -/
theorem lookup_eq_some_iff_mem (h : (entries.map Prod.fst).Nodup) {name : Utf16} {value : α} :
    entries.lookup name = some value ↔ (name, value) ∈ entries := by
  induction entries with
  | nil => simp
  | cons first rest ih =>
    obtain ⟨other, value'⟩ := first
    rw [List.map_cons, List.nodup_cons] at h
    rw [List.lookup_cons, List.mem_cons]
    by_cases hname : name = other
    · subst hname
      have hnew : (name, value) ∉ rest := fun hmem ↦
        h.1 (List.mem_map.mpr ⟨(name, value), hmem, rfl⟩)
      simp [hnew, eq_comm]
    · rw [beq_eq_false_iff_ne.mpr hname]
      simp [ih h.2, hname]

theorem lookup_perm {others : List (Utf16 × α)} (hperm : entries.Perm others)
    (h : (entries.map Prod.fst).Nodup) (name : Utf16) :
    entries.lookup name = others.lookup name := by
  ext value
  rw [lookup_eq_some_iff_mem h,
    lookup_eq_some_iff_mem ((hperm.map Prod.fst).nodup_iff.mp h)]
  exact hperm.mem_iff

/-- A member that is there already is left as it is. -/
theorem putEntry_of_mem (h : (entries.map Prod.fst).Nodup)
    (hmem : entry ∈ entries) : putEntry entries entry = entries := by
  have hany : entries.any (fun other ↦ other.1 == entry.1) = true :=
    List.any_eq_true.mpr ⟨entry, hmem, beq_self_eq_true _⟩
  rw [putEntry, if_pos hany]
  refine (List.map_congr_left fun other hother ↦ ?_).trans (List.map_id entries)
  split_ifs with hname
  · exact (List.inj_on_of_nodup_map h hother hmem hname).symm
  · rfl

end Entries

end Odudu.Texts
