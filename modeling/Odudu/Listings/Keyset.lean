import Mathlib.Data.List.Basic
import Mathlib.Order.Lattice

/-!
# Listings by key

Rows listed in pages, the greatest key first, each page resumed below the one before.
Where the position a page is resumed from may lie below the key of its last row
(`resume`), rows between the two are passed over; `Lister.visitsOnce_iff` says that a
listing visits every row once exactly when no such row follows the end of a page.
-/

set_option autoImplicit false

namespace Odudu.Listings

variable {α K C : Type*} [LinearOrder K] (key : α → K)

/-- `ORDER BY key DESC`. -/
def descending (rows : List α) : List α := rows.mergeSort fun a b ↦ decide (key b ≤ key a)

/-- `ORDER BY key ASC`. -/
def ascending (rows : List α) : List α := descending (fun row ↦ OrderDual.toDual (key row)) rows

/-- One key after another, strictly down. -/
abbrev Descends (rows : List α) : Prop := rows.Pairwise fun a b ↦ key b < key a

/-- The first rows of what was fetched, and a cursor where more was. -/
def cut (n : ℕ) (cursor : α → C) (fetched : List α) : List α × Option C :=
  (fetched.take n, if n < fetched.length then (fetched.take n).getLast?.map cursor else none)

/-- Following the cursors of a listing from one page to its last. -/
inductive Visits (list : Option C → Option (List α × Option C)) : Option C → List α → Prop where
  | last {cursor : Option C} {items : List α} (h : list cursor = some (items, none)) :
      Visits list cursor items
  | more {cursor : Option C} {items rest : List α} {next : C}
      (h : list cursor = some (items, some next)) (hrest : Visits list (some next) rest) :
      Visits list cursor (items ++ rest)

/-- A listing comes to an end and has visited every row, in order and once. -/
def VisitsOnce (list : Option C → Option (List α × Option C)) (rows : List α) : Prop :=
  ∃ visited, Visits list none visited ∧ Descends key visited ∧ visited.Perm rows

/-- The row after the end of a page is below the position the next page is resumed from. -/
def BoundariesClear (n : ℕ) (resume : K → K) (rows : List α) : Prop :=
  ∀ i last next, rows[i]? = some last → rows[i + 1]? = some next → n ∣ i + 1 →
    key next < resume (key last)

/-- A listing of rows in pages. -/
structure Lister (n : ℕ) (resume : K → K) (cursor : α → C) (rows : List α)
    (list : Option C → Option (List α × Option C)) : Prop where
  first : list none = some (cut n cursor (descending key rows))
  resumed : ∀ row, list (some (cursor row)) =
    some (cut n cursor ((descending key rows).filter fun r ↦ key r < resume (key row)))

variable {key} {n : ℕ} {resume : K → K} {cursor : α → C} {rows R P : List α}
  {list : Option C → Option (List α × Option C)}

theorem descending_perm (rows : List α) : (descending key rows).Perm rows :=
  List.mergeSort_perm rows _

/-- Rows with keys of their own descend strictly. -/
theorem descending_descends (h : (rows.map key).Nodup) : Descends key (descending key rows) := by
  have hle : (descending key rows).Pairwise fun a b ↦ key b ≤ key a := by
    have hsorted := @List.pairwise_mergeSort _ (fun a b ↦ decide (key b ≤ key a))
      (fun a b c hab hbc ↦ decide_eq_true ((of_decide_eq_true hbc).trans (of_decide_eq_true hab)))
      (fun a b ↦ by simpa using le_total (key b) (key a)) rows
    exact hsorted.imp of_decide_eq_true
  have hne : (descending key rows).Pairwise fun a b ↦ key a ≠ key b := by
    rw [← List.pairwise_map]
    exact ((descending_perm rows).map key).nodup_iff.mpr h
  exact (hle.and hne).imp fun ⟨hle, hne⟩ ↦ lt_of_le_of_ne hle hne.symm

/-- Lists that descend are the same when they have the same rows. -/
theorem Descends.eq_of_perm {rows' : List α} (h : Descends key rows) (h' : Descends key rows')
    (hperm : rows.Perm rows') : rows = rows' :=
  hperm.eq_of_pairwise (fun _ _ _ _ hab hba ↦ absurd hab hba.asymm) h h'

theorem descending_filter (h : (rows.map key).Nodup) (p : α → Bool) :
    descending key (rows.filter p) = (descending key rows).filter p := by
  have hnodup : ((rows.filter p).map key).Nodup := h.sublist ((List.filter_sublist).map key)
  refine (descending_descends hnodup).eq_of_perm
    ((descending_descends h).sublist List.filter_sublist) ?_
  exact (descending_perm _).trans ((descending_perm rows).filter p).symm

/-- Below a position that no row read before lies under, what is left is of the rest. -/
theorem filter_below {k : K} (hP : ∀ r ∈ P, k ≤ key r) :
    ((P ++ R).filter fun r ↦ key r < k) = R.filter fun r ↦ key r < k := by
  have hnone : (P.filter fun r ↦ key r < k) = [] := by
    refine List.filter_eq_nil_iff.mpr fun r hr ↦ ?_
    simpa using hP r hr
  rw [List.filter_append, hnone, List.nil_append]

theorem cut_take (n : ℕ) (cursor : α → C) (rows : List α) :
    cut n cursor (rows.take (n + 1)) = cut n cursor rows := by
  have hlength : n < (rows.take (n + 1)).length ↔ n < rows.length := by
    rw [List.length_take]
    omega
  simp only [cut, List.take_take, hlength, Nat.min_eq_left (Nat.le_succ n)]

theorem cut_of_le (h : R.length ≤ n) : cut n cursor R = (R, none) := by
  simp [cut, List.take_of_length_le h, Nat.not_lt.mpr h]

/-- A page that is not the last is full, and its cursor is of its last row. -/
theorem cut_of_lt {last : α} (h : n + 1 < R.length) (hlast : R[n]? = some last) :
    cut (n + 1) cursor R = (R.take (n + 1), some (cursor last)) := by
  have hget : (R.take (n + 1)).getLast? = some last := by
    rw [List.getLast?_eq_getElem?, List.length_take, Nat.min_eq_left h.le]
    simpa using hlast
  simp [cut, h, hget]

/-- The rows that descend from a page's last row on are not above it. -/
theorem Descends.le_of_mem_take {last : α} (h : Descends key R) (hlast : R[n]? = some last) :
    ∀ r ∈ R.take (n + 1), key last ≤ key r := by
  intro r hr
  obtain ⟨i, hri⟩ := List.getElem?_of_mem hr
  have hin : i < n + 1 := by
    have hi := (List.getElem?_eq_some_iff.mp hri).1
    rw [List.length_take] at hi
    omega
  rw [List.getElem?_take, if_pos hin] at hri
  obtain ⟨hn, rfl⟩ := List.getElem?_eq_some_iff.mp hlast
  obtain ⟨hi', rfl⟩ := List.getElem?_eq_some_iff.mp hri
  rcases Nat.lt_or_eq_of_le (Nat.lt_succ_iff.mp hin) with hlt | rfl
  · exact (List.pairwise_iff_getElem.mp h i n hi' hn hlt).le
  · exact le_rfl

/-- Rows that descend from one below a position are all below it. -/
theorem Descends.filter_eq_self {k : K} {next : α} (h : Descends key R) (hnext : R[0]? = some next)
    (hk : key next < k) : (R.filter fun r ↦ key r < k) = R := by
  refine List.filter_eq_self.mpr fun r hr ↦ ?_
  cases R with
  | nil => simp at hr
  | cons head =>
    obtain rfl : head = next := by simpa using hnext
    rcases List.mem_cons.mp hr with rfl | hrest
    · simpa using hk
    · simpa using (List.rel_of_pairwise_cons h hrest).trans hk

section Lister

variable (hlister : Lister key (n + 1) resume cursor rows list)
  (hresume : ∀ k, resume k ≤ k) (hrows : (rows.map key).Nodup)

include hlister hresume

/-- What is visited from a page on lies below what the page was resumed from. -/
private theorem Lister.visited_lt {c : Option C} {visited F : List α} {k : K}
    (hvisits : Visits list c visited) (hpage : list c = some (cut (n + 1) cursor F))
    (hF : ∀ r ∈ F, key r < k) : ∀ r ∈ visited, key r < k := by
  induction hvisits generalizing F with
  | last h =>
    have hcut := Option.some.inj (hpage.symm.trans h)
    obtain rfl := congrArg Prod.fst hcut
    exact fun r hr ↦ hF r (List.mem_of_mem_take hr)
  | more h _ ih =>
    have hcut := Option.some.inj (hpage.symm.trans h)
    by_cases hlt : n + 1 < F.length
    · have hlast : F[n]? = some F[n] := List.getElem?_eq_getElem _
      obtain ⟨rfl, hcursor⟩ := Prod.mk.inj ((cut_of_lt hlt hlast).symm.trans hcut)
      obtain rfl := Option.some.inj hcursor
      intro r hr
      rcases List.mem_append.mp hr with hr | hr
      · exact hF r (List.mem_of_mem_take hr)
      · refine ih (hlister.resumed _) (fun r hr ↦ ?_) r hr
        have hbelow : key r < resume (key F[n]) := by simpa using (List.mem_filter.mp hr).2
        exact hbelow.trans_le ((hresume _).trans (hF _ (List.getElem_mem _)).le)
    · exact nomatch (cut_of_le (Nat.le_of_not_lt hlt)).symm.trans hcut

include hrows

/-- The page after a full one holds what is left below the position it is resumed from. -/
private theorem Lister.next_page {last : α} (hsplit : descending key rows = P ++ R)
    (hlast : R[n]? = some last) :
    list (some (cursor last)) = some (cut (n + 1) cursor
      ((R.drop (n + 1)).filter fun r ↦ key r < resume (key last))) := by
  have hdesc : Descends key (P ++ R) := hsplit ▸ descending_descends hrows
  have hR : Descends key R := (List.pairwise_append.mp hdesc).2.1
  have hmem : last ∈ R := List.mem_of_getElem? hlast
  rw [hlister.resumed last, hsplit]
  conv_lhs => rw [← List.take_append_drop (n + 1) R, ← List.append_assoc]
  rw [filter_below]
  intro r hr
  rcases List.mem_append.mp hr with hr | hr
  · exact (hresume _).trans ((List.pairwise_append.mp hdesc).2.2 r hr last hmem).le
  · exact (hresume _).trans (hR.le_of_mem_take hlast r hr)

/-- Pages resumed each from above the next row list every row that is left. -/
private theorem Lister.visits_of_clear (c : Option C) (hsplit : descending key rows = P ++ R)
    (hpage : list c = some (cut (n + 1) cursor R))
    (hclear : BoundariesClear key (n + 1) resume R) : Visits list c R := by
  induction hlength : R.length using Nat.strong_induction_on generalizing P R c with
  | _ length ih =>
    by_cases hle : R.length ≤ n + 1
    · rw [cut_of_le hle] at hpage
      exact .last hpage
    · have hlt : n + 1 < R.length := Nat.lt_of_not_le hle
      have hlast : R[n]? = some R[n] := List.getElem?_eq_getElem _
      have hnext : R[n + 1]? = some R[n + 1] := List.getElem?_eq_getElem _
      rw [cut_of_lt hlt hlast] at hpage
      have hdesc : Descends key (P ++ R) := hsplit ▸ descending_descends hrows
      have hR : Descends key R := (List.pairwise_append.mp hdesc).2.1
      have hdrop : Descends key (R.drop (n + 1)) := hR.sublist (List.drop_sublist ..)
      have hrest : Visits list (some (cursor R[n])) (R.drop (n + 1)) := by
        refine ih (R.drop (n + 1)).length ?_ (P := P ++ R.take (n + 1)) _ ?_ ?_ ?_ rfl
        · rw [List.length_drop]
          omega
        · rw [hsplit, List.append_assoc, List.take_append_drop]
        · rw [hlister.next_page hresume hrows hsplit hlast,
            hdrop.filter_eq_self (by simp)
              (hclear n _ _ hlast hnext (Nat.dvd_refl _))]
        · intro i last next hlast' hnext' hdvd
          refine hclear (n + 1 + i) last next (by simpa using hlast') ?_ ?_
          · simpa [Nat.add_assoc] using hnext'
          · rw [Nat.add_assoc]
            exact Nat.dvd_add (Nat.dvd_refl _) hdvd
      have hvisits := Visits.more hpage hrest
      rwa [List.take_append_drop] at hvisits

/-- A listing that visits every row that is left passes over none at the end of a page. -/
private theorem Lister.clear_of_visits {c : Option C} {visited : List α}
    (hvisits : Visits list c visited) (hsplit : descending key rows = P ++ R)
    (hpage : list c = some (cut (n + 1) cursor R)) (hall : ∀ r ∈ R, r ∈ visited) :
    BoundariesClear key (n + 1) resume R := by
  induction hvisits generalizing P R with
  | last h =>
    have hcut := Option.some.inj (hpage.symm.trans h)
    have hle : R.length ≤ n + 1 := by
      by_contra hlt
      rw [Nat.not_le] at hlt
      have hlast : R[n]? = some R[n] := List.getElem?_eq_getElem _
      obtain ⟨-, hcursor⟩ := Prod.mk.inj ((cut_of_lt hlt hlast).symm.trans hcut)
      exact nomatch hcursor
    intro i last next _ hnext hdvd
    have hi := (List.getElem?_eq_some_iff.mp hnext).1
    have := Nat.le_of_dvd (Nat.succ_pos i) hdvd
    omega
  | @more c items rest next h hrest ih =>
    have hcut := Option.some.inj (hpage.symm.trans h)
    by_cases hlt : n + 1 < R.length
    · have hlast : R[n]? = some R[n] := List.getElem?_eq_getElem _
      obtain ⟨rfl, hcursor⟩ := Prod.mk.inj ((cut_of_lt hlt hlast).symm.trans hcut)
      obtain rfl := Option.some.inj hcursor
      have hdesc : Descends key (P ++ R) := hsplit ▸ descending_descends hrows
      have hR : Descends key R := (List.pairwise_append.mp hdesc).2.1
      have hnextPage := hlister.next_page hresume hrows hsplit hlast
      -- A row after this page is on a later one, which lies below where it is resumed from.
      have hrestAll : ∀ r ∈ R.drop (n + 1), r ∈ rest := by
        intro r hr
        rcases List.mem_append.mp (hall r (List.mem_of_mem_drop hr)) with hitem | hrest
        · have hsplit' : Descends key (R.take (n + 1) ++ R.drop (n + 1)) := by
            rwa [List.take_append_drop]
          exact absurd ((List.pairwise_append.mp hsplit').2.2 r hitem r hr) (lt_irrefl _)
        · exact hrest
      have hbelow : ∀ r ∈ R.drop (n + 1), key r < resume (key R[n]) := fun r hr ↦
        hlister.visited_lt hresume hrest hnextPage
          (fun r hr ↦ by simpa using (List.mem_filter.mp hr).2) r (hrestAll r hr)
      have hfilter : ((R.drop (n + 1)).filter fun r ↦ key r < resume (key R[n])) =
          R.drop (n + 1) :=
        List.filter_eq_self.mpr fun r hr ↦ by simpa using hbelow r hr
      have hclear := ih (P := P ++ R.take (n + 1)) (R := R.drop (n + 1))
        (by rw [hsplit, List.append_assoc, List.take_append_drop]) (by rw [hnextPage, hfilter])
        hrestAll
      intro i last next hlast' hnext' hdvd
      obtain ⟨m, hm⟩ := hdvd
      cases m with
      | zero => simp at hm
      | succ m =>
        cases m with
        | zero =>
          obtain rfl : i = n := by omega
          obtain rfl : R[i] = last := Option.some.inj (hlast.symm.trans hlast')
          exact hbelow next (List.mem_of_getElem? (i := 0) (by simpa using hnext'))
        | succ m =>
          obtain ⟨j, rfl⟩ : ∃ j, i = n + 1 + j := ⟨(n + 1) * (m + 1) - 1, by
            rw [Nat.mul_succ] at hm
            have : 0 < (n + 1) * (m + 1) := Nat.mul_pos n.succ_pos m.succ_pos
            omega⟩
          refine hclear j last next (by simpa using hlast') ?_ ⟨m + 1, ?_⟩
          · simpa [Nat.add_assoc] using hnext'
          · rw [Nat.mul_succ] at hm
            omega
    · exact nomatch (cut_of_le (Nat.le_of_not_lt hlt)).symm.trans hcut

end Lister

/-- A listing visits every row once exactly when no page ends in front of a row that lies
above the position the next is resumed from. -/
theorem Lister.visitsOnce_iff (hlister : Lister key n resume cursor rows list) (hn : 0 < n)
    (hresume : ∀ k, resume k ≤ k) (hrows : (rows.map key).Nodup) :
    VisitsOnce key list rows ↔ BoundariesClear key n resume (descending key rows) := by
  obtain ⟨n, rfl⟩ : ∃ m, n = m + 1 := ⟨n - 1, by omega⟩
  constructor
  · rintro ⟨visited, hvisits, -, hperm⟩
    refine hlister.clear_of_visits hresume hrows (P := []) hvisits rfl hlister.first fun r hr ↦ ?_
    exact hperm.mem_iff.mpr ((descending_perm rows).mem_iff.mp hr)
  · intro hclear
    exact ⟨_, hlister.visits_of_clear hresume hrows (P := []) none rfl hlister.first hclear,
      descending_descends hrows, descending_perm rows⟩

/-- Positions that are the keys themselves pass over no row. -/
theorem Descends.boundariesClear (h : Descends key rows) : BoundariesClear key n id rows := by
  intro i last next hlast hnext _
  obtain ⟨hi, rfl⟩ := List.getElem?_eq_some_iff.mp hlast
  obtain ⟨hi', rfl⟩ := List.getElem?_eq_some_iff.mp hnext
  exact List.pairwise_iff_getElem.mp h i (i + 1) hi hi' (Nat.lt_succ_self i)

theorem Lister.visitsOnce (hlister : Lister key n id cursor rows list) (hn : 0 < n)
    (hrows : (rows.map key).Nodup) : VisitsOnce key list rows :=
  (hlister.visitsOnce_iff hn (fun _ ↦ le_rfl) hrows).mpr (descending_descends hrows).boundariesClear

end Odudu.Listings
