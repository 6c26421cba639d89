import Mathlib.Data.List.Sort
import Odudu.DomainTheme.Markup

/-!
# The check of a page template

`template.ts` and `page-kinds.ts`.  `checkTemplate` lists what is wrong with a template of a
kind of page: its slots against the kind's manifest, and then its markup.  A template with
nothing wrong is filled whatever the parts are, as long as they cover the manifest
(`accepted_template_fills`).
-/

set_option autoImplicit false

namespace Odudu.DomainTheme.Templates

open Texts

/-! ### Manifests -/

inductive PageKind where
  | signIn
  | consent
  | selectAccount
  | logoutConfirm
  | totpEnrolment
  | passkeyEnrolment
  | recoveryCodes
  | updatePassword
  | requiredAction
  | registration
  | reset
  | verification
  | requiredActions
  | authorizeError
  | emailUnverified
  | loggedOut
  | notice
  deriving DecidableEq

structure PageManifest where
  required : List Utf16
  optional : List Utf16
  inForm : List Utf16

def FORM_OPEN : Utf16 := ofAscii "form.open"

def FORM_CLOSE : Utf16 := ofAscii "form.close"

/-- The parts of a kind that are between the form's two, the form's being of no other name. -/
def manifest (required optional inForm : List String) : PageManifest where
  required := required.map ofAscii
  optional := optional.map ofAscii
  inForm := inForm.map ofAscii

def PAGE_KINDS : PageKind → PageManifest
  | .signIn =>
    manifest ["form.open", "fields", "submit", "error", "form.close"]
      ["intro", "links", "passkey"] ["fields", "submit"]
  | .consent =>
    manifest ["form.open", "client", "scopes", "submit.allow", "submit.deny", "form.close"]
      ["error", "links"] ["scopes", "submit.allow", "submit.deny"]
  | .selectAccount =>
    manifest ["form.open", "accounts", "submit.other", "form.close"] ["intro"]
      ["accounts", "submit.other"]
  | .logoutConfirm => manifest ["form.open", "submit", "form.close"] [] ["submit"]
  | .totpEnrolment =>
    manifest ["form.open", "offer", "fields", "submit", "error", "form.close"] ["intro"]
      ["fields", "submit"]
  | .passkeyEnrolment =>
    manifest ["form.open", "fields", "submit", "error", "script", "form.close"] ["intro"]
      ["fields", "submit"]
  | .recoveryCodes =>
    manifest ["instructions", "codes", "notice", "form.open", "submit", "error", "form.close"]
      ["intro"] ["submit"]
  | .updatePassword =>
    manifest ["form.open", "fields", "submit", "error", "form.close"] ["intro"]
      ["fields", "submit"]
  | .requiredAction => manifest ["message"] [] []
  | .registration =>
    manifest ["form.open", "fields", "submit", "error", "form.close"] ["intro", "links"]
      ["fields", "submit"]
  | .reset =>
    manifest ["form.open", "fields", "submit", "error", "form.close"] ["intro", "links"]
      ["fields", "submit"]
  | .verification => manifest ["message", "form.open", "submit", "form.close"] [] ["submit"]
  | .requiredActions =>
    manifest ["form.open", "actions", "fields", "submit", "error", "form.close"] ["intro"]
      ["fields", "submit"]
  | .authorizeError => manifest ["message"] ["links", "code"] []
  | .emailUnverified => manifest ["message"] ["links"] []
  | .loggedOut => manifest ["message", "frames", "script"] ["links"] []
  | .notice => manifest ["message"] ["intro", "links"] []

/-! ### The list of issues -/

def MAX_TEMPLATE_SLOTS : ℕ := 200

def MAX_ISSUES : ℕ := 100

structure TemplateIssue where
  code : TemplateIssueCode
  detail : Utf16
  line : Option ℕ
  column : Option ℕ

section Issues

variable (template : Utf16)

def lineStarts : List ℕ :=
  0 :: ((List.range template.length).filter fun i ↦ template[i]? = some 0x0A).map (· + 1)

/-- The search for the last line that begins at an offset or before it. -/
def lineOf (starts : List ℕ) (offset low high : ℕ) : ℕ :=
  if low < high then
    let mid := (low + high + 1) / 2
    if starts.getD mid 0 ≤ offset then lineOf starts offset mid high
    else lineOf starts offset low (mid - 1)
  else low
termination_by high - low

def position : Option ℕ → Option ℕ × Option ℕ
  | none => (none, none)
  | some offset =>
    let starts := lineStarts template
    let low := lineOf starts offset 0 (starts.length - 1)
    (some (low + 1), some (offset - starts.getD low 0 + 1))

def add (issues : List TemplateIssue) (problem : Problem) : List TemplateIssue :=
  let seen := issues.any fun issue ↦ issue.code = problem.code && issue.detail = problem.detail
  let room := issues.length < MAX_ISSUES || !issues.any fun issue ↦ issue.code = problem.code
  if !seen && room then
    let (line, column) := position template problem.offset
    issues ++ [⟨problem.code, problem.detail, line, column⟩]
  else issues

def addAll (problems : List Problem) : List TemplateIssue := problems.foldl (add template) []

end Issues

/-! ### The check -/

section Check

variable (isMessageKey : Option (Utf16 → Bool)) (manifest : PageManifest) (slots : List Slot)

/-- Where a part stands. -/
def indexesOf (name : Utf16) : List ℕ :=
  (slots.filter fun slot ↦ slot.kind = .part ∧ slot.name = name).map Slot.index

def checkForm : List Problem :=
  let opened := indexesOf slots FORM_OPEN
  let closed := indexesOf slots FORM_CLOSE
  let pair : List Problem :=
    if opened.length ≠ closed.length then
      [⟨.formPair, ofAscii "form.open and form.close come together", none⟩]
    else
      match opened.head?, closed.head? with
      | some first, some last =>
        if first > last then
          [⟨.formPair, ofAscii "form.open comes before form.close", some last⟩]
        else []
      | _, _ => []
  pair ++ manifest.inForm.flatMap fun name ↦
    ((indexesOf slots name).filter fun index ↦
      !(opened.head?.any (index > ·) && closed.head?.any (index < ·))).map
        fun index ↦ ⟨.formPlacement, name, some index⟩

def isKnown (name : Utf16) : Prop := name ∈ manifest.required ∨ name ∈ manifest.optional

instance (name : Utf16) : Decidable (isKnown manifest name) := inferInstanceAs (Decidable (_ ∨ _))

def slotProblem (slot : Slot) : Option Problem :=
  match slot.kind with
  | .malformed => some ⟨.malformedSlot, ofAscii "at " ++ decimal slot.index, some slot.index⟩
  | .text =>
    if isMessageKey.any fun isMessageKey ↦ !isMessageKey slot.name then
      some ⟨.unknownMessageKey, slot.name, some slot.index⟩
    else none
  | .part => none

/-- The last loop of `checkManifest`, after the parts seen so far. -/
def repeated (seen : List Utf16) : List Slot → List Problem
  | [] => []
  | slot :: slots =>
    if slot.kind = .part then
      (if seen.count slot.name + 1 = 2 ∧ isKnown manifest slot.name then
        [⟨.repeatedPart, slot.name, some slot.index⟩]
      else []) ++ repeated (slot.name :: seen) slots
    else repeated seen slots

def partNames : List Utf16 := (slots.filter fun slot ↦ slot.kind = .part).map Slot.name

def checkManifest : List Problem :=
  slots.filterMap (slotProblem isMessageKey) ++
    (slots.filter fun slot ↦ slot.kind = .part ∧ ¬isKnown manifest slot.name).map
      (fun slot ↦ ⟨.unknownSlot, slot.name, some slot.index⟩) ++
    (manifest.required.filter fun name ↦ name ∉ partNames slots).map
      (fun name ↦ ⟨.missingPart, name, none⟩) ++
    checkForm manifest slots ++ repeated manifest [] slots

end Check

def checkTemplate (platform : Platform) (options : TemplateOptions) (kind : PageKind)
    (template : Utf16) : List TemplateIssue :=
  if template.length > MAX_TEMPLATE_LENGTH then
    addAll template [⟨.tooLarge, decimal template.length ++ ofAscii " characters", none⟩]
  else
    let slots := scanSlots template
    if slots.length > MAX_TEMPLATE_SLOTS then
      addAll template [⟨.tooManySlots, decimal slots.length, none⟩]
    else
      let markup := checkMarkup platform options template
      let issues := addAll template
        (checkManifest options.isMessageKey (PAGE_KINDS kind) slots ++ markup.problems)
      let slotsInSource := (slots.filter fun slot ↦ slot.kind ≠ .malformed).length
      if markup.returned then issues
      else if markup.slotsInText ≠ slotsInSource ∧ issues = [] then
        add template issues
          ⟨.malformedSlot, ofAscii "a slot the parser does not read as text", none⟩
      else issues

/-! ### An accepted template -/

section Accepted

variable {template : Utf16} {manifest : PageManifest} {slots : List Slot}
  {isMessageKey : Option (Utf16 → Bool)}

theorem add_ne_nil (issues : List TemplateIssue) (problem : Problem) :
    add template issues problem ≠ [] := by
  cases issues with
  | nil => simp [add, MAX_ISSUES]
  | cons =>
    unfold add
    dsimp only
    split
    · exact List.append_ne_nil_of_right_ne_nil _ (List.cons_ne_nil _ _)
    · exact List.cons_ne_nil _ _

theorem foldl_add_ne_nil (problems : List Problem) :
    ∀ issues : List TemplateIssue, issues ≠ [] → problems.foldl (add template) issues ≠ [] := by
  induction problems with
  | nil => exact fun issues hissues ↦ hissues
  | cons problem _ ih =>
    intro issues _
    rw [List.foldl_cons]
    exact ih _ (add_ne_nil issues problem)

theorem addAll_eq_nil_iff {problems : List Problem} :
    addAll template problems = [] ↔ problems = [] := by
  cases problems with
  | nil => exact ⟨fun _ ↦ rfl, fun _ ↦ rfl⟩
  | cons problem problems =>
    simp only [reduceCtorEq, iff_false]
    exact foldl_add_ne_nil problems _ (add_ne_nil [] problem)

/-- What an accepted template has, its markup apart. -/
theorem manifest_of_checkTemplate {platform : Platform} {options : TemplateOptions}
    {kind : PageKind} (h : checkTemplate platform options kind template = []) :
    template.length ≤ MAX_TEMPLATE_LENGTH ∧
      checkManifest options.isMessageKey (PAGE_KINDS kind) (scanSlots template) = [] := by
  unfold checkTemplate at h
  split at h
  · rw [addAll_eq_nil_iff] at h
    exact absurd h (List.cons_ne_nil _ _)
  · rename_i hlength
    dsimp only at h
    split at h
    · rw [addAll_eq_nil_iff] at h
      exact absurd h (List.cons_ne_nil _ _)
    · have hissues : addAll template
          (checkManifest options.isMessageKey (PAGE_KINDS kind) (scanSlots template) ++
            (checkMarkup platform options template).problems) = [] := by
        split at h
        · exact h
        · split at h
          · exact absurd h (add_ne_nil _ _)
          · exact h
      rw [addAll_eq_nil_iff, List.append_eq_nil_iff] at hissues
      exact ⟨Nat.not_lt.mp hlength, hissues.1⟩

variable {name : Utf16}

/-- Where nothing is repeated, a part that the manifest knows comes once at most. -/
theorem count_le_of_repeated {seen : List Utf16} (h : repeated manifest seen slots = [])
    (hknown : isKnown manifest name) (hseen : seen.count name ≤ 1) :
    seen.count name + (partNames slots).count name ≤ 1 := by
  induction slots generalizing seen with
  | nil => simpa [partNames] using hseen
  | cons slot slots ih =>
    unfold repeated at h
    split at h
    · rename_i hkind
      rw [List.append_eq_nil_iff] at h
      have hnames : partNames (slot :: slots) = slot.name :: partNames slots := by
        simp [partNames, hkind]
      rw [hnames, List.count_cons]
      by_cases hname : slot.name = name
      · have hfresh : seen.count name ≠ 1 := by
          intro hone
          have := h.1
          rw [hname, hone, if_pos ⟨rfl, hknown⟩] at this
          exact absurd this (List.cons_ne_nil _ _)
        have hrest := ih h.2 (by rw [hname, List.count_cons_self]; omega)
        rw [hname, List.count_cons_self] at hrest
        simp only [hname, beq_self_eq_true, if_true]
        omega
      · have hrest := ih h.2 (by rwa [List.count_cons_of_ne hname])
        rw [List.count_cons_of_ne hname] at hrest
        simpa [hname] using hrest
    · rename_i hkind
      have hnames : partNames (slot :: slots) = partNames slots := by
        simp [partNames, hkind]
      rw [hnames]
      exact ih h hseen

theorem isKnown_of_checkManifest (h : checkManifest isMessageKey manifest slots = []) :
    ∀ slot ∈ slots, slot.kind = .part → isKnown manifest slot.name := by
  intro slot hslot hkind
  simp only [checkManifest, List.append_eq_nil_iff, List.map_eq_nil_iff,
    List.filter_eq_nil_iff] at h
  have hunknown := h.1.1.1.2 slot hslot
  simpa [hkind] using hunknown

theorem mem_partNames_of_checkManifest (h : checkManifest isMessageKey manifest slots = []) :
    ∀ name ∈ manifest.required, name ∈ partNames slots := by
  intro name hname
  simp only [checkManifest, List.append_eq_nil_iff, List.map_eq_nil_iff,
    List.filter_eq_nil_iff] at h
  have hmissing := h.1.1.2 name hname
  simpa using hmissing

theorem count_le_of_checkManifest (h : checkManifest isMessageKey manifest slots = [])
    (hknown : isKnown manifest name) : (partNames slots).count name ≤ 1 := by
  simp only [checkManifest, List.append_eq_nil_iff] at h
  have hcount := count_le_of_repeated h.2 hknown (Nat.zero_le 1)
  simpa using hcount

theorem slotProblem_of_checkManifest (h : checkManifest isMessageKey manifest slots = []) :
    ∀ slot ∈ slots, slotProblem isMessageKey slot = none := by
  simp only [checkManifest, List.append_eq_nil_iff] at h
  exact List.filterMap_eq_nil_iff.mp h.1.1.1.1

/-- Every slot of an accepted template can be filled. -/
theorem fillable_of_checkManifest {parts : Utf16 → Option Utf16} {t : Utf16 → Except Utf16 Utf16}
    {isMessageKey : Utf16 → Bool}
    (h : checkManifest (some isMessageKey) manifest slots = [])
    (hparts : ∀ name, isKnown manifest name → ∃ part, parts name = some part)
    (ht : ∀ key, isMessageKey key = true → ∃ text, t key = .ok text) :
    ∀ slot ∈ slots, Fillable parts t slot := by
  intro slot hslot
  have hproblem := slotProblem_of_checkManifest h slot hslot
  unfold slotProblem at hproblem
  unfold Fillable
  cases hkind : slot.kind with
  | malformed => simp [hkind] at hproblem
  | part => exact hparts _ (isKnown_of_checkManifest h slot hslot hkind)
  | text =>
    simp only [hkind] at hproblem
    exact ht _ (by simpa using hproblem)

/-- Each index of a part in the form is between the first of the form's two and the last. -/
theorem between_of_checkForm (h : checkForm manifest slots = [])
    (hname : name ∈ manifest.inForm) {index : ℕ} (hindex : index ∈ indexesOf slots name) :
    ∃ first ∈ indexesOf slots FORM_OPEN, ∃ last ∈ indexesOf slots FORM_CLOSE,
      first < index ∧ index < last := by
  simp only [checkForm, List.append_eq_nil_iff, List.flatMap_eq_nil_iff, List.map_eq_nil_iff,
    List.filter_eq_nil_iff] at h
  have hinside := h.2 name hname index hindex
  simp only [Bool.not_eq_true', Bool.not_eq_false, Bool.and_eq_true, Option.any_eq_true,
    decide_eq_true_eq] at hinside
  obtain ⟨⟨first, hfirst, hlt⟩, last, hlast, hgt⟩ := hinside
  exact ⟨first, List.mem_of_mem_head? hfirst, last, List.mem_of_mem_head? hlast, hlt, hgt⟩

theorem exists_slot_of_mem_indexesOf {index : ℕ}
    (h : index ∈ indexesOf slots name) :
    ∃ slot ∈ slots, slot.kind = .part ∧ slot.name = name ∧ slot.index = index := by
  obtain ⟨slot, hslot, rfl⟩ := List.mem_map.mp h
  obtain ⟨hmem, hpart⟩ := List.mem_filter.mp hslot
  have hpart := of_decide_eq_true hpart
  exact ⟨slot, hmem, hpart.1, hpart.2, rfl⟩

/-- Slots that are in a list in the order of where they begin are in that order there. -/
theorem sublist_of_index_lt (hslots : slots.Pairwise fun slot other ↦ slot.index < other.index)
    {listed : List Slot} (hmem : ∀ slot ∈ listed, slot ∈ slots)
    (hlisted : listed.Pairwise fun slot other ↦ slot.index < other.index) :
    listed.Sublist slots := by
  have hantisymm : Std.Antisymm fun slot other : Slot ↦ slot.index < other.index :=
    ⟨fun slot other hlt hgt ↦ absurd hlt (Nat.lt_asymm hgt)⟩
  have hnodup : listed.Nodup := hlisted.imp fun hlt heq ↦ by
    subst heq
    exact Nat.lt_irrefl _ hlt
  exact List.sublist_of_subperm_of_pairwise (List.subperm_of_subset hnodup hmem) hlisted hslots

/-- A part in the form comes after what opens the form, and before what closes it. -/
theorem inForm_between (h : checkForm manifest slots = [])
    (hslots : slots.Pairwise fun slot other ↦ slot.index < other.index)
    (hname : name ∈ manifest.inForm) (hpart : name ∈ partNames slots) :
    [FORM_OPEN, name, FORM_CLOSE].Sublist (partNames slots) := by
  obtain ⟨slot, hslot, rfl⟩ := List.mem_map.mp hpart
  obtain ⟨hmem, hkind⟩ := List.mem_filter.mp hslot
  have hkind := of_decide_eq_true hkind
  have hindex : slot.index ∈ indexesOf slots slot.name :=
    List.mem_map_of_mem (List.mem_filter.mpr ⟨hmem, decide_eq_true ⟨hkind, rfl⟩⟩)
  obtain ⟨first, hfirst, last, hlast, hlt, hgt⟩ := between_of_checkForm h hname hindex
  obtain ⟨opening, hopening, hopenKind, hopenName, rfl⟩ := exists_slot_of_mem_indexesOf hfirst
  obtain ⟨closing, hclosing, hcloseKind, hcloseName, rfl⟩ := exists_slot_of_mem_indexesOf hlast
  have hsub : [opening, slot, closing].Sublist slots := by
    apply sublist_of_index_lt hslots
    · simp [hmem, hopening, hclosing]
    · simp [hlt, hgt, hlt.trans hgt]
  have hnames := (hsub.filter fun slot ↦ decide (slot.kind = .part)).map Slot.name
  simpa [partNames, hkind, hopenKind, hcloseKind, hopenName, hcloseName] using hnames

end Accepted

/-! ### The fill -/

/-- An accepted template is filled whenever the parts cover the manifest and the texts the
catalogue: what comes out are its pieces in their order, and which those are does not depend on
the parts or the texts. -/
theorem accepted_template_fills {platform : Platform} {options : TemplateOptions} {kind : PageKind}
    {template : Utf16} {isMessageKey : Utf16 → Bool} {parts : Utf16 → Option Utf16}
    {t : Utf16 → Except Utf16 Utf16}
    (hcheck : checkTemplate platform options kind template = [])
    (hcatalogue : options.isMessageKey = some isMessageKey)
    (hparts : ∀ name, isKnown (PAGE_KINDS kind) name → ∃ part, parts name = some part)
    (ht : ∀ key, isMessageKey key = true → ∃ text, t key = .ok text) :
    fillTemplate template parts t = .ok ((pieces template).flatMap (Piece.render parts t)) ∧
      (∀ name ∈ (PAGE_KINDS kind).required, (partsIn (pieces template)).count name = 1) ∧
      (∀ name ∈ (PAGE_KINDS kind).optional, (partsIn (pieces template)).count name ≤ 1) ∧
      ∀ name ∈ (PAGE_KINDS kind).inForm, name ∈ partsIn (pieces template) →
        [FORM_OPEN, name, FORM_CLOSE].Sublist (partsIn (pieces template)) := by
  obtain ⟨hlength, hmanifest⟩ := manifest_of_checkTemplate hcheck
  rw [hcatalogue] at hmanifest
  have hnames : partsIn (pieces template) = partNames (scanSlots template) := partsIn_piecesFrom 0
  rw [hnames]
  refine ⟨fillTemplate_eq hlength (fillable_of_checkManifest hmanifest hparts ht), ?_, ?_, ?_⟩
  · intro name hname
    have hle := count_le_of_checkManifest hmanifest (Or.inl hname)
    have hpos := List.count_pos_iff.mpr (mem_partNames_of_checkManifest hmanifest name hname)
    omega
  · exact fun name hname ↦ count_le_of_checkManifest hmanifest (Or.inr hname)
  · intro name hname
    have hform : checkForm (PAGE_KINDS kind) (scanSlots template) = [] := by
      simp only [checkManifest, List.append_eq_nil_iff] at hmanifest
      exact hmanifest.1.2
    exact inForm_between hform pairwise_scanFrom hname

/-- A template without tags, which the parser reads as one text. -/
theorem accepted_template_fills_logout :
    let platform : Platform :=
      { toLowerCase := List.map lowerUnit
        urlProtocol := fun _ ↦ none
        parseFragment := fun text ↦ ([], [.text text (some ⟨0, text.length, none, false⟩)]) }
    let title := ofAscii "title"
    let options : TemplateOptions := ⟨none, some (· = title)⟩
    let template := OPEN ++ FORM_OPEN ++ CLOSE ++ OPEN ++ ofAscii "t \"title\"" ++ CLOSE ++
      OPEN ++ ofAscii "submit" ++ CLOSE ++ OPEN ++ FORM_CLOSE ++ CLOSE
    let part := OPEN ++ ofAscii "fields" ++ CLOSE
    checkTemplate platform options .logoutConfirm template = [] ∧
      fillTemplate template (fun _ ↦ some part) (fun key ↦ .ok key) =
        .ok (part ++ title ++ part ++ part) := by
  intro platform title options template part
  have hcheck : checkTemplate platform options .logoutConfirm template = [] := by decide
  have hfills := @accepted_template_fills platform options .logoutConfirm template (· = title)
    (fun _ ↦ some part) (fun key ↦ .ok key) hcheck rfl (fun _ _ ↦ ⟨part, rfl⟩)
    (fun key _ ↦ ⟨key, rfl⟩)
  refine ⟨hcheck, ?_⟩
  rw [hfills.1]
  decide

end Odudu.DomainTheme.Templates
