import Mathlib.Data.Int.Notation
import Odudu.Texts.Json

/-!
# Messages with arguments

The syntax tree of an ICU message and what it is formatted as.  Which arm of a plural a number
takes, and how numbers and dates are written, is the locale's.  Formatting fails (`none`) where
an argument has no value, where no arm is there to be taken, and where the locale cannot write a
value.  `names` says that the arms that are taken show an argument bare, and `without` takes
every bare argument of a name out: what a message shows holds the value of an argument that is
named, and else is what it shows without it (`infix_of_namesAll`, `formatAll_withoutAll`).
Two values that the message has no key for, and that make the same numbers, take the same arms
(`formatAll_congr`).
-/

set_option autoImplicit false

namespace Odudu.I18n

open Texts

inductive Element where
  | literal (value : Utf16)
  | argument (value : Utf16)
  | number (value style : Utf16)
  | date (value style : Utf16)
  | time (value style : Utf16)
  | select (value : Utf16) (options : List (Utf16 × List Element))
  | plural (value : Utf16) (ordinal : Bool) (offset : ℤ) (options : List (Utf16 × List Element))
  | pound
  | tag (value : Utf16) (children : List Element)

/-- What formatting takes of a locale; `none` is thrown. -/
structure Locale (Value : Type) where
  formatNumber : Utf16 → Value → Option Utf16
  formatDate : Utf16 → Value → Option Utf16
  formatTime : Utf16 → Value → Option Utf16
  /-- The plural rule of a value less an offset, ordinal or not. -/
  pluralRule : Bool → ℤ → Value → Utf16
  /-- How a value less an offset is written. -/
  formatCount : ℤ → Value → Utf16

/-! ### Arms -/

def OTHER : Utf16 := ofAscii "other"

section Arms

variable {Value α β : Type} (locale : Locale Value) (textOf : Value → Utf16)

/-- The value's own arm, or else `other`. -/
def selectArm (value : Value) (options : List (Utf16 × α)) : Option α :=
  match options.lookup (textOf value) with
  | some arm => some arm
  | none => options.lookup OTHER

def pluralArm (ordinal : Bool) (offset : ℤ) (value : Value) (options : List (Utf16 × α)) :
    Option α :=
  match options.lookup (ofAscii "=" ++ textOf value) with
  | some arm => some arm
  | none =>
    match options.lookup (locale.pluralRule ordinal offset value) with
    | some arm => some arm
    | none => options.lookup OTHER

variable {locale textOf}

theorem lookup_map (f : α → β) (key : Utf16) (options : List (Utf16 × α)) :
    (options.map fun option ↦ (option.1, f option.2)).lookup key = (options.lookup key).map f := by
  induction options with
  | nil => rfl
  | cons option _ ih =>
    rw [List.map_cons, List.lookup_cons, List.lookup_cons]
    cases key == option.1 with
    | true => rfl
    | false => exact ih

theorem selectArm_map (f : α → β) (value : Value) (options : List (Utf16 × α)) :
    selectArm textOf value (options.map fun option ↦ (option.1, f option.2)) =
      (selectArm textOf value options).map f := by
  unfold selectArm
  rw [lookup_map, lookup_map]
  cases options.lookup (textOf value) <;> rfl

theorem selectArm_of_key (value : Value) (arm : α) (options : List (Utf16 × α)) :
    selectArm textOf value ((textOf value, arm) :: options) = some arm := by
  rw [selectArm, List.lookup_cons_self]

theorem pluralArm_map (f : α → β) (ordinal : Bool) (offset : ℤ) (value : Value)
    (options : List (Utf16 × α)) :
    pluralArm locale textOf ordinal offset value
        (options.map fun option ↦ (option.1, f option.2)) =
      (pluralArm locale textOf ordinal offset value options).map f := by
  unfold pluralArm
  rw [lookup_map, lookup_map, lookup_map]
  cases options.lookup (ofAscii "=" ++ textOf value) with
  | some => rfl
  | none => cases options.lookup (locale.pluralRule ordinal offset value) <;> rfl

variable {options : List (Utf16 × α)} {arm : α}

theorem mem_of_lookup {key : Utf16}
    (h : options.lookup key = some arm) : ∃ name, (name, arm) ∈ options := by
  induction options with
  | nil => exact absurd h (Option.some_ne_none arm).symm
  | cons option _ ih =>
    rw [List.lookup_cons] at h
    split at h
    · obtain rfl := Option.some.inj h
      exact ⟨option.1, List.mem_cons_self⟩
    · obtain ⟨name, hname⟩ := ih h
      exact ⟨name, List.mem_cons_of_mem _ hname⟩

theorem mem_of_selectArm {value : Value}
    (h : selectArm textOf value options = some arm) : ∃ name, (name, arm) ∈ options := by
  unfold selectArm at h
  split at h
  · rename_i harm
    obtain rfl := Option.some.inj h
    exact mem_of_lookup harm
  · exact mem_of_lookup h

theorem mem_of_pluralArm {ordinal : Bool} {offset : ℤ} {value : Value}
    (h : pluralArm locale textOf ordinal offset value options = some arm) :
    ∃ name, (name, arm) ∈ options := by
  unfold pluralArm at h
  split at h
  · rename_i harm
    obtain rfl := Option.some.inj h
    exact mem_of_lookup harm
  · split at h
    · rename_i harm
      obtain rfl := Option.some.inj h
      exact mem_of_lookup harm
    · exact mem_of_lookup h

end Arms

/-! ### Formatting -/

section Format

variable {Value : Type} (locale : Locale Value) (textOf : Value → Utf16)
  (values : Utf16 → Option Value)

mutual

/-- What an element shows, in the arm of a plural with that count or in none. -/
def formatElement (count : Option Utf16) : Element → Option Utf16
  | .literal text => some text
  | .argument name => (values name).map textOf
  | .number name style => (values name).bind (locale.formatNumber style)
  | .date name style => (values name).bind (locale.formatDate style)
  | .time name style => (values name).bind (locale.formatTime style)
  | .select name options =>
    (values name).bind fun value ↦
      (selectArm textOf value (formatArms none options)).bind id
  | .plural name ordinal offset options =>
    (values name).bind fun value ↦
      (pluralArm locale textOf ordinal offset value
        (formatArms (some (locale.formatCount offset value)) options)).bind id
  | .pound => some (count.getD [])
  -- A tag wants a function among the values, and there is none.
  | .tag _ _ => none

def formatAll (count : Option Utf16) : List Element → Option Utf16
  | [] => some []
  | element :: elements =>
    (formatElement count element).bind fun text ↦ (formatAll count elements).map (text ++ ·)

def formatArms (count : Option Utf16) :
    List (Utf16 × List Element) → List (Utf16 × Option Utf16)
  | [] => []
  | (name, arm) :: arms => (name, formatAll count arm) :: formatArms count arms

end

/-! ### Naming an argument -/

mutual

/-- Whether what an element shows has an argument of that name bare. -/
def namesElement (shown : Utf16) : Element → Bool
  | .argument name => name == shown
  | .select name options =>
    (values name).any fun value ↦ (selectArm textOf value (namesArms shown options)).any id
  | .plural name ordinal offset options =>
    (values name).any fun value ↦
      (pluralArm locale textOf ordinal offset value (namesArms shown options)).any id
  | _ => false

def namesAll (shown : Utf16) : List Element → Bool
  | [] => false
  | element :: elements => namesElement shown element || namesAll shown elements

def namesArms (shown : Utf16) : List (Utf16 × List Element) → List (Utf16 × Bool)
  | [] => []
  | (name, arm) :: arms => (name, namesAll shown arm) :: namesArms shown arms

end

end Format

mutual

/-- An element with every bare argument of that name taken out. -/
def withoutElement (shown : Utf16) : Element → Element
  | .argument name => if name = shown then .literal [] else .argument name
  | .select name options => .select name (withoutArms shown options)
  | .plural name ordinal offset options =>
    .plural name ordinal offset (withoutArms shown options)
  | .tag name children => .tag name (withoutAll shown children)
  | .literal text => .literal text
  | .number name style => .number name style
  | .date name style => .date name style
  | .time name style => .time name style
  | .pound => .pound

def withoutAll (shown : Utf16) : List Element → List Element
  | [] => []
  | element :: elements => withoutElement shown element :: withoutAll shown elements

def withoutArms (shown : Utf16) : List (Utf16 × List Element) → List (Utf16 × List Element)
  | [] => []
  | (name, arm) :: arms => (name, withoutAll shown arm) :: withoutArms shown arms

end

mutual

/-- The keys that an element has an arm for. -/
def keysElement : Element → List Utf16
  | .select _ options => keysArms options
  | .plural _ _ _ options => keysArms options
  | .tag _ children => keysAll children
  | _ => []

def keysAll : List Element → List Utf16
  | [] => []
  | element :: elements => keysElement element ++ keysAll elements

def keysArms : List (Utf16 × List Element) → List Utf16
  | [] => []
  | (key, arm) :: arms => key :: keysAll arm ++ keysArms arms

end

/-! ### What a message shows of an argument -/

section Shown

variable {Value : Type} {locale : Locale Value} {textOf : Value → Utf16}
  {values : Utf16 → Option Value} {shown : Utf16}

theorem formatArms_eq (count : Option Utf16) (options : List (Utf16 × List Element)) :
    formatArms locale textOf values count options =
      options.map fun option ↦ (option.1, formatAll locale textOf values count option.2) := by
  induction options with
  | nil => rw [formatArms, List.map_nil]
  | cons _ _ ih => rw [formatArms, ih, List.map_cons]

theorem namesArms_eq (options : List (Utf16 × List Element)) :
    namesArms locale textOf values shown options =
      options.map fun option ↦ (option.1, namesAll locale textOf values shown option.2) := by
  induction options with
  | nil => rw [namesArms, List.map_nil]
  | cons _ _ ih => rw [namesArms, ih, List.map_cons]

theorem withoutArms_eq (options : List (Utf16 × List Element)) :
    withoutArms shown options =
      options.map fun option ↦ (option.1, withoutAll shown option.2) := by
  induction options with
  | nil => rw [withoutArms, List.map_nil]
  | cons _ _ ih => rw [withoutArms, ih, List.map_cons]

theorem formatElement_select (count : Option Utf16) (name : Utf16)
    (options : List (Utf16 × List Element)) :
    formatElement locale textOf values count (.select name options) =
      (values name).bind fun value ↦
        (selectArm textOf value options).bind (formatAll locale textOf values none) := by
  rw [formatElement, formatArms_eq]
  simp only [selectArm_map, Option.bind_map]
  rfl

theorem formatElement_plural (count : Option Utf16) (name : Utf16) (ordinal : Bool) (offset : ℤ)
    (options : List (Utf16 × List Element)) :
    formatElement locale textOf values count (.plural name ordinal offset options) =
      (values name).bind fun value ↦
        (pluralArm locale textOf ordinal offset value options).bind
          (formatAll locale textOf values (some (locale.formatCount offset value))) := by
  rw [formatElement]
  simp only [formatArms_eq, pluralArm_map, Option.bind_map]
  rfl

theorem namesElement_select (name : Utf16) (options : List (Utf16 × List Element)) :
    namesElement locale textOf values shown (.select name options) =
      (values name).any fun value ↦
        (selectArm textOf value options).any (namesAll locale textOf values shown) := by
  rw [namesElement, namesArms_eq]
  simp only [selectArm_map, Option.any_map]
  rfl

theorem namesElement_plural (name : Utf16) (ordinal : Bool) (offset : ℤ)
    (options : List (Utf16 × List Element)) :
    namesElement locale textOf values shown (.plural name ordinal offset options) =
      (values name).any fun value ↦
        (pluralArm locale textOf ordinal offset value options).any
          (namesAll locale textOf values shown) := by
  rw [namesElement, namesArms_eq]
  simp only [pluralArm_map, Option.any_map]
  rfl

end Shown

/-! ### Induction over messages -/

/-- The messages inside an element. -/
def Element.inside : Element → List (List Element)
  | .select _ options => options.map Prod.snd
  | .plural _ _ _ options => options.map Prod.snd
  | .tag _ children => [children]
  | _ => []

section Induction

variable {p : Element → Prop}

mutual

/-- What holds of an element as soon as it holds of what is inside it holds of every one. -/
theorem Element.induct
    (h : ∀ element : Element, (∀ arm ∈ element.inside, ∀ inner ∈ arm, p inner) → p element) :
    ∀ element, p element
  | .literal _ => h _ fun _ harm ↦ absurd harm List.not_mem_nil
  | .argument _ => h _ fun _ harm ↦ absurd harm List.not_mem_nil
  | .number _ _ => h _ fun _ harm ↦ absurd harm List.not_mem_nil
  | .date _ _ => h _ fun _ harm ↦ absurd harm List.not_mem_nil
  | .time _ _ => h _ fun _ harm ↦ absurd harm List.not_mem_nil
  | .select _ options => h _ fun arm harm ↦ induct_arms h options arm harm
  | .plural _ _ _ options => h _ fun arm harm ↦ induct_arms h options arm harm
  | .pound => h _ fun _ harm ↦ absurd harm List.not_mem_nil
  | .tag _ children => h _ (List.forall_mem_singleton.mpr (induct_all h children))

theorem induct_all
    (h : ∀ element : Element, (∀ arm ∈ element.inside, ∀ inner ∈ arm, p inner) → p element) :
    ∀ elements : List Element, ∀ inner ∈ elements, p inner
  | [] => fun _ hinner ↦ absurd hinner List.not_mem_nil
  | element :: elements =>
    List.forall_mem_cons.mpr ⟨Element.induct h element, induct_all h elements⟩

theorem induct_arms
    (h : ∀ element : Element, (∀ arm ∈ element.inside, ∀ inner ∈ arm, p inner) → p element) :
    ∀ options : List (Utf16 × List Element), ∀ arm ∈ options.map Prod.snd, ∀ inner ∈ arm, p inner
  | [] => fun _ harm ↦ absurd harm List.not_mem_nil
  | (_, first) :: options =>
    List.forall_mem_cons.mpr ⟨induct_all h first, induct_arms h options⟩

end

end Induction

/-! ### What a message shows of an argument -/

section Named

variable {Value : Type} {locale : Locale Value} {textOf : Value → Utf16}
  {values : Utf16 → Option Value} {shown : Utf16} {value : Value}
  {options : List (Utf16 × List Element)} {arm : List Element}

theorem mem_inside_of_selectArm {name : Utf16}
    (h : selectArm textOf value options = some arm) :
    arm ∈ (Element.select name options).inside := by
  obtain ⟨key, hkey⟩ := mem_of_selectArm h
  exact List.mem_map_of_mem hkey

theorem mem_inside_of_pluralArm {name : Utf16} {ordinal : Bool} {offset : ℤ}
    (h : pluralArm locale textOf ordinal offset value options = some arm) :
    arm ∈ (Element.plural name ordinal offset options).inside := by
  obtain ⟨key, hkey⟩ := mem_of_pluralArm h
  exact List.mem_map_of_mem hkey

/-- What an element that names the argument shows has its value in it. -/
def Holds (locale : Locale Value) (textOf : Value → Utf16) (values : Utf16 → Option Value)
    (shown : Utf16) (value : Value) (element : Element) : Prop :=
  ∀ count text, namesElement locale textOf values shown element = true →
    formatElement locale textOf values count element = some text → textOf value <:+: text

variable {elements : List Element} {count : Option Utf16}

theorem infix_of_holds
    (h : ∀ element ∈ elements, Holds locale textOf values shown value element)
    {text : Utf16}
    (hnames : namesAll locale textOf values shown elements = true)
    (htext : formatAll locale textOf values count elements = some text) :
    textOf value <:+: text := by
  induction elements generalizing text with
  | nil => exact absurd hnames Bool.false_ne_true
  | cons element _ ih =>
    rw [formatAll, Option.bind_eq_some_iff] at htext
    obtain ⟨first, hfirst, hrest⟩ := htext
    obtain ⟨later, hlaterText, rfl⟩ := Option.map_eq_some_iff.mp hrest
    rw [namesAll, Bool.or_eq_true] at hnames
    rcases hnames with hhere | hlater
    · exact (h element List.mem_cons_self count first hhere hfirst).trans
        (List.infix_append_left)
    · have hin := ih (fun other hother ↦ h other (List.mem_cons_of_mem _ hother)) hlater hlaterText
      exact hin.trans (List.suffix_append _ _).isInfix

theorem holds (hvalue : values shown = some value) :
    ∀ element, Holds locale textOf values shown value element := by
  apply Element.induct
  intro element ih count text hnames htext
  cases element with
  | argument =>
    rw [namesElement, beq_iff_eq] at hnames
    rw [formatElement, hnames, hvalue] at htext
    obtain rfl := Option.some.inj htext
    exact List.infix_refl _
  | select =>
    rw [namesElement_select, Option.any_eq_true] at hnames
    obtain ⟨subject, hsubject, hany⟩ := hnames
    obtain ⟨arm, harm, hnames⟩ := (Option.any_eq_true _ _).mp hany
    rw [formatElement_select, hsubject, Option.bind_some, harm, Option.bind_some] at htext
    exact infix_of_holds (ih arm (mem_inside_of_selectArm harm)) hnames htext
  | plural =>
    rw [namesElement_plural, Option.any_eq_true] at hnames
    obtain ⟨subject, hsubject, hany⟩ := hnames
    obtain ⟨arm, harm, hnames⟩ := (Option.any_eq_true _ _).mp hany
    rw [formatElement_plural, hsubject, Option.bind_some, harm, Option.bind_some] at htext
    exact infix_of_holds (ih arm (mem_inside_of_pluralArm harm)) hnames htext
  | _ => simp [namesElement] at hnames

/-- What a message that names an argument shows has its value in it. -/
theorem infix_of_namesAll (hvalue : values shown = some value)
    {text : Utf16}
    (hnames : namesAll locale textOf values shown elements = true)
    (htext : formatAll locale textOf values count elements = some text) :
    textOf value <:+: text :=
  infix_of_holds (fun element _ ↦ holds hvalue element) hnames htext

/-- An element that does not name the argument shows the same without it. -/
def SameWithout (locale : Locale Value) (textOf : Value → Utf16) (values : Utf16 → Option Value)
    (shown : Utf16) (element : Element) : Prop :=
  ∀ count, namesElement locale textOf values shown element = false →
    formatElement locale textOf values count (withoutElement shown element) =
      formatElement locale textOf values count element

theorem formatAll_of_sameWithout
    (h : ∀ element ∈ elements, SameWithout locale textOf values shown element)
    (count : Option Utf16) (hnames : namesAll locale textOf values shown elements = false) :
    formatAll locale textOf values count (withoutAll shown elements) =
      formatAll locale textOf values count elements := by
  induction elements with
  | nil => rw [withoutAll]
  | cons element _ ih =>
    rw [namesAll, Bool.or_eq_false_iff] at hnames
    rw [withoutAll, formatAll, formatAll, h element List.mem_cons_self count hnames.1,
      ih (fun other hother ↦ h other (List.mem_cons_of_mem _ hother)) hnames.2]

theorem sameWithout : ∀ element, SameWithout locale textOf values shown element := by
  apply Element.induct
  intro element ih count hnames
  cases element with
  | argument =>
    rw [namesElement, beq_eq_false_iff_ne] at hnames
    rw [withoutElement, if_neg hnames]
  | select name options =>
    rw [withoutElement, formatElement_select, formatElement_select, withoutArms_eq]
    cases hvalue : values name with
    | none => rfl
    | some subject =>
      rw [namesElement_select, hvalue, Option.any_some] at hnames
      simp only [Option.bind_some, selectArm_map, Option.bind_map]
      cases harm : selectArm textOf subject options with
      | none => rfl
      | some arm =>
        rw [harm, Option.any_some] at hnames
        exact formatAll_of_sameWithout (ih arm (mem_inside_of_selectArm harm)) none hnames
  | plural name ordinal offset options =>
    rw [withoutElement, formatElement_plural, formatElement_plural, withoutArms_eq]
    cases hvalue : values name with
    | none => rfl
    | some subject =>
      rw [namesElement_plural, hvalue, Option.any_some] at hnames
      simp only [Option.bind_some, pluralArm_map, Option.bind_map]
      cases harm : pluralArm locale textOf ordinal offset subject options with
      | none => rfl
      | some arm =>
        rw [harm, Option.any_some] at hnames
        exact formatAll_of_sameWithout (ih arm (mem_inside_of_pluralArm harm)) _ hnames
  | tag => rw [withoutElement, formatElement, formatElement]
  | _ => rw [withoutElement]

/-- A message that does not name an argument shows the same without it. -/
theorem formatAll_withoutAll (count : Option Utf16)
    (hnames : namesAll locale textOf values shown elements = false) :
    formatAll locale textOf values count (withoutAll shown elements) =
      formatAll locale textOf values count elements :=
  formatAll_of_sameWithout (fun element _ ↦ sameWithout element) count hnames

end Named

/-! ### Values without a key -/

section Keys

variable {Value : Type} {locale : Locale Value} {textOf : Value → Utf16} {a b : Value}
  {shown : Utf16} {options : List (Utf16 × List Element)} {keys keys' : List Utf16}

/-- A text that is a key, or the number of one that a plural has for it alone. -/
def IsKey (text : Utf16) (keys : List Utf16) : Prop := text ∈ keys ∨ ofAscii "=" ++ text ∈ keys

theorem IsKey.mono {text : Utf16} (h : IsKey text keys) (hsub : keys ⊆ keys') :
    IsKey text keys' := h.imp (hsub ·) (hsub ·)

/-- A key is no longer than all of them together. -/
theorem IsKey.length_le {text : Utf16} (h : IsKey text keys) :
    text.length ≤ keys.flatten.length := by
  rcases h with hkey | hkey
  · exact (List.sublist_flatten_of_mem hkey).length_le
  · have hle := (List.sublist_flatten_of_mem hkey).length_le
    rw [List.length_append] at hle
    omega

/-- The locale reads the same number in two values. -/
structure SameNumber (locale : Locale Value) (a b : Value) : Prop where
  number : ∀ style, locale.formatNumber style a = locale.formatNumber style b
  date : ∀ style, locale.formatDate style a = locale.formatDate style b
  time : ∀ style, locale.formatTime style a = locale.formatTime style b
  rule : ∀ ordinal offset, locale.pluralRule ordinal offset a = locale.pluralRule ordinal offset b
  count : ∀ offset, locale.formatCount offset a = locale.formatCount offset b

theorem SameNumber.trans {c : Value} (h : SameNumber locale a b) (h' : SameNumber locale b c) :
    SameNumber locale a c where
  number style := (h.number style).trans (h'.number style)
  date style := (h.date style).trans (h'.date style)
  time style := (h.time style).trans (h'.time style)
  rule ordinal offset := (h.rule ordinal offset).trans (h'.rule ordinal offset)
  count offset := (h.count offset).trans (h'.count offset)

/-- Two values of the same number, neither of which the keys are for. -/
structure Alike (locale : Locale Value) (textOf : Value → Utf16) (a b : Value)
    (keys : List Utf16) : Prop where
  number : SameNumber locale a b
  left : ¬IsKey (textOf a) keys
  right : ¬IsKey (textOf b) keys

theorem Alike.mono (h : Alike locale textOf a b keys') (hsub : keys ⊆ keys') :
    Alike locale textOf a b keys where
  number := h.number
  left := fun hkey ↦ h.left (hkey.mono hsub)
  right := fun hkey ↦ h.right (hkey.mono hsub)

theorem keysArms_subset {arm : List Element} (h : arm ∈ options.map Prod.snd) :
    keysAll arm ⊆ keysArms options := by
  induction options with
  | nil => exact absurd h List.not_mem_nil
  | cons option options ih =>
    rw [keysArms]
    rcases List.mem_cons.mp h with rfl | hlater
    · exact fun key hkey ↦ List.mem_append_left _ (List.mem_cons_of_mem _ hkey)
    · exact fun key hkey ↦ List.mem_append_right _ (ih hlater hkey)

theorem lookup_of_not_mem {key : Utf16} (h : key ∉ keysArms options) :
    options.lookup key = none := by
  induction options with
  | nil => rfl
  | cons option options ih =>
    rw [keysArms] at h
    have hne : key ≠ option.1 := fun heq ↦
      h (List.mem_append_left _ (heq ▸ List.mem_cons_self))
    rw [List.lookup_cons, beq_false_of_ne hne]
    exact ih fun hkey ↦ h (List.mem_append_right _ hkey)

/-- Both take `other`. -/
theorem Alike.selectArm_eq (h : Alike locale textOf a b (keysArms options)) :
    selectArm textOf a options = selectArm textOf b options := by
  unfold selectArm
  rw [lookup_of_not_mem fun hkey ↦ h.left (.inl hkey),
    lookup_of_not_mem fun hkey ↦ h.right (.inl hkey)]

/-- Both take the arm of the rule. -/
theorem Alike.pluralArm_eq (h : Alike locale textOf a b (keysArms options)) (ordinal : Bool)
    (offset : ℤ) : pluralArm locale textOf ordinal offset a options =
      pluralArm locale textOf ordinal offset b options := by
  unfold pluralArm
  rw [lookup_of_not_mem fun hkey ↦ h.left (.inr hkey),
    lookup_of_not_mem fun hkey ↦ h.right (.inr hkey), h.number.rule]

/-- Only the argument of that name has a value. -/
def only (shown : Utf16) (value : Value) : Utf16 → Option Value := fun name ↦
  if name = shown then some value else none

theorem only_self (value : Value) : only shown value shown = some value := if_pos rfl

theorem only_of_ne {name : Utf16} (h : name ≠ shown) (value : Value) :
    only shown value name = none := if_neg h

/-- The values take the same arms in an element, and where no bare argument stands there it shows
the same of both. -/
def SameArms (locale : Locale Value) (textOf : Value → Utf16) (shown : Utf16) (a b : Value)
    (element : Element) : Prop :=
  Alike locale textOf a b (keysElement element) →
    namesElement locale textOf (only shown a) shown element =
        namesElement locale textOf (only shown b) shown element ∧
      ∀ count, namesElement locale textOf (only shown a) shown element = false →
        formatElement locale textOf (only shown a) count element =
          formatElement locale textOf (only shown b) count element

theorem namesAll_of_sameArms {elements : List Element}
    (h : ∀ element ∈ elements, SameArms locale textOf shown a b element)
    (halike : Alike locale textOf a b (keysAll elements)) :
    namesAll locale textOf (only shown a) shown elements =
      namesAll locale textOf (only shown b) shown elements := by
  induction elements with
  | nil => rw [namesAll, namesAll]
  | cons element elements ih =>
    rw [keysAll] at halike
    rw [namesAll, namesAll, (h element List.mem_cons_self
        (halike.mono (List.subset_append_left _ _))).1,
      ih (fun other hother ↦ h other (List.mem_cons_of_mem _ hother))
        (halike.mono (List.subset_append_right _ _))]

theorem formatAll_of_sameArms {elements : List Element}
    (h : ∀ element ∈ elements, SameArms locale textOf shown a b element)
    (halike : Alike locale textOf a b (keysAll elements)) (count : Option Utf16)
    (hnames : namesAll locale textOf (only shown a) shown elements = false) :
    formatAll locale textOf (only shown a) count elements =
      formatAll locale textOf (only shown b) count elements := by
  induction elements with
  | nil => rw [formatAll, formatAll]
  | cons element elements ih =>
    rw [keysAll] at halike
    rw [namesAll, Bool.or_eq_false_iff] at hnames
    rw [formatAll, formatAll, (h element List.mem_cons_self
        (halike.mono (List.subset_append_left _ _))).2 count hnames.1,
      ih (fun other hother ↦ h other (List.mem_cons_of_mem _ hother))
        (halike.mono (List.subset_append_right _ _)) hnames.2]

theorem sameArms : ∀ element, SameArms locale textOf shown a b element := by
  apply Element.induct
  intro element ih halike
  cases element with
  | argument name =>
    refine ⟨by rw [namesElement, namesElement], fun count hnames ↦ ?_⟩
    rw [namesElement, beq_eq_false_iff_ne] at hnames
    rw [formatElement, formatElement, only_of_ne hnames, only_of_ne hnames]
  | number name style =>
    refine ⟨by simp only [namesElement], fun count _ ↦ ?_⟩
    rw [formatElement, formatElement]
    by_cases hname : name = shown
    · rw [hname, only_self, only_self, Option.bind_some, Option.bind_some, halike.number.number]
    · rw [only_of_ne hname, only_of_ne hname]
  | date name style =>
    refine ⟨by simp only [namesElement], fun count _ ↦ ?_⟩
    rw [formatElement, formatElement]
    by_cases hname : name = shown
    · rw [hname, only_self, only_self, Option.bind_some, Option.bind_some, halike.number.date]
    · rw [only_of_ne hname, only_of_ne hname]
  | time name style =>
    refine ⟨by simp only [namesElement], fun count _ ↦ ?_⟩
    rw [formatElement, formatElement]
    by_cases hname : name = shown
    · rw [hname, only_self, only_self, Option.bind_some, Option.bind_some, halike.number.time]
    · rw [only_of_ne hname, only_of_ne hname]
  | select name options =>
    rw [keysElement] at halike
    simp only [namesElement_select, formatElement_select]
    by_cases hname : name = shown
    · rw [hname, only_self, only_self]
      simp only [Option.any_some, Option.bind_some, halike.selectArm_eq]
      cases harm : selectArm textOf b options with
      | none => exact ⟨rfl, fun _ _ ↦ rfl⟩
      | some arm =>
        have hinside := @mem_inside_of_selectArm _ _ _ _ _ name harm
        have hinner := halike.mono (keysArms_subset hinside)
        exact ⟨namesAll_of_sameArms (ih arm hinside) hinner, fun _ ↦
          formatAll_of_sameArms (ih arm hinside) hinner none⟩
    · rw [only_of_ne hname, only_of_ne hname]
      exact ⟨rfl, fun _ _ ↦ rfl⟩
  | plural name ordinal offset options =>
    rw [keysElement] at halike
    simp only [namesElement_plural, formatElement_plural]
    by_cases hname : name = shown
    · rw [hname, only_self, only_self]
      simp only [Option.any_some, Option.bind_some, halike.pluralArm_eq, halike.number.count]
      cases harm : pluralArm locale textOf ordinal offset b options with
      | none => exact ⟨rfl, fun _ _ ↦ rfl⟩
      | some arm =>
        have hinside := @mem_inside_of_pluralArm _ _ _ _ _ _ name _ _ harm
        have hinner := halike.mono (keysArms_subset hinside)
        exact ⟨namesAll_of_sameArms (ih arm hinside) hinner, fun _ ↦
          formatAll_of_sameArms (ih arm hinside) hinner _⟩
    · rw [only_of_ne hname, only_of_ne hname]
      exact ⟨rfl, fun _ _ ↦ rfl⟩
  | literal | pound | tag =>
    exact ⟨by simp only [namesElement], fun count _ ↦ by rw [formatElement, formatElement]⟩

variable {elements : List Element}

/-- A message that has no bare argument for two values without a key shows the same of both. -/
theorem formatAll_congr (h : Alike locale textOf a b (keysAll elements)) (count : Option Utf16)
    (hnames : namesAll locale textOf (only shown a) shown elements = false) :
    formatAll locale textOf (only shown a) count elements =
      formatAll locale textOf (only shown b) count elements :=
  formatAll_of_sameArms (fun element _ ↦ sameArms element) h count hnames

end Keys

end Odudu.I18n
