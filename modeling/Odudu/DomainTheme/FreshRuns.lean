import Odudu.DomainTheme.ResolveBranding

/-!
# Nothing older than an invalidation

What is kept of a tenant is of a read that began after its last invalidation, or names a
generation that is no longer the tenant's.  A generation never comes back: it is raised by
an invalidation, and a count that is forgotten leaves a floor above it.  So a request gets
nothing whose read began before an invalidation that it began after: `neverStale`, of any
resolver, and `caches_never_stale`, of the two there are.
-/

set_option autoImplicit false

namespace Odudu.DomainTheme

/-! ### Keys -/

/-- What stands before the first of a character, and after it. -/
theorem append_cons_inj {c : Char} {before before' after after' : Text} (h : c ∉ before)
    (h' : c ∉ before') (heq : before ++ c :: after = before' ++ c :: after') :
    before = before' ∧ after = after' := by
  rcases List.append_eq_append_iff.mp heq with
    ⟨between, hbefore, hafter⟩ | ⟨between, hbefore, hafter⟩
  · cases between with
    | nil => simpa [eq_comm] using And.intro hbefore hafter
    | cons =>
      obtain ⟨rfl, -⟩ := List.cons.inj hafter
      exact absurd (by simp [hbefore]) h'
  · cases between with
    | nil => simpa [eq_comm] using And.intro hbefore hafter
    | cons =>
      obtain ⟨rfl, -⟩ := List.cons.inj hafter
      exact absurd (by simp [hbefore]) h

/-- A key names its tenant and what follows. -/
theorem cacheKey_inj {tenantId tenantId' : TenantId} {scope scope' : Text}
    (h : cacheKey tenantId scope = cacheKey tenantId' scope') :
    tenantId = tenantId' ∧ scope = scope' := by
  obtain ⟨htext, hscope⟩ := append_cons_inj tenantId.noColon tenantId'.noColon h
  refine ⟨?_, hscope⟩
  obtain ⟨text, hcolon⟩ := tenantId
  obtain ⟨text', hcolon'⟩ := tenantId'
  obtain rfl : text = text' := htext
  rfl

/-- A flight names its key and its generation. -/
theorem flightOf_inj {key key' : Text} {generation generation' : ℕ}
    (h : flightOf key generation = flightOf key' generation') :
    key = key' ∧ generation = generation' := by
  have hdigits : ∀ n, '#' ∉ (Nat.toDigits 10 n).reverse := by
    intro n hmem
    have hdigit := Nat.isDigit_of_mem_toDigits (by decide) (by decide) (List.mem_reverse.mp hmem)
    exact absurd hdigit (by decide)
  have hreverse := congrArg List.reverse h
  simp only [flightOf, List.reverse_append, List.reverse_cons, List.append_assoc,
    List.singleton_append] at hreverse
  obtain ⟨htext, hkey⟩ := append_cons_inj (hdigits generation) (hdigits generation') hreverse
  refine ⟨List.reverse_inj.mp hkey, ?_⟩
  have hvalue := congrArg (Nat.ofDigitChars 10 · 0) (List.reverse_inj.mp htext)
  simpa using hvalue

/-! ### Moments -/

/-- The invalidations so far, the generations and the step of a process. -/
structure Moment where
  invalidated : List (TenantId × ℕ)
  generationOf : TenantId → ℕ
  step : ℕ

namespace Moment

variable (M : Moment) (tenantId : TenantId)

/-- The tenant was not invalidated since. -/
def After (began : ℕ) : Prop := ∀ i, (tenantId, i) ∈ M.invalidated → i < began

/-- Of a read that began in that generation, at that step. -/
def Owned (generation began : ℕ) : Prop :=
  generation ≤ M.generationOf tenantId ∧
    (generation = M.generationOf tenantId → M.After tenantId began)

/-- A request that began at that step may get what a read gives that began at the other. -/
def MayGet (asked began : ℕ) : Prop :=
  asked ≤ M.step ∧ ∀ i, (tenantId, i) ∈ M.invalidated → i < asked → i < began

/-- The invalidations are past. -/
def Past : Prop := ∀ tenantId i, (tenantId, i) ∈ M.invalidated → i < M.step

/-- One event later, these tenants were invalidated. -/
structure Later (gone : TenantId → Prop) (M' : Moment) : Prop where
  invalidated : ∀ tenantId i, (tenantId, i) ∈ M'.invalidated →
    (tenantId, i) ∈ M.invalidated ∨ gone tenantId ∧ i = M.step
  generation_le : ∀ tenantId, M.generationOf tenantId ≤ M'.generationOf tenantId
  generation_lt : ∀ tenantId, gone tenantId → M.generationOf tenantId < M'.generationOf tenantId
  step : M.step < M'.step

variable {M tenantId} {M' : Moment} {gone : TenantId → Prop} {generation asked began : ℕ}

theorem After.later (h : M.After tenantId began) (hlater : M.Later gone M')
    (hstays : ¬gone tenantId) : M'.After tenantId began := by
  intro i hi
  rcases hlater.invalidated tenantId i hi with hold | ⟨hgone, -⟩
  · exact h i hold
  · exact absurd hgone hstays

theorem Owned.later (h : M.Owned tenantId generation began) (hlater : M.Later gone M') :
    M'.Owned tenantId generation began := by
  have hle := hlater.generation_le tenantId
  refine ⟨h.1.trans hle, fun heq ↦ ?_⟩
  have hsame : generation = M.generationOf tenantId := le_antisymm h.1 (heq ▸ hle)
  refine (h.2 hsame).later hlater fun hgone ↦ ?_
  have hlt := hlater.generation_lt tenantId hgone
  omega

theorem MayGet.later (h : M.MayGet tenantId asked began) (hlater : M.Later gone M') :
    M'.MayGet tenantId asked began := by
  refine ⟨h.1.trans hlater.step.le, fun i hi hbefore ↦ ?_⟩
  rcases hlater.invalidated tenantId i hi with hold | ⟨-, hnow⟩
  · exact h.2 i hold hbefore
  · have hasked := h.1
    omega

theorem After.mayGet (h : M.After tenantId began) (hasked : asked ≤ M.step) :
    M.MayGet tenantId asked began :=
  ⟨hasked, fun i hi _ ↦ h i hi⟩

end Moment

variable {R : Resolver}

/-- Where a read is. -/
def Read.Fits (M : Moment) (read : Read R) : Prop :=
  match read.errand with
  | .page ask key generation waiting _ =>
    (∃ scope, key = cacheKey (R.pageTenant ask) scope) ∧
      M.Owned (R.pageTenant ask) generation read.began ∧
      ∀ asked ∈ waiting, M.MayGet (R.pageTenant ask) asked read.began
  | .ownMail ask asked => M.MayGet (R.mailTenant ask) asked read.began
  | .mail ask key generation asked =>
    key = cacheKey (R.mailTenant ask) [] ∧
      M.Owned (R.mailTenant ask) generation read.began ∧
      M.MayGet (R.mailTenant ask) asked read.began

theorem Read.Fits.later {M M' : Moment} {gone : TenantId → Prop} {read : Read R}
    (h : read.Fits M) (hlater : M.Later gone M') : read.Fits M' := by
  obtain ⟨errand, began⟩ := read
  cases errand with
  | page =>
    exact ⟨h.1, h.2.1.later hlater, fun asked hasked ↦ (h.2.2 asked hasked).later hlater⟩
  | ownMail => exact Moment.MayGet.later h hlater
  | mail => exact ⟨h.1, h.2.1.later hlater, h.2.2.later hlater⟩

namespace Process

variable {P : Process R} {M M' : Moment}

/-- The moment of a process. -/
def moment (P : Process R) : Moment := ⟨P.invalidated, P.cache.generationOf, P.step⟩

/-- Everything that is kept is of a read that began after the last invalidation, or of a
generation that is gone. -/
structure Sound (M : Moment) (P : Process R) : Prop where
  weighed : P.cache.Weighed
  within : P.cache.Within R.options
  entries : ∀ key entry, P.cache.entries.lookup key = some entry →
    M.After entry.tenantId entry.value.2 ∧ ∃ scope, key = cacheKey entry.tenantId scope
  backoffs : ∀ key backoff, P.failedUntil.lookup key = some backoff →
    ∀ tenantId scope, key = cacheKey tenantId scope →
      M.Owned tenantId backoff.generation backoff.began
  flights : ∀ flight number, P.inflight.lookup flight = some number →
    ∃ ask key generation waiting value began,
      P.reads number = some ⟨.page ask key generation waiting value, began⟩ ∧
        flight = flightOf key generation
  reads : ∀ number read, P.reads number = some read → read.Fits M
  numbered : ∀ number, P.started ≤ number → P.reads number = none
  answers : ∀ answer ∈ P.answers, ∀ began, answer.source = some began →
    M.MayGet answer.tenantId answer.asked began

section Steps

variable {tenantId : TenantId} {errand : Errand R} {number began : ℕ}

theorem Sound.later {gone : TenantId → Prop} (h : P.Sound M) (hlater : M.Later gone M')
    (hgone : ∀ key entry, P.cache.entries.lookup key = some entry → ¬gone entry.tenantId) :
    P.Sound M' :=
  { h with
    entries := fun key entry hlookup ↦
      ⟨(h.entries key entry hlookup).1.later hlater (hgone key entry hlookup),
        (h.entries key entry hlookup).2⟩
    backoffs := fun key backoff hlookup tenantId scope hkey ↦
      (h.backoffs key backoff hlookup tenantId scope hkey).later hlater
    reads := fun number read hread ↦ (h.reads number read hread).later hlater
    answers := fun answer hanswer began hsource ↦
      (h.answers answer hanswer began hsource).later hlater }

theorem Sound.answer {given : Answer R} (h : P.Sound M)
    (hmay : ∀ began, given.source = some began → M.MayGet given.tenantId given.asked began) :
    (P.answer given).Sound M :=
  { h with
    answers := by
      intro answer hanswer
      rcases List.mem_cons.mp hanswer with rfl | hold
      · exact hmay
      · exact h.answers answer hold }

theorem Sound.withCache {cache : BrandingCache (R.Value × ℕ)} (h : P.Sound M)
    (hweighed : cache.Weighed) (hwithin : cache.Within R.options)
    (hentries : ∀ key entry, cache.entries.lookup key = some entry →
      M.After entry.tenantId entry.value.2 ∧ ∃ scope, key = cacheKey entry.tenantId scope) :
    Sound M { P with cache } :=
  { h with weighed := hweighed, within := hwithin, entries := hentries }

theorem Sound.got (h : P.Sound M) (key : Text) (now : Time) :
    Sound M { P with cache := (P.cache.get key now).2 } := by
  have hshrinks := P.cache.shrinks_get key now
  exact h.withCache (hshrinks.weighed h.weighed) (hshrinks.within h.within)
    fun key' entry hlookup ↦ h.entries key' entry (hshrinks.lookup key' entry hlookup)

theorem moment_got (P : Process R) (key : Text) (now : Time) :
    moment { P with cache := (P.cache.get key now).2 } = P.moment := by
  have hgeneration := funext (P.cache.shrinks_get key now).generationOf
  rw [moment, hgeneration, moment]

/-- What is got of the tenant's is of a read after its last invalidation. -/
theorem Sound.after_of_get {value : R.Value} {scope : Text} {now : Time} (h : P.Sound M)
    (hgot : (P.cache.get (cacheKey tenantId scope) now).1 = some (value, began)) :
    M.After tenantId began := by
  obtain ⟨entry, hlookup, hvalue⟩ := BrandingCache.lookup_of_get hgot
  obtain ⟨hafter, scope', hkey⟩ := h.entries _ entry hlookup
  obtain ⟨rfl, -⟩ := cacheKey_inj hkey
  rw [hvalue] at hafter
  exact hafter

/-- Setting what a read gave keeps what is sound. -/
theorem Sound.fills {key scope : Text} {value : R.Value} {bytes generation : ℕ} {now : Time}
    (h : P.Sound P.moment) (hkey : key = cacheKey tenantId scope)
    (howned : P.moment.Owned tenantId generation began) :
    let P' : Process R :=
      { P with cache := P.cache.set R.options key tenantId (value, began) bytes generation now }
    P'.Sound P.moment ∧ P'.moment = P.moment := by
  obtain ⟨hweighed, hwithin, hgeneration, hlookup⟩ := P.cache.set_spec R.options key tenantId
    (value, began) bytes generation now h.weighed h.within
  refine ⟨h.withCache hweighed hwithin fun key' entry hentry ↦ ?_, ?_⟩
  · rcases hlookup key' entry hentry with hold | ⟨rfl, htenant, hvalue, hcurrent⟩
    · exact h.entries key' entry hold
    · rw [htenant, hvalue]
      exact ⟨howned.2 hcurrent, scope, hkey⟩
  · rw [moment, funext hgeneration, moment]

theorem Sound.begin (h : P.Sound M) (hfits : Read.Fits M ⟨errand, P.step⟩) :
    (P.begin errand).Sound M :=
  { h with
    flights := by
      intro flight number hlookup
      obtain ⟨ask, key, generation, waiting, value, began, hread, hflight⟩ :=
        h.flights flight number hlookup
      have hne : number ≠ P.started := by
        rintro rfl
        simp [h.numbered P.started le_rfl] at hread
      exact ⟨ask, key, generation, waiting, value, began,
        (Function.update_of_ne hne ..).trans hread, hflight⟩
    reads := by
      intro number read hread
      by_cases hnumber : number = P.started
      · subst hnumber
        obtain rfl : _ = read := by simpa [Process.begin] using hread
        exact hfits
      · exact h.reads number read (by simpa [Process.begin, hnumber] using hread)
    numbered := by
      intro number hnumber
      have hlt : P.started + 1 ≤ number := hnumber
      have hne : number ≠ P.started := by omega
      exact (Function.update_of_ne hne ..).trans (h.numbered number (by omega)) }

variable {ask : R.Page}

/-- A read goes on. -/
theorem Sound.goesOn {read read' : Read R} {key : Text} {generation : ℕ}
    {waiting : List ℕ} {value : Option R.Value} (h : P.Sound M)
    (hread : P.reads number = some read)
    (hpage : read' = ⟨.page ask key generation waiting value, began⟩)
    (hsame : ∀ ask' key' generation' waiting' value' began',
      read = ⟨.page ask' key' generation' waiting' value', began'⟩ →
        key' = key ∧ generation' = generation)
    (hfits : read'.Fits M) :
    Sound M { P with reads := Function.update P.reads number (some read') } :=
  { h with
    flights := by
      intro flight number' hlookup
      obtain ⟨ask', key', generation', waiting', value', began', hread', hflight⟩ :=
        h.flights flight number' hlookup
      by_cases hnumber : number' = number
      · subst hnumber
        obtain rfl := Option.some.inj (hread.symm.trans hread')
        obtain ⟨rfl, rfl⟩ := hsame _ _ _ _ _ _ rfl
        exact ⟨ask, _, _, waiting, value, began, by simp [hpage], hflight⟩
      · exact ⟨ask', key', generation', waiting', value', began',
          (Function.update_of_ne hnumber ..).trans hread', hflight⟩
    reads := by
      intro number' read'' hread''
      by_cases hnumber : number' = number
      · subst hnumber
        obtain rfl : read' = read'' := by simpa using hread''
        exact hfits
      · exact h.reads number' read'' (by simpa [hnumber] using hread'')
    numbered := by
      intro number' hnumber'
      have hne : number' ≠ number := by
        rintro rfl
        simp [h.numbered number' hnumber'] at hread
      exact (Function.update_of_ne hne ..).trans (h.numbered number' hnumber') }

/-- A read is over that no flight is of, or whose flight is gone. -/
theorem Sound.over {inflight : AList fun _ : Text ↦ ℕ} (h : P.Sound M)
    (hflights : ∀ flight number', inflight.lookup flight = some number' →
      P.inflight.lookup flight = some number' ∧ number' ≠ number) :
    Sound M { P with inflight, reads := Function.update P.reads number none } :=
  { h with
    flights := by
      intro flight number' hlookup
      obtain ⟨hold, hne⟩ := hflights flight number' hlookup
      obtain ⟨ask, key, generation, waiting, value, began, hread, hflight⟩ :=
        h.flights flight number' hold
      exact ⟨ask, key, generation, waiting, value, began,
        (Function.update_of_ne hne ..).trans hread, hflight⟩
    reads := by
      intro number' read hread
      by_cases hnumber : number' = number
      · simp [hnumber] at hread
      · exact h.reads number' read (by simpa [hnumber] using hread)
    numbered := by
      intro number' hnumber'
      by_cases hnumber : number' = number
      · simp [hnumber]
      · exact (Function.update_of_ne hnumber ..).trans (h.numbered number' hnumber') }

/-- An event that is no invalidation: sound still, at the same moment. -/
def Stays (P P' : Process R) : Prop := P'.Sound P.moment ∧ P'.moment = P.moment

theorem Stays.of_moment {P' P'' : Process R} (h : P'.Stays P'') (hmoment : P'.moment = P.moment) :
    P.Stays P'' :=
  ⟨hmoment ▸ h.1, h.2.trans hmoment⟩

theorem after_now (hpast : P.moment.Past) (tenantId : TenantId) : P.moment.After tenantId P.step :=
  fun i hi ↦ hpast tenantId i hi

theorem owned_now (hpast : P.moment.Past) (tenantId : TenantId) :
    P.moment.Owned tenantId (P.cache.generationOf tenantId) P.step :=
  ⟨le_rfl, fun _ ↦ after_now hpast tenantId⟩

variable (h : P.Sound P.moment) (hpast : P.moment.Past)

include h

theorem stays_answer {given : Answer R}
    (hmay : ∀ began, given.source = some began →
      P.moment.MayGet given.tenantId given.asked began) : P.Stays (P.answer given) :=
  ⟨h.answer hmay, rfl⟩

theorem stays_begin (hfits : Read.Fits P.moment ⟨errand, P.step⟩) : P.Stays (P.begin errand) :=
  ⟨h.begin hfits, rfl⟩

include hpast

theorem stays_beginPage {key scope : Text}
    (hkey : key = cacheKey (R.pageTenant ask) scope) : P.Stays (P.beginPage ask key) := by
  simp only [beginPage]
  cases hrunning : P.inflight.lookup (flightOf key (P.cache.generationOf (R.pageTenant ask))) with
  | some running =>
    obtain ⟨ask', key', generation', waiting, value, began, hread, hflight⟩ :=
      h.flights _ running hrunning
    obtain ⟨rfl, hgeneration⟩ := flightOf_inj hflight
    obtain ⟨⟨scope', hkey'⟩, howned, hwaiting⟩ := h.reads running _ hread
    obtain ⟨htenant, -⟩ := cacheKey_inj (hkey.symm.trans hkey')
    have hafter := howned.2 (hgeneration.symm.trans (congrArg P.cache.generationOf htenant))
    have hjoin : P.join running = { P with
        reads := Function.update P.reads running
          (some ⟨.page ask' key generation' (P.step :: waiting) value, began⟩) } := by
      simp [join, hread]
    simp only [hjoin]
    refine ⟨h.goesOn hread rfl ?_ ⟨⟨scope', hkey'⟩, howned, ?_⟩, rfl⟩
    · rintro _ _ _ _ _ _ ⟨⟩
      exact ⟨rfl, rfl⟩
    · intro asked hasked
      rcases List.mem_cons.mp hasked with rfl | hold
      · exact hafter.mayGet le_rfl
      · exact hwaiting asked hold
  | none =>
    have hbegin : P.Stays (P.begin (.page ask key (P.cache.generationOf (R.pageTenant ask))
        [P.step] none)) := by
      refine stays_begin h ⟨⟨scope, hkey⟩, owned_now hpast _, fun asked hasked ↦ ?_⟩
      obtain rfl := List.mem_singleton.mp hasked
      exact (after_now hpast _).mayGet le_rfl
    simp only []
    split_ifs
    · refine ⟨{ hbegin.1 with flights := ?_ }, rfl⟩
      intro flight number hlookup
      by_cases hflight : flight = flightOf key (P.cache.generationOf (R.pageTenant ask))
      · subst hflight
        obtain rfl : P.started = number := by simpa using hlookup
        exact ⟨ask, key, _, [P.step], none, P.step, by simp [Process.begin], rfl⟩
      · rw [AList.lookup_insert_ne hflight] at hlookup
        exact hbegin.1.flights flight number hlookup
    · exact hbegin

/-- What is not in the cache. -/
theorem stays_missed {scope : Text} {now : Time} :
    P.Stays (match P.backedOff (cacheKey (R.pageTenant ask) scope) (R.pageTenant ask) now with
      | some backoff =>
        P.answer ⟨R.pageTenant ask, P.step, some backoff.began, .inl R.fallback⟩
      | none => P.beginPage ask (cacheKey (R.pageTenant ask) scope)) := by
  cases hbacked : P.backedOff (cacheKey (R.pageTenant ask) scope) (R.pageTenant ask) now with
  | none => exact stays_beginPage h hpast rfl
  | some backoff =>
    obtain ⟨hlookup, hheld⟩ := Option.filter_eq_some_iff.mp hbacked
    simp only [Bool.and_eq_true, decide_eq_true_eq] at hheld
    have hafter := (h.backoffs _ backoff hlookup _ scope rfl).2 hheld.2
    refine stays_answer h fun began hbegan ↦ ?_
    obtain rfl := Option.some.inj hbegan
    exact hafter.mayGet le_rfl

theorem stays_page (ask : R.Page) (now : Time) : P.Stays (P.page ask now) := by
  rw [page]
  cases R.pageScope ask with
  | none => exact stays_answer h fun began hbegan ↦ by simp at hbegan
  | some scope =>
    have hgot := h.got (cacheKey (R.pageTenant ask) scope) now
    have hmoment := P.moment_got (cacheKey (R.pageTenant ask) scope) now
    rw [← hmoment] at hgot hpast
    cases hheld : (P.cache.get (cacheKey (R.pageTenant ask) scope) now).1 with
    | none =>
      simp only [hheld]
      exact (stays_missed hgot hpast).of_moment hmoment
    | some held =>
      obtain ⟨value, began⟩ := held
      have hafter := h.after_of_get hheld
      simp only [hheld]
      refine (stays_answer hgot fun began' hbegan ↦ ?_).of_moment hmoment
      obtain rfl := Option.some.inj hbegan
      rw [hmoment]
      exact hafter.mayGet le_rfl

theorem stays_tenantMail {ask : R.Mail} {asked : ℕ} (hasked : asked ≤ P.step) (now : Time) :
    P.Stays (P.tenantMail ask asked now) := by
  have hbegins : ∀ P' : Process R, P'.Sound P'.moment → P'.moment = P.moment →
      P.Stays (P'.begin (.mail ask (cacheKey (R.mailTenant ask) [])
        (P'.cache.generationOf (R.mailTenant ask)) asked)) := by
    intro P' hsound hmoment
    rw [← hmoment] at hpast
    have hstep : asked ≤ P'.step := hasked.trans_eq (congrArg Moment.step hmoment).symm
    have hmay := (after_now hpast (R.mailTenant ask)).mayGet hstep
    exact Stays.of_moment (stays_begin hsound ⟨rfl, owned_now hpast _, hmay⟩) hmoment
  rw [tenantMail]
  split_ifs
  · have hgot := h.got (cacheKey (R.mailTenant ask) []) now
    have hmoment := P.moment_got (cacheKey (R.mailTenant ask) []) now
    rw [← hmoment] at hgot
    cases hheld : (P.cache.get (cacheKey (R.mailTenant ask) []) now).1 with
    | none => exact hbegins _ hgot hmoment
    | some held =>
      obtain ⟨value, began⟩ := held
      have hafter := h.after_of_get hheld
      refine (stays_answer hgot fun began' hbegan ↦ ?_).of_moment hmoment
      obtain rfl := Option.some.inj hbegan
      rw [hmoment]
      exact hafter.mayGet hasked
  · exact hbegins P h rfl

theorem stays_mail (ask : R.Mail) (now : Time) : P.Stays (P.mail ask now) := by
  rw [mail]
  split_ifs
  · exact stays_begin h ((after_now hpast _).mayGet le_rfl)
  · exact stays_tenantMail h hpast le_rfl now
  · exact stays_answer h fun began hbegan ↦ by simp at hbegan

omit hpast

theorem stays_fill {key : Text} {generation : ℕ} {waiting : List ℕ}
    (hread : P.reads number = some ⟨.page ask key generation waiting none, began⟩)
    (layers : Option R.Layers) (now : Time) :
    P.Stays (P.fill number began ask key generation waiting layers now) := by
  have hfits := h.reads number _ hread
  obtain ⟨⟨scope, hkey⟩, howned, hwaiting⟩ := hfits
  have hknown : ∀ (P' : Process R) (value : R.Value), P'.Sound P.moment → P'.moment = P.moment →
      P'.reads = P.reads →
      P.Stays { P' with
        reads := Function.update P.reads number
          (some ⟨.page ask key generation waiting (some value), began⟩) } := by
    intro P' value hsound hmoment hreads
    rw [← hreads] at hread ⊢
    refine ⟨hsound.goesOn hread rfl ?_ ⟨⟨scope, hkey⟩, howned, hwaiting⟩, hmoment⟩
    rintro _ _ _ _ _ _ ⟨⟩
    exact ⟨rfl, rfl⟩
  unfold fill
  cases layers with
  | none =>
    refine hknown { P with
      failedUntil := (if R.maxBackoffs ≤ P.failedUntil.entries.length then ∅
        else P.failedUntil).insert key ⟨now + R.backoffMs, generation, began⟩ } R.fallback
      { h with backoffs := ?_ } rfl rfl
    intro key' backoff hlookup tenantId' scope' hkey'
    by_cases hsame : key' = key
    · subst hsame
      obtain rfl : _ = backoff := by simpa using hlookup
      obtain ⟨rfl, -⟩ := cacheKey_inj (hkey'.symm.trans hkey)
      exact howned
    · rw [AList.lookup_insert_ne hsame] at hlookup
      split_ifs at hlookup
      · simp at hlookup
      · exact h.backoffs key' backoff hlookup tenantId' scope' hkey'
  | some layers =>
    cases hbuilt : R.build ask layers with
    | none =>
      simp only [hbuilt]
      exact hknown P R.fallback h rfl rfl
    | some value =>
      simp only [hbuilt]
      obtain ⟨hsound, hmoment⟩ := @Sound.fills R P _ began key scope value (R.weigh value)
        generation now h hkey howned
      exact hknown _ value hsound hmoment rfl

theorem stays_settle {key : Text} {generation : ℕ} {waiting : List ℕ}
    {value : R.Value}
    (hread : P.reads number = some ⟨.page ask key generation waiting (some value), began⟩) :
    P.Stays (P.settle number began ask key generation waiting value) := by
  obtain ⟨-, -, hwaiting⟩ := h.reads number _ hread
  have hover : Sound P.moment { P with
      inflight := if P.inflight.lookup (flightOf key generation) = some number then
        P.inflight.erase (flightOf key generation) else P.inflight
      reads := Function.update P.reads number none } := by
    refine h.over fun flight number' hlookup ↦ ?_
    have hof : ∀ number', P.inflight.lookup flight = some number' → number' = number →
        flight = flightOf key generation := by
      rintro _ hold rfl
      obtain ⟨ask', key', generation', waiting', value', began', hread', hflight⟩ :=
        h.flights flight _ hold
      cases hread.symm.trans hread'
      exact hflight
    split_ifs at hlookup with hsame
    · have hne : flight ≠ flightOf key generation := by
        rintro rfl
        simp at hlookup
      rw [AList.lookup_erase_ne hne] at hlookup
      exact ⟨hlookup, fun hnumber ↦ hne (hof number' hlookup hnumber)⟩
    · refine ⟨hlookup, fun hnumber ↦ hsame ?_⟩
      rw [← hof number' hlookup hnumber, hlookup, hnumber]
  refine ⟨{ hover with answers := ?_ }, rfl⟩
  intro answer hanswer began' hbegan
  rcases List.mem_append.mp hanswer with hnew | hold
  · obtain ⟨asked, hasked, rfl⟩ := List.mem_map.mp hnew
    obtain rfl := Option.some.inj hbegan
    exact hwaiting asked hasked
  · exact h.answers answer hold began' hbegan

theorem stays_finish {read : Read R} (hread : P.reads number = some read)
    (hmail : ∀ ask key generation waiting value began,
      read ≠ ⟨.page ask key generation waiting value, began⟩) : P.Stays (P.finish number) := by
  refine ⟨h.over fun flight number' hlookup ↦ ⟨hlookup, ?_⟩, rfl⟩
  rintro rfl
  obtain ⟨ask, key, generation, waiting, value, began, hpage, -⟩ := h.flights flight _ hlookup
  exact hmail _ _ _ _ _ _ (Option.some.inj (hread.symm.trans hpage))

theorem stays_fillMail {ask : R.Mail} {key : Text} {generation asked : ℕ}
    (hread : P.reads number = some ⟨.mail ask key generation asked, began⟩)
    (layers : Option R.Layers) (now : Time) :
    P.Stays (P.fillMail number began ask key generation asked layers now) := by
  obtain ⟨hkey, howned, hmay⟩ := h.reads number _ hread
  have hover := stays_finish h hread fun _ _ _ _ _ _ heq ↦ by cases heq
  have hanswers : ∀ (P' : Process R) (sent : R.Sent), P.Stays P' →
      P.Stays (P'.answer ⟨R.mailTenant ask, asked, some began, .inr sent⟩) := by
    intro P' sent hstays
    refine ⟨hstays.1.answer fun began' hbegan ↦ ?_, hstays.2⟩
    obtain rfl := Option.some.inj hbegan
    exact hmay
  rw [fillMail]
  cases layers.bind (R.buildTenant ask) with
  | none => exact hanswers _ _ hover
  | some value =>
    refine hanswers _ _ ?_
    by_cases hpath : R.onPath ask = true
    · rw [if_pos hpath]
      have hsound : (P.finish number).Sound (P.finish number).moment := hover.2 ▸ hover.1
      obtain ⟨hfilled, hmoment⟩ := @Sound.fills R (P.finish number) _ began key [] value
        (R.weigh value) generation now hsound hkey howned
      exact ⟨hfilled, hmoment⟩
    · rw [if_neg hpath]
      exact hover

include hpast

theorem stays_fillOwnMail {ask : R.Mail} {asked : ℕ}
    (hread : P.reads number = some ⟨.ownMail ask asked, began⟩) (layers : Option R.Layers)
    (now : Time) : P.Stays (P.fillOwnMail number began ask asked layers now) := by
  have hmay : P.moment.MayGet (R.mailTenant ask) asked began := h.reads number _ hread
  obtain ⟨hsound, hmoment⟩ := stays_finish h hread fun _ _ _ _ _ _ heq ↦ by cases heq
  rw [← hmoment] at hsound hpast hmay
  rw [fillOwnMail]
  cases layers.bind (R.buildOwn ask) with
  | none => exact (stays_tenantMail hsound hpast hmay.1 now).of_moment hmoment
  | some =>
    refine (stays_answer hsound fun began' hbegan ↦ ?_).of_moment hmoment
    obtain rfl := Option.some.inj hbegan
    exact hmay

end Steps

/-! ### Runs -/

/-- The generations are as they were or later, and that of a tenant invalidated is later. -/
def Rises (P : Process R) (event : Event R) (P' : Process R) : Prop :=
  (∀ tenantId, P.cache.generationOf tenantId ≤ P'.cache.generationOf tenantId) ∧
    ∀ tenantId, event = .invalidate tenantId →
      P.cache.generationOf tenantId < P'.cache.generationOf tenantId

variable {P' : Process R}

/-- An event that happens is no invalidation and stays, or is one. -/
theorem stays_happen {event : Event R} (h : P.Sound P.moment)
    (hpast : P.moment.Past) (hhappens : P.happen event = some P') :
    P.Stays P' ∧ (∀ tenantId, event ≠ .invalidate tenantId) ∨
      ∃ tenantId, event = .invalidate tenantId ∧ P' = P.invalidate tenantId := by
  cases event with
  | page ask now =>
    obtain rfl := Option.some.inj hhappens
    exact Or.inl ⟨stays_page h hpast ask now, fun _ heq ↦ by cases heq⟩
  | mail ask now =>
    obtain rfl := Option.some.inj hhappens
    exact Or.inl ⟨stays_mail h hpast ask now, fun _ heq ↦ by cases heq⟩
  | invalidate tenantId =>
    exact Or.inr ⟨tenantId, rfl, (Option.some.inj hhappens).symm⟩
  | completes _ layers now =>
    refine Or.inl ⟨?_, fun _ heq ↦ by cases heq⟩
    simp only [happen] at hhappens
    split at hhappens
    case h_1 hread => exact Option.some.inj hhappens ▸ stays_fill h hread layers now
    case h_2 hread => exact Option.some.inj hhappens ▸ stays_fillOwnMail h hpast hread layers now
    case h_3 hread => exact Option.some.inj hhappens ▸ stays_fillMail h hread layers now
    case h_4 => cases hhappens
  | settles =>
    refine Or.inl ⟨?_, fun _ heq ↦ by cases heq⟩
    simp only [happen] at hhappens
    split at hhappens
    case h_1 hread => exact Option.some.inj hhappens ▸ stays_settle h hread
    case h_2 => cases hhappens

/-- What the tenant had is dropped, or of a generation that is gone. -/
theorem Sound.invalidate {tenantId : TenantId} (h : P.Sound P.moment)
    (hP' : P' = { P.invalidate tenantId with step := P.step + 1 }) :
    P'.Sound P'.moment ∧ P.Rises (.invalidate tenantId) P' := by
  subst hP'
  obtain ⟨hweighed, hwithin, hle, hlt, hentries⟩ :=
    P.cache.invalidateTenant_spec R.options tenantId h.weighed h.within
  have hlater : P.moment.Later (· = tenantId)
      (moment { P.invalidate tenantId with step := P.step + 1 }) := by
    refine ⟨fun tenantId' i hi ↦ ?_, hle, ?_, Nat.lt_succ_self _⟩
    · rcases List.mem_cons.mp hi with heq | hold
      · obtain ⟨rfl, rfl⟩ := Prod.mk.inj heq
        exact Or.inr ⟨rfl, rfl⟩
      · exact Or.inl hold
    · rintro _ rfl
      exact hlt
  refine ⟨?_, hle, ?_⟩
  · exact
      { weighed := hweighed
        within := hwithin
        entries := by
          intro key entry hlookup
          obtain ⟨hold, hstays⟩ := hentries key entry hlookup
          obtain ⟨hafter, hkey⟩ := h.entries key entry hold
          exact ⟨hafter.later hlater hstays, hkey⟩
        backoffs := fun key backoff hlookup tenantId' scope hkey ↦
          (h.backoffs key backoff hlookup tenantId' scope hkey).later hlater
        flights := h.flights
        reads := fun number read hread ↦ (h.reads number read hread).later hlater
        numbered := h.numbered
        answers := fun answer hanswer began hsource ↦
          (h.answers answer hanswer began hsource).later hlater }
  · rintro _ ⟨⟩
    exact hlt

/-- One event keeps what is kept sound, and no generation falls. -/
theorem Sound.perform {event : Event R} (h : P.Sound P.moment)
    (hpast : P.moment.Past) (hperform : P.perform event = some P') :
    P'.Sound P'.moment ∧ P'.moment.Past ∧ P.Rises event P' := by
  obtain ⟨next, hhappens, rfl⟩ := Option.map_eq_some_iff.mp hperform
  rcases stays_happen h hpast hhappens with ⟨⟨hsound, hmoment⟩, hno⟩ | ⟨tenantId, rfl, rfl⟩
  · obtain ⟨hinvalidated, hgeneration, -⟩ := Moment.mk.inj hmoment
    have hlater : P.moment.Later (fun _ ↦ False) (moment { next with step := P.step + 1 }) := by
      refine ⟨fun tenantId i hi ↦ Or.inl ?_, fun tenantId ↦ ?_, fun _ hgone ↦ hgone.elim,
        Nat.lt_succ_self _⟩
      · rw [← hmoment]
        exact hi
      · exact (congrFun hgeneration tenantId).ge
    refine ⟨?_, ?_, hlater.generation_le, fun tenantId heq ↦ absurd heq (hno tenantId)⟩
    · have hnext : Sound P.moment { next with step := P.step + 1 } := { hsound with }
      exact hnext.later hlater fun _ _ _ hgone ↦ hgone
    · intro tenantId i hi
      have hold : (tenantId, i) ∈ P.moment.invalidated := by
        rw [← hmoment]
        exact hi
      exact (hpast tenantId i hold).trans (Nat.lt_succ_self _)
  · obtain ⟨hsound, hrises⟩ := h.invalidate rfl
    refine ⟨hsound, fun tenantId' i hi ↦ ?_, hrises⟩
    rcases List.mem_cons.mp hi with heq | hold
    · obtain ⟨-, rfl⟩ := Prod.mk.inj heq
      exact Nat.lt_succ_self _
    · exact (hpast tenantId' i hold).trans (Nat.lt_succ_self _)

theorem sound_start (R : Resolver) :
    @Sound R (moment (@start R)) start ∧ (moment (@start R)).Past := by
  refine ⟨⟨rfl, ⟨Nat.zero_le _, Int.natCast_nonneg _⟩, ?_, ?_, ?_, ?_, fun _ _ ↦ rfl, ?_⟩, ?_⟩
  · intro key entry hlookup
    simp [start, BrandingCache.empty] at hlookup
  · intro key backoff hlookup
    simp [start] at hlookup
  · intro flight number hlookup
    simp [start] at hlookup
  · intro number read hread
    simp [start] at hread
  · intro answer hanswer
    simp [start] at hanswer
  · intro tenantId i hi
    simp [moment, start] at hi

theorem Sound.performAll {events : List (Event R)} (h : P.Sound P.moment)
    (hpast : P.moment.Past) (hperform : performAll events P = some P') :
    P'.Sound P'.moment ∧ P'.moment.Past := by
  induction events generalizing P with
  | nil =>
    obtain rfl := Option.some.inj hperform
    exact ⟨h, hpast⟩
  | cons _ _ ih =>
    obtain ⟨next, hnext, hrest⟩ := Option.bind_eq_some_iff.mp hperform
    obtain ⟨hsound, hpast', -⟩ := h.perform hpast hnext
    exact ih hsound hpast' hrest

/-- No request that began after an invalidation got what a read gave that began before it;
the weight is that of the entries, and the entries and the weight are within their bounds. -/
structure Upright (P : Process R) : Prop where
  fresh : ∀ answer ∈ P.answers, ∀ began, answer.source = some began →
    ∀ i, (answer.tenantId, i) ∈ P.invalidated → i < answer.asked → i < began
  weighed : P.cache.Weighed
  within : P.cache.Within R.options

end Process

/-- So in every process, and no event lowers a generation. -/
def NeverStale (R : Resolver) : Prop :=
  ∀ events (P : Process R), Process.performAll events .start = some P →
    P.Upright ∧ ∀ event P', P.perform event = some P' → P.Rises event P'

theorem neverStale (R : Resolver) : NeverStale R := by
  intro events P hevents
  obtain ⟨hstart, hpast⟩ := Process.sound_start R
  obtain ⟨hsound, hpast'⟩ := hstart.performAll hpast hevents
  refine ⟨⟨fun answer hanswer began hsource ↦ ?_, hsound.weighed, hsound.within⟩, ?_⟩
  · exact (hsound.answers answer hanswer began hsource).2
  · intro event P' hperform
    exact (hsound.perform hpast' hperform).2.2

/-- The themes and the wording of a tenant are never older than an invalidation. -/
theorem caches_never_stale (deps : BrandingDeps) (overrides : OverridesDeps) :
    NeverStale (brandingResolver deps) ∧ NeverStale (overridesResolver overrides) :=
  ⟨neverStale _, neverStale _⟩

end Odudu.DomainTheme
