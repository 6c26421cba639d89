import Odudu.AuthnFlows.PasswordRotations
import Odudu.ReadCommitted.Scenes

/-!
# What the password history holds

The `rotations` of a subject are the updates that were answered so, latest first.  What its
history should hold is what they make of it one after another: each puts the hash it displaced in
front, and cuts what is there to its depth (`remembered`).

It does in every run in which a rotation that is to remember anything finds every retired row
older than its own (`history_is_last_retired`).  A row is dated by the start of its transaction,
so a rotation that began first and ends last finds a newer one.
-/

set_option autoImplicit false

namespace Odudu.AuthnFlows.PasswordRotations

open DomainIdentity ReadCommitted Program

/-! ### The rotations of a run -/

structure Rotation where
  from_ : String
  to_ : String
  historyDepth : ℕ

/-- What is remembered after rotations, latest first, on top of what was there. -/
def remembered (initial : List String) : List Rotation → List String
  | [] => initial
  | rotation :: earlier =>
    (rotation.from_ :: remembered initial earlier).take rotation.historyDepth

/-- What is remembered are the hashes retired last, newest first. -/
theorem remembered_prefix (initial : List String) (list : List Rotation) :
    remembered initial list <+: list.map (·.from_) ++ initial := by
  induction list with
  | nil => exact List.prefix_refl _
  | cons _ _ ih =>
    rw [remembered, List.map_cons, List.cons_append]
    exact (List.take_prefix _ _).trans (List.cons_prefix_cons.mpr ⟨rfl, ih⟩)

theorem remembered_length (initial : List String) (rotation : Rotation)
    (earlier : List Rotation) :
    (remembered initial (rotation :: earlier)).length ≤ rotation.historyDepth := by
  rw [remembered, List.length_take]
  exact Nat.min_le_left _ _

variable {hasher : PasswordHasher}

abbrev Answers (hasher : PasswordHasher) : Type := List (Answered (passwordUpdates hasher))

def rotationOf (answer : Answered (passwordUpdates hasher)) : Option Rotation :=
  match answer.result with
  | .ok (.updated from_) =>
    some ⟨from_, newHash hasher answer.call, answer.call.policy.historyDepth⟩
  | _ => none

/-- The rotations of a subject, latest first. -/
def rotations (subjectId : SubjectId) (history : Answers hasher) : List Rotation :=
  (history.filter fun answer ↦ answer.call.subjectId = subjectId).filterMap rotationOf

/-- The hashes that were ever in force, latest first. -/
def everInForce (initial : Option String) (list : List Rotation) : List String :=
  list.map (·.to_) ++ initial.toList

/-- A rotation that is to remember anything finds every retired row older than its own. -/
def inOrder (hasher : PasswordHasher) : Discipline (passwordUpdates hasher) where
  mayRun := fun call op rows ↦
    match op with
    | .retire subjectId row =>
      call.policy.historyDepth = 0 ∨ ∀ old ∈ (rows subjectId).retired, Newer row old
    | _ => True
  mayCommit := fun _ _ _ _ ↦ True

section Rotations

variable {subjectId : SubjectId} {history : Answers hasher} {t : ℕ} {call : UpdatePassword}
  {from_ : String} {answer : Answered (passwordUpdates hasher)}

theorem rotations_of_none
    (h : rotationOf answer = none) :
    rotations subjectId (answer :: history) = rotations subjectId history := by
  unfold rotations
  rw [List.filter_cons]
  split
  · rw [List.filterMap_cons_none h]
  · rfl

theorem rotations_other
    (h : answer.call.subjectId ≠ subjectId) :
    rotations subjectId (answer :: history) = rotations subjectId history := by
  unfold rotations
  rw [List.filter_cons_of_neg (by simpa using h)]

theorem rotations_updated :
    rotations call.subjectId (⟨t, call, .ok (.updated from_)⟩ :: history) =
      ⟨from_, newHash hasher call, call.policy.historyDepth⟩ ::
        rotations call.subjectId history := by
  unfold rotations
  rw [List.filter_cons_of_pos (by simp)]
  exact List.filterMap_cons_some rfl

theorem mem_rotations (h : answer ∈ history)
    (hresult : answer.result = .ok (.updated from_)) :
    (⟨from_, newHash hasher answer.call, answer.call.policy.historyDepth⟩ : Rotation) ∈
      rotations answer.call.subjectId history := by
  refine List.mem_filterMap.mpr ⟨answer, List.mem_filter.mpr ⟨h, decide_eq_true rfl⟩, ?_⟩
  rw [rotationOf, hresult]

theorem suffix_rotations_cons (answer : Answered (passwordUpdates hasher)) :
    rotations subjectId history <:+ rotations subjectId (answer :: history) :=
  ((List.suffix_cons answer history).filter _).filterMap _

/-- What was ever in force is so ever after. -/
theorem mem_everInForce_cons {initial : Option String} {hash : String}
    (h : hash ∈ everInForce initial (rotations subjectId history))
    (answer : Answered (passwordUpdates hasher)) :
    hash ∈ everInForce initial (rotations subjectId (answer :: history)) := by
  rw [everInForce, List.mem_append] at h ⊢
  exact h.imp_left fun hold ↦ ((suffix_rotations_cons answer).map _).subset hold

/-- What was retired is so ever after. -/
theorem mem_retired_cons {hash : String}
    (h : hash ∈ (rotations subjectId history).map (·.from_))
    (answer : Answered (passwordUpdates hasher)) :
    hash ∈ (rotations subjectId (answer :: history)).map (·.from_) :=
  ((suffix_rotations_cons answer).map _).subset h

end Rotations

/-! ### The invariant -/

/-- What holds of the committed rows and of what has been answered. -/
structure Kept (start s : CredentialRows) (history : Answers hasher) : Prop where
  /-- What was ever in force is in force or was retired. -/
  inForce : ∀ subjectId,
    everInForce (start subjectId).passwordFor (rotations subjectId history) =
      (s subjectId).passwordFor.toList ++ (rotations subjectId history).map (·.from_)
  held : ∀ subjectId, (s subjectId).passwordHistory =
    remembered (start subjectId).passwordHistory (rotations subjectId history)
  superseded : ∀ answer ∈ history, ∀ from_, answer.result = .ok (.superseded from_) →
    from_ ∈ (rotations answer.call.subjectId history).map (·.from_)

namespace Kept

variable {start s : CredentialRows} {history : Answers hasher} {t : ℕ} {call : UpdatePassword}

theorem refl (start : CredentialRows) : Kept start start ([] : Answers hasher) where
  inForce := by
    intro subjectId
    simp [everInForce, rotations]
  held := fun _ ↦ rfl
  superseded := fun answer hanswer ↦ absurd hanswer List.not_mem_nil

/-- An answer that is no rotation changes nothing. -/
theorem settled (h : Kept start s history) {answer : Answered (passwordUpdates hasher)}
    (hnone : rotationOf answer = none)
    (hsuperseded : ∀ from_, answer.result = .ok (.superseded from_) →
      from_ ∈ (rotations answer.call.subjectId history).map (·.from_)) :
    Kept start s (answer :: history) where
  inForce := by
    intro subjectId
    rw [rotations_of_none hnone]
    exact h.inForce subjectId
  held := by
    intro subjectId
    rw [rotations_of_none hnone]
    exact h.held subjectId
  superseded := by
    intro other hother from_ hresult
    rcases List.mem_cons.mp hother with rfl | hearlier
    · exact mem_retired_cons (hsuperseded from_ hresult) _
    · exact mem_retired_cons (h.superseded other hearlier from_ hresult) _

/-- The rows of a subject after a rotation. -/
def rotatedRows (hasher : PasswordHasher) (call : UpdatePassword) (from_ : String)
    (rows : SubjectRows) : SubjectRows where
  password := some ⟨newHash hasher call, true, call.now⟩
  retired := trimmed call.policy.historyDepth (⟨call.id, from_, call.now⟩ :: rows.retired)

/-- A rotation that finds the retired rows in their order puts what it displaces in front. -/
theorem passwordHistory_rotatedRows {from_ : String} {rows : SubjectRows}
    (horder : call.policy.historyDepth = 0 ∨
      ∀ old ∈ rows.retired, Newer ⟨call.id, from_, call.now⟩ old) :
    (rotatedRows hasher call from_ rows).passwordHistory =
      (from_ :: rows.passwordHistory).take call.policy.historyDepth := by
  unfold rotatedRows SubjectRows.passwordHistory
  rw [newestFirst_trimmed, trimmed]
  rcases horder with hzero | hnewer
  · rw [hzero, List.take_zero, List.take_zero, List.map_nil]
  · rw [newestFirst_cons hnewer, List.map_take, List.map_cons]

/-- A password retired in order is the first that is remembered. -/
theorem updated (h : Kept start s history) {from_ : String}
    (hfrom : (s call.subjectId).passwordFor = some from_)
    (horder : call.policy.historyDepth = 0 ∨
      ∀ old ∈ (s call.subjectId).retired, Newer ⟨call.id, from_, call.now⟩ old) :
    Kept start (Function.update s call.subjectId (rotatedRows hasher call from_ (s call.subjectId)))
      (⟨t, call, .ok (.updated from_)⟩ :: history) where
  inForce := by
    intro subjectId
    by_cases hsubject : subjectId = call.subjectId
    · subst hsubject
      have hbefore := h.inForce call.subjectId
      rw [hfrom] at hbefore
      rw [rotations_updated, Function.update_self, everInForce, List.map_cons, List.cons_append,
        List.map_cons]
      change newHash hasher call :: everInForce _ _ = [newHash hasher call] ++ _
      rw [hbefore]
      rfl
    · rw [rotations_other (Ne.symm hsubject), Function.update_of_ne hsubject]
      exact h.inForce subjectId
  held := by
    intro subjectId
    by_cases hsubject : subjectId = call.subjectId
    · subst hsubject
      rw [rotations_updated, Function.update_self, passwordHistory_rotatedRows horder, remembered,
        h.held call.subjectId]
    · rw [rotations_other (Ne.symm hsubject), Function.update_of_ne hsubject]
      exact h.held subjectId
  superseded := by
    intro other hother hash hresult
    rcases List.mem_cons.mp hother with rfl | hearlier
    · exact nomatch hresult
    · exact mem_retired_cons (h.superseded other hearlier hash hresult) _

end Kept

/-! ### Where a request is -/

open Kept in
/-- The points of an update. -/
inductive Point (hasher : PasswordHasher) (start : CredentialRows) (input : UpdatePassword) :
    CredentialTx UpdatePasswordOutcome → Writes credentialDatabase → CredentialRows →
    Answers hasher → Prop where
  | failed {s : CredentialRows} {history : Answers hasher} (failure : UpdatePasswordFailure) :
      Point hasher start input (.throw failure) .nothing s history
  | rejected {s : CredentialRows} {history : Answers hasher}
      (violations : List PolicyViolation) :
      Point hasher start input (.done (.rejected violations)) .nothing s history
  | opening {s : CredentialRows} {history : Answers hasher} :
      Point hasher start input
        (.stmt (.passwordFor input.subjectId) (afterPassword hasher input)) .nothing s history
  /-- The password has been read. -/
  | looked {s : CredentialRows} {history : Answers hasher} {current : String}
      (hcurrent : current ∈ everInForce (start input.subjectId).passwordFor
        (rotations input.subjectId history)) :
      Point hasher start input
        (.stmt (.passwordHistory input.subjectId) (afterHistory hasher input current)) .nothing
        s history
  /-- The history has been read, and the password is none of it. -/
  | compared {s : CredentialRows} {history : Answers hasher} {current : String}
      (hcurrent : current ∈ everInForce (start input.subjectId).passwordFor
        (rotations input.subjectId history)) :
      Point hasher start input
        ((rotatePassword input.subjectId current (newHash hasher input)
          input.policy.historyDepth input.now input.id).bind fun rotated ↦
            .done (if rotated then .updated current else .superseded current)) .nothing s history
  /-- The password has been swapped. -/
  | swapped {s : CredentialRows} {history : Answers hasher} {current : String}
      (hcurrent : (s input.subjectId).passwordFor = some current) :
      Point hasher start input
        (.stmt (.retire input.subjectId ⟨input.id, current, input.now⟩) fun _ ↦
          .stmt (.trimPasswordHistory input.subjectId input.policy.historyDepth) fun _ ↦
            .done (.updated current))
        (oneSubject (some (input.subjectId,
          { s input.subjectId with
            password := some ⟨newHash hasher input, true, input.now⟩ }))) s history
  /-- The one it displaced has been retired. -/
  | retired {s : CredentialRows} {history : Answers hasher} {current : String}
      (hcurrent : (s input.subjectId).passwordFor = some current)
      (horder : input.policy.historyDepth = 0 ∨
        ∀ old ∈ (s input.subjectId).retired, Newer ⟨input.id, current, input.now⟩ old) :
      Point hasher start input
        (.stmt (.trimPasswordHistory input.subjectId input.policy.historyDepth) fun _ ↦
          .done (.updated current))
        (oneSubject (some (input.subjectId,
          { password := some ⟨newHash hasher input, true, input.now⟩
            retired := ⟨input.id, current, input.now⟩ :: (s input.subjectId).retired })))
        s history
  | updated {s : CredentialRows} {history : Answers hasher} {current : String}
      (hcurrent : (s input.subjectId).passwordFor = some current)
      (horder : input.policy.historyDepth = 0 ∨
        ∀ old ∈ (s input.subjectId).retired, Newer ⟨input.id, current, input.now⟩ old) :
      Point hasher start input (.done (.updated current))
        (oneSubject (some (input.subjectId,
          rotatedRows hasher input current (s input.subjectId)))) s history
  /-- The password was another's when it was to be swapped. -/
  | superseded {s : CredentialRows} {history : Answers hasher} {current : String}
      (hcurrent : current ∈ (rotations input.subjectId history).map (·.from_)) :
      Point hasher start input (.done (.superseded current)) .nothing s history

namespace Point

variable {start s : CredentialRows} {history : Answers hasher} {input : UpdatePassword}
  {p : CredentialTx UpdatePasswordOutcome} {w : Writes credentialDatabase}

theorem begins : Point hasher start input (completeUpdatePassword hasher input) .nothing s
    history := by
  unfold completeUpdatePassword
  split
  · exact .failed _
  · dsimp only
    split
    · exact .rejected _
    · exact .opening

variable {subjectId : SubjectId}

theorem mem_of_passwordFor (h : Kept start s history) {current : String}
    (hcurrent : (s subjectId).passwordFor = some current) :
    current ∈ everInForce (start subjectId).passwordFor (rotations subjectId history) := by
  rw [h.inForce subjectId, hcurrent]
  exact List.mem_cons_self

theorem mem_retired (h : Kept start s history) {current : String}
    (hever : current ∈ everInForce (start subjectId).passwordFor (rotations subjectId history))
    (hcurrent : (s subjectId).passwordFor ≠ some current) :
    current ∈ (rotations subjectId history).map (·.from_) := by
  rw [h.inForce subjectId, List.mem_append] at hever
  refine hever.resolve_left fun hhere ↦ hcurrent ?_
  rwa [Option.mem_toList] at hhere

/-- A statement answered takes an update to its next point. -/
theorem runs {op : CredentialOp} {next : op.Answer → CredentialTx UpdatePasswordOutcome}
    {a : op.Answer} (hinv : Kept start s history)
    (h : Point hasher start input (.stmt op next) w s history)
    (hmay : (inOrder hasher).mayRun input op (w.laidOver s))
    (ha : a = op.answer (w.laidOver s)) :
    Point hasher start input (next a)
      (w.andThen (oneSubject (op.written (w.laidOver s)))) s history := by
  subst ha
  cases h with
  | opening =>
    change Point hasher start input (afterPassword hasher input (s input.subjectId).passwordFor)
      .nothing s history
    cases hcurrent : (s input.subjectId).passwordFor with
    | none => exact .failed _
    | some => exact .looked (mem_of_passwordFor hinv hcurrent)
  | looked hcurrent =>
    change Point hasher start input (afterHistory hasher input _ _) .nothing s history
    unfold afterHistory
    split
    · exact .rejected _
    · exact .compared hcurrent
  | @compared _ _ current hever =>
    by_cases hcurrent : (s input.subjectId).passwordFor = some current
    · have hlanded : CredentialOp.answer s
          (.swap input.subjectId current (newHash hasher input) input.now) = true :=
        decide_eq_true hcurrent
      have hwritten : CredentialOp.written s
          (.swap input.subjectId current (newHash hasher input) input.now) =
            some (input.subjectId, { s input.subjectId with
              password := some ⟨newHash hasher input, true, input.now⟩ }) := if_pos hcurrent
      simp only [Writes.nothing_laidOver, Writes.nothing_andThen]
      rw [hlanded, hwritten]
      exact .swapped hcurrent
    · have hlanded : CredentialOp.answer s
          (.swap input.subjectId current (newHash hasher input) input.now) = false :=
        decide_eq_false hcurrent
      have hwritten : CredentialOp.written s
          (.swap input.subjectId current (newHash hasher input) input.now) = none :=
        if_neg hcurrent
      simp only [Writes.nothing_laidOver, Writes.nothing_andThen]
      rw [hlanded, hwritten]
      exact .superseded (mem_retired hinv hever hcurrent)
  | @swapped _ _ current hcurrent =>
    rw [laidOver_oneSubject] at hmay ⊢
    simp only [inOrder, Function.update_self] at hmay
    rw [CredentialOp.written, Function.update_self, andThen_oneSubject]
    exact .retired hcurrent hmay
  | @retired _ _ current hcurrent horder =>
    rw [laidOver_oneSubject, CredentialOp.written, Function.update_self, andThen_oneSubject]
    exact .updated hcurrent horder

theorem commits {outcome : UpdatePasswordOutcome} {t : ℕ} (hinv : Kept start s history)
    (h : Point hasher start input (.done outcome) w s history) :
    Kept start (w.laidOver s) (⟨t, input, .ok outcome⟩ :: history) := by
  cases h with
  | rejected => exact hinv.settled rfl (fun from_ hresult ↦ nomatch hresult)
  | updated hcurrent horder =>
    rw [laidOver_oneSubject]
    exact hinv.updated hcurrent horder
  | superseded hcurrent =>
    refine hinv.settled rfl fun from_ hresult ↦ ?_
    cases hresult
    exact hcurrent

/-- The end of one request leaves another where it is. -/
theorem apart {s' : CredentialRows} (h : Point hasher start input p w s history)
    (hsame : ∀ rows, w input.subjectId = some rows → s' input.subjectId = s input.subjectId)
    (answer : Answered (passwordUpdates hasher)) :
    Point hasher start input p w s' (answer :: history) := by
  cases h with
  | failed failure => exact .failed failure
  | rejected violations => exact .rejected violations
  | opening => exact .opening
  | looked hcurrent => exact .looked (mem_everInForce_cons hcurrent answer)
  | compared hcurrent => exact .compared (mem_everInForce_cons hcurrent answer)
  | superseded hcurrent => exact .superseded (mem_retired_cons hcurrent answer)
  | swapped hcurrent =>
    have hrows := hsame _ (oneSubject_self _ _)
    rw [← hrows] at hcurrent ⊢
    exact .swapped hcurrent
  | retired hcurrent horder =>
    have hrows := hsame _ (oneSubject_self _ _)
    rw [← hrows] at hcurrent horder ⊢
    exact .retired hcurrent horder
  | updated hcurrent horder =>
    have hrows := hsame _ (oneSubject_self _ _)
    rw [← hrows] at hcurrent horder ⊢
    exact .updated hcurrent horder

end Point

def historyChronicle (hasher : PasswordHasher) (start : CredentialRows) :
    Chronicle (passwordUpdates hasher) (inOrder hasher) where
  Inv := Kept start
  Fits := Point hasher start
  begins := fun _ _ _ _ ↦ Point.begins
  runs := fun hinv hpoint hmay ha ↦ hpoint.runs hinv hmay ha
  parts := fun _ hpoint _ ↦ nomatch hpoint
  saves := fun hpoint ↦ nomatch hpoint
  restores := fun hpoint ↦ nomatch hpoint
  commits := fun _ hinv hpoint _ ↦ hpoint.commits hinv
  refuses := fun _ hinv _ ↦ hinv.settled rfl (fun _ hresult ↦ nomatch hresult)
  partsApart := fun _ hpoint _ _ _ ↦ nomatch hpoint
  commitsApart := fun _ _ _ _ hpoint hapart ↦
    hpoint.apart (fun _ hlocked ↦ hapart.laidOver_eq hlocked _) _
  refusesApart := fun _ _ _ hpoint ↦ hpoint.apart (fun _ _ ↦ rfl) _

/-! ### Runs -/

/-- An update of the subject that started from a hash has been answered. -/
def Started (subjectId : SubjectId) (from_ : String) (history : Answers hasher) : Prop :=
  ∃ answer ∈ history, answer.call.subjectId = subjectId ∧
    (answer.result = .ok (.updated from_) ∨ answer.result = .ok (.superseded from_))

/-- In a run in which a rotation that is to remember anything finds every retired row older than
its own, the history is what the rotations make of it one after another: the hashes retired last,
newest first, at most as many as the last one remembers.  Where no hash is ever made twice, what
is in force is not among them, and of the rotations that started from one hash exactly one has
succeeded. -/
theorem history_is_last_retired {start : CredentialRows} {c : Config (passwordUpdates hasher)}
    (hreaches : Reaches (inOrder hasher) (Config.start start) c) (subjectId : SubjectId) :
    let list := rotations subjectId c.history
    let initial := (start subjectId).passwordHistory
    (c.rows subjectId).passwordHistory = remembered initial list ∧
      (c.rows subjectId).passwordHistory <+: list.map (·.from_) ++ initial ∧
      (∀ last ∈ list.head?, (c.rows subjectId).passwordHistory.length ≤ last.historyDepth) ∧
      ((everInForce (start subjectId).passwordFor list ++ initial).Nodup →
        (∀ current ∈ (c.rows subjectId).passwordFor,
          current ∉ (c.rows subjectId).passwordHistory) ∧
        ∀ from_, Started subjectId from_ c.history → (list.map (·.from_)).count from_ = 1) := by
  intro list initial
  have hkept : Kept start c.rows c.history :=
    ((Chronicle.told_start (Kept.refl start) :
      (historyChronicle hasher start).Told (Config.start start)).reaches hreaches).inv
  have hheld : (c.rows subjectId).passwordHistory = remembered initial list :=
    hkept.held subjectId
  have hlatest := remembered_prefix initial list
  refine ⟨hheld, hheld ▸ hlatest, ?_, fun hfresh ↦ ?_⟩
  · intro last hlast
    obtain ⟨earlier, hlist⟩ := List.head?_eq_some_iff.mp hlast
    rw [hheld, hlist]
    exact remembered_length initial last earlier
  · have hever : everInForce (start subjectId).passwordFor list =
        (c.rows subjectId).passwordFor.toList ++ list.map (·.from_) := hkept.inForce subjectId
    rw [hever, List.append_assoc] at hfresh
    have hparts := List.nodup_append.mp hfresh
    refine ⟨fun current hcurrent hmem ↦ ?_, fun from_ hstarted ↦ ?_⟩
    · rw [hheld] at hmem
      exact hparts.2.2 current (Option.mem_toList.mpr hcurrent) current (hlatest.subset hmem) rfl
    · have hretired : (list.map (·.from_)).Nodup := (List.nodup_append.mp hparts.2.1).1
      refine List.count_eq_one_of_mem hretired ?_
      obtain ⟨answer, hanswer, rfl, hresult⟩ := hstarted
      rcases hresult with hupdated | hsuperseded
      · exact List.mem_map_of_mem (mem_rotations hanswer hupdated)
      · exact hkept.superseded answer hanswer from_ hsuperseded

def CredentialOp.reads : CredentialOp → Bool
  | passwordFor _ => true
  | passwordHistory _ => true
  | _ => false

def credentialOracle : Oracle credentialDatabase where
  answer := fun op rows ↦ some (op.answer rows)
  reads := CredentialOp.reads
  right := fun _ _ _ h ↦ (Option.some.inj h).symm
  effect_of_reads := by
    intro op rows h
    cases op with
    | passwordFor | passwordHistory => rfl
    | swap | retire | trimPasswordHistory => exact nomatch h

instance : Discipline.Checked (inOrder hasher) where
  mayRun := fun call op rows ↦
    match op with
    | .retire subjectId row =>
      inferInstanceAs (Decidable (call.policy.historyDepth = 0 ∨
        ∀ old ∈ (rows subjectId).retired, Newer row old))
    | .passwordFor _ | .passwordHistory _ | .swap .. | .trimPasswordHistory .. =>
      instDecidableTrue
  mayCommit := fun _ _ _ _ ↦ instDecidableTrue

/-- A hash is its text. -/
def plainHasher : PasswordHasher where
  lexicon :=
    { normalisePassword := id
      toLowerCase := id
      fold := id
      common := fun _ ↦ false }
  hashPassword _ text := text
  verifyPassword stored text := stored == text

/-- The one subject's password is never changed before. -/
def neverRotated : CredentialRows := fun _ ↦ ⟨some ⟨"first", true, 0⟩, []⟩

/-- An update that remembers one password, in a transaction that starts at a time. -/
def updateTo (password : String) (now : ℕ) : UpdatePassword where
  subjectId := 1
  password := password
  policy := ⟨"tenant", 0, false, false, false, false, false, false, 1⟩
  user := some ⟨"user", none⟩
  now := now
  salt := 0
  id := now

/-- An update, and then two that start from one hash. -/
def inTurn : List (Cue (passwordUpdates plainHasher)) :=
  [.begins (updateTo "second" 1), .ends 0, .begins (updateTo "third" 2),
    .begins (updateTo "fourth" 3), .reads 2 1, .ends 1, .ends 2]

/-- The first is displaced by the second, which is what is remembered; one of the two that started
from it has succeeded. -/
theorem history_is_last_retired_inTurn :
    ∃ c : Config (passwordUpdates plainHasher),
      Reaches (inOrder plainHasher) (Config.start neverRotated) c ∧
        (c.rows 1).passwordHistory = ["second"] ∧
        (c.rows 1).passwordHistory = remembered [] (rotations 1 c.history) ∧
        (∀ current ∈ (c.rows 1).passwordFor, current ∉ (c.rows 1).passwordHistory) ∧
        ∀ from_, Started 1 from_ c.history →
          ((rotations 1 c.history).map (·.from_)).count from_ = 1 := by
  have hplay : ((Scene.playAll (inOrder plainHasher) credentialOracle (.start neverRotated)
      inTurn).map fun m ↦ ((m.rows 1).passwordHistory,
        everInForce (neverRotated 1).passwordFor (rotations 1 m.history))) =
          some (["second"], ["third", "second", "first"]) := by
    decide +kernel
  obtain ⟨m, hplayed, hm⟩ := Option.map_eq_some_iff.mp hplay
  obtain ⟨hhistory, hever⟩ := Prod.mk.inj hm
  have hreaches := Scene.reaches_of_start hplayed
  obtain ⟨hheld, -, -, hfresh⟩ := history_is_last_retired hreaches 1
  have hnodup : (everInForce (neverRotated 1).passwordFor (rotations 1 m.history) ++
      (neverRotated 1).passwordHistory).Nodup := by
    rw [hever]
    decide
  exact ⟨m.config, hreaches, hhistory, hheld, hfresh hnodup⟩

/-- An update begins, another is done, and then the first goes on. -/
def overtaken : List (Cue (passwordUpdates plainHasher)) :=
  [.begins (updateTo "third" 1), .begins (updateTo "second" 2), .ends 1, .ends 0]

/-- Of the two that were retired the older one is remembered. -/
theorem overtaken_update_remembers_older : ¬ ∀ (hasher : PasswordHasher) (start : CredentialRows)
    (c : Config (passwordUpdates hasher)), Reaches .free (Config.start start) c →
      ∀ subjectId, (c.rows subjectId).passwordHistory <+:
        (rotations subjectId c.history).map (·.from_) ++ (start subjectId).passwordHistory := by
  intro hclaim
  have hplay : ((Scene.playAll .free credentialOracle (.start neverRotated) overtaken).map
      fun m ↦ ((m.rows 1).passwordHistory, (rotations 1 m.history).map (·.from_))) =
        some (["first"], ["second", "first"]) := by
    decide
  obtain ⟨m, hplayed, hm⟩ := Option.map_eq_some_iff.mp hplay
  obtain ⟨hhistory, hretired⟩ := Prod.mk.inj hm
  have hlatest := hclaim plainHasher neverRotated m.config (Scene.reaches_of_start hplayed) 1
  change (m.rows 1).passwordHistory <+: (rotations 1 m.history).map (·.from_) ++ [] at hlatest
  rw [hhistory, hretired] at hlatest
  exact absurd hlatest (by decide)

end Odudu.AuthnFlows.PasswordRotations
