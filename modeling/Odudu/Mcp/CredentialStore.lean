import Mathlib.Data.Option.Basic

/-!
# The credential store

`adapter/credential-store.ts`: a sign-in is kept in the operating system's keychain where its tool
is in reach, else in a file.  What the tool and the file system do of what they are asked comes
with each operation, so a store is what the two hold.

`CredentialStore.shown` is what a reader is told of the two.  Where a keychain that holds a sign-in
is in reach, the store is one place: it is told what is shown (`get_eq_some`), and what was put is
shown afterwards (`shown_put`).

The checks of directories and modes are left out, beyond that they fail an operation.
-/

set_option autoImplicit false

namespace Odudu.Mcp

variable {Secret : Type}

/-- What the keychain and the file hold; the keychain is absent where a platform has none. -/
structure CredentialStore (Secret : Type) where
  keychain : Option (Option Secret)
  file : Option Secret

/-- What the keychain's tool tells of what it holds: that, nothing whatever it holds, or that it
is out of reach. -/
inductive Lookup where
  | answers
  | silent
  | unavailable
  deriving DecidableEq

/-- `get` of the keychain; nothing where it throws `Unavailable`. -/
def Lookup.tells (held : Option Secret) : Lookup → Option (Option Secret)
  | answers => some held
  | silent => some none
  | unavailable => none

/-- Whether the file is written: a failure after the rename takes the file away. -/
inductive FileWrite where
  | done
  | failed
  | failedRenamed

structure GetReply where
  lookup : Lookup
  readsFile : Bool

structure PutReply where
  /-- The tool writes, whether or not it says so. -/
  writes : Bool
  lookup : Lookup
  clearsFile : Bool
  file : FileWrite

structure ClearReply where
  removes : Bool
  seesFile : Bool
  clearsFile : Bool
  lookup : Lookup

/-- `put` of the keychain, which reads back what it put: whether it is there, and what is. -/
def PutReply.keychain [DecidableEq Secret] (reply : PutReply) (held : Option Secret)
    (secret : Secret) : Bool × Option Secret :=
  let held := if reply.writes then some secret else held
  (reply.lookup.tells held = some (some secret), held)

namespace CredentialStore

/-- `get`, nothing where it throws. -/
def get (store : CredentialStore Secret) (reply : GetReply) : Option (Option Secret) :=
  match (store.keychain.bind fun held ↦ reply.lookup.tells held).join with
  | some held => some (some held)
  | none => if reply.readsFile then some store.file else none

/-- `put` of the file, and whether it is stored. -/
def putFile (store : CredentialStore Secret) (secret : Secret) :
    FileWrite → Bool × CredentialStore Secret
  | .done => (true, { store with file := some secret })
  | .failed => (false, store)
  | .failedRenamed => (false, { store with file := none })

/-- `put`, and whether the secret is stored. -/
def put [DecidableEq Secret] (store : CredentialStore Secret) (secret : Secret) (reply : PutReply) :
    Bool × CredentialStore Secret :=
  match store.keychain with
  | none => store.putFile secret reply.file
  | some held =>
    match reply.keychain held secret with
    | (true, held) =>
      (reply.clearsFile,
        { keychain := some held, file := if reply.clearsFile then none else store.file })
    | (false, held) => { store with keychain := some held }.putFile secret reply.file

/-- `clear`, and whether it says that nothing is left. -/
def clear (store : CredentialStore Secret) (reply : ClearReply) : Bool × CredentialStore Secret :=
  let keychain := store.keychain.map fun held ↦ if reply.removes then none else held
  let hadFile := reply.seesFile && store.file.isSome
  if !reply.clearsFile then (false, { store with keychain })
  else
    let told := match keychain with
      | none => true
      | some held =>
        match reply.lookup.tells held with
        | some left => left.isNone
        | none => hadFile
    (told, { keychain, file := none })

/-! ### The two as one -/

/-- What is read where the keychain is in reach. -/
def shown (store : CredentialStore Secret) : Option Secret := store.keychain.join.or store.file

/-- A keychain that holds a sign-in tells it. -/
def ReachesGet (store : CredentialStore Secret) (reply : GetReply) : Prop :=
  store.keychain.join.isSome → reply.lookup = .answers

/-- A keychain that holds a sign-in takes another in its place. -/
def ReachesPut (store : CredentialStore Secret) (reply : PutReply) : Prop :=
  store.keychain.join.isSome → reply.writes ∧ reply.lookup = .answers

instance (store : CredentialStore Secret) (reply : GetReply) :
    Decidable (store.ReachesGet reply) := inferInstanceAs (Decidable (_ → _))

instance (store : CredentialStore Secret) (reply : PutReply) :
    Decidable (store.ReachesPut reply) := inferInstanceAs (Decidable (_ → _ ∧ _))

variable {store : CredentialStore Secret} {secret : Secret}

theorem get_eq_some {reply : GetReply} {text : Option Secret} (hreach : store.ReachesGet reply)
    (h : store.get reply = some text) : text = store.shown := by
  obtain ⟨keychain, file⟩ := store
  have hfile : ∀ {held : Option Secret}, held.isNone →
      (if reply.readsFile then some file else none) = some text → text = held.or file := by
    intro held hheld hread
    split at hread
    next =>
      obtain rfl := Option.some.inj hread
      rw [Option.isNone_iff_eq_none.mp hheld, Option.none_or]
    next => exact nomatch hread
  cases keychain with
  | none => exact hfile rfl h
  | some held =>
    cases held with
    | none =>
      cases hlookup : reply.lookup <;>
        · simp only [get, hlookup, Lookup.tells, Option.bind_some] at h
          exact hfile rfl h
    | some =>
      have hlookup : reply.lookup = .answers := hreach rfl
      simp only [get, hlookup, Lookup.tells, Option.bind_some, Option.join_some] at h
      exact (Option.some.inj h).symm

/-- A file that is put is shown where no keychain holds a sign-in, and one that is not leaves what
was there, or nothing. -/
theorem shown_putFile (h : store.keychain.join = none) (reply : FileWrite) :
    (store.putFile secret reply).2.shown = some secret ∨
      (store.putFile secret reply).1 = false ∧
        ((store.putFile secret reply).2.shown = store.shown ∨
          (store.putFile secret reply).2.shown = none) := by
  cases reply with
  | done => exact .inl (by rw [putFile, shown, h, Option.none_or])
  | failed => exact .inr ⟨rfl, .inl rfl⟩
  | failedRenamed => exact .inr ⟨rfl, .inr (by rw [putFile, shown, h, Option.none_or])⟩

theorem Lookup.eq_some_of_tells {lookup : Lookup} {held : Option Secret}
    (h : lookup.tells held = some (some secret)) : held = some secret := by
  cases lookup with
  | answers => exact Option.some.inj h
  | silent | unavailable => exact nomatch h

/-- A sign-in that is in the keychain is what is shown, whatever becomes of the file. -/
theorem shown_putFile_of_keychain (h : store.keychain = some (some secret)) (reply : FileWrite) :
    (store.putFile secret reply).2.shown = some secret := by
  cases reply <;> rw [putFile, shown, h] <;> rfl

variable {reply : PutReply} {held held' : Option Secret}

/-- A keychain that says so holds what was put. -/
theorem keychain_eq_of_told [DecidableEq Secret]
    (h : reply.keychain held secret = (true, held')) : held' = some secret := by
  obtain ⟨htold, rfl⟩ := Prod.mk.inj h
  exact Lookup.eq_some_of_tells (of_decide_eq_true htold)

/-- One that does not, where it would be in reach if it held a sign-in, held none. -/
theorem keychain_of_not_told [DecidableEq Secret]
    (hreach : held.isSome → reply.writes ∧ reply.lookup = .answers)
    (h : reply.keychain held secret = (false, held')) :
    held' = some secret ∨ held = none ∧ held' = none := by
  obtain ⟨htold, rfl⟩ := Prod.mk.inj h
  cases hwrites : reply.writes with
  | true => exact .inl rfl
  | false =>
    cases held with
    | none => exact .inr ⟨rfl, rfl⟩
    | some => exact absurd (hreach rfl).1 (by rw [hwrites]; exact Bool.false_ne_true)

/-- What was put is shown afterwards; where it could not be put, that may be so, or what was
shown before still is, or nothing. -/
theorem shown_put [DecidableEq Secret] (hreach : store.ReachesPut reply) :
    (store.put secret reply).2.shown = some secret ∨
      (store.put secret reply).1 = false ∧
        ((store.put secret reply).2.shown = store.shown ∨
          (store.put secret reply).2.shown = none) := by
  obtain ⟨keychain, file⟩ := store
  cases keychain with
  | none => exact shown_putFile rfl reply.file
  | some held =>
    rcases hput : reply.keychain held secret with ⟨told, held'⟩
    simp only [put, hput]
    cases told with
    | true =>
      rw [keychain_eq_of_told hput]
      exact .inl rfl
    | false =>
      rcases keychain_of_not_told hreach hput with rfl | ⟨rfl, rfl⟩
      · exact .inl (shown_putFile_of_keychain rfl reply.file)
      · exact shown_putFile rfl reply.file

theorem shown_clear {reply : ClearReply} (hremoves : reply.removes) (hfile : reply.clearsFile) :
    (store.clear reply).2.shown = none := by
  cases hkeychain : store.keychain <;> simp [clear, shown, hkeychain, hremoves, hfile]

end CredentialStore

end Odudu.Mcp
