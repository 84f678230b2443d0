import NearMpc.Node.KeyshareFiles

/-!
# Interrupted stores of permanent keyshares

The local backend writes new permanent keyshares to a file of their own and then makes that file the
key file, by removing the old link and adding a new one. A node can stop between any two of these
file operations. What is left is the state after the operations that were done; a file that had not
been synced may hold anything.

Until the old link is removed the old keyshares are loaded, and after the new link is there the new
ones. Between the two there is no key file, and loading answers that nothing was ever stored. In all
cases the file of the new keyshares exists already. It is created with `create_new`, so that every
later store of the same keyshares fails: a node that was stopped in the middle of a store cannot
complete it, and one that was stopped between the links has no permanent keyshares any more.
`crashSafe_iff` says that the store is safe only as long as it has done nothing.
-/

set_option autoImplicit false

namespace NearMpc.Node

open Library Library.Outcome PermanentKeyStorage
open Std (TreeMap)

variable {Contents Plaintext Nonce : Type} {codec : KeyshareCodec Contents Plaintext Nonce}

/-- Where a list of file operations is interrupted, and what is left of a file that had not been
synced. -/
structure Interruption (Contents : Type) where
  completed : ℕ
  torn : Contents

namespace FileOperation

/-- The state that an interruption leaves. -/
def interrupted (codec : KeyshareCodec Contents Plaintext Nonce)
    (operations : List (FileOperation Contents)) (interruption : Interruption Contents)
    (home : HomeDirectory Contents) : HomeDirectory Contents :=
  match performAll codec (operations.take interruption.completed) home with
  | (after, .ok ()) =>
      match operations[interruption.completed]? with
      | some (.writeAll identifier _) | some (.syncAll identifier) =>
          { after with
            permanentKeys := after.permanentKeys.insert identifier interruption.torn }
      | _ => after
  | (after, _) => after

/-- The file exists. -/
def HasFile (home : HomeDirectory Contents) (identifier : String) : Prop :=
  ∃ contents, home.permanentKeys[identifier]? = some contents

variable {home : HomeDirectory Contents}

theorem hasFile_insert {identifier other} (hfile : HasFile home identifier) (contents : Contents) :
    HasFile { home with permanentKeys := home.permanentKeys.insert other contents } identifier := by
  obtain ⟨present, hpresent⟩ := hfile
  by_cases hother : compare other identifier = .eq
  · refine ⟨contents, ?_⟩
    change (home.permanentKeys.insert other contents)[identifier]? = some contents
    rw [TreeMap.getElem?_insert, if_pos hother]
  · refine ⟨present, ?_⟩
    change (home.permanentKeys.insert other contents)[identifier]? = some present
    rw [TreeMap.getElem?_insert, if_neg hother]
    exact hpresent

/-- No operation of the backend deletes a file. -/
theorem hasFile_perform {identifier} (hfile : HasFile home identifier)
    (operation : FileOperation Contents) : HasFile (operation.perform codec home).1 identifier := by
  cases operation with
  | createNew other =>
    cases hother : home.permanentKeys[other]? with
    | none =>
      rw [perform_createNew_new hother]
      exact hasFile_insert hfile _
    | some =>
      rw [perform_createNew_existing hother]
      exact hfile
  | writeAll _ contents => exact hasFile_insert hfile contents
  | syncAll => exact hfile
  | removeKeyfile => exact hfile
  | linkKeyfile =>
    simp only [perform]
    split <;> exact hfile

theorem hasFile_performAll (identifier : String) (operations : List (FileOperation Contents)) :
    (performAll codec operations).Within
      (fun before after ↦ HasFile before identifier → HasFile after identifier) := by
  induction operations with
  | nil => exact fun _ hfile ↦ hfile
  | cons operation _ ih =>
    exact Effect.Within.bind (fun _ _ _ hfirst hlast hfile ↦ hlast (hfirst hfile))
      (fun _ hfile ↦ hasFile_perform hfile operation) fun _ ↦ ih

end FileOperation

namespace LocalPermanentKeyStorageBackend

open FileOperation

variable {nonce : Nonce} {data : Plaintext} {identifier : String}
  {home : HomeDirectory Contents} {interruption : Interruption Contents}

/-- The state that an interrupted store leaves. -/
def interruptedStore (codec : KeyshareCodec Contents Plaintext Nonce) (nonce : Nonce)
    (data : Plaintext) (identifier : String) (interruption : Interruption Contents)
    (home : HomeDirectory Contents) : HomeDirectory Contents :=
  interrupted codec (storeOperations (codec.encrypt nonce data) identifier) interruption home

theorem interruptedStore_of_completed_zero (hzero : interruption.completed = 0) :
    interruptedStore codec nonce data identifier interruption home = home := by
  simp only [interruptedStore, interrupted, hzero]
  rfl

/-- A store that has done anything has created its file. -/
theorem hasFile_interruptedStore (hstarted : 0 < interruption.completed)
    (hnew : home.permanentKeys[identifier]? = none) :
    HasFile (interruptedStore codec nonce data identifier interruption home) identifier := by
  obtain ⟨_, hcount⟩ := Nat.exists_eq_add_of_lt hstarted
  have hfile : HasFile (performAll codec ((storeOperations (codec.encrypt nonce data)
      identifier).take interruption.completed) home).1 identifier := by
    rw [hcount, storeOperations, List.take_succ_cons,
      performAll_cons_of_ok (perform_createNew_new hnew)]
    refine hasFile_performAll identifier _ _ ⟨codec.emptyFile, ?_⟩
    exact TreeMap.getElem?_insert_self
  unfold interruptedStore interrupted
  split
  next after hperformed =>
    rw [hperformed] at hfile
    split
    · exact hasFile_insert hfile _
    · exact hasFile_insert hfile _
    · exact hfile
  next after outcome _ hperformed =>
    rw [hperformed] at hfile
    exact hfile

/-- A store whose file is there already does nothing before it is interrupted. -/
theorem interruptedStore_of_existing (hexists : HasFile home identifier) :
    interruptedStore codec nonce data identifier interruption home = home := by
  obtain ⟨_, hcontents⟩ := hexists
  cases hcount : interruption.completed with
  | zero => exact interruptedStore_of_completed_zero hcount
  | succ =>
    unfold interruptedStore interrupted
    rw [hcount, storeOperations, List.take_succ_cons,
      performAll_cons_of_err (perform_createNew_existing hcontents)]

/-- Loading gives the old or the new data, and storing the new data again succeeds. -/
def CrashSafe (codec : KeyshareCodec Contents Plaintext Nonce) (nonce retryNonce : Nonce)
    (data : Plaintext) (identifier : String) (home : HomeDirectory Contents)
    (interruption : Interruption Contents) : Prop :=
  (load codec (interruptedStore codec nonce data identifier interruption home) = load codec home ∨
      load codec (interruptedStore codec nonce data identifier interruption home) =
        .ok (some data)) ∧
    (store codec retryNonce data identifier
      (interruptedStore codec nonce data identifier interruption home)).2 = .ok ()

/-- An interrupted store can be repeated only if it has not created its file. -/
theorem crashSafe_iff (codec : KeyshareCodec Contents Plaintext Nonce) (nonce retryNonce : Nonce)
    (data : Plaintext) (identifier : String) (home : HomeDirectory Contents)
    (interruption : Interruption Contents) :
    CrashSafe codec nonce retryNonce data identifier home interruption ↔
      home.permanentKeys[identifier]? = none ∧ interruption.completed = 0 := by
  have hretry : ∀ after : HomeDirectory Contents, HasFile after identifier →
      (store codec retryNonce data identifier after).2 ≠ .ok () := by
    rintro after ⟨contents, hcontents⟩
    rw [store_existing codec hcontents]
    simp
  constructor
  · rintro ⟨-, hstored⟩
    have hnew : home.permanentKeys[identifier]? = none := by
      by_contra hexists
      obtain ⟨contents, hcontents⟩ := Option.ne_none_iff_exists'.mp hexists
      rw [interruptedStore_of_existing ⟨contents, hcontents⟩] at hstored
      exact hretry home ⟨contents, hcontents⟩ hstored
    refine ⟨hnew, ?_⟩
    by_contra hstarted
    exact hretry _ (hasFile_interruptedStore (Nat.pos_of_ne_zero hstarted) hnew) hstored
  · rintro ⟨hnew, hzero⟩
    rw [CrashSafe, interruptedStore_of_completed_zero hzero, store_new codec hnew]
    exact ⟨Or.inl rfl, rfl⟩

end LocalPermanentKeyStorageBackend

namespace TwoDomains

def keyshareOf (domainId : ℕ) : Keyshare where
  keyId := { epochId := 0, domainId, attemptId := 0 }
  data := .ed25519 { privateShare := 1, publicKey := "key" }

def firstDomain : PermanentKeyshareData := ⟨0, [keyshareOf 0]⟩

def bothDomains : PermanentKeyshareData := ⟨0, [keyshareOf 0, keyshareOf 1]⟩

/-- A node with a keyshare of the first domain. -/
def home : HomeDirectory PlainFile := (store plainCodec () firstDomain {}).1

/-- The store of the keyshares of both domains, interrupted between the two links. -/
def interruptedHome : HomeDirectory PlainFile :=
  LocalPermanentKeyStorageBackend.interruptedStore plainCodec () (.permanent bothDomains)
    (identifier bothDomains) { completed := 4, torn := .empty } home

end TwoDomains

open TwoDomains in
/-- The keyshare of the first domain is not loaded any more, and the store of both cannot be
repeated. -/
theorem interrupted_store_loses_keyshares :
    load plainCodec home = .ok (some firstDomain) ∧
      firstDomain.checkOverwrite bothDomains = .ok () ∧
      load plainCodec interruptedHome = .ok none ∧
      (store plainCodec () bothDomains interruptedHome).2 =
        .err .fileExists ∧
      ¬ LocalPermanentKeyStorageBackend.CrashSafe plainCodec () () (.permanent bothDomains)
        (identifier bothDomains) home { completed := 4, torn := .empty } := by
  refine ⟨by decide +kernel, by decide +kernel, by decide +kernel, by decide +kernel, ?_⟩
  rintro ⟨hloaded, -⟩
  exact absurd hloaded (by decide +kernel)

end NearMpc.Node
