import NearMpc.Library.Run
import NearMpc.Node.KeyshareStorage

/-!
# Histories of the keyshare storage

A node reserves key ids, commits keyshares, updates permanent storage, imports backups and is
restarted, in any order and any number of times. Three things hold along every such history, from
any contents of the home directory:

- a committed keyshare is loaded again until permanent storage holds a newer epoch;
- no key id is reserved twice;
- permanent storage only moves to data that extends what it holds.

All three follow from one relation between an earlier and a later home directory (`Keeps`): what
permanent storage holds later extends what it held before, and a temporary file is still there
unless its name is of an epoch older than the one that permanent storage holds. The relation is
transitive, because the epoch of permanent storage never falls, and every operation is within it,
however far it gets. It covers the files that mark reserved key ids as well: when such a file is
deleted, permanent storage is in a newer epoch, and then no key id of the old epoch can be reserved.
-/

set_option autoImplicit false

namespace NearMpc.Node

open Library Library.Outcome PermanentKeyStorage KeyshareStorage
open NearMpc.Contract (EpochId KeyEventId KeyForDomain Keyset)
open TemporaryKeyStorage
open Std (TreeMap)

variable {Contents Plaintext Nonce : Type} {codec : KeyshareCodec Contents Plaintext Nonce}

/-! ### What every operation keeps -/

/-- Permanent keyshares are only extended, and a temporary file stays until permanent storage is in
a newer epoch. -/
structure Keeps (codec : KeyshareCodec Contents Plaintext Nonce)
    (before after : HomeDirectory Contents) : Prop where
  permanent : ∀ data, held codec before = some data →
    ∃ later, held codec after = some later ∧ data.Extends later
  temporary : ∀ filename contents, before.temporaryKeys[filename]? = some contents →
    after.temporaryKeys[filename]? = some contents ∨
      ∃ epochId data, getEpochIdFromFilename filename = .ok (some epochId) ∧
        held codec after = some data ∧ epochId < data.epochId

namespace Keeps

theorem refl (home : HomeDirectory Contents) : Keeps codec home home where
  permanent := fun data hheld ↦ ⟨data, hheld, .refl data⟩
  temporary := fun _ _ hfile ↦ .inl hfile

theorem trans {first middle last} (hfirst : Keeps codec first middle)
    (hlast : Keeps codec middle last) : Keeps codec first last where
  permanent := by
    intro data hheld
    obtain ⟨between, hbetween, hextends⟩ := hfirst.permanent data hheld
    obtain ⟨later, hlater, hextendsLater⟩ := hlast.permanent between hbetween
    exact ⟨later, hlater, hextends.trans hextendsLater⟩
  temporary := by
    intro filename contents hfile
    rcases hfirst.temporary filename contents hfile with
      hmiddle | ⟨epochId, data, hname, hheld, hnewer⟩
    · exact hlast.temporary filename contents hmiddle
    · -- the file went with an older epoch, and the epoch has not fallen since
      obtain ⟨later, hlater, hextends⟩ := hlast.permanent data hheld
      exact .inr ⟨epochId, later, hname, hlater, hnewer.trans_le hextends.epochId⟩

/-- Only the key file changes. -/
theorem of_held {before after} (htemporary : after.temporaryKeys = before.temporaryKeys)
    (hpermanent : ∀ data, held codec before = some data →
      ∃ later, held codec after = some later ∧ data.Extends later) :
    Keeps codec before after where
  permanent := hpermanent
  temporary := fun _ _ hfile ↦ .inl (htemporary ▸ hfile)

theorem held_congr (codec : KeyshareCodec Contents Plaintext Nonce) {before after}
    (hkey : after.key = before.key) : held codec after = held codec before := by
  unfold held
  rw [hkey]

theorem createTemporary (path : String) (contents : Contents) :
    (TemporaryKeyStorage.createTemporary path contents).Within (Keeps codec) := by
  intro home
  unfold TemporaryKeyStorage.createTemporary
  split_ifs with hexists
  · exact refl home
  · refine ⟨fun data hheld ↦ ⟨data, hheld, .refl data⟩, ?_⟩
    intro filename _ hfile
    refine .inl ?_
    have hother : ¬ compare path filename = .eq := by
      intro heq
      rw [← Std.LawfulEqOrd.eq_of_compare heq] at hfile
      rw [← TreeMap.isSome_getElem?_eq_contains, hfile] at hexists
      exact hexists rfl
    rw [TreeMap.getElem?_insert, if_neg hother]
    exact hfile

variable {data : PermanentKeyshareData}

theorem storeUnchecked {nonce home}
    (hextends : ∀ existing, held codec home = some existing → existing.Extends data) :
    Keeps codec home (storeUnchecked codec nonce data home).1 := by
  rcases storeUnchecked_cases codec nonce data home with
    ⟨hsame, -⟩ | ⟨hheld, htemporary⟩
  · rw [hsame]
    exact refl home
  · exact of_held htemporary fun existing hexisting ↦ ⟨data, hheld, hextends existing hexisting⟩

/-- What has passed the checks against the stored data extends it. -/
theorem store (hordered : data.Ordered) (nonce : Nonce) :
    (store codec nonce data).Within (Keeps codec) :=
  .read_bind refl fun _ _ hchecked ↦ storeUnchecked fun _ hexisting ↦
    PermanentKeyshareData.extends_of_checkOverwrite
      (checkOverwrite_of_checkExisting codec hchecked hexisting) hordered

variable (nonce : Nonce)

/-- Opening the storage: the old format is replaced by the same keyshare in the new one. -/
theorem new : (new codec nonce).Within (Keeps codec) := by
  refine .read_bind refl fun home legacy? hlegacy ↦ ?_
  cases legacy? with
  | none => exact refl home
  | some =>
    refine storeUnchecked fun existing hexisting ↦ ?_
    rw [held_of_loadLegacy codec hlegacy, Option.some_inj] at hexisting
    rw [hexisting]
    exact .refl existing

/-- Once permanent storage is in the epoch, files of older ones may go. -/
theorem deletePrior {epochId home data} (hheld : held codec home = some data)
    (hepoch : data.epochId = epochId) :
    Keeps codec home (deleteKeysharesPriorToEpochId epochId home).1 := by
  have hprior : DeletesPrior epochId home (deleteKeysharesPriorToEpochId epochId home).1 :=
    deleteEntries_within epochId home.temporaryKeys.keys home
  have hsame := held_congr codec hprior.key
  refine ⟨fun existing hexisting ↦ ⟨existing, hsame.trans hexisting,
    .refl existing⟩, fun filename contents hfile ↦ ?_⟩
  rcases hprior.files filename contents hfile with hkept | ⟨existing, hname, holder⟩
  · exact .inl hkept
  · exact .inr ⟨existing, data, hname, hsame.trans hheld, hepoch ▸ holder⟩

theorem storeNewPermanent (epochId : EpochId) (keyshares : List Keyshare) :
    (storeNewPermanentKeysetDataDeleteTemporary codec nonce epochId
      keyshares).Within (Keeps codec) := by
  refine .bind_returns
    (fun data ↦ PermanentKeyshareData.new epochId keyshares = .ok data) (fun _ _ _ ↦ trans)
    (.lift refl _) (Effect.Returns.lift fun _ hnew ↦ hnew) ?_
  intro _ hnew
  obtain ⟨hdata, hordered⟩ := PermanentKeyshareData.new_eq_ok hnew
  refine .bind_after (fun _ _ _ ↦ trans) (store hordered nonce) ?_
  intro _ _ _ hstored
  refine deletePrior (store_eq_ok codec hstored) ?_
  rw [hdata]

theorem startGeneratingKeyshare (keyId : KeyEventId) :
    (TemporaryKeyStorage.startGeneratingKeyshare codec keyId).Within (Keeps codec) :=
  .bind (fun _ _ _ ↦ trans) (createTemporary _ _) fun _ ↦ refl

variable (keys : List KeyForDomain) (keyId : KeyEventId)

theorem startGeneratingKey : (startGeneratingKey codec keys keyId).Within (Keeps codec) :=
  .bind (fun _ _ _ ↦ trans) (.read refl _)
    fun _ ↦ startGeneratingKeyshare keyId

theorem startResharingKey : (startResharingKey codec keys keyId).Within (Keeps codec) :=
  .bind (fun _ _ _ ↦ trans) (.read refl _)
    fun _ ↦ startGeneratingKeyshare keyId

theorem commitKeyshare (handle : PendingKeyshareStorageHandle) (nonce : Nonce)
    (keyshare : Keyshare) : (handle.commitKeyshare codec nonce keyshare).Within (Keeps codec) :=
  .bind (fun _ _ _ ↦ trans) (.lift refl _)
    fun _ ↦ createTemporary _ _

theorem updatePermanentKeyshares (keyset : Keyset) :
    (updatePermanentKeyshares codec nonce keyset).Within (Keeps codec) := by
  refine .bind (fun _ _ _ ↦ trans) (.read refl _) fun loaded ↦ ?_
  cases loaded with
  | permanent => exact refl
  | permanentAndTemporary keyshares =>
    exact .bind (fun _ _ _ ↦ trans)
      (storeNewPermanent nonce keyset.epochId keyshares) fun _ ↦ refl

theorem importBackup (backup : List Keyshare) (contractKeyset : Keyset) :
    (importBackup codec nonce backup contractKeyset).Within (Keeps codec) :=
  .bind (fun _ _ _ ↦ trans) (.read refl _)
    fun keyshares ↦ storeNewPermanent nonce contractKeyset.epochId keyshares

end Keeps

/-! ### Reserving a key id -/

section Starting

variable {keys : List KeyForDomain} {keyId : KeyEventId} {home after : HomeDirectory Contents}
  {handle : PendingKeyshareStorageHandle}

/-- What it takes to reserve a key id: it has no mark yet, and permanent storage is in no newer
epoch. -/
structure Reserves (codec : KeyshareCodec Contents Plaintext Nonce) (keyId : KeyEventId)
    (home after : HomeDirectory Contents) (handle : PendingKeyshareStorageHandle) : Prop where
  handle_eq : handle = { path := keysharePath keyId, keyId }
  unmarked : home.temporaryKeys[keyshareStartedPath keyId]? = none
  marked : after.temporaryKeys[keyshareStartedPath keyId]? = some codec.emptyFile
  epochId : ∀ data, held codec home = some data →
    data.epochId ≤ keyId.epochId

theorem reserves_of_startGeneratingKeyshare
    (hepoch : ∀ data, held codec home = some data → data.epochId ≤ keyId.epochId)
    (hok : TemporaryKeyStorage.startGeneratingKeyshare codec keyId home = (after, .ok handle)) :
    Reserves codec keyId home after handle := by
  unfold TemporaryKeyStorage.startGeneratingKeyshare at hok
  rw [Effect.bind_eq_ok] at hok
  obtain ⟨_, ⟨⟩, hcreated, hreturn⟩ := hok
  obtain ⟨rfl, hhandle⟩ := Prod.mk.inj hreturn
  obtain ⟨hunmarked, rfl⟩ := createTemporary_eq_ok hcreated
  exact ⟨(ok.inj hhandle).symm, hunmarked, TreeMap.getElem?_insert_self, hepoch⟩

theorem reserves_of_startGeneratingKey
    (hok : startGeneratingKey codec keys keyId home = (after, .ok handle)) :
    Reserves codec keyId home after handle := by
  unfold startGeneratingKey at hok
  rw [Effect.read_bind_eq_ok] at hok
  obtain ⟨⟨⟩, hchecked, hstarted⟩ := hok
  refine reserves_of_startGeneratingKeyshare ?_ hstarted
  simp only [ensureCanGenerateKey, bind_eq_ok] at hchecked
  obtain ⟨_, hload, _, hcount, -⟩ := hchecked
  intro _ hheld
  rw [load_eq_ok codec hload] at hheld
  subst hheld
  by_contra hnewer
  simp only [numPermanentKeysSameEpoch] at hcount
  rw [if_neg (by lia), if_pos (by lia)] at hcount
  cases hcount

theorem reserves_of_startResharingKey
    (hok : startResharingKey codec keys keyId home = (after, .ok handle)) :
    Reserves codec keyId home after handle := by
  unfold startResharingKey at hok
  rw [Effect.read_bind_eq_ok] at hok
  obtain ⟨⟨⟩, hchecked, hstarted⟩ := hok
  refine reserves_of_startGeneratingKeyshare ?_ hstarted
  simp only [ensureCanReshareKey, bind_eq_ok] at hchecked
  obtain ⟨_, hload, hchecked⟩ := hchecked
  intro _ hheld
  rw [load_eq_ok codec hload] at hheld
  subst hheld
  simp only [bind_eq_ok, require_eq_ok, exists_const] at hchecked
  exact hchecked.1.le

/-- A key id that has been reserved cannot be reserved again. -/
theorem Reserves.only_once {later last second} (hfirst : Reserves codec keyId home after handle)
    (hkeeps : Keeps codec after later) : ¬ Reserves codec keyId later last second := by
  intro hsecond
  rcases hkeeps.temporary _ _ hfirst.marked with hmarked | ⟨epochId, data, hname, hheld, hnewer⟩
  · rw [hsecond.unmarked] at hmarked
    cases hmarked
  · have hepoch := getEpochIdFromFilename_filename (by decide) hname
    have hnotNewer := hsecond.epochId data hheld
    lia

end Starting

/-! ### Histories -/

/-- The node: its home directory and the handles of the keyshares it is computing. -/
structure StorageSystem (Contents : Type) where
  home : HomeDirectory Contents
  handles : List PendingKeyshareStorageHandle := []

inductive StorageEvent (Nonce : Type) where
  | startGenerating (alreadyGeneratedKeys : List KeyForDomain) (keyId : KeyEventId)
  | startResharing (alreadyResharedKeys : List KeyForDomain) (keyId : KeyEventId)
  | commit (handle : PendingKeyshareStorageHandle) (nonce : Nonce) (keyshare : Keyshare)
  | load (keyset : Keyset)
  | updatePermanent (nonce : Nonce) (keyset : Keyset)
  | importBackup (nonce : Nonce) (backup : List Keyshare) (contractKeyset : Keyset)
  | restart (nonce : Nonce)

/-- The event reserves the key id. -/
def StorageEvent.Starts (event : StorageEvent Nonce) (keyId : KeyEventId) : Prop :=
  (∃ keys, event = .startGenerating keys keyId) ∨ ∃ keys, event = .startResharing keys keyId

namespace StorageSystem

variable (system : StorageSystem Contents)
  (result : HomeDirectory Contents × KeyshareResult PendingKeyshareStorageHandle)

/-- The handle of a computation that could be started is kept. -/
def opened : StorageSystem Contents × Bool :=
  match result with
  | (home, .ok handle) => ({ home, handles := handle :: system.handles }, true)
  | (home, _) => ({ system with home }, false)

/-- The node after an event, and whether the event succeeded. A handle is used up by its commit, and
all of them are lost in a restart. -/
def step (codec : KeyshareCodec Contents Plaintext Nonce) (system : StorageSystem Contents) :
    StorageEvent Nonce → StorageSystem Contents × Bool
  | .startGenerating keys keyId =>
      system.opened (startGeneratingKey codec keys keyId system.home)
  | .startResharing keys keyId =>
      system.opened (startResharingKey codec keys keyId system.home)
  | .commit handle nonce keyshare =>
      if handle ∈ system.handles then
        let (home, outcome) := handle.commitKeyshare codec nonce keyshare system.home
        ({ home, handles := system.handles.erase handle }, outcome = .ok ())
      else (system, false)
  | .load keyset => (system, (getKeyshares codec keyset system.home).isOk)
  | .updatePermanent nonce keyset =>
      let (home, outcome) := updatePermanentKeyshares codec nonce keyset system.home
      ({ system with home }, outcome.isOk)
  | .importBackup nonce backup contractKeyset =>
      let (home, outcome) :=
        importBackup codec nonce backup contractKeyset system.home
      ({ system with home }, outcome.isOk)
  | .restart nonce =>
      let (home, outcome) := new codec nonce system.home
      ({ home }, outcome.isOk)

/-- The node after the events, oldest first. -/
def history (codec : KeyshareCodec Contents Plaintext Nonce) (start : StorageSystem Contents)
    (events : List (StorageEvent Nonce)) : StorageSystem Contents :=
  run (fun system event ↦ (system.step codec event).1) start events

theorem opened_home : (system.opened result).1.home = result.1 := by
  rcases result with ⟨home, outcome⟩
  cases outcome <;> rfl

variable (event : StorageEvent Nonce)

theorem keeps_step : Keeps codec system.home (system.step codec event).1.home := by
  cases event with
  | startGenerating keys keyId =>
    simp only [step, opened_home]
    exact .startGeneratingKey keys keyId system.home
  | startResharing keys keyId =>
    simp only [step, opened_home]
    exact .startResharingKey keys keyId system.home
  | commit handle nonce keyshare =>
    simp only [step]
    split_ifs
    · exact .commitKeyshare handle nonce keyshare system.home
    · exact .refl system.home
  | load => exact .refl system.home
  | updatePermanent nonce keyset =>
    exact .updatePermanentKeyshares nonce keyset system.home
  | importBackup nonce backup contractKeyset =>
    exact .importBackup nonce backup contractKeyset system.home
  | restart nonce => exact .new nonce system.home

theorem keeps_history (codec : KeyshareCodec Contents Plaintext Nonce)
    (start : StorageSystem Contents) (events : List (StorageEvent Nonce)) :
    Keeps codec start.home (history codec start events).home :=
  run_related (fun before after ↦ Keeps codec before.home after.home)
    (fun system ↦ .refl system.home) (fun _ _ _ ↦ .trans) keeps_step start events

/-- A handle leads to the file of its key id. -/
def HandlesLead : Prop :=
  ∀ handle ∈ system.handles, handle.path = keysharePath handle.keyId

/-- An event that reserves a key id and succeeds. -/
theorem reserves_of_starts {system : StorageSystem Contents} {event : StorageEvent Nonce}
    {keyId : KeyEventId} (hstarts : event.Starts keyId) (hok : (system.step codec event).2 = true) :
    ∃ handle, Reserves codec keyId system.home (system.step codec event).1.home handle ∧
      (system.step codec event).1.handles = handle :: system.handles := by
  rcases hstarts with ⟨keys, rfl⟩ | ⟨keys, rfl⟩
  · rcases hresult : startGeneratingKey codec keys keyId system.home with
      ⟨after, outcome⟩
    simp only [step, hresult] at hok ⊢
    cases outcome with
    | ok handle => exact ⟨handle, reserves_of_startGeneratingKey hresult, rfl⟩
    | err => cases hok
    | panicked => cases hok
  · rcases hresult : startResharingKey codec keys keyId system.home with
      ⟨after, outcome⟩
    simp only [step, hresult] at hok ⊢
    cases outcome with
    | ok handle => exact ⟨handle, reserves_of_startResharingKey hresult, rfl⟩
    | err => cases hok
    | panicked => cases hok

theorem handles_of_not_ok {system : StorageSystem Contents} {event : StorageEvent Nonce}
    {keyId : KeyEventId} (hstarts : event.Starts keyId)
    (hfailed : (system.step codec event).2 = false) :
    (system.step codec event).1.handles = system.handles := by
  rcases hstarts with ⟨keys, rfl⟩ | ⟨keys, rfl⟩ <;>
  · simp only [step, opened] at hfailed ⊢
    split at hfailed
    · cases hfailed
    · rfl

theorem handlesLead_step (hlead : system.HandlesLead) :
    (system.step codec event).1.HandlesLead := by
  have hstart : ∀ keyId, event.Starts keyId → (system.step codec event).1.HandlesLead := by
    intro _ hstarts
    cases hok : (system.step codec event).2 with
    | true =>
      obtain ⟨_, hreserves, hhandles⟩ := reserves_of_starts hstarts hok
      intro other hother
      rw [hhandles] at hother
      rcases List.mem_cons.mp hother with rfl | hold
      · rw [hreserves.handle_eq]
      · exact hlead other hold
    | false =>
      intro other hother
      rw [handles_of_not_ok hstarts hok] at hother
      exact hlead other hother
  cases event with
  | startGenerating keys keyId => exact hstart keyId (.inl ⟨keys, rfl⟩)
  | startResharing keys keyId => exact hstart keyId (.inr ⟨keys, rfl⟩)
  | commit =>
    simp only [step]
    split_ifs
    · exact fun other hother ↦ hlead other (List.mem_of_mem_erase hother)
    · exact hlead
  | load | updatePermanent | importBackup => exact hlead
  | restart => exact fun other hother ↦ absurd hother List.not_mem_nil

/-- A commit that succeeds has written the keyshare to the file of its key id. -/
theorem stored_of_commit {system : StorageSystem Contents} {handle : PendingKeyshareStorageHandle}
    {nonce : Nonce} {keyshare : Keyshare} (hlead : system.HandlesLead)
    (hok : (system.step codec (.commit handle nonce keyshare)).2 = true) :
    (system.step codec (.commit handle nonce keyshare)).1.home.temporaryKeys[keysharePath
      keyshare.keyId]? = some (codec.encrypt nonce (codec.serializeKeyshare keyshare)) := by
  rcases hresult : handle.commitKeyshare codec nonce keyshare system.home with ⟨after, outcome⟩
  simp only [step, hresult] at hok ⊢
  split_ifs at hok ⊢ with hheld
  · obtain rfl : outcome = .ok () := of_decide_eq_true hok
    unfold PendingKeyshareStorageHandle.commitKeyshare at hresult
    rw [Effect.lift_bind_eq_ok] at hresult
    obtain ⟨_, hkeyId, hcreated⟩ := hresult
    rw [require_eq_ok] at hkeyId
    obtain ⟨-, rfl⟩ := createTemporary_eq_ok hcreated
    rw [hkeyId, ← hlead handle hheld]
    exact TreeMap.getElem?_insert_self

/-- Along every history a committed keyshare is loaded again until permanent storage holds a newer
epoch, a key id is reserved at most once, and permanent storage moves to data that extends what it
holds: no older epoch, no domain less, and a domain keeps its public key and, within one epoch, its
key id. -/
theorem keyshares_never_lost (codec : KeyshareCodec Contents Plaintext Nonce)
    (home : HomeDirectory Contents) (events more : List (StorageEvent Nonce)) :
    (∀ handle nonce keyshare,
      ((history codec { home } events).step codec (.commit handle nonce keyshare)).2 = true →
        loadKeyshare codec keyshare.keyId (history codec { home }
            (events ++ .commit handle nonce keyshare :: more)).home = .ok (some keyshare) ∨
          ∃ data, held codec (history codec { home }
              (events ++ .commit handle nonce keyshare :: more)).home = some data ∧
            keyshare.keyId.epochId < data.epochId) ∧
      (∀ keyId (first second : StorageEvent Nonce), first.Starts keyId → second.Starts keyId →
        ((history codec { home } events).step codec first).2 = true →
          ((history codec { home } (events ++ first :: more)).step codec second).2 = false) ∧
      ∀ data, held codec (history codec { home } events).home = some data →
        ∃ later, held codec (history codec { home } (events ++ more)).home =
            some later ∧
          data.Extends later ∧
          (data.Ordered → ∀ existing ∈ data.keyshares, ∀ new ∈ later.keyshares,
            new.keyId.domainId = existing.keyId.domainId →
              PermanentKeyshareData.Replaces (data.epochId = later.epochId) existing new) := by
  have hlead : (history codec { home } events).HandlesLead :=
    run_invariant (fun _ hother ↦ absurd hother List.not_mem_nil) handlesLead_step events
  have hsplit : ∀ (first : StorageEvent Nonce), history codec { home } (events ++ first :: more) =
      history codec ((history codec { home } events).step codec first).1 more := by
    intro first
    rw [history, run_append, run_cons]
    rfl
  refine ⟨?_, ?_, ?_⟩
  · intro handle nonce keyshare hok
    rw [hsplit]
    have hstored := stored_of_commit hlead hok
    rcases (keeps_history codec _ more).temporary _ _ hstored with
      hkept | ⟨epochId, data, hname, hheld, hnewer⟩
    · exact .inl (loadKeyshare_of_stored codec hkept)
    · rw [getEpochIdFromFilename_filename (by decide) hname] at hnewer
      exact .inr ⟨data, hheld, hnewer⟩
  · intro keyId first second hfirst hsecond hok
    rw [hsplit, ← Bool.not_eq_true]
    intro hagain
    obtain ⟨_, hreserves, -⟩ := reserves_of_starts hfirst hok
    obtain ⟨other, hreservesAgain, -⟩ := reserves_of_starts hsecond hagain
    exact hreserves.only_once (keeps_history codec _ more) hreservesAgain
  · intro data hheld
    have hkeeps := keeps_history codec (history codec { home } events) more
    obtain ⟨later, hlater, hextends⟩ := hkeeps.permanent data hheld
    refine ⟨later, ?_, hextends, ?_⟩
    · rw [history, run_append]
      exact hlater
    · intro hordered existing hexisting new hnew hdomain
      exact hextends.replaces hordered hexisting hnew hdomain

namespace OneKeyshare

def keyId : KeyEventId := { epochId := 0, domainId := 0, attemptId := 0 }

def keyshare : Keyshare where
  keyId
  data := .ed25519 { privateShare := 1, publicKey := "key" }

def keyset : Keyset where
  epochId := 0
  domains := [{ domainId := 0, key := .ed25519 "key", attempt := 0 }]

def start : StorageEvent Unit := .startGenerating [] keyId

def commit : StorageEvent Unit := .commit { path := keysharePath keyId, keyId } () keyshare

/-- The keyshare becomes permanent, and the node is restarted. -/
def afterwards : List (StorageEvent Unit) := [.updatePermanent () keyset, .restart ()]

end OneKeyshare

open OneKeyshare in
/-- In a fresh home directory a key id is reserved and its keyshare committed. -/
theorem keyshare_survives_update_and_restart :
    (step plainCodec { home := {} } start).2 = true ∧
      ((history plainCodec { home := {} } [start]).step plainCodec commit).2 = true ∧
      (loadKeyshare plainCodec keyId
          (history plainCodec { home := {} } ([start] ++ commit :: afterwards)).home =
            .ok (some keyshare) ∨
        ∃ data, held plainCodec
            (history plainCodec { home := {} } ([start] ++ commit :: afterwards)).home =
              some data ∧ 0 < data.epochId) ∧
      ((history plainCodec { home := {} } ([] ++ start :: commit :: afterwards)).step plainCodec
        start).2 = false := by
  have hstarted : (step plainCodec { home := {} } start).2 = true := by decide +kernel
  have hcommitted : ((history plainCodec { home := {} } [start]).step plainCodec commit).2 =
      true := by decide +kernel
  refine ⟨hstarted, hcommitted, ?_, ?_⟩
  · exact (keyshares_never_lost plainCodec {} [start] afterwards).1 _ _ _ hcommitted
  · exact (keyshares_never_lost plainCodec {} [] (commit :: afterwards)).2.1 keyId _ _
      (.inl ⟨[], rfl⟩) (.inl ⟨[], rfl⟩) hstarted

end StorageSystem

end NearMpc.Node
