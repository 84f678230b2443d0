import NearMpc.Node.AssetStorage

/-!
# Concurrent takes of an unowned asset

`take_unowned` of `assets.rs` reads the asset from the database and then deletes it. The two are
separate operations of the database and no lock is held in between. Calls for one id that overlap
can all read the asset before the first of them deletes it, and then all return it
(`asset_taken_twice`).

A call that starts only when no other one is between its two operations gets the asset at most once
(`asset_taken_once`): the calls that hold the asset and those that have returned it are never more
than one.
-/

set_option autoImplicit false

namespace NearMpc.Node

open Library Library.Outcome

variable {Value T : Type}

/-- A call of `take_unowned`, between its operations on the database. -/
inductive TakeCall (Value T : Type) where
  | called
  | committing (value : Value)
  | returned (result : NodeResult T)

namespace TakeCall

/-- The call is about to read the database. -/
def isReading : TakeCall Value T → Bool
  | .called => true
  | _ => false

/-- The call has read the asset and not yet deleted it. -/
def isCommitting : TakeCall Value T → Bool
  | .committing _ => true
  | _ => false

/-- The call has returned the asset. -/
def hasTaken : TakeCall Value T → Bool
  | .returned (.ok _) => true
  | _ => false

end TakeCall

/-- The database and the calls for one id. -/
structure TakeTasks (Value T : Type) where
  db : SecretDB Value
  calls : List (TakeCall Value T)

/-- A new call, or the next operation of a call, which is named by its place. -/
inductive TakeEvent where
  | call
  | advance (place : ℕ)

namespace TakeTasks

variable (config : AssetStoreConfig Value T) (id : UniqueId)

/-- The database after the next operation of a call, and the call. -/
def advance (db : SecretDB Value) :
    TakeCall Value T → SecretDB Value × TakeCall Value T
  | .called =>
      match db.get config.col (config.makeKey id) with
      | none => (db, .returned
          (.err ("Unowned " ++ config.col.asStr ++ " not found in the database: " ++ id.debug)))
      | some value => (db, .committing value)
  | .committing value =>
      (db.delete config.col (config.makeKey id),
        .returned (okOr (config.codec.fromValue value) "cannot deserialize the asset"))
  | .returned result => (db, .returned result)

def step (tasks : TakeTasks Value T) :
    TakeEvent → TakeTasks Value T
  | .call => { tasks with calls := tasks.calls ++ [.called] }
  | .advance place =>
      match tasks.calls[place]? with
      | none => tasks
      | some call =>
          { db := (advance config id tasks.db call).1
            calls := tasks.calls.set place (advance config id tasks.db call).2 }

variable (tasks : TakeTasks Value T)

/-- The number of calls that have returned the asset. -/
def taken : ℕ := tasks.calls.countP TakeCall.hasTaken

/-- The number of calls between their two operations. -/
def committing : ℕ := tasks.calls.countP TakeCall.isCommitting

/-- A call reads the database only when no other call is between its two operations. -/
def ReadsAlone : TakeEvent → Prop
  | .call => True
  | .advance place => tasks.calls[place]?.any TakeCall.isReading = true → tasks.committing = 0

instance (tasks : TakeTasks Value T) : ∀ event, Decidable (tasks.ReadsAlone event)
  | .call => inferInstanceAs (Decidable True)
  | .advance _ => inferInstanceAs (Decidable (_ → _))

variable {config : AssetStoreConfig Value T} {id : UniqueId} {tasks : TakeTasks Value T}

/-- At most one call holds the asset or has returned it, and none has as long as it is stored. -/
structure Exclusive (config : AssetStoreConfig Value T) (id : UniqueId)
    (tasks : TakeTasks Value T) : Prop where
  one : tasks.taken + tasks.committing ≤ 1
  stored : (tasks.db.get config.col (config.makeKey id)).isSome → tasks.taken = 0

section

variable (hexclusive : tasks.Exclusive config id)
include hexclusive

theorem Exclusive.call : (tasks.step config id .call).Exclusive config id := by
  have htaken : (tasks.step config id .call).taken = tasks.taken := by
    simp [taken, step, TakeCall.hasTaken]
  have hcommitting : (tasks.step config id .call).committing = tasks.committing := by
    simp [committing, step, TakeCall.isCommitting]
  refine ⟨by rw [htaken, hcommitting]; exact hexclusive.one, fun hstored ↦ ?_⟩
  rw [htaken]
  exact hexclusive.stored hstored

theorem Exclusive.advance (place : ℕ) (halone : tasks.ReadsAlone (.advance place)) :
    (tasks.step config id (.advance place)).Exclusive config id := by
  simp only [step]
  split
  case h_1 => exact hexclusive
  case h_2 call hplace =>
    obtain ⟨hlt, hcall⟩ := List.getElem?_eq_some_iff.mp hplace
    have hcount : ∀ (counted : TakeCall Value T → Bool) (next : TakeCall Value T),
        (tasks.calls.set place next).countP counted =
          tasks.calls.countP counted - (if counted call = true then 1 else 0) +
            if counted next = true then 1 else 0 := by
      intro _ _
      rw [List.countP_set hlt, hcall]
    have hone := hexclusive.one
    have hstored := hexclusive.stored
    have halone : call.isReading = true → tasks.committing = 0 := fun hreading ↦
      halone (by rw [hplace]; exact hreading)
    simp only [taken, committing] at hone hstored halone
    cases call with
    | called =>
      have hnobody := halone rfl
      cases hget : tasks.db.get config.col (config.makeKey id) with
      | none =>
        refine ⟨?_, fun hsome ↦ ?_⟩
        · simpa [taken, committing, hcount, TakeTasks.advance, hget, TakeCall.hasTaken,
            TakeCall.isCommitting] using hone
        · simp [TakeTasks.advance, hget] at hsome
      | some =>
        have hnone := hstored (by simp [hget])
        refine ⟨?_, fun _ ↦ ?_⟩
        · simp [taken, committing, hcount, TakeTasks.advance, hget, TakeCall.hasTaken,
            TakeCall.isCommitting, hnone, hnobody]
        · simp [taken, hcount, TakeTasks.advance, hget, TakeCall.hasTaken, hnone]
    | committing value =>
      have hheld : 0 < tasks.calls.countP TakeCall.isCommitting :=
        List.countP_pos_iff.mpr ⟨_, List.mem_of_getElem? hplace, rfl⟩
      refine ⟨?_, fun hsome ↦ ?_⟩
      · simp only [taken, committing, hcount, TakeTasks.advance]
        cases config.codec.fromValue value <;>
          simp [okOr, TakeCall.hasTaken, TakeCall.isCommitting] <;> omega
      · simp [TakeTasks.advance] at hsome
    | returned result =>
      have hsame : tasks.calls.set place (.returned result) = tasks.calls := by
        rw [← hcall, List.set_getElem_self]
      simp only [TakeTasks.advance, hsame]
      exact hexclusive

theorem Exclusive.step (event : TakeEvent) (halone : tasks.ReadsAlone event) :
    (tasks.step config id event).Exclusive config id := by
  cases event with
  | call => exact hexclusive.call
  | advance place => exact hexclusive.advance place halone

end

end TakeTasks

/-- In every interleaving of calls for one id in which each call reads the database while no other
is between its two operations, at most one call returns the asset. -/
theorem asset_taken_once (config : AssetStoreConfig Value T) (id : UniqueId) (db : SecretDB Value)
    (events : List TakeEvent)
    (halone : StepsMeet (TakeTasks.step config id) TakeTasks.ReadsAlone ⟨db, []⟩ events) :
    (run (TakeTasks.step config id) ⟨db, []⟩ events).taken ≤ 1 := by
  have hstart : TakeTasks.Exclusive config id ⟨db, []⟩ :=
    ⟨by simp [TakeTasks.taken, TakeTasks.committing], by simp [TakeTasks.taken]⟩
  have hexclusive := halone.invariant hstart
    fun tasks event hmeets hbefore ↦ hbefore.step event hmeets
  have hone := hexclusive.one
  omega

namespace ConcurrentTakes

/-- Presignatures of domain 0 on node 2, kept in the database as they are. -/
def storeConfig : AssetStoreConfig ℕ ℕ where
  codec := { toValue := id, fromValue := some, fromValue_toValue := fun _ ↦ rfl }
  col := .presignature
  domainId := some 0
  myParticipantId := 2
  condition := fun _ _ ↦ true

/-- A presignature that node 1 owns. -/
def presignatureId : UniqueId := UniqueId.new 1 100 0

def db : SecretDB ℕ := SecretDB.empty.put .presignature (storeConfig.makeKey presignatureId) 7

end ConcurrentTakes

open ConcurrentTakes in
/-- The second call starts after the first has deleted the asset. -/
theorem asset_taken_once_inTurn :
    (run (TakeTasks.step storeConfig presignatureId) ⟨db, []⟩
      [.call, .advance 0, .advance 0, .call, .advance 1, .advance 1]).taken ≤ 1 :=
  asset_taken_once _ _ _ _ (by decide +kernel)

open ConcurrentTakes in
/-- Two calls read the asset before either of them deletes it, and both return it. -/
theorem asset_taken_twice :
    (run (TakeTasks.step storeConfig presignatureId) ⟨db, []⟩
      [.call, .call, .advance 0, .advance 1, .advance 0, .advance 1]).taken = 2 := by
  decide +kernel

end NearMpc.Node
