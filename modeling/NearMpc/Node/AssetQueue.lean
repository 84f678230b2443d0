import NearMpc.Node.Primitives

/-!
# The queues of owned assets

The cold queue keeps assets in three sections, separated by two barriers: assets known to satisfy
the condition, assets not yet examined, and assets known to violate it. The double queue puts a
channel of newly produced assets, the hot queue, in front of it. Follows `ColdQueue` and
`DoubleQueue` of `assets.rs`.

Every reading of the clock and of the condition value is an argument (`ColdRead`), so a result
about all arguments covers every evolution of both. A `take_owned` that is waiting is resumed by
`takeLoop`, one loop iteration for each element of its list of polls.

An operation of the cold queue removes exactly the element it hands out (`take_coldQueue`,
`discard_coldQueue`).
-/

set_option autoImplicit false

namespace NearMpc.Node

open Library Library.Outcome

variable {T CondVal : Type}

/-! ### The cold queue -/

/-- One reading of the clock, in nanoseconds, and of the condition value. -/
structure ColdRead (CondVal : Type) where
  now : ℕ
  conditionValue : CondVal
deriving Repr

structure ColdQueue (T CondVal : Type) where
  coldReady : ℕ
  coldAvailable : ℕ
  coldQueue : List (UniqueId × T)
  lastConditionValue : CondVal
  nextFetchDue : ℕ
deriving Repr

inductive ColdQueueTakeResult (T : Type) where
  | taken (element : UniqueId × T)
  | notTakenButSomeMayBeAvailable
  | notTakenAndNoneAvailable

inductive ColdQueueDiscardResult (T : Type) where
  | discarded (element : UniqueId × T)
  | notDiscardedButSomeMayBeAvailable
  | notDiscardedAndNoneAvailable

inductive ColdQueueAddIfSatisfiedResult (T : Type) where
  | conditionNotSatisfied (value : T)
  | enqueued

inductive ColdQueueAddIfNotSatisfiedResult (T : Type) where
  | conditionSatisfied (value : T)
  | enqueued

/-- The element a take removes, if any. -/
def ColdQueueTakeResult.removed : ColdQueueTakeResult T → List (UniqueId × T)
  | .taken element => [element]
  | _ => []

/-- The element a discard removes, if any. -/
def ColdQueueDiscardResult.removed : ColdQueueDiscardResult T → List (UniqueId × T)
  | .discarded element => [element]
  | _ => []

namespace ColdQueue

/-- One second. -/
def conditionRefreshInterval : ℕ := 1000000000

def new [Inhabited CondVal] (now : ℕ) : ColdQueue T CondVal where
  coldReady := 0
  coldAvailable := 0
  coldQueue := []
  lastConditionValue := default
  nextFetchDue := now

variable [DecidableEq CondVal] (self : ColdQueue T CondVal) (read : ColdRead CondVal)

/-- A changed condition value makes every element unknown again. -/
def updateConditionValue : ColdQueue T CondVal :=
  let self := { self with nextFetchDue := read.now + conditionRefreshInterval }
  if read.conditionValue ≠ self.lastConditionValue then
    { self with
      lastConditionValue := read.conditionValue
      coldReady := 0
      coldAvailable := self.coldQueue.length }
  else self

def updateConditionValueIfDue : ColdQueue T CondVal :=
  if read.now < self.nextFetchDue then self else self.updateConditionValue read

variable (condition : CondVal → T → Bool) (self : ColdQueue T CondVal) (read : ColdRead CondVal)

/-- Tries to take an element that satisfies the condition from the front. -/
def take : NodeResult (ColdQueue T CondVal × ColdQueueTakeResult T) :=
  let self := self.updateConditionValueIfDue read
  if self.coldAvailable = 0 then .ok (self, .notTakenAndNoneAvailable)
  else
    match self.coldQueue with
    | [] => .panicked
    | element :: rest =>
        let self := { self with coldQueue := rest, coldAvailable := self.coldAvailable - 1 }
        if 0 < self.coldReady then
          .ok ({ self with coldReady := self.coldReady - 1 }, .taken element)
        else if condition self.lastConditionValue element.2 then .ok (self, .taken element)
        else .ok ({ self with coldQueue := rest ++ [element] }, .notTakenButSomeMayBeAvailable)

/-- Tries to remove an element that violates the condition from the back. -/
def discard : NodeResult (ColdQueue T CondVal × ColdQueueDiscardResult T) :=
  let self := self.updateConditionValueIfDue read
  if self.coldReady = self.coldQueue.length then .ok (self, .notDiscardedAndNoneAvailable)
  else
    match self.coldQueue.getLast? with
    | none => .panicked
    | some element =>
        let self := { self with coldQueue := self.coldQueue.dropLast }
        if self.coldQueue.length < self.coldAvailable then
          let self := { self with coldAvailable := self.coldAvailable - 1 }
          if condition self.lastConditionValue element.2 then
            .ok ({ self with
              coldQueue := element :: self.coldQueue
              coldReady := self.coldReady + 1
              coldAvailable := self.coldAvailable + 1 }, .notDiscardedButSomeMayBeAvailable)
          else .ok (self, .discarded element)
        else .ok (self, .discarded element)

variable (id : UniqueId) (value : T)

/-- Adds an element that satisfies the condition to the front. -/
def addIfConditionSatisfied : ColdQueue T CondVal × ColdQueueAddIfSatisfiedResult T :=
  let self := self.updateConditionValueIfDue read
  if condition self.lastConditionValue value then
    ({ self with
      coldQueue := (id, value) :: self.coldQueue
      coldReady := self.coldReady + 1
      coldAvailable := self.coldAvailable + 1 }, .enqueued)
  else (self, .conditionNotSatisfied value)

/-- Adds an element that violates the condition to the back. -/
def addIfConditionNotSatisfied : ColdQueue T CondVal × ColdQueueAddIfNotSatisfiedResult T :=
  let self := self.updateConditionValueIfDue read
  if condition self.lastConditionValue value then (self, .conditionSatisfied value)
  else ({ self with coldQueue := self.coldQueue ++ [(id, value)] }, .enqueued)

@[simp] theorem updateConditionValue_coldQueue :
    (self.updateConditionValue read).coldQueue = self.coldQueue := by
  simp only [updateConditionValue]
  split <;> rfl

@[simp] theorem updateConditionValueIfDue_coldQueue :
    (self.updateConditionValueIfDue read).coldQueue = self.coldQueue := by
  unfold updateConditionValueIfDue
  split
  · rfl
  · exact updateConditionValue_coldQueue self read

variable {condition} {self after : ColdQueue T CondVal} {read : ColdRead CondVal}

/-- A take removes exactly the element it returns. -/
theorem take_coldQueue {result} (hok : self.take condition read = .ok (after, result)) :
    self.coldQueue.Perm (result.removed ++ after.coldQueue) := by
  have hqueue := updateConditionValueIfDue_coldQueue self read
  simp only [take] at hok
  split at hok
  · cases hok
    exact hqueue ▸ List.Perm.refl _
  · split at hok
    · simp at hok
    next element rest hcons =>
      rw [← hqueue, hcons]
      split at hok
      · cases hok
        exact List.Perm.refl _
      · split at hok
        · cases hok
          exact List.Perm.refl _
        · cases hok
          exact (List.perm_append_singleton element rest).symm

/-- A discard removes exactly the element it reports. -/
theorem discard_coldQueue {result} (hok : self.discard condition read = .ok (after, result)) :
    self.coldQueue.Perm (result.removed ++ after.coldQueue) := by
  have hqueue := updateConditionValueIfDue_coldQueue self read
  simp only [discard, hqueue] at hok
  split at hok
  · cases hok
    exact hqueue ▸ List.Perm.refl _
  · split at hok
    · simp at hok
    next element hlast =>
      have hperm : self.coldQueue.Perm (element :: self.coldQueue.dropLast) := by
        conv_lhs => rw [← List.dropLast_append_getLast? element hlast]
        exact List.perm_append_singleton element self.coldQueue.dropLast
      split at hok
      · split at hok
        · cases hok
          exact hperm
        · cases hok
          exact hperm
      · cases hok
        exact hperm

end ColdQueue

/-! ### The double queue -/

structure DoubleQueue (T CondVal : Type) where
  /-- Assets sent to the channel and not received yet, oldest first. -/
  hot : List (UniqueId × T)
  cold : ColdQueue T CondVal
deriving Repr

/-- The readings of one iteration of the loop of `take_owned`: at the cold queue, then, if that is
exhausted, whether the one second sleep ends the wait, and the reading when a hot element is
received instead. -/
structure TakePoll (CondVal : Type) where
  read : ColdRead CondVal
  sleepElapsed : Bool
  receiveRead : ColdRead CondVal
deriving Repr

/-- The readings of `maybe_discard_owned`: at its start, and in either loop while the given number
of elements remains to be processed. -/
structure DiscardReads (CondVal : Type) where
  start : ColdRead CondVal
  cold : ℕ → ColdRead CondVal
  hot : ℕ → ColdRead CondVal

namespace DoubleQueue

def new [Inhabited CondVal] (now : ℕ) : DoubleQueue T CondVal where
  hot := []
  cold := ColdQueue.new now

variable (self : DoubleQueue T CondVal) (id : UniqueId) (value : T)

def addOwned : DoubleQueue T CondVal :=
  { self with hot := self.hot ++ [(id, value)] }

/-- The assets held in memory. -/
def elements : List (UniqueId × T) :=
  self.hot ++ self.cold.coldQueue

@[simp] theorem elements_new [Inhabited CondVal] (now : ℕ) :
    (new now : DoubleQueue T CondVal).elements = [] := rfl

theorem addOwned_elements :
    (self.addOwned id value).elements.Perm ((id, value) :: self.elements) := by
  simp only [elements, addOwned, List.append_assoc, List.singleton_append]
  exact List.perm_middle

variable [DecidableEq CondVal] (condition : CondVal → T → Bool)

/-- The loop of `take_owned`. It returns an element, or is still waiting when the polls run out or
no hot element is there to be received. -/
def takeLoop : DoubleQueue T CondVal → List (TakePoll CondVal) →
    NodeResult (DoubleQueue T CondVal × Option (UniqueId × T))
  | self, [] => .ok (self, none)
  | self, poll :: rest => do
      let (cold, taken) ← self.cold.take condition poll.read
      match taken with
      | .taken element => .ok ({ self with cold }, some element)
      | .notTakenButSomeMayBeAvailable => takeLoop { self with cold } rest
      | .notTakenAndNoneAvailable =>
          if poll.sleepElapsed then takeLoop { self with cold } rest
          else
            match self.hot with
            | [] => .ok ({ self with cold }, none)
            | (id, value) :: hot =>
                match cold.addIfConditionNotSatisfied condition poll.receiveRead id value with
                | (cold, .conditionSatisfied value) => .ok ({ hot, cold }, some (id, value))
                | (cold, .enqueued) => takeLoop { hot, cold } rest

/-- `take_owned` queries the condition before it looks for an element. -/
def takeOwned (self : DoubleQueue T CondVal) (read : ColdRead CondVal)
    (polls : List (TakePoll CondVal)) :
    NodeResult (DoubleQueue T CondVal × Option (UniqueId × T)) :=
  takeLoop condition { self with cold := self.cold.updateConditionValue read } polls

/-- The first loop of `maybe_discard_owned`, over the cold queue: the ids it removed and the number
of elements left to process. -/
def discardCold (reads : ℕ → ColdRead CondVal) : ℕ → DoubleQueue T CondVal → List UniqueId →
    NodeResult (DoubleQueue T CondVal × List UniqueId × ℕ)
  | 0, self, removed => .ok (self, removed, 0)
  | remaining + 1, self, removed => do
      let (cold, discarded) ← self.cold.discard condition (reads (remaining + 1))
      match discarded with
      | .discarded (id, _) => discardCold reads remaining { self with cold } (removed ++ [id])
      | .notDiscardedButSomeMayBeAvailable =>
          discardCold reads remaining { self with cold } removed
      | .notDiscardedAndNoneAvailable => .ok ({ self with cold }, removed, remaining + 1)

/-- The second loop of `maybe_discard_owned`, over the elements buffered in the hot queue. An
element that violates the condition leaves the memory and nothing else. -/
def processHot (reads : ℕ → ColdRead CondVal) : ℕ → DoubleQueue T CondVal → DoubleQueue T CondVal
  | 0, self => self
  | remaining + 1, self =>
      match self.hot with
      | [] => self
      | (id, value) :: hot =>
          processHot reads remaining
            { hot, cold := (self.cold.addIfConditionSatisfied condition (reads (remaining + 1))
                id value).1 }

/-- Processes the given number of elements, removing those that violate the condition. -/
def maybeDiscardOwned (self : DoubleQueue T CondVal) (reads : DiscardReads CondVal)
    (numElementsToProcess : ℕ) : NodeResult (DoubleQueue T CondVal × List UniqueId) := do
  let self := { self with cold := self.cold.updateConditionValue reads.start }
  let (self, removed, remaining) ←
    discardCold condition reads.cold numElementsToProcess self []
  return (processHot condition reads.hot remaining self, removed)

end DoubleQueue

end NearMpc.Node
