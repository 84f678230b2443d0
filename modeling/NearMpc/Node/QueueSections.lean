import NearMpc.Node.AssetQueue

/-!
# The sections of the queue of owned assets

Any sequence of additions, takes, discards and changes of the condition value, on the cold and the
hot queue. The events are single iterations of the loops of `take_owned` and
`maybe_discard_owned`, so they also cover calls that wait or interleave.

`Sectioned` says that the two barriers of the cold queue mean what they should. Each operation of
the cold queue keeps it and does not panic (`Sectioned.take`, `Sectioned.discard`,
`Sectioned.addIfConditionSatisfied`, `Sectioned.addIfConditionNotSatisfied`). A take that returns
nothing lowers the second barrier, and a discard shortens what lies behind the first, so with a
fixed condition value both loops come to an end (`takeOwned_finishes`,
`maybeDiscardOwned_finishes`).
-/

set_option autoImplicit false

namespace NearMpc.Node

open Library Library.Outcome ColdQueue

variable {T CondVal : Type}

/-! ### Operations of the cold queue -/

namespace ColdQueue

/-- The barriers are in order, the elements before the first satisfy the condition that was queried
last, and those from the second on violate it. -/
structure Sectioned (condition : CondVal → T → Bool) (queue : ColdQueue T CondVal) : Prop where
  ready_le : queue.coldReady ≤ queue.coldAvailable
  available_le : queue.coldAvailable ≤ queue.coldQueue.length
  ready : ∀ element ∈ queue.coldQueue.take queue.coldReady,
    condition queue.lastConditionValue element.2 = true
  offline : ∀ element ∈ queue.coldQueue.drop queue.coldAvailable,
    condition queue.lastConditionValue element.2 = false

theorem sectioned_new [Inhabited CondVal] (condition : CondVal → T → Bool) (now : ℕ) :
    (new now : ColdQueue T CondVal).Sectioned condition where
  ready_le := le_rfl
  available_le := le_rfl
  ready := by simp [new]
  offline := by simp [new]

variable [DecidableEq CondVal] {condition : CondVal → T → Bool} {self : ColdQueue T CondVal}

theorem updateConditionValue_lastConditionValue (self : ColdQueue T CondVal)
    (read : ColdRead CondVal) :
    (self.updateConditionValue read).lastConditionValue = read.conditionValue := by
  simp only [updateConditionValue]
  split
  · rfl
  next hsame => exact (not_not.mp hsame).symm

theorem Sectioned.updateConditionValue (hsections : self.Sectioned condition)
    (read : ColdRead CondVal) : (self.updateConditionValue read).Sectioned condition := by
  simp only [ColdQueue.updateConditionValue]
  split
  · exact ⟨Nat.zero_le _, le_rfl, by simp, by simp⟩
  · exact ⟨hsections.ready_le, hsections.available_le, hsections.ready, hsections.offline⟩

theorem Sectioned.updateConditionValueIfDue (hsections : self.Sectioned condition)
    (read : ColdRead CondVal) : (self.updateConditionValueIfDue read).Sectioned condition := by
  unfold ColdQueue.updateConditionValueIfDue
  split
  · exact hsections
  · exact hsections.updateConditionValue read

/-- Querying a condition value that has not changed leaves the barriers. -/
theorem updateConditionValueIfDue_of_eq {read}
    (hvalue : read.conditionValue = self.lastConditionValue) :
    (self.updateConditionValueIfDue read).lastConditionValue = self.lastConditionValue ∧
      (self.updateConditionValueIfDue read).coldReady = self.coldReady ∧
      (self.updateConditionValueIfDue read).coldAvailable = self.coldAvailable := by
  unfold updateConditionValueIfDue
  split
  · exact ⟨rfl, rfl, rfl⟩
  · simp [updateConditionValue, hvalue]

theorem lastConditionValue_updateConditionValueIfDue {usable : CondVal → Prop} {read}
    (hlast : usable self.lastConditionValue) (hread : usable read.conditionValue) :
    usable (self.updateConditionValueIfDue read).lastConditionValue := by
  unfold updateConditionValueIfDue
  split
  · exact hlast
  · rw [updateConditionValue_lastConditionValue]
    exact hread

theorem discard_lastConditionValue {after read result}
    (hok : self.discard condition read = .ok (after, result)) :
    after.lastConditionValue = (self.updateConditionValueIfDue read).lastConditionValue := by
  unfold discard at hok
  grind

theorem addIfConditionSatisfied_spec (condition : CondVal → T → Bool) (self : ColdQueue T CondVal)
    (read : ColdRead CondVal) (id : UniqueId) (value : T) :
    (self.addIfConditionSatisfied condition read id value).1.lastConditionValue =
        (self.updateConditionValueIfDue read).lastConditionValue ∧
      ∀ returned, (self.addIfConditionSatisfied condition read id value).2 =
        .conditionNotSatisfied returned → returned = value := by
  unfold addIfConditionSatisfied
  grind

/-- What a take does to a queue whose condition value has just been queried, if due. -/
structure TakeSpec (condition : CondVal → T → Bool) (before after : ColdQueue T CondVal)
    (result : ColdQueueTakeResult T) : Prop where
  sectioned : after.Sectioned condition
  lastConditionValue : after.lastConditionValue = before.lastConditionValue
  taken : ∀ element, result = .taken element →
    condition after.lastConditionValue element.2 = true
  rotated : result = .notTakenButSomeMayBeAvailable →
    after.coldAvailable + 1 = before.coldAvailable
  exhausted : result = .notTakenAndNoneAvailable → after.coldAvailable = 0

/-- What a discard does to a queue whose condition value has just been queried, if due. -/
structure DiscardSpec (condition : CondVal → T → Bool) (before after : ColdQueue T CondVal)
    (result : ColdQueueDiscardResult T) : Prop where
  sectioned : after.Sectioned condition
  lastConditionValue : after.lastConditionValue = before.lastConditionValue
  discarded : ∀ element, result = .discarded element →
    condition after.lastConditionValue element.2 = false
  shortened : result ≠ .notDiscardedAndNoneAvailable →
    after.coldQueue.length - after.coldReady + 1 = before.coldQueue.length - before.coldReady
  exhausted : result = .notDiscardedAndNoneAvailable →
    after = before ∧ before.coldReady = before.coldQueue.length

section

variable (hsections : self.Sectioned condition) (read : ColdRead CondVal)
include hsections read

/-- Taking from a sectioned queue does not panic. -/
theorem Sectioned.take :
    ∃ after result, self.take condition read = .ok (after, result) ∧
      TakeSpec condition (self.updateConditionValueIfDue read) after result := by
  have hqueried := hsections.updateConditionValueIfDue read
  unfold ColdQueue.take
  generalize self.updateConditionValueIfDue read = queried at hqueried ⊢
  obtain ⟨ready, available, queue, lastConditionValue, nextFetchDue⟩ := queried
  obtain ⟨hready_le, havailable_le, hready, hoffline⟩ := hqueried
  dsimp only at hready_le havailable_le hready hoffline ⊢
  cases available with
  | zero =>
    refine ⟨_, _, if_pos rfl, ⟨⟨hready_le, havailable_le, hready, hoffline⟩, rfl, ?_, ?_, ?_⟩⟩
    · simp
    · simp
    · exact fun _ ↦ rfl
  | succ available =>
    cases queue with
    | nil => simp at havailable_le
    | cons element rest =>
      rw [List.length_cons] at havailable_le
      rw [List.drop_succ_cons] at hoffline
      cases ready with
      | succ =>
        rw [List.take_succ_cons] at hready
        refine ⟨_, _, rfl, ⟨⟨?_, ?_, ?_, hoffline⟩, rfl, ?_, ?_, ?_⟩⟩
        · exact Nat.le_of_succ_le_succ hready_le
        · exact Nat.le_of_succ_le_succ havailable_le
        · exact fun other hother ↦ hready other (List.mem_cons_of_mem _ hother)
        · intro _ htaken
          cases htaken
          exact hready element List.mem_cons_self
        · simp
        · simp
      | zero =>
        by_cases hcond : condition lastConditionValue element.2 = true
        · refine ⟨⟨0, available, rest, lastConditionValue, nextFetchDue⟩, .taken element,
            by simp [hcond], ⟨⟨Nat.zero_le _, Nat.le_of_succ_le_succ havailable_le, by simp,
              hoffline⟩, rfl, ?_, by simp, by simp⟩⟩
          intro _ htaken
          cases htaken
          exact hcond
        · refine ⟨⟨0, available, rest ++ [element], lastConditionValue, nextFetchDue⟩,
            .notTakenButSomeMayBeAvailable, by simp [hcond],
            ⟨⟨Nat.zero_le _, ?_, by simp, ?_⟩, rfl, by simp, fun _ ↦ rfl, by simp⟩⟩
          · simp only [List.length_append, List.length_singleton]
            omega
          · -- the element that was passed over is now the last one
            rw [List.drop_append_of_le_length (Nat.le_of_succ_le_succ havailable_le)]
            exact List.forall_mem_append.mpr
              ⟨hoffline, List.forall_mem_singleton.mpr (eq_false_of_ne_true hcond)⟩

/-- Discarding from a sectioned queue does not panic. -/
theorem Sectioned.discard :
    ∃ after result, self.discard condition read = .ok (after, result) ∧
      DiscardSpec condition (self.updateConditionValueIfDue read) after result := by
  have hqueried := hsections.updateConditionValueIfDue read
  unfold ColdQueue.discard
  generalize self.updateConditionValueIfDue read = queried at hqueried ⊢
  obtain ⟨ready, available, queue, lastConditionValue, _⟩ := queried
  obtain ⟨hready_le, havailable_le, hready, hoffline⟩ := hqueried
  dsimp only at hready_le havailable_le hready hoffline ⊢
  by_cases hall : ready = queue.length
  · exact ⟨_, _, if_pos hall, ⟨⟨hready_le, havailable_le, hready, hoffline⟩, rfl, by simp,
      by simp, fun _ ↦ ⟨rfl, hall⟩⟩⟩
  rw [if_neg hall]
  rcases queue.eq_nil_or_concat with rfl | ⟨initial, element, rfl⟩
  · exact absurd (Nat.le_zero.mp (hready_le.trans havailable_le)) hall
  rw [List.concat_eq_append] at hall havailable_le hready hoffline ⊢
  rw [List.length_append, List.length_singleton] at hall havailable_le
  have hready_lt : ready ≤ initial.length := by omega
  rw [List.take_append_of_le_length hready_lt] at hready
  simp only [List.getLast?_concat, List.dropLast_concat]
  by_cases hunknown : initial.length < available
  · -- nothing is known of the last element, so the condition decides
    have havailable : available = initial.length + 1 := by omega
    subst havailable
    rw [if_pos hunknown]
    by_cases hcond : condition lastConditionValue element.2 = true
    · rw [if_pos hcond]
      refine ⟨_, _, rfl, ⟨⟨?_, ?_, ?_, ?_⟩, rfl, by simp, ?_, by simp⟩⟩
      · exact Nat.succ_le_succ hready_lt
      · simp
      · exact List.forall_mem_cons.mpr ⟨hcond, hready⟩
      · simp
      · intro _
        simp only [List.length_cons, List.length_append, List.length_nil]
        omega
    · rw [if_neg hcond]
      refine ⟨_, _, rfl, ⟨⟨hready_lt, le_rfl, hready, by simp⟩, rfl, ?_, ?_, by simp⟩⟩
      · intro _ hdiscarded
        cases hdiscarded
        exact eq_false_of_ne_true hcond
      · intro _
        simp only [List.length_append, List.length_singleton]
        omega
  · rw [if_neg hunknown]
    have havailable := not_lt.mp hunknown
    rw [List.drop_append_of_le_length havailable] at hoffline
    refine ⟨_, _, rfl, ⟨⟨hready_le, havailable, hready, ?_⟩, rfl, ?_, ?_, by simp⟩⟩
    · exact fun other hother ↦ hoffline other (List.mem_append_left _ hother)
    · intro _ hdiscarded
      cases hdiscarded
      exact hoffline element (List.mem_append_right _ (List.mem_singleton_self _))
    · intro _
      simp only [List.length_append, List.length_singleton]
      omega

variable (id : UniqueId) (value : T)

/-- The element goes to the front if it satisfies the condition and is given back otherwise. -/
theorem Sectioned.addIfConditionSatisfied :
    (self.addIfConditionSatisfied condition read id value).1.Sectioned condition := by
  have hqueried := hsections.updateConditionValueIfDue read
  simp only [ColdQueue.addIfConditionSatisfied]
  split
  next hcond =>
    refine ⟨Nat.succ_le_succ hqueried.ready_le, ?_, ?_, ?_⟩
    · exact Nat.succ_le_succ hqueried.available_le
    · exact List.forall_mem_cons.mpr ⟨hcond, hqueried.ready⟩
    · exact hqueried.offline
  · exact hqueried

/-- The element goes to the back if it violates the condition and is given back otherwise. -/
theorem Sectioned.addIfConditionNotSatisfied :
    (self.addIfConditionNotSatisfied condition read id value).1.Sectioned condition := by
  have hqueried := hsections.updateConditionValueIfDue read
  simp only [ColdQueue.addIfConditionNotSatisfied]
  split
  · exact hqueried
  next hcond =>
    refine ⟨hqueried.ready_le, ?_, ?_, ?_⟩
    · rw [List.length_append]
      exact hqueried.available_le.trans (Nat.le_add_right _ _)
    · rw [List.take_append_of_le_length (hqueried.ready_le.trans hqueried.available_le)]
      exact hqueried.ready
    · rw [List.drop_append_of_le_length hqueried.available_le]
      exact List.forall_mem_append.mpr
        ⟨hqueried.offline, List.forall_mem_singleton.mpr (eq_false_of_ne_true hcond)⟩

end

end ColdQueue

/-! ### Runs of both queues -/

/-- One iteration of a loop, or one of the steps around the loops. -/
inductive QueueEvent (T CondVal : Type) where
  /-- `add_owned` -/
  | add (id : UniqueId) (value : T)
  /-- The condition value is queried at the start of `take_owned` or `maybe_discard_owned`. -/
  | query (read : ColdRead CondVal)
  /-- `take_owned` looks at the cold queue. -/
  | take (read : ColdRead CondVal)
  /-- `take_owned` receives a hot element, if there is one. -/
  | receive (read : ColdRead CondVal)
  /-- `maybe_discard_owned` looks at the cold queue. -/
  | discard (read : ColdRead CondVal)
  /-- `maybe_discard_owned` processes a hot element, if there is one. -/
  | process (read : ColdRead CondVal)

/-- An element that left the queues, with the condition value that was queried last. -/
inductive Removal (T CondVal : Type) where
  | returned (conditionValue : CondVal) (element : UniqueId × T)
  | dropped (conditionValue : CondVal) (element : UniqueId × T)

namespace Removal

def element : Removal T CondVal → UniqueId × T
  | returned _ element => element
  | dropped _ element => element

/-- The element was dropped while one of the given condition values was the last queried. -/
def DroppedUnder (usable : CondVal → Prop) : Removal T CondVal → Prop
  | returned _ _ => False
  | dropped conditionValue _ => usable conditionValue

/-- What is returned satisfies the condition and what is dropped violates it. -/
def Justified (condition : CondVal → T → Bool) : Removal T CondVal → Prop
  | returned conditionValue element => condition conditionValue element.2 = true
  | dropped conditionValue element => condition conditionValue element.2 = false

end Removal

/-- The element an event adds, if any. -/
def QueueEvent.added : QueueEvent T CondVal → List (UniqueId × T)
  | add id value => [(id, value)]
  | _ => []

/-- Every reading of a wait gives the same condition value. -/
def TakePoll.Reads (value : CondVal) (poll : TakePoll CondVal) : Prop :=
  poll.read.conditionValue = value ∧ poll.receiveRead.conditionValue = value

/-- Every reading of a discard gives the same condition value. -/
def DiscardReads.Reads (value : CondVal) (reads : DiscardReads CondVal) : Prop :=
  reads.start.conditionValue = value ∧
    (∀ remaining, (reads.cold remaining).conditionValue = value) ∧
    ∀ remaining, (reads.hot remaining).conditionValue = value

/-- The condition values that a discard queries. -/
def DiscardReads.Queried (reads : DiscardReads CondVal) (value : CondVal) : Prop :=
  value = reads.start.conditionValue ∨
    (∃ remaining, value = (reads.cold remaining).conditionValue) ∨
    ∃ remaining, value = (reads.hot remaining).conditionValue

namespace DoubleQueue

variable [DecidableEq CondVal] (condition : CondVal → T → Bool) (self : DoubleQueue T CondVal)

/-- One event, and what left the queues in it. -/
def queueStep :
    QueueEvent T CondVal → NodeResult (DoubleQueue T CondVal × Option (Removal T CondVal))
  | .add id value => .ok (self.addOwned id value, none)
  | .query read => .ok ({ self with cold := self.cold.updateConditionValue read }, none)
  | .take read => do
      let (cold, result) ← self.cold.take condition read
      match result with
      | .taken element =>
          .ok ({ self with cold }, some (.returned cold.lastConditionValue element))
      | _ => .ok ({ self with cold }, none)
  | .receive read =>
      match self.hot with
      | [] => .ok (self, none)
      | (id, value) :: hot =>
          match self.cold.addIfConditionNotSatisfied condition read id value with
          | (cold, .conditionSatisfied value) =>
              .ok ({ hot, cold }, some (.returned cold.lastConditionValue (id, value)))
          | (cold, .enqueued) => .ok ({ hot, cold }, none)
  | .discard read => do
      let (cold, result) ← self.cold.discard condition read
      match result with
      | .discarded element =>
          .ok ({ self with cold }, some (.dropped cold.lastConditionValue element))
      | _ => .ok ({ self with cold }, none)
  | .process read =>
      match self.hot with
      | [] => .ok (self, none)
      | (id, value) :: hot =>
          match self.cold.addIfConditionSatisfied condition read id value with
          | (cold, .conditionNotSatisfied value) =>
              .ok ({ hot, cold }, some (.dropped cold.lastConditionValue (id, value)))
          | (cold, .enqueued) => .ok ({ hot, cold }, none)

/-- A sequence of events, and what left the queues in it, oldest first. -/
def queueRun : DoubleQueue T CondVal → List (QueueEvent T CondVal) →
    NodeResult (DoubleQueue T CondVal × List (Removal T CondVal))
  | self, [] => .ok (self, [])
  | self, event :: rest => do
      let (next, removal) ← queueStep condition self event
      let (after, removals) ← queueRun next rest
      return (after, removal.toList ++ removals)

variable {condition} {self after : DoubleQueue T CondVal}

/-- What an event adds and what leaves the queues in it account for the change of the elements. -/
theorem queueStep_elements {event removal}
    (hstep : queueStep condition self event = .ok (after, removal)) :
    (event.added ++ self.elements).Perm (removal.toList.map Removal.element ++ after.elements) := by
  cases event with
  | add id value =>
    cases hstep
    exact (self.addOwned_elements id value).symm
  | query =>
    cases hstep
    simp [elements, QueueEvent.added]
  | take =>
    simp only [queueStep, bind_eq_ok, Prod.exists] at hstep
    obtain ⟨_, result, htake, hstep⟩ := hstep
    have hperm := (take_coldQueue htake).append_left self.hot
    cases result <;> obtain ⟨rfl, rfl⟩ := Prod.mk.inj (ok.inj hstep)
    case taken element => exact hperm.trans List.perm_middle
    all_goals exact hperm
  | discard =>
    simp only [queueStep, bind_eq_ok, Prod.exists] at hstep
    obtain ⟨_, result, hdiscard, hstep⟩ := hstep
    have hperm := (discard_coldQueue hdiscard).append_left self.hot
    cases result <;> obtain ⟨rfl, rfl⟩ := Prod.mk.inj (ok.inj hstep)
    case discarded element => exact hperm.trans List.perm_middle
    all_goals exact hperm
  | receive read =>
    obtain ⟨_ | ⟨⟨_, value⟩, _⟩, cold⟩ := self
    · cases hstep
      exact List.Perm.refl _
    simp only [queueStep, addIfConditionNotSatisfied] at hstep
    by_cases hcond :
        condition (cold.updateConditionValueIfDue read).lastConditionValue value = true
    · simp only [if_pos hcond] at hstep
      cases hstep
      simp [elements, QueueEvent.added, Removal.element]
    · simp only [if_neg hcond] at hstep
      cases hstep
      simp only [elements, QueueEvent.added, updateConditionValueIfDue_coldQueue,
        List.nil_append, Option.toList_none, List.map_nil]
      rw [← List.append_assoc]
      exact (List.perm_append_singleton _ _).symm
  | process read =>
    obtain ⟨_ | ⟨⟨_, value⟩, _⟩, cold⟩ := self
    · cases hstep
      exact List.Perm.refl _
    simp only [queueStep, addIfConditionSatisfied] at hstep
    by_cases hcond :
        condition (cold.updateConditionValueIfDue read).lastConditionValue value = true
    · simp only [if_pos hcond] at hstep
      cases hstep
      simp only [elements, QueueEvent.added, updateConditionValueIfDue_coldQueue,
        List.nil_append, Option.toList_none, List.map_nil]
      exact List.perm_middle.symm
    · simp only [if_neg hcond] at hstep
      cases hstep
      simp [elements, QueueEvent.added, Removal.element]

/-- The event does not panic, and what leaves the queues does so for a reason. -/
theorem queueStep_spec (hsections : self.cold.Sectioned condition) (event : QueueEvent T CondVal) :
    ∃ after removal, queueStep condition self event = .ok (after, removal) ∧
      after.cold.Sectioned condition ∧ ∀ removed ∈ removal, removed.Justified condition := by
  cases event with
  | add => exact ⟨_, _, rfl, hsections, by simp⟩
  | query read => exact ⟨_, _, rfl, hsections.updateConditionValue read, by simp⟩
  | take read =>
    obtain ⟨_, result, htake, hspec⟩ := hsections.take read
    simp only [queueStep, htake, ok_bind]
    cases result with
    | taken element =>
      exact ⟨_, _, rfl, hspec.sectioned, by rintro removed ⟨⟩; exact hspec.taken element rfl⟩
    | _ => exact ⟨_, _, rfl, hspec.sectioned, by simp⟩
  | discard read =>
    obtain ⟨_, result, hdiscard, hspec⟩ := hsections.discard read
    simp only [queueStep, hdiscard, ok_bind]
    cases result with
    | discarded element =>
      exact ⟨_, _, rfl, hspec.sectioned, by rintro removed ⟨⟩; exact hspec.discarded element rfl⟩
    | _ => exact ⟨_, _, rfl, hspec.sectioned, by simp⟩
  | receive read =>
    obtain ⟨_ | ⟨⟨id, value⟩, _⟩, cold⟩ := self
    · exact ⟨_, _, rfl, hsections, by simp⟩
    have hkept := ColdQueue.Sectioned.addIfConditionNotSatisfied hsections read id value
    simp only [queueStep, addIfConditionNotSatisfied] at hkept ⊢
    by_cases hcond :
        condition (cold.updateConditionValueIfDue read).lastConditionValue value = true
    · simp only [if_pos hcond] at hkept ⊢
      exact ⟨_, _, rfl, hkept, by rintro removed ⟨⟩; exact hcond⟩
    · simp only [if_neg hcond] at hkept ⊢
      exact ⟨_, _, rfl, hkept, by simp⟩
  | process read =>
    obtain ⟨_ | ⟨⟨id, value⟩, _⟩, cold⟩ := self
    · exact ⟨_, _, rfl, hsections, by simp⟩
    have hkept := ColdQueue.Sectioned.addIfConditionSatisfied hsections read id value
    simp only [queueStep, addIfConditionSatisfied] at hkept ⊢
    by_cases hcond :
        condition (cold.updateConditionValueIfDue read).lastConditionValue value = true
    · simp only [if_pos hcond] at hkept ⊢
      exact ⟨_, _, rfl, hkept, by simp⟩
    · simp only [if_neg hcond] at hkept ⊢
      exact ⟨_, _, rfl, hkept, by rintro removed ⟨⟩; exact eq_false_of_ne_true hcond⟩

theorem queueRun_elements {events removals}
    (hrun : queueRun condition self events = .ok (after, removals)) :
    (events.flatMap QueueEvent.added ++ self.elements).Perm
      (removals.map Removal.element ++ after.elements) := by
  induction events generalizing self removals with
  | nil =>
    cases hrun
    exact List.Perm.refl _
  | cons event rest ih =>
    simp only [queueRun, bind_eq_ok, Prod.exists, pure_eq, ok.injEq, Prod.mk.injEq] at hrun
    obtain ⟨next, _, hstep, _, _, hrest, rfl, rfl⟩ := hrun
    -- both sides are the additions of this event, those of the rest, and what was there
    have hfirst := (queueStep_elements hstep).append_left (rest.flatMap QueueEvent.added)
    rw [List.flatMap_cons, List.map_append]
    refine List.Perm.trans ?_ (hfirst.trans ?_)
    · rw [← List.append_assoc]
      exact List.perm_append_comm.append_right self.elements
    · rw [← List.append_assoc]
      refine (List.perm_append_comm.append_right next.elements).trans ?_
      rw [List.append_assoc, List.append_assoc]
      exact (ih hrest).append_left _

/-- What a sequence of events does. -/
theorem queueRun_spec (hsections : self.cold.Sectioned condition)
    (events : List (QueueEvent T CondVal)) :
    ∃ after removals, queueRun condition self events = .ok (after, removals) ∧
      after.cold.Sectioned condition ∧ ∀ removed ∈ removals, removed.Justified condition := by
  induction events generalizing self with
  | nil => exact ⟨_, _, rfl, hsections, by simp⟩
  | cons event _ ih =>
    obtain ⟨_, removal, hstep, hkept, hreason⟩ := queueStep_spec hsections event
    obtain ⟨after, removals, hrun, hafter, hjustified⟩ := ih hkept
    refine ⟨after, removal.toList ++ removals, ?_, hafter, ?_⟩
    · simp only [queueRun, hstep, hrun, ok_bind, pure_eq]
    · intro removed hremoved
      rw [List.mem_append, Option.mem_toList] at hremoved
      exact hremoved.elim (hreason removed) (hjustified removed)

/-! ### Calls as runs -/

variable {middle : DoubleQueue T CondVal}

theorem queueRun_append {first second removals others}
    (hfirst : queueRun condition self first = .ok (middle, removals))
    (hsecond : queueRun condition middle second = .ok (after, others)) :
    queueRun condition self (first ++ second) = .ok (after, removals ++ others) := by
  induction first generalizing self removals with
  | nil =>
    cases hfirst
    exact hsecond
  | cons _ _ ih =>
    simp only [queueRun, bind_eq_ok, Prod.exists, pure_eq, ok.injEq, Prod.mk.injEq] at hfirst
    obtain ⟨_, _, hstep, _, _, hrun, rfl, rfl⟩ := hfirst
    simp only [List.cons_append, queueRun, hstep, ok_bind, ih hrun, pure_eq, List.append_assoc]

/-- The second queue is reached from the first by events that add nothing, with exactly these
removals. -/
def MovesTo (condition : CondVal → T → Bool) (before after : DoubleQueue T CondVal)
    (removals : List (Removal T CondVal)) : Prop :=
  ∃ events, events.flatMap QueueEvent.added = [] ∧
    queueRun condition before events = .ok (after, removals)

theorem MovesTo.refl (self : DoubleQueue T CondVal) : MovesTo condition self self [] :=
  ⟨[], rfl, rfl⟩

theorem MovesTo.trans {removals others} (hfirst : MovesTo condition self middle removals)
    (hsecond : MovesTo condition middle after others) :
    MovesTo condition self after (removals ++ others) := by
  obtain ⟨first, hnone, hfirst⟩ := hfirst
  obtain ⟨second, hnoneAfter, hsecond⟩ := hsecond
  refine ⟨first ++ second, ?_, queueRun_append hfirst hsecond⟩
  rw [List.flatMap_append, hnone, hnoneAfter, List.append_nil]

theorem MovesTo.of_step (event : QueueEvent T CondVal) (removal : Option (Removal T CondVal))
    (hstep : queueStep condition self event = .ok (after, removal)) (hnone : event.added = []) :
    MovesTo condition self after removal.toList := by
  refine ⟨[event], ?_, ?_⟩
  · rw [List.flatMap_singleton, hnone]
  · simp [queueRun, hstep]

theorem MovesTo.query (self : DoubleQueue T CondVal) (read : ColdRead CondVal) :
    MovesTo condition self { self with cold := self.cold.updateConditionValue read } [] :=
  .of_step (.query read) none rfl rfl

variable {removals : List (Removal T CondVal)}

theorem MovesTo.elements (hmoves : MovesTo condition self after removals) :
    self.elements.Perm (removals.map Removal.element ++ after.elements) := by
  obtain ⟨_, hnone, hrun⟩ := hmoves
  have hperm := queueRun_elements hrun
  rwa [hnone, List.nil_append] at hperm

variable {polls : List (TakePoll CondVal)} {taken : Option (UniqueId × T)}

theorem takeLoop_movesTo (hok : takeLoop condition self polls = .ok (after, taken)) :
    MovesTo condition self after (taken.map (.returned after.cold.lastConditionValue)).toList := by
  induction polls generalizing self with
  | nil =>
    obtain ⟨rfl, rfl⟩ := Prod.mk.inj (ok.inj hok)
    exact .refl self
  | cons poll _ ih =>
    simp only [takeLoop, bind_eq_ok, Prod.exists] at hok
    obtain ⟨cold, result, htake, hok⟩ := hok
    cases result with
    | taken element =>
      cases hok
      exact .of_step (.take poll.read) (some (.returned cold.lastConditionValue element))
        (by simp [queueStep, htake]) rfl
    | notTakenButSomeMayBeAvailable =>
      have hmoves : MovesTo condition self { self with cold } [] :=
        .of_step (.take poll.read) none (by simp [queueStep, htake]) rfl
      exact hmoves.trans (ih hok)
    | notTakenAndNoneAvailable =>
      have hmoves : MovesTo condition self { self with cold } [] :=
        .of_step (.take poll.read) none (by simp [queueStep, htake]) rfl
      simp only at hok
      split at hok
      · exact hmoves.trans (ih hok)
      · split at hok
        · cases hok
          exact hmoves
        next id value hot hhot =>
          split at hok
          next next returned hadd =>
            cases hok
            exact hmoves.trans (.of_step (.receive poll.receiveRead)
              (some (.returned next.lastConditionValue (id, returned)))
              (by simp [queueStep, hhot, hadd]) rfl)
          next next hadd =>
            have hreceive : MovesTo condition { self with cold } { hot, cold := next } [] :=
              .of_step (.receive poll.receiveRead) none (by simp [queueStep, hhot, hadd]) rfl
            exact hmoves.trans (hreceive.trans (ih hok))

variable {read : ColdRead CondVal} {usable : CondVal → Prop}

/-- A call of `take_owned` is a run in which the element it returns leaves the queues. -/
theorem takeOwned_movesTo (hok : takeOwned condition self read polls = .ok (after, taken)) :
    MovesTo condition self after (taken.map (.returned after.cold.lastConditionValue)).toList :=
  (MovesTo.query self read).trans (takeLoop_movesTo hok)

/-- A take removes exactly the element it returns, and none while it waits. -/
theorem MovesTo.elements_of_taken {value}
    (hmoves : MovesTo condition self after (taken.map (.returned value)).toList) :
    self.elements.Perm (taken.toList ++ after.elements) := by
  have hperm := hmoves.elements
  cases taken <;> exact hperm

/-- A run keeps the queue in order, and its removals are as the condition asks. -/
theorem MovesTo.sound (hmoves : MovesTo condition self after removals)
    (hsections : self.cold.Sectioned condition) :
    after.cold.Sectioned condition ∧ ∀ removed ∈ removals, removed.Justified condition := by
  obtain ⟨events, -, hrun⟩ := hmoves
  obtain ⟨_, _, hreached, hsound⟩ := queueRun_spec hsections events
  obtain ⟨rfl, rfl⟩ := Prod.mk.inj (ok.inj (hrun.symm.trans hreached))
  exact hsound

/-- The second queue is reached from the first by dropping exactly these elements, each of them
under one of the given condition values, and returning none. -/
def DropsTo (condition : CondVal → T → Bool) (usable : CondVal → Prop)
    (before after : DoubleQueue T CondVal) (removals : List (Removal T CondVal)) : Prop :=
  MovesTo condition before after removals ∧ ∀ removed ∈ removals, removed.DroppedUnder usable

theorem DropsTo.refl (self : DoubleQueue T CondVal) : DropsTo condition usable self self [] :=
  ⟨.refl self, by simp⟩

theorem DropsTo.trans {removals others} (hfirst : DropsTo condition usable self middle removals)
    (hsecond : DropsTo condition usable middle after others) :
    DropsTo condition usable self after (removals ++ others) :=
  ⟨hfirst.1.trans hsecond.1, List.forall_mem_append.mpr ⟨hfirst.2, hsecond.2⟩⟩

theorem DropsTo.of_step (event : QueueEvent T CondVal) (removal : Option (Removal T CondVal))
    (hstep : queueStep condition self event = .ok (after, removal)) (hnone : event.added = [])
    (hdropped : ∀ removed ∈ removal, removed.DroppedUnder usable) :
    DropsTo condition usable self after removal.toList :=
  ⟨.of_step event removal hstep hnone,
    fun removed hremoved ↦ hdropped removed (Option.mem_toList.mp hremoved)⟩

theorem DropsTo.elements (hdrops : DropsTo condition usable self after removals) :
    after.elements.Subperm self.elements :=
  (List.sublist_append_right _ _).subperm.trans hdrops.1.elements.symm.subperm

/-- A discard drops the element it reports, or nothing. -/
theorem DropsTo.discard {cold result}
    (hdiscard : self.cold.discard condition read = .ok (cold, result))
    (husable : usable cold.lastConditionValue) :
    DropsTo condition usable self { self with cold }
      (result.removed.map (.dropped cold.lastConditionValue)) := by
  cases result with
  | discarded element =>
    exact .of_step (.discard read) (some (.dropped cold.lastConditionValue element))
      (by simp [queueStep, hdiscard]) rfl (by rintro removed ⟨⟩; exact husable)
  | _ => exact .of_step (.discard read) none (by simp [queueStep, hdiscard]) rfl (by simp)

/-- The first loop of a discard reports the ids of exactly the elements it drops. -/
theorem discardCold_dropsTo {reads : ℕ → ColdRead CondVal} {remaining unprocessed removed ids}
    (hok : discardCold condition reads remaining self removed = .ok (after, ids, unprocessed))
    (hlast : usable self.cold.lastConditionValue)
    (hreads : ∀ remaining, usable (reads remaining).conditionValue) :
    ∃ removals, DropsTo condition usable self after removals ∧
      ids = removed ++ removals.map (·.element.1) ∧ after.hot = self.hot ∧
      usable after.cold.lastConditionValue := by
  induction remaining generalizing self removed with
  | zero =>
    cases hok
    exact ⟨[], .refl _, by simp, rfl, hlast⟩
  | succ remaining ih =>
    simp only [discardCold, bind_eq_ok, Prod.exists] at hok
    obtain ⟨cold, result, hdiscard, hok⟩ := hok
    have hcold : usable cold.lastConditionValue := by
      rw [discard_lastConditionValue hdiscard]
      exact lastConditionValue_updateConditionValueIfDue hlast (hreads (remaining + 1))
    have hdrops := DropsTo.discard hdiscard hcold
    cases result with
    | discarded | notDiscardedButSomeMayBeAvailable =>
      obtain ⟨_, hrest, rfl, hhot, husable⟩ := @ih { self with cold } _ hok hcold
      exact ⟨_, hdrops.trans hrest, by simp [ColdQueueDiscardResult.removed, Removal.element],
        hhot, husable⟩
    | notDiscardedAndNoneAvailable =>
      cases hok
      exact ⟨_, hdrops, by simp [ColdQueueDiscardResult.removed], rfl, hcold⟩

/-- The second loop of a discard drops elements of the hot queue only. -/
theorem processHot_dropsTo {reads : ℕ → ColdRead CondVal} {remaining}
    (hlast : usable self.cold.lastConditionValue)
    (hreads : ∀ remaining, usable (reads remaining).conditionValue) :
    ∃ removals, DropsTo condition usable self (processHot condition reads remaining self) removals ∧
      ∀ removed ∈ removals, removed.element ∈ self.hot := by
  induction remaining generalizing self with
  | zero => exact ⟨[], .refl self, by simp⟩
  | succ remaining ih =>
    obtain ⟨_ | ⟨⟨id, value⟩, hot⟩, cold⟩ := self
    · exact ⟨[], .refl _, by simp⟩
    have hnext := addIfConditionSatisfied_spec condition cold (reads (remaining + 1)) id value
    rcases hadd : cold.addIfConditionSatisfied condition (reads (remaining + 1)) id value with
      ⟨next, returned | _⟩
    all_goals
      simp only [hadd] at hnext
      have husable : usable next.lastConditionValue := by
        rw [hnext.1]
        exact lastConditionValue_updateConditionValueIfDue hlast (hreads (remaining + 1))
      obtain ⟨removals, hdrops, hhot⟩ := @ih { hot, cold := next } husable
      have hrest : ∀ removed ∈ removals, removed.element ∈ (id, value) :: hot :=
        fun removed hremoved ↦ List.mem_cons_of_mem _ (hhot removed hremoved)
      simp only [processHot, hadd]
    · obtain rfl := hnext.2 returned rfl
      exact ⟨_, (DropsTo.of_step (.process (reads (remaining + 1)))
        (some (.dropped next.lastConditionValue (id, returned))) (by simp [queueStep, hadd]) rfl
        (by rintro removed ⟨⟩; exact husable)).trans hdrops,
        List.forall_mem_cons.mpr ⟨List.mem_cons_self, hrest⟩⟩
    · exact ⟨_, (DropsTo.of_step (.process (reads (remaining + 1))) none
        (by simp [queueStep, hadd]) rfl (by simp)).trans hdrops, hrest⟩

/-- A call of `maybe_discard_owned` is a run that drops elements and returns none. It reports the
ids of exactly those it drops from the cold queue; the others were waiting in the hot queue. -/
theorem maybeDiscardOwned_dropsTo {reads numElementsToProcess ids}
    (hok : maybeDiscardOwned condition self reads numElementsToProcess = .ok (after, ids)) :
    ∃ fromCold fromHot, DropsTo condition reads.Queried self after (fromCold ++ fromHot) ∧
      ids = fromCold.map (·.element.1) ∧ ∀ removed ∈ fromHot, removed.element ∈ self.hot := by
  simp only [maybeDiscardOwned, bind_eq_ok, Prod.exists, pure_eq, ok.injEq, Prod.mk.injEq] at hok
  obtain ⟨_, _, remaining, hcold, rfl, rfl⟩ := hok
  have hlast := self.cold.updateConditionValue_lastConditionValue reads.start
  obtain ⟨fromCold, hfirst, rfl, hsame, husable⟩ := discardCold_dropsTo hcold
    (show reads.Queried _ from .inl hlast) fun remaining ↦ .inr (.inl ⟨remaining, rfl⟩)
  obtain ⟨fromHot, hsecond, hhot⟩ := @processHot_dropsTo _ _ _ condition _ _ reads.hot remaining
    husable fun remaining ↦ .inr (.inr ⟨remaining, rfl⟩)
  have hquery : DropsTo condition reads.Queried self
      { self with cold := self.cold.updateConditionValue reads.start } [] :=
    ⟨.query _ _, by simp⟩
  exact ⟨fromCold, fromHot, hquery.trans (hfirst.trans hsecond), by simp, hsame ▸ hhot⟩

/-! ### The loops finish -/

/-- An iteration that neither returns nor sleeps lowers the second barrier or receives a hot
element, so more such iterations than there are elements end with both exhausted. -/
theorem takeLoop_finishes {value polls} (hsections : self.cold.Sectioned condition)
    (hvalue : self.cold.lastConditionValue = value) (hreads : ∀ poll ∈ polls, poll.Reads value)
    (hpolls : self.cold.coldAvailable + self.hot.length <
      polls.countP fun poll ↦ !poll.sleepElapsed) :
    ∃ after taken, takeLoop condition self polls = .ok (after, taken) ∧
      after.cold.Sectioned condition ∧ after.cold.lastConditionValue = value ∧
      (taken = none → after.hot = [] ∧ after.cold.coldAvailable = 0) := by
  induction polls generalizing self with
  | nil => simp at hpolls
  | cons poll rest ih =>
    obtain ⟨⟨hread, hreceive⟩, hrest⟩ := List.forall_mem_cons.mp hreads
    obtain ⟨hlast, -, _⟩ := updateConditionValueIfDue_of_eq (hread.trans hvalue.symm)
    obtain ⟨cold, result, htake, hspec⟩ := hsections.take poll.read
    have hcold : cold.lastConditionValue = value :=
      (hspec.lastConditionValue.trans hlast).trans hvalue
    have hcount := List.countP_cons (p := fun poll : TakePoll CondVal ↦ !poll.sleepElapsed)
      (a := poll) (l := rest)
    simp only [takeLoop, htake, ok_bind]
    cases result with
    | taken => exact ⟨_, _, rfl, hspec.sectioned, hcold, by simp⟩
    | notTakenButSomeMayBeAvailable =>
      have hlower := hspec.rotated rfl
      refine @ih { self with cold } hspec.sectioned hcold hrest ?_
      simp only
      split at hcount <;> omega
    | notTakenAndNoneAvailable =>
      have hempty := hspec.exhausted rfl
      simp only
      cases hsleep : poll.sleepElapsed with
      | true =>
        simp only [if_true]
        refine @ih { self with cold } hspec.sectioned hcold hrest ?_
        simp only [hsleep, Bool.not_true, Bool.false_eq_true, if_false] at hcount
        simp only
        omega
      | false =>
        simp only [Bool.false_eq_true, if_false]
        obtain ⟨hot, _⟩ := self
        cases hot with
        | nil => exact ⟨_, _, rfl, hspec.sectioned, hcold, fun _ ↦ ⟨rfl, hempty⟩⟩
        | cons element hot =>
          obtain ⟨id, asset⟩ := element
          have hkept := hspec.sectioned.addIfConditionNotSatisfied poll.receiveRead id asset
          obtain ⟨hsame, -, _⟩ := updateConditionValueIfDue_of_eq (hreceive.trans hcold.symm)
          simp only [addIfConditionNotSatisfied] at hkept ⊢
          by_cases hcond :
              condition (cold.updateConditionValueIfDue poll.receiveRead).lastConditionValue
                asset = true
          · simp only [if_pos hcond] at hkept ⊢
            exact ⟨_, _, rfl, hkept, hsame.trans hcold, by simp⟩
          · simp only [if_neg hcond] at hkept ⊢
            refine @ih ⟨hot, _⟩ hkept (hsame.trans hcold) hrest ?_
            simp only [hsleep, Bool.not_false, if_true, List.length_cons] at hcount hpolls ⊢
            omega

variable {value : CondVal}

/-- With a fixed condition value `take_owned` returns an element, unless none satisfies the
condition. -/
theorem takeOwned_finishes {read} (hsections : self.cold.Sectioned condition)
    (hread : read.conditionValue = value) (hreads : ∀ poll ∈ polls, poll.Reads value)
    (hpolls : self.elements.length < polls.countP fun poll ↦ !poll.sleepElapsed) :
    ∃ after taken, takeOwned condition self read polls = .ok (after, taken) ∧
      (taken = none → ∀ element ∈ self.elements, condition value element.2 = false) := by
  have hupdated := hsections.updateConditionValue read
  have hlast := self.cold.updateConditionValue_lastConditionValue read
  have hlength := hupdated.available_le
  rw [updateConditionValue_coldQueue] at hlength
  rw [elements, List.length_append] at hpolls
  obtain ⟨after, taken, hloop, hafter, hvalue, hwaiting⟩ :=
    @takeLoop_finishes T CondVal _ condition
      { self with cold := self.cold.updateConditionValue read } _ _ hupdated (hlast.trans hread)
      hreads (by simp only; omega)
  refine ⟨after, taken, hloop, ?_⟩
  rintro rfl element helement
  -- nothing was taken, so the element is still there, behind the second barrier
  obtain ⟨hhot, havailable⟩ := hwaiting rfl
  have hmem : element ∈ after.elements :=
    (takeOwned_movesTo hloop).elements_of_taken.subset helement
  rw [elements, hhot, List.nil_append] at hmem
  have hoffline := hafter.offline element
  rw [havailable, List.drop_zero, hvalue] at hoffline
  exact hoffline hmem

/-- Each discard shortens the part of the cold queue behind the first barrier by one. -/
theorem discardCold_finishes {value} {reads : ℕ → ColdRead CondVal} {remaining}
    (hsections : self.cold.Sectioned condition) (hvalue : self.cold.lastConditionValue = value)
    (hreads : ∀ remaining, (reads remaining).conditionValue = value) (removed : List UniqueId) :
    ∃ after ids unprocessed, discardCold condition reads remaining self removed =
        .ok (after, ids, unprocessed) ∧ after.hot = self.hot ∧ after.cold.Sectioned condition ∧
      after.cold.lastConditionValue = value ∧
      (self.cold.coldQueue.length - self.cold.coldReady ≤ remaining →
        after.cold.coldReady = after.cold.coldQueue.length ∧
        remaining = self.cold.coldQueue.length - self.cold.coldReady + unprocessed) := by
  induction remaining generalizing self removed with
  | zero =>
    refine ⟨self, removed, 0, rfl, rfl, hsections, hvalue, fun hlength ↦ ⟨?_, by omega⟩⟩
    have hle := hsections.ready_le.trans hsections.available_le
    omega
  | succ remaining ih =>
    obtain ⟨cold, result, hdiscard, hspec⟩ := hsections.discard (reads (remaining + 1))
    obtain ⟨hlast, hready, -⟩ :=
      updateConditionValueIfDue_of_eq ((hreads (remaining + 1)).trans hvalue.symm)
    have hcold : cold.lastConditionValue = value :=
      (hspec.lastConditionValue.trans hlast).trans hvalue
    have hshorter := hspec.shortened
    rw [updateConditionValueIfDue_coldQueue, hready] at hshorter
    simp only [discardCold, hdiscard, ok_bind]
    cases result with
    | notDiscardedAndNoneAvailable =>
      obtain ⟨hsame, hall⟩ := hspec.exhausted rfl
      refine ⟨_, _, _, rfl, rfl, hspec.sectioned, hcold, fun _ ↦ ⟨?_, ?_⟩⟩
      · simp only [hsame]
        exact hall
      · rw [updateConditionValueIfDue_coldQueue, hready] at hall
        omega
    | _ =>
      have hstep := hshorter (by simp)
      obtain ⟨after, ids, unprocessed, hok, hhot, hafter, hlast, hdone⟩ :=
        @ih { self with cold } hspec.sectioned hcold _
      refine ⟨after, ids, unprocessed, hok, hhot, hafter, hlast, fun hlength ↦ ?_⟩
      obtain ⟨hall, hcount⟩ := hdone (by simp only; omega)
      exact ⟨hall, by simp only at hcount; omega⟩

/-- With enough iterations the hot queue is emptied, and only elements that satisfy the condition
are kept. -/
theorem processHot_finishes {reads : ℕ → ColdRead CondVal} {remaining}
    (hvalue : self.cold.lastConditionValue = value)
    (hreads : ∀ remaining, (reads remaining).conditionValue = value)
    (hcold : ∀ element ∈ self.cold.coldQueue, condition value element.2 = true)
    (hlength : self.hot.length ≤ remaining) :
    ∀ element ∈ (processHot condition reads remaining self).elements,
      condition value element.2 = true := by
  induction remaining generalizing self with
  | zero =>
    have hhot := List.length_eq_zero_iff.mp (Nat.le_zero.mp hlength)
    simpa only [processHot, elements, hhot, List.nil_append] using hcold
  | succ remaining ih =>
    obtain ⟨hot, _⟩ := self
    cases hot with
    | nil => exact hcold
    | cons element hot =>
      obtain ⟨_, _⟩ := element
      obtain ⟨hlast, -, -⟩ :=
        updateConditionValueIfDue_of_eq ((hreads (remaining + 1)).trans hvalue.symm)
      rw [hvalue] at hlast
      have hshorter : hot.length ≤ remaining := Nat.le_of_succ_le_succ hlength
      simp only [processHot, addIfConditionSatisfied]
      split
      next hcond =>
        refine @ih ⟨hot, _⟩ hlast ?_ hshorter
        rw [hlast] at hcond
        intro other hother
        rw [updateConditionValueIfDue_coldQueue, List.mem_cons] at hother
        rcases hother with rfl | hother
        · exact hcond
        · exact hcold other hother
      next =>
        refine @ih ⟨hot, _⟩ hlast ?_ hshorter
        rw [updateConditionValueIfDue_coldQueue]
        exact hcold

/-- With a fixed condition value `maybe_discard_owned` returns, and keeps only elements that
satisfy the condition if it may process all of them. -/
theorem maybeDiscardOwned_finishes {reads} (hsections : self.cold.Sectioned condition)
    (hreads : reads.Reads value) (numElementsToProcess : ℕ) :
    ∃ after ids, maybeDiscardOwned condition self reads numElementsToProcess = .ok (after, ids) ∧
      (self.elements.length ≤ numElementsToProcess →
        ∀ element ∈ after.elements, condition value element.2 = true) := by
  obtain ⟨hstart, hcold, hhot⟩ := hreads
  have hupdated := hsections.updateConditionValue reads.start
  have hlast := self.cold.updateConditionValue_lastConditionValue reads.start
  obtain ⟨middle, ids, unprocessed, hok, hkept, hmiddle, hvalue, hdone⟩ :=
    @discardCold_finishes T CondVal _ condition
      { self with cold := self.cold.updateConditionValue reads.start } value reads.cold
      numElementsToProcess hupdated (hlast.trans hstart) hcold []
  refine ⟨processHot condition reads.hot unprocessed middle, ids, ?_, fun hlength ↦ ?_⟩
  · simp only [maybeDiscardOwned, hok, ok_bind, pure_eq]
  · simp only [elements, List.length_append, updateConditionValue_coldQueue] at hlength hdone
    obtain ⟨hall, _⟩ := hdone (by omega)
    have hready := hmiddle.ready
    rw [hall, List.take_length, hvalue] at hready
    refine processHot_finishes hvalue hhot hready ?_
    rw [hkept]
    simp only
    omega

/-- In every state of every run the barriers of the cold queue mean what they should, only elements
that satisfy the condition are returned and only those that violate it are dropped, and nothing else
appears or disappears. A call is a run, and with a fixed condition value it comes to an end. -/
theorem queue_sections_kept_and_loops_finish [Inhabited CondVal] (condition : CondVal → T → Bool)
    (now : ℕ) (events : List (QueueEvent T CondVal)) :
    ∃ queue removals, queueRun condition (new now) events = .ok (queue, removals) ∧
      queue.cold.Sectioned condition ∧
      (∀ removed ∈ removals, removed.Justified condition) ∧
      (events.flatMap QueueEvent.added).Perm (removals.map Removal.element ++ queue.elements) ∧
      (∀ read polls after taken, takeOwned condition queue read polls = .ok (after, taken) →
        MovesTo condition queue after
          (taken.map (.returned after.cold.lastConditionValue)).toList ∧
        (∀ element ∈ taken, condition after.cold.lastConditionValue element.2 = true) ∧
        queue.elements.Perm (taken.toList ++ after.elements)) ∧
      (∀ reads count after ids, maybeDiscardOwned condition queue reads count = .ok (after, ids) →
        ∃ fromCold fromHot, DropsTo condition reads.Queried queue after (fromCold ++ fromHot) ∧
          ids = fromCold.map (·.element.1) ∧
          (∀ removed ∈ fromHot, removed.element ∈ queue.hot) ∧
          (∀ removed ∈ fromCold ++ fromHot, removed.Justified condition) ∧
          queue.elements.Perm ((fromCold ++ fromHot).map Removal.element ++ after.elements)) ∧
      (∀ value read polls, read.conditionValue = value →
        (∀ poll ∈ polls, poll.Reads value) →
        queue.elements.length < polls.countP (fun poll ↦ !poll.sleepElapsed) →
        ∃ after taken, takeOwned condition queue read polls = .ok (after, taken) ∧
          (taken = none → ∀ element ∈ queue.elements, condition value element.2 = false)) ∧
      ∀ value reads count, reads.Reads value →
        ∃ after ids, maybeDiscardOwned condition queue reads count = .ok (after, ids) ∧
          (queue.elements.length ≤ count →
            ∀ element ∈ after.elements, condition value element.2 = true) := by
  have hstart : (new now : DoubleQueue T CondVal).cold.Sectioned condition :=
    sectioned_new condition now
  obtain ⟨queue, removals, hrun, hsections, hjustified⟩ := queueRun_spec hstart events
  have hperm := queueRun_elements hrun
  rw [elements_new, List.append_nil] at hperm
  refine ⟨queue, removals, hrun, hsections, hjustified, hperm, ?_, ?_, ?_, ?_⟩
  · intro _ _ _ _ hok
    have hmoves := takeOwned_movesTo hok
    refine ⟨hmoves, ?_, hmoves.elements_of_taken⟩
    rintro element ⟨⟩
    exact (hmoves.sound hsections).2 _ List.mem_cons_self
  · intro _ _ _ _ hok
    obtain ⟨fromCold, fromHot, hdrops, hids, hhot⟩ := maybeDiscardOwned_dropsTo hok
    exact ⟨fromCold, fromHot, hdrops, hids, hhot, (hdrops.1.sound hsections).2, hdrops.1.elements⟩
  · exact fun _ _ _ hread hreads hpolls ↦ takeOwned_finishes hsections hread hreads hpolls
  · exact fun _ _ count hreads ↦ maybeDiscardOwned_finishes hsections hreads count

end DoubleQueue

end NearMpc.Node
