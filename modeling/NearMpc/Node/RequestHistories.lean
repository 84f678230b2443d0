import NearMpc.Node.FinalizedStream
import NearMpc.Node.RequestQueue

/-!
# Histories of the request queue

What one event does to the queue of pending requests, and what holds after any events. The tracker
inside the queue has a history of its own (`blocks`), so that everything known of the tracker holds
here too. Every queued request carries the selection order that its id and the participants give
(`run_faithful`).
-/

set_option autoImplicit false

namespace NearMpc.Node

open Library Library.Outcome PendingRequests

variable {RequestType : Type} [Request RequestType] {sha256 : List UInt8 → BitVec 256}

namespace PendingRequests

variable {queue next : PendingRequests RequestType}

/-- The entry that is made for a new request. -/
def entryOf (sha256 : List UInt8 → BitVec 256) (queue : PendingRequests RequestType) (now : ℕ)
    (block : BlockViewLite) (request : RequestType) : QueuedRequest RequestType :=
  .new sha256 now request block.hash block.height queue.allParticipants

/-- The queue after a block that the tracker accepted. -/
structure BlockNoted (sha256 : List UInt8 → BitVec 256) (queue : PendingRequests RequestType)
    (now : ℕ) (requests : List RequestType) (block : BlockViewLite)
    (newFinalBlocks : List (ℕ × BufferedBlockData)) (next : PendingRequests RequestType) :
    Prop where
  allParticipants : next.allParticipants = queue.allParticipants
  myParticipantId : next.myParticipantId = queue.myParticipantId
  get? : ∀ requestId, next.requests.get? requestId =
    (if ∃ finalBlock ∈ newFinalBlocks, requestId ∈ finalBlock.2.completedRequests then none
      else queue.requests.get? requestId).or
        ((requests.find? fun request ↦ Request.getId request = requestId).map
          (queue.entryOf sha256 now block))

theorem notifyNewBlock_eq_ok {now} {requests : List RequestType} {completedRequests block}
    (hnotify : queue.notifyNewBlock sha256 now requests completedRequests block = .ok next) :
    (∃ newFinalBlocks, queue.recentBlocks.addBlock block
          (bufferedBlockData now requests completedRequests) =
            .ok (next.recentBlocks, newFinalBlocks) ∧
        BlockNoted sha256 queue now requests block newFinalBlocks next) ∨
      (∃ failure, queue.recentBlocks.addBlock block
        (bufferedBlockData now requests completedRequests) = .err failure) ∧ next = queue := by
  unfold notifyNewBlock at hnotify
  cases hadd : queue.recentBlocks.addBlock block
      (bufferedBlockData now requests completedRequests) with
  | panicked =>
    rw [hadd] at hnotify
    exact absurd hnotify (by simp)
  | err failure =>
    rw [hadd] at hnotify
    exact .inr ⟨⟨failure, rfl⟩, (ok.inj hnotify).symm⟩
  | ok result =>
    obtain ⟨_, newFinalBlocks⟩ := result
    rw [hadd] at hnotify
    obtain ⟨remaining, hremoved, hdone⟩ := bind_eq_ok.mp hnotify
    cases hdone
    refine .inl ⟨newFinalBlocks, rfl, rfl, rfl, fun requestId ↦ ?_⟩
    have hinsert := @get?_insertAll RequestType _ remaining requestId
      (queue.entryOf sha256 now block) (fun _ ↦ rfl) requests
    rw [get?_removeFinal hremoved] at hinsert
    exact hinsert

/-- The queue after attempts were handed out. -/
structure Checked (queue : PendingRequests RequestType) (now : ℕ) (network : NetworkView)
    (next : PendingRequests RequestType) (attempts : List RequestType) : Prop where
  allParticipants : next.allParticipants = queue.allParticipants
  myParticipantId : next.myParticipantId = queue.myParticipantId
  recentBlocks : queue.recentBlocks.notifyMaximumHeightAvailable network.maximumHeight =
    .ok next.recentBlocks
  attempts_eq : attempts = queue.requests.items.filterMap fun request ↦
    if (checkRequest now (eligibleLeaders queue.allParticipants network) next.recentBlocks
      queue.myParticipantId request).2 = .attempt then some request.request else none
  get? : ∀ requestId, next.requests.get? requestId =
    (queue.requests.get? requestId).bind fun request ↦
      if (checkRequest now (eligibleLeaders queue.allParticipants network) next.recentBlocks
          queue.myParticipantId request).2 = .remove then none
      else some (checkRequest now (eligibleLeaders queue.allParticipants network)
        next.recentBlocks queue.myParticipantId request).1

/-- The eligible leaders are computed unless adding the threshold to a height overflows. -/
theorem eligibleLeadersAndMaximumHeight_eq_ok {network result} :
    queue.eligibleLeadersAndMaximumHeight network = .ok result ↔
      (∀ participant ∈ queue.allParticipants, participant ∈ network.aliveParticipants →
        network.height participant + staleParticipantThreshold < 2 ^ 64) ∧
      result = (eligibleLeaders queue.allParticipants network, network.maximumHeight) := by
  rw [eligibleLeadersAndMaximumHeight, bind_eq_ok]
  simp only [guardPanic_eq_ok, List.all_eq_true, decide_eq_true_eq, exists_const, pure_eq, ok.injEq]
  exact and_congr_right fun _ ↦ eq_comm

variable {now : ℕ} {network : NetworkView} {attempts : List RequestType}

theorem getRequestsToAttempt_eq_ok
    (hget : queue.getRequestsToAttempt now network = .ok (next, attempts)) :
    Checked queue now network next attempts := by
  unfold getRequestsToAttempt at hget
  obtain ⟨⟨_, _⟩, heligible, hget⟩ := bind_eq_ok.mp hget
  obtain ⟨-, hpair⟩ := eligibleLeadersAndMaximumHeight_eq_ok.mp heligible
  obtain ⟨rfl, rfl⟩ := Prod.mk.inj hpair
  obtain ⟨_, hnotify, hdone⟩ := bind_eq_ok.mp hget
  cases hdone
  refine ⟨rfl, rfl, hnotify, rfl, fun requestId ↦ ?_⟩
  dsimp only
  rw [KeyedTable.get?_update]

variable {requestId : RequestId}

theorem Checked.mem_attempts_iff (hchecked : Checked queue now network next attempts) :
    requestId ∈ attempts.map Request.getId ↔
      ∃ request, queue.requests.get? requestId = some request ∧
        (checkRequest now (eligibleLeaders queue.allParticipants network) next.recentBlocks
          queue.myParticipantId request).2 = .attempt := by
  rw [hchecked.attempts_eq, List.mem_map]
  constructor
  · rintro ⟨_, hmem, rfl⟩
    obtain ⟨request, hqueued, hattempt⟩ := List.mem_filterMap.mp hmem
    split_ifs at hattempt with hcheck
    cases hattempt
    exact ⟨request, KeyedTable.get?_eq_some_iff.mpr ⟨hqueued, rfl⟩, hcheck⟩
  · rintro ⟨request, hfound, hcheck⟩
    obtain ⟨hqueued, hid⟩ := KeyedTable.get?_eq_some_iff.mp hfound
    exact ⟨request.request, List.mem_filterMap.mpr ⟨request, hqueued, if_pos hcheck⟩, hid⟩

/-- The call returns unless a height is so large that adding the threshold overflows. -/
theorem getRequestsToAttempt_returns {added} (hrecord : queue.recentBlocks.Records added) (now : ℕ)
    {network}
    (hheights : ∀ participant ∈ queue.allParticipants, participant ∈ network.aliveParticipants →
      network.height participant + staleParticipantThreshold < 2 ^ 64) :
    ∃ next attempts, queue.getRequestsToAttempt now network = .ok (next, attempts) := by
  obtain ⟨_, _, hnotify, _⟩ :=
    RecentBlocksTracker.notifyMaximumHeightAvailable_eq_ok hrecord.links network.maximumHeight
  have heligible := eligibleLeadersAndMaximumHeight_eq_ok.mpr ⟨hheights, rfl⟩
  unfold getRequestsToAttempt
  simp only [heligible, ok_bind, pure_eq, hnotify]
  exact ⟨_, _, rfl⟩

/-- Every entry is as before up to its progress, and has as many attempts. -/
structure ProgressChanged (queue next : PendingRequests RequestType) : Prop where
  get? : ∃ touch : QueuedRequest RequestType → QueuedRequest RequestType,
    (∀ request, SameRequest (touch request) request ∧
      (touch request).attempts = request.attempts) ∧
    ∀ requestId, next.requests.get? requestId = (queue.requests.get? requestId).map touch

theorem ProgressChanged.exists_before {request : QueuedRequest RequestType}
    (hchanged : ProgressChanged queue next) (hfound : next.requests.get? requestId = some request) :
    ∃ before, queue.requests.get? requestId = some before ∧ SameRequest request before ∧
      request.attempts = before.attempts := by
  obtain ⟨_, htouch, hget⟩ := hchanged.get?
  rw [hget] at hfound
  obtain ⟨before, hbefore, rfl⟩ := Option.map_eq_some_iff.mp hfound
  exact ⟨before, hbefore, htouch before⟩

theorem attemptDropped_changes (queue : PendingRequests RequestType) (requestId : RequestId) :
    ProgressChanged queue (queue.attemptDropped requestId) := by
  refine ⟨fun request ↦ if request.id = requestId then { request with activeAttempt := false }
    else request, fun request ↦ ?_, fun wanted ↦ ?_⟩
  · dsimp only
    split_ifs <;> exact ⟨⟨rfl, rfl, rfl, rfl⟩, rfl⟩
  · rw [attemptDropped, KeyedTable.get?_update, Option.map_eq_bind]
    rfl

theorem responseSubmitted_changes (queue : PendingRequests RequestType) (requestId : RequestId)
    (time : ℕ) : ProgressChanged queue (queue.responseSubmitted requestId time) := by
  refine ⟨fun request ↦ if request.id = requestId
    then { request with lastResponseSubmission := some time } else request, fun request ↦ ?_,
    fun wanted ↦ ?_⟩
  · dsimp only
    split_ifs <;> exact ⟨⟨rfl, rfl, rfl, rfl⟩, rfl⟩
  · rw [responseSubmitted, KeyedTable.get?_update, Option.map_eq_bind]
    rfl

end PendingRequests

namespace RequestHistory

variable {history next : RequestHistory RequestType}

/-- The history of the tracker inside the queue. -/
def blocks (history : RequestHistory RequestType) : TrackerHistory BufferedBlockData where
  tracker := history.queue.recentBlocks
  added := history.added
  stream := history.stream

/-- The history after a new block. -/
theorem step_newBlock {now} {requests : List RequestType} {completedRequests block}
    (hstep : history.step sha256 (.newBlock now requests completedRequests block) = .ok next) :
    (∃ newFinalBlocks,
        history.queue.recentBlocks.addBlock block
            (bufferedBlockData now requests completedRequests) =
          .ok (next.queue.recentBlocks, newFinalBlocks) ∧
        PendingRequests.BlockNoted sha256 history.queue now requests block newFinalBlocks
          next.queue ∧
        next.added = history.added ++
          [(block, bufferedBlockData now requests completedRequests)] ∧
        next.stream = history.stream ++ newFinalBlocks ∧ next.issued = history.issued) ∨
      (∃ failure, history.queue.recentBlocks.addBlock block
        (bufferedBlockData now requests completedRequests) = .err failure) ∧
        next = history := by
  obtain ⟨_, hnotify, hrest⟩ := bind_eq_ok.mp hstep
  rcases notifyNewBlock_eq_ok hnotify with
    ⟨newFinalBlocks, hadd, hnoted⟩ | ⟨⟨failure, hadd⟩, rfl⟩
  · rw [hadd] at hrest
    cases hrest
    exact .inl ⟨newFinalBlocks, hadd, hnoted, rfl, rfl, rfl⟩
  · rw [hadd] at hrest
    exact .inr ⟨⟨failure, hadd⟩, (ok.inj hrest).symm⟩

theorem step_getRequestsToAttempt {now network}
    (hstep : history.step sha256 (.getRequestsToAttempt now network) = .ok next) :
    ∃ attempts, history.queue.getRequestsToAttempt now network = .ok (next.queue, attempts) ∧
      next = { history with
        queue := next.queue, issued := history.issued ++ attempts.map Request.getId } := by
  obtain ⟨⟨_, attempts⟩, hget, hdone⟩ := bind_eq_ok.mp hstep
  cases hdone
  exact ⟨attempts, hget, rfl⟩

/-- The call of the tracker that an event of the queue makes. -/
def trackerCalls : RequestEvent RequestType → List (TrackerCall BufferedBlockData)
  | .newBlock now requests completedRequests block =>
      [.addBlock block (bufferedBlockData now requests completedRequests)]
  | .getRequestsToAttempt _ network => [.notifyMaximumHeightAvailable network.maximumHeight]
  | _ => []

theorem blocks_step {event : RequestEvent RequestType}
    (hstep : history.step sha256 event = .ok next) :
    (trackerCalls event).foldlM TrackerHistory.step history.blocks = .ok next.blocks := by
  cases event with
  | newBlock =>
    simp only [trackerCalls, List.foldlM_cons, List.foldlM_nil, TrackerHistory.step]
    rcases step_newBlock hstep with
      ⟨newFinalBlocks, hadd, -, hadded, hstream, -⟩ | ⟨⟨failure, hadd⟩, rfl⟩
    · rw [blocks, hadd, blocks, hadded, hstream]
      rfl
    · rw [blocks, hadd]
      rfl
  | getRequestsToAttempt =>
    obtain ⟨_, hget, hnext⟩ := step_getRequestsToAttempt hstep
    have hnotify := (getRequestsToAttempt_eq_ok hget).recentBlocks
    simp only [trackerCalls, List.foldlM_cons, List.foldlM_nil, TrackerHistory.step]
    rw [hnext, blocks, hnotify]
    rfl
  | _ =>
    cases hstep
    rfl

/-- What holds of the queue whatever happened to it. -/
structure Faithful (sha256 : List UInt8 → BitVec 256) (participants : List ParticipantId)
    (me : ParticipantId) (history : RequestHistory RequestType) : Prop where
  blocks : history.blocks.Exact
  allParticipants : history.queue.allParticipants = participants
  myParticipantId : history.queue.myParticipantId = me
  order : ∀ requestId request, history.queue.requests.get? requestId = some request →
    request.leaderSelectionOrder = leaderSelectionOrder sha256 participants requestId

variable {participants : List ParticipantId} {me : ParticipantId}

theorem start_faithful :
    Faithful sha256 participants me
      (start participants me : RequestHistory RequestType) where
  blocks := TrackerHistory.start_exact requestExpirationBlocks
  allParticipants := rfl
  myParticipantId := rfl
  order := fun _ _ hfound ↦ absurd hfound.symm (Option.some_ne_none _)

theorem Faithful.step (hfaithful : Faithful sha256 participants me history)
    {event : RequestEvent RequestType} (hstep : history.step sha256 event = .ok next) :
    Faithful sha256 participants me next := by
  have hblocks : next.blocks.Exact := by
    obtain ⟨_, hcalls, _⟩ :=
      foldlM_returns TrackerHistory.step_exact hfaithful.blocks (trackerCalls event)
    rw [blocks_step hstep] at hcalls
    rwa [ok.inj hcalls]
  cases event with
  | newBlock =>
    rcases step_newBlock hstep with ⟨newFinalBlocks, -, hnoted, -, -, -⟩ | ⟨-, rfl⟩
    · refine ⟨hblocks, hnoted.allParticipants.trans hfaithful.allParticipants,
        hnoted.myParticipantId.trans hfaithful.myParticipantId, fun requestId request hfound ↦ ?_⟩
      rw [hnoted.get?, Option.or_eq_some_iff] at hfound
      rcases hfound with hold | ⟨-, hnew⟩
      · split_ifs at hold
        exact hfaithful.order requestId request hold
      · obtain ⟨incoming, hincoming, rfl⟩ := Option.map_eq_some_iff.mp hnew
        have hid : Request.getId incoming = requestId := by
          simpa using List.find?_some hincoming
        rw [← hid, ← hfaithful.allParticipants]
        rfl
    · exact hfaithful
  | getRequestsToAttempt =>
    obtain ⟨_, hget, -⟩ := step_getRequestsToAttempt hstep
    have hchecked := getRequestsToAttempt_eq_ok hget
    refine ⟨hblocks, hchecked.allParticipants.trans hfaithful.allParticipants,
      hchecked.myParticipantId.trans hfaithful.myParticipantId, fun requestId request hfound ↦ ?_⟩
    rw [hchecked.get?] at hfound
    obtain ⟨before, hbefore, hcheck⟩ := Option.bind_eq_some_iff.mp hfound
    split_ifs at hcheck
    cases hcheck
    rw [(checkRequest_same _ _ _ _ before).2.2.2]
    exact hfaithful.order requestId before hbefore
  | attemptDropped dropped =>
    cases hstep
    refine ⟨hblocks, hfaithful.allParticipants, hfaithful.myParticipantId,
      fun requestId request hfound ↦ ?_⟩
    obtain ⟨before, hbefore, hsame, -⟩ :=
      (history.queue.attemptDropped_changes dropped).exists_before hfound
    rw [hsame.2.2.2]
    exact hfaithful.order requestId before hbefore
  | responseSubmitted submitted time =>
    cases hstep
    refine ⟨hblocks, hfaithful.allParticipants, hfaithful.myParticipantId,
      fun requestId request hfound ↦ ?_⟩
    obtain ⟨before, hbefore, hsame, -⟩ :=
      (history.queue.responseSubmitted_changes submitted time).exists_before hfound
    rw [hsame.2.2.2]
    exact hfaithful.order requestId before hbefore

theorem run_faithful {events : List (RequestEvent RequestType)}
    (hrun : run sha256 participants me events = .ok history) :
    Faithful sha256 participants me history := foldlM_invariant Faithful.step start_faithful hrun

end RequestHistory

end NearMpc.Node
