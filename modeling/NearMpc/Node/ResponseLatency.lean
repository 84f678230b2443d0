import NearMpc.Node.LiveRequests

/-!
# The latency of a response

When the response to a queued request becomes final, the queue subtracts the height of the block in
which the request was first seen from the height of the final block. The first block with a request
need not be an ancestor of the block with its response: the same request may be in two branches, and
the branch that is seen first may be the higher one. Then the subtraction overflows and the node
stops (`responseLatency_underflows`).

As long as no block with a request is higher than a block with its response, every subtraction is
sound (`responseLatency_sound`).
-/

set_option autoImplicit false

namespace NearMpc.Node

open Library Library.Outcome RequestHistory PendingRequests

/-! ### Final blocks were added -/

/-- The final blocks that are returned are among the blocks that were added. -/
theorem RecentBlocksTracker.Records.newFinalBlocks_added {Content : Type}
    {tracker after : RecentBlocksTracker Content} {added : List (BlockViewLite × Content)}
    {block : BlockViewLite} {content : Content} {newFinalBlocks : List (ℕ × Content)}
    (hrecord : tracker.Records added)
    (hadd : tracker.addBlock block content = .ok (after, newFinalBlocks)) :
    ∀ finalBlock ∈ newFinalBlocks, ∃ entry ∈ added ++ [(block, content)],
      finalBlock = (entry.1.height, entry.2) := by
  cases hlookup : tracker.hashToNode block.hash with
  | some =>
    rw [addBlock_of_known hlookup] at hadd
    exact absurd hadd (by simp)
  | none =>
    obtain ⟨_, _, _, _, _, _, hpruned, hinsert,
      hreport, hswitch, -, hheads, -⟩ :=
        addBlock_eq_ok hrecord.links hrecord.heads content hlookup
    obtain ⟨-, rfl⟩ := Prod.mk.inj (ok.inj (hpruned.symm.trans hadd))
    have hlinks := hinsert.links hrecord.links hlookup
    have hsame := hreport.links.trans hswitch.links
    have hraised := hrecord.insertion hlookup hinsert hsame hheads
    intro _ hmem
    obtain ⟨ref, href, hentry⟩ := List.mem_filterMap.mp hmem
    have htrack := (hsame.tracked ref).mpr (hreport.tracked_of_mem hlinks href)
    obtain ⟨found, text, hfound⟩ := hraised.exists_added htrack
    obtain ⟨hhash, hheight⟩ := hraised.node ref found text hfound
    have htext := hraised.content ref found text htrack hfound
    rw [hswitch.links.nodeToContent] at htext
    rw [← hswitch.links.hash, hhash, htext, Option.map_some, ← hswitch.links.height, hheight]
      at hentry
    exact ⟨(found, text), List.mem_of_getElem? hfound, (Option.some.inj hentry).symm⟩

variable {RequestType : Type} [Request RequestType]

/-! ### Removing what is completed -/

namespace PendingRequests

variable {requests : KeyedTable (QueuedRequest.id : QueuedRequest RequestType → RequestId)}
  {finalBlockHeight : ℕ}

theorem removeCompleted_returns {completed}
    (hbelow : ∀ request ∈ requests.get? completed, request.blockHeight ≤ finalBlockHeight) :
    ∃ remaining, removeCompleted finalBlockHeight requests completed = .ok remaining := by
  unfold removeCompleted
  cases hfound : requests.get? completed with
  | none => exact ⟨requests, rfl⟩
  | some request =>
    have hguard : (guardPanic (request.blockHeight ≤ finalBlockHeight) : NodeResult Unit) =
        .ok () := guardPanic_eq_ok.mpr (hbelow request hfound)
    dsimp only
    rw [hguard, ok_bind]
    exact ⟨requests.remove completed, rfl⟩

theorem removeAllCompleted_returns {completed : List RequestId}
    (hbelow : ∀ requestId ∈ completed, ∀ request ∈ requests.get? requestId,
      request.blockHeight ≤ finalBlockHeight) :
    ∃ remaining, completed.foldlM (removeCompleted finalBlockHeight) requests = .ok remaining := by
  induction completed generalizing requests with
  | nil => exact ⟨requests, rfl⟩
  | cons _ _ ih =>
    rw [List.forall_mem_cons] at hbelow
    obtain ⟨_, hfirst⟩ := removeCompleted_returns hbelow.1
    rw [List.foldlM_cons, hfirst, ok_bind]
    refine ih fun requestId hmem request hfound ↦ ?_
    rw [Option.mem_def, get?_removeCompleted hfirst] at hfound
    split_ifs at hfound
    exact hbelow.2 requestId hmem request hfound

/-- Every queued request whose response is in one of the final blocks was seen at most as high. -/
def LatenciesSound
    (requests : KeyedTable (QueuedRequest.id : QueuedRequest RequestType → RequestId))
    (newFinalBlocks : List (ℕ × BufferedBlockData)) : Prop :=
  ∀ finalBlock ∈ newFinalBlocks, ∀ requestId ∈ finalBlock.2.completedRequests,
    ∀ request ∈ requests.get? requestId, request.blockHeight ≤ finalBlock.1

theorem removeFinal_returns {newFinalBlocks : List (ℕ × BufferedBlockData)}
    (hsound : LatenciesSound requests newFinalBlocks) :
    ∃ remaining, newFinalBlocks.foldlM (fun remaining finalBlock ↦
      finalBlock.2.completedRequests.foldlM (removeCompleted finalBlock.1) remaining)
        requests = .ok remaining := by
  induction newFinalBlocks generalizing requests with
  | nil => exact ⟨requests, rfl⟩
  | cons _ _ ih =>
    unfold LatenciesSound at hsound
    rw [List.forall_mem_cons] at hsound
    obtain ⟨_, hfirst⟩ := removeAllCompleted_returns hsound.1
    rw [List.foldlM_cons, hfirst, ok_bind]
    refine ih fun finalBlock hfinal requestId hmem request hfound ↦ ?_
    rw [Option.mem_def, get?_removeAllCompleted hfirst] at hfound
    split_ifs at hfound
    exact hsound.2 finalBlock hfinal requestId hmem request hfound

end PendingRequests

/-! ### Where a queued request was seen -/

namespace RequestHistory

variable {sha256 : List UInt8 → BitVec 256} {participants : List ParticipantId}
  {me : ParticipantId} {history next : RequestHistory RequestType}

/-- The block that an event delivers, with what is buffered of it. -/
def deliveredBlock : RequestEvent RequestType → Option (BlockViewLite × BufferedBlockData)
  | .newBlock now requests completedRequests block =>
      some (block, bufferedBlockData now requests completedRequests)
  | _ => none

def deliveredBlocks (events : List (RequestEvent RequestType)) :
    List (BlockViewLite × BufferedBlockData) :=
  events.filterMap deliveredBlock

/-- Every block that was added was delivered, and every queued request is in one of them, at the
height that is recorded for it. -/
structure Seen (delivered : List (BlockViewLite × BufferedBlockData))
    (history : RequestHistory RequestType) : Prop where
  added : ∀ entry ∈ history.added, entry ∈ delivered
  queued : ∀ requestId request, history.queue.requests.get? requestId = some request →
    ∃ entry ∈ history.added, requestId ∈ entry.2.requests ∧ entry.1.height = request.blockHeight

variable {delivered : List (BlockViewLite × BufferedBlockData)}

theorem Seen.progress {queue : PendingRequests RequestType} (hseen : Seen delivered history)
    (hchanged : PendingRequests.ProgressChanged history.queue queue) :
    Seen delivered { history with queue } := by
  refine ⟨hseen.added, fun requestId request hfound ↦ ?_⟩
  obtain ⟨before, hbefore, hsame, -⟩ := hchanged.exists_before hfound
  rw [hsame.2.2.1]
  exact hseen.queued requestId before hbefore

theorem Seen.step (hseen : Seen delivered history) {event : RequestEvent RequestType}
    (hstep : history.step sha256 event = .ok next) :
    Seen (delivered ++ (deliveredBlock event).toList) next := by
  cases event with
  | newBlock =>
    rcases step_newBlock hstep with ⟨newFinalBlocks, -, hnoted, hadded, -, -⟩ | ⟨-, rfl⟩
    · refine ⟨fun entry hmem ↦ ?_, fun requestId request hfound ↦ ?_⟩
      · rw [hadded] at hmem
        exact List.mem_append.mpr ((List.mem_append.mp hmem).imp_left (hseen.added entry))
      · rw [hadded]
        rw [hnoted.get?, Option.or_eq_some_iff] at hfound
        rcases hfound with hold | ⟨-, hnew⟩
        · split_ifs at hold
          obtain ⟨entry, hmem, hasked⟩ := hseen.queued requestId request hold
          exact ⟨entry, List.mem_append_left _ hmem, hasked⟩
        · obtain ⟨incoming, hincoming, rfl⟩ := Option.map_eq_some_iff.mp hnew
          have hid : Request.getId incoming = requestId := by
            simpa using List.find?_some hincoming
          exact ⟨_, List.mem_append_right _ (List.mem_singleton_self _),
            List.mem_map.mpr ⟨incoming, List.mem_of_find?_eq_some hincoming, hid⟩, rfl⟩
    · exact ⟨fun entry hmem ↦ List.mem_append_left _ (hseen.added entry hmem), hseen.queued⟩
  | getRequestsToAttempt =>
    obtain ⟨_, hget, hnext⟩ := step_getRequestsToAttempt hstep
    have hchecked := getRequestsToAttempt_eq_ok hget
    simp only [deliveredBlock, Option.toList_none, List.append_nil]
    rw [hnext]
    refine ⟨hseen.added, fun requestId request hfound ↦ ?_⟩
    dsimp only at hfound
    rw [hchecked.get?] at hfound
    obtain ⟨before, hbefore, hcheck⟩ := Option.bind_eq_some_iff.mp hfound
    split_ifs at hcheck
    cases hcheck
    rw [(checkRequest_same _ _ _ _ before).2.2.1]
    exact hseen.queued requestId before hbefore
  | attemptDropped dropped =>
    cases hstep
    simp only [deliveredBlock, Option.toList_none, List.append_nil]
    exact hseen.progress (history.queue.attemptDropped_changes dropped)
  | responseSubmitted submitted time =>
    cases hstep
    simp only [deliveredBlock, Option.toList_none, List.append_nil]
    exact hseen.progress (history.queue.responseSubmitted_changes submitted time)

variable {events : List (RequestEvent RequestType)}

theorem foldlM_seen (hseen : Seen delivered history)
    (hrun : events.foldlM (step sha256) history = .ok next) :
    Seen (delivered ++ deliveredBlocks events) next := by
  induction events generalizing history delivered with
  | nil =>
    cases hrun
    rwa [deliveredBlocks, List.filterMap_nil, List.append_nil]
  | cons event _ ih =>
    obtain ⟨_, hstep, hrest⟩ := bind_eq_ok.mp hrun
    have hlast := ih (hseen.step hstep) hrest
    rw [List.append_assoc] at hlast
    cases hdelivered : deliveredBlock event with
    | none | some => simpa [deliveredBlocks, List.filterMap_cons, hdelivered] using hlast

theorem run_seen (hrun : run sha256 participants me events = .ok history) :
    Seen (deliveredBlocks events) history := by
  have hstart : Seen [] (start participants me : RequestHistory RequestType) :=
    ⟨fun _ hmem ↦ absurd hmem List.not_mem_nil,
      fun _ _ hfound ↦ absurd hfound.symm (Option.some_ne_none _)⟩
  exact foldlM_seen hstart hrun

end RequestHistory

/-- No block with a request is higher than a block with its response. -/
def ResponsesFollow (delivered : List (BlockViewLite × BufferedBlockData)) : Prop :=
  ∀ asking ∈ delivered, ∀ answering ∈ delivered, ∀ requestId ∈ asking.2.requests,
    requestId ∈ answering.2.completedRequests → asking.1.height ≤ answering.1.height

/-- Whatever happened to the queue, when a new block makes responses final no latency is negative,
and the call returns. -/
theorem responseLatency_sound (sha256 : List UInt8 → BitVec 256) (participants : List ParticipantId)
    (me : ParticipantId) (events : List (RequestEvent RequestType))
    (history : RequestHistory RequestType) (now : ℕ) (requests : List RequestType)
    (completedRequests : List RequestId) (block : BlockViewLite)
    (hrun : run sha256 participants me events = .ok history)
    (hfollow : ResponsesFollow (deliveredBlocks
      (events ++ [.newBlock now requests completedRequests block]))) :
    (∀ after newFinalBlocks, history.queue.recentBlocks.addBlock block
        (bufferedBlockData now requests completedRequests) =
          .ok (after, newFinalBlocks) →
        PendingRequests.LatenciesSound history.queue.requests newFinalBlocks) ∧
      ∃ next, history.queue.notifyNewBlock sha256 now requests completedRequests block =
        .ok next := by
  have hseen := run_seen hrun
  have hexact := (run_faithful hrun).blocks
  have hsound : ∀ after newFinalBlocks, history.queue.recentBlocks.addBlock block
      (bufferedBlockData now requests completedRequests) =
        .ok (after, newFinalBlocks) →
      PendingRequests.LatenciesSound history.queue.requests newFinalBlocks := by
    intro after newFinalBlocks hadd finalBlock hfinal requestId hmem request hfound
    obtain ⟨answering, hanswering, rfl⟩ :=
      hexact.records.newFinalBlocks_added hadd finalBlock hfinal
    obtain ⟨asking, hasking, hasked, hheight⟩ := hseen.queued requestId request hfound
    rw [deliveredBlocks, List.filterMap_append] at hfollow
    rw [← hheight]
    refine hfollow asking (List.mem_append_left _ (hseen.added asking hasking)) answering ?_
      requestId hasked hmem
    exact List.mem_append.mpr ((List.mem_append.mp hanswering).imp_left (hseen.added answering))
  refine ⟨hsound, ?_⟩
  obtain ⟨_, hstep, -⟩ := TrackerHistory.step_exact hexact (.addBlock block
    (bufferedBlockData now requests completedRequests))
  unfold notifyNewBlock
  cases hadd : history.queue.recentBlocks.addBlock block
      (bufferedBlockData now requests completedRequests) with
  | panicked =>
    rw [TrackerHistory.step, RequestHistory.blocks, hadd] at hstep
    exact absurd hstep (by simp)
  | err => exact ⟨history.queue, rfl⟩
  | ok result =>
    obtain ⟨after, newFinalBlocks⟩ := result
    obtain ⟨_, hremoved⟩ := removeFinal_returns (hsound after newFinalBlocks hadd)
    dsimp only
    rw [hremoved, ok_bind]
    exact ⟨_, rfl⟩

/-- A request is answered in the second block after it. -/
theorem responseLatency_sound_answered : ∃ history : RequestHistory RequestId,
    run (fun _ ↦ 0) [1] 1
        [.newBlock 0 [7] [] ⟨1, 10, 0, 0⟩, .newBlock 0 [] [7] ⟨2, 11, 1, 0⟩] = .ok history ∧
      ∃ next, history.queue.notifyNewBlock (fun _ ↦ 0) 0 [] [] ⟨3, 12, 2, 2⟩ = .ok next := by
  refine Exists.imp (fun history ⟨hrun, _⟩ ↦
    ⟨hrun, (responseLatency_sound _ _ _ _ _ _ _ _ _ hrun ?_).2⟩)
    (exists_of_decide (fun history ↦ history.issued = []) (by decide +kernel))
  simp [ResponsesFollow, deliveredBlocks, deliveredBlock, bufferedBlockData, Request.getId]

/-- A request is first seen in a block at height fifteen, and is answered in another branch at
height twelve. The blocks of that branch follow each other, so that the answer becomes final. -/
def forkedResponse : List (RequestEvent RequestId) :=
  [.newBlock 0 [] [] ⟨1, 10, 0, 0⟩, .newBlock 0 [7] [] ⟨2, 15, 1, 0⟩,
    .newBlock 0 [7] [] ⟨3, 11, 1, 0⟩, .newBlock 0 [] [7] ⟨4, 12, 3, 0⟩,
    .newBlock 0 [] [] ⟨5, 13, 4, 0⟩, .newBlock 0 [] [] ⟨6, 14, 5, 4⟩]

/-- The subtraction overflows although the blocks are as the indexer guarantees. -/
theorem responseLatency_underflows :
    IndexerGuarantees ((deliveredBlocks forkedResponse).map Prod.fst) ∧
      HeightsAscend ((deliveredBlocks forkedResponse).map Prod.fst) ∧
      (∃ history, run (fun _ ↦ 0) [1] 1 (forkedResponse.take 5) = .ok history) ∧
      run (fun _ ↦ 0) [1] 1 forkedResponse = .panicked := by
  refine ⟨.of_parents (by decide) (by decide), by unfold HeightsAscend; decide, ?_, ?_⟩
  · exact Exists.imp (fun _ hrun ↦ hrun.1)
      (exists_of_decide (fun history ↦ history.issued = []) (by decide +kernel))
  · have hlooked : (do
        let history ← run (fun _ ↦ 0) [1] 1 forkedResponse
        return history.issued : NodeResult _) = .panicked := by
      decide +kernel
    cases hrun : run (fun _ ↦ 0) [1] 1 forkedResponse with
    | panicked => rfl
    | err | ok =>
      rw [hrun] at hlooked
      exact absurd hlooked (by simp)

end NearMpc.Node
