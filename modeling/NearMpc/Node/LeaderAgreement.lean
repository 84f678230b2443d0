import NearMpc.Node.RequestHistories

/-!
# Agreement on the leader of a request

Nodes that list the same participants, in whatever order, and that see the same network agree on
the leader of every request: the selection order is sorted by a hash and then by the participant, so
that it does not matter how the participants are listed (`leaderSelectionOrder_of_perm`).

A node is given an attempt for a request exactly when it is the leader, the request is queued with a
usable block, and the request is ready for another attempt (`RequestNode.givesAttempt_iff`). A
request is not ready while it was checked less than a second ago, while an attempt is running, after
ten attempts, and for ten seconds after a response was submitted.
-/

set_option autoImplicit false

namespace NearMpc.Node

open Library Library.Outcome PendingRequests

/-! ### The selection order -/

instance : Std.Total SelectionLe where
  total := by
    intro first second
    rcases Nat.lt_trichotomy first.1 second.1 with hless | hequal | hgreater
    · exact .inl (.inl hless)
    · rcases UInt32.le_total first.2 second.2 with hle | hge
      · exact .inl (.inr ⟨hequal, hle⟩)
      · exact .inr (.inr ⟨hequal.symm, hge⟩)
    · exact .inr (.inl hgreater)

instance : IsTrans (ℕ × ParticipantId) SelectionLe where
  trans := by
    rintro first second third (hless | ⟨hequal, hle⟩) (hless' | ⟨hequal', hle'⟩)
    · exact .inl (hless.trans hless')
    · exact .inl (hequal' ▸ hless)
    · exact .inl (hequal ▸ hless')
    · exact .inr ⟨hequal.trans hequal', UInt32.le_trans hle hle'⟩

instance : Std.Antisymm SelectionLe where
  antisymm := by
    rintro ⟨firstHash, first⟩ ⟨secondHash, second⟩ (hless | ⟨hequal, hle⟩)
      (hless' | ⟨hequal', hle'⟩)
    · exact absurd hless (not_lt.mpr hless'.le)
    · exact absurd hless (by simp_all)
    · exact absurd hless' (by simp_all)
    · exact Prod.ext hequal (UInt32.le_antisymm hle hle')

variable {sha256 : List UInt8 → BitVec 256}

/-- The order in which the participants are listed does not matter. -/
theorem leaderSelectionOrder_of_perm {first second} (hperm : first.Perm second)
    (requestId : RequestId) :
    leaderSelectionOrder sha256 first requestId = leaderSelectionOrder sha256 second requestId := by
  unfold leaderSelectionOrder
  generalize (fun participant ↦ (leaderSelectionHash sha256 participant requestId, participant)) =
    ranked
  have hsorted : ((first.map ranked).insertionSort SelectionLe).Perm
      ((second.map ranked).insertionSort SelectionLe) :=
    ((List.perm_insertionSort _ _).trans (hperm.map ranked)).trans
      (List.perm_insertionSort _ _).symm
  rw [hsorted.eq_of_pairwise' (List.pairwise_insertionSort SelectionLe _)
    (List.pairwise_insertionSort SelectionLe _)]

theorem leaderSelectionOrder_perm (participants : List ParticipantId) (requestId : RequestId) :
    (leaderSelectionOrder sha256 participants requestId).Perm participants := by
  unfold leaderSelectionOrder
  have hsorted := (List.perm_insertionSort SelectionLe (participants.map fun participant ↦
    (leaderSelectionHash sha256 participant requestId, participant))).map Prod.snd
  rw [List.map_map] at hsorted
  exact hsorted.trans (by simp [Function.comp_def])

/-! ### The leader -/

/-- The participant is connected and its indexer is not stale. -/
def NetworkView.IsEligible (network : NetworkView) (participant : ParticipantId) : Prop :=
  participant ∈ network.aliveParticipants ∧
    network.maximumHeight ≤ network.height participant + staleParticipantThreshold

variable {participants : List ParticipantId} {network : NetworkView}

theorem mem_eligibleLeaders {participant} :
    participant ∈ eligibleLeaders participants network ↔
      participant ∈ participants ∧ network.IsEligible participant := by
  simp [eligibleLeaders, NetworkView.IsEligible]

/-- The first participant in the selection order that is eligible. -/
def leaderOf (sha256 : List UInt8 → BitVec 256) (participants : List ParticipantId)
    (network : NetworkView) (requestId : RequestId) : Option ParticipantId :=
  (leaderSelectionOrder sha256 participants requestId).find? fun candidate ↦
    candidate ∈ eligibleLeaders participants network

theorem leaderOf_of_perm {first second} (hperm : first.Perm second) (network : NetworkView)
    (requestId : RequestId) :
    leaderOf sha256 first network requestId = leaderOf sha256 second network requestId := by
  have heligible : eligibleLeaders first network =
      eligibleLeaders second network := by
    ext participant
    rw [mem_eligibleLeaders, mem_eligibleLeaders, hperm.mem_iff]
  rw [leaderOf, leaderOf, leaderSelectionOrder_of_perm hperm, heligible]

theorem leaderOf_eligible {requestId leader}
    (hleader : leaderOf sha256 participants network requestId = some leader) :
    leader ∈ participants ∧ network.IsEligible leader :=
  mem_eligibleLeaders.mp (by simpa using List.find?_some hleader)

theorem exists_leaderOf {participants network participant} (hmem : participant ∈ participants)
    (heligible : network.IsEligible participant) (requestId : RequestId) :
    ∃ leader, leaderOf sha256 participants network requestId = some leader := by
  refine Option.isSome_iff_exists.mp (List.find?_isSome.mpr ⟨participant, ?_, ?_⟩)
  · exact (leaderSelectionOrder_perm participants requestId).mem_iff.mpr hmem
  · exact decide_eq_true (mem_eligibleLeaders.mpr ⟨hmem, heligible⟩)

/-! ### Attempts -/

variable {me : ParticipantId}

namespace PendingRequests

variable {RequestType : Type}

/-- The request is due, no attempt is running, there were fewer than ten, and no response was
submitted within the last ten seconds. -/
structure ReadyToAttempt (now : ℕ) (request : QueuedRequest RequestType) : Prop where
  due : request.nextCheckDue ≤ now
  idle : request.activeAttempt = false
  attempts : request.attempts < maxAttemptsPerRequestAsLeader
  settled : ∀ submitted ∈ request.lastResponseSubmission,
    submitted + maxLatencyBeforeExpectingTransactionToFinalize ≤ now

variable {now : ℕ}

theorem any_submitted_iff {submission : Option ℕ} {latency : ℕ} :
    (submission.any fun submitted ↦ now < submitted + latency) = true ↔
      ∃ submitted ∈ submission, now < submitted + latency := by
  cases submission <;> simp

variable {request : QueuedRequest RequestType}

theorem leadRequest_attempt_iff :
    (leadRequest now request).2 = .attempt ↔
      request.attempts < maxAttemptsPerRequestAsLeader ∧
        ∀ submitted ∈ request.lastResponseSubmission,
          submitted + maxLatencyBeforeExpectingTransactionToFinalize ≤ now := by
  unfold leadRequest
  split_ifs with hmany hrecent
  · simp [not_lt.mpr hmany]
  · obtain ⟨submitted, hsubmitted, hlater⟩ := any_submitted_iff.mp hrecent
    exact ⟨False.elim, fun hready ↦ absurd (hready.2 submitted hsubmitted) (not_le.mpr hlater)⟩
  · rw [any_submitted_iff] at hrecent
    push Not at hrecent hmany
    exact ⟨fun _ ↦ ⟨hmany, hrecent⟩, fun _ ↦ rfl⟩

variable {eligible : Finset ParticipantId}

theorem workOnRequest_attempt_iff :
    (workOnRequest now eligible me request).2 = .attempt ↔
      request.currentLeader eligible = some me ∧
        request.attempts < maxAttemptsPerRequestAsLeader ∧
        ∀ submitted ∈ request.lastResponseSubmission,
          submitted + maxLatencyBeforeExpectingTransactionToFinalize ≤ now := by
  unfold workOnRequest
  cases request.currentLeader eligible with
  | none => simp
  | some =>
    dsimp only
    split_ifs with hme
    · rw [leadRequest_attempt_iff, hme]
      simp
    · simp [hme]

theorem checkRequest_attempt_iff {recentBlocks} :
    (checkRequest now eligible recentBlocks me request).2 = .attempt ↔
      ReadyToAttempt now request ∧
        isUsable (recentBlocks.classifyBlock request.blockHash request.blockHeight) = true ∧
        request.currentLeader eligible = some me := by
  unfold checkRequest
  dsimp only
  split_ifs with hearly hactive husable hdiscarded
  · exact ⟨False.elim, fun hall ↦ absurd hall.1.due (not_le.mpr hearly)⟩
  · exact ⟨False.elim, fun hall ↦ absurd hactive (by simp [hall.1.idle])⟩
  · rw [workOnRequest_attempt_iff]
    simp only [Bool.not_eq_true] at hactive
    exact ⟨fun ⟨hleader, hlead⟩ ↦ ⟨⟨not_lt.mp hearly, hactive, hlead.1, hlead.2⟩, husable, hleader⟩,
      fun ⟨hready, _, hleader⟩ ↦ ⟨hleader, hready.attempts, hready.settled⟩⟩
  · exact ⟨False.elim, fun hall ↦ absurd hall.2.1 husable⟩
  · exact ⟨False.elim, fun hall ↦ absurd hall.2.1 husable⟩

variable [Request RequestType] (queue : PendingRequests RequestType)

/-- The next call hands out an attempt for the request. -/
def GivesAttempt (now : ℕ) (network : NetworkView) (requestId : RequestId) : Prop :=
  ∃ next attempts, queue.getRequestsToAttempt now network = .ok (next, attempts) ∧
    requestId ∈ attempts.map Request.getId

/-- The request is queued, is ready for an attempt, and its block is usable once the tracker knows
the largest height of the network. -/
def CanAttempt (now : ℕ) (network : NetworkView) (requestId : RequestId) : Prop :=
  ∃ request recentBlocks, queue.requests.get? requestId = some request ∧
    ReadyToAttempt now request ∧
    queue.recentBlocks.notifyMaximumHeightAvailable network.maximumHeight = .ok recentBlocks ∧
    isUsable (recentBlocks.classifyBlock request.blockHash request.blockHeight) = true

/-- The leader that the queue computes for a request. -/
def leader (network : NetworkView) (requestId : RequestId) : Option ParticipantId :=
  (queue.requests.get? requestId).bind fun request ↦
    request.currentLeader (eligibleLeaders queue.allParticipants network)

variable {queue next : PendingRequests RequestType} {now : ℕ} {network : NetworkView}
  {attempts : List RequestType} {requestId : RequestId}

/-- An attempt is handed out exactly to the leader, when the request can be attempted. -/
theorem Checked.mem_attempts_iff_leader (hchecked : Checked queue now network next attempts) :
    requestId ∈ attempts.map Request.getId ↔
      queue.CanAttempt now network requestId ∧
        queue.leader network requestId = some queue.myParticipantId := by
  rw [hchecked.mem_attempts_iff]
  constructor
  · rintro ⟨request, hfound, hcheck⟩
    obtain ⟨hready, husable, hleader⟩ := checkRequest_attempt_iff.mp hcheck
    refine ⟨⟨request, next.recentBlocks, hfound, hready, hchecked.recentBlocks, husable⟩, ?_⟩
    rw [leader, hfound]
    exact hleader
  · rintro ⟨⟨request, _, hfound, hready, hnotify, husable⟩, hleader⟩
    obtain rfl := ok.inj (hnotify.symm.trans hchecked.recentBlocks)
    rw [leader, hfound] at hleader
    exact ⟨request, hfound, checkRequest_attempt_iff.mpr ⟨hready, husable, hleader⟩⟩

theorem givesAttempt_iff {added} (hrecord : queue.recentBlocks.Records added)
    (hheights : ∀ participant ∈ queue.allParticipants, participant ∈ network.aliveParticipants →
      network.height participant + staleParticipantThreshold < 2 ^ 64) :
    queue.GivesAttempt now network requestId ↔
      queue.CanAttempt now network requestId ∧
        queue.leader network requestId = some queue.myParticipantId := by
  obtain ⟨next, attempts, hget⟩ := getRequestsToAttempt_returns hrecord now hheights
  rw [← (getRequestsToAttempt_eq_ok hget).mem_attempts_iff_leader]
  constructor
  · rintro ⟨_, _, hgiven, hmem⟩
    obtain ⟨rfl, rfl⟩ := Prod.mk.inj (ok.inj (hget.symm.trans hgiven))
    exact hmem
  · exact fun hmem ↦ ⟨next, attempts, hget, hmem⟩

end PendingRequests

/-! ### Nodes that run the queue -/

section Nodes

variable {RequestType : Type} [Request RequestType]

/-- A node, with everything that happened to its queue. -/
structure RequestNode (RequestType : Type) [Request RequestType]
    (sha256 : List UInt8 → BitVec 256) where
  participants : List ParticipantId
  me : ParticipantId
  events : List (RequestEvent RequestType)
  history : RequestHistory RequestType
  run : RequestHistory.run sha256 participants me events = .ok history

variable (node : RequestNode RequestType sha256) {network : NetworkView} {requestId : RequestId}

def RequestNode.queue : PendingRequests RequestType := node.history.queue

/-- A node with the request computes the leader that its participants and the network give. -/
theorem RequestNode.leader_eq (hqueued : (node.queue.requests.get? requestId).isSome) :
    node.queue.leader network requestId = leaderOf sha256 node.participants network requestId := by
  obtain ⟨request, hfound⟩ := Option.isSome_iff_exists.mp hqueued
  have hfaithful := RequestHistory.run_faithful node.run
  have horder := hfaithful.order requestId request hfound
  have hmembers : node.queue.allParticipants = node.participants := hfaithful.allParticipants
  rw [PendingRequests.leader, hfound, leaderOf, ← horder, ← hmembers]
  rfl

theorem RequestNode.givesAttempt_iff (now : ℕ)
    (hheights : ∀ participant ∈ node.participants, participant ∈ network.aliveParticipants →
      network.height participant + staleParticipantThreshold < 2 ^ 64) :
    node.queue.GivesAttempt now network requestId ↔
      node.queue.CanAttempt now network requestId ∧
        leaderOf sha256 node.participants network requestId = some node.me := by
  have hfaithful := RequestHistory.run_faithful node.run
  have hmembers : node.queue.allParticipants = node.participants := hfaithful.allParticipants
  have hme : node.queue.myParticipantId = node.me := hfaithful.myParticipantId
  have hrecord : node.queue.recentBlocks.Records node.history.added := hfaithful.blocks.records
  rw [PendingRequests.givesAttempt_iff hrecord (hmembers ▸ hheights), hme]
  refine and_congr_right fun ⟨request, _, hfound, _⟩ ↦ ?_
  rw [node.leader_eq (Option.isSome_iff_exists.mpr ⟨request, hfound⟩)]

/-- What the nodes agree on about the leader of a request when they all see the same network. -/
structure AgreedLeader {Index : Type} (nodes : Index → RequestNode RequestType sha256)
    (now : Index → ℕ) (network : NetworkView) (requestId : RequestId) : Prop where
  same : ∀ first second, ((nodes first).queue.requests.get? requestId).isSome →
    ((nodes second).queue.requests.get? requestId).isSome →
      (nodes first).queue.leader network requestId = (nodes second).queue.leader network requestId
  eligible : ∀ node, ((nodes node).queue.requests.get? requestId).isSome →
    ∀ participant ∈ (nodes node).participants, network.IsEligible participant →
      ∃ leader ∈ (nodes node).participants, network.IsEligible leader ∧
        (nodes node).queue.leader network requestId = some leader
  only_leader : ∀ node, (nodes node).queue.GivesAttempt (now node) network requestId →
    (nodes node).queue.leader network requestId = some (nodes node).me
  exactly_one : ∀ leader, (nodes leader).queue.CanAttempt (now leader) network requestId →
    (nodes leader).queue.leader network requestId = some (nodes leader).me →
      ∀ node, (nodes node).queue.GivesAttempt (now node) network requestId ↔ node = leader

/-- Nodes with the same participants and the same view of the network agree on the leader of every
request, and an attempt is handed out by the leader's node and by no other. -/
theorem requestLeader_agreed {Index : Type} (nodes : Index → RequestNode RequestType sha256)
    (now : Index → ℕ) (network : NetworkView) (requestId : RequestId)
    (hperm : ∀ first second, (nodes first).participants.Perm (nodes second).participants)
    (hdistinct : Function.Injective fun node ↦ (nodes node).me)
    (hheights : ∀ node, ∀ participant ∈ (nodes node).participants,
      participant ∈ network.aliveParticipants →
        network.height participant + staleParticipantThreshold < 2 ^ 64) :
    AgreedLeader nodes now network requestId := by
  have hagree := fun first second ↦ @leaderOf_of_perm sha256 _ _ (hperm first second) network
    requestId
  have hgives := fun node ↦ @RequestNode.givesAttempt_iff sha256 RequestType _ (nodes node)
    network requestId (now node) (hheights node)
  have hqueued : ∀ node, (nodes node).queue.CanAttempt (now node) network requestId →
      (nodes node).queue.leader network requestId =
        leaderOf sha256 (nodes node).participants network requestId :=
    fun node ⟨request, _, hfound, _⟩ ↦
      (nodes node).leader_eq (Option.isSome_iff_exists.mpr ⟨request, hfound⟩)
  constructor
  case same =>
    intro first second hfirst hsecond
    rw [(nodes first).leader_eq hfirst, (nodes second).leader_eq hsecond, hagree first second]
  case eligible =>
    intro node hsome participant hmem heligible
    obtain ⟨leader, hleader⟩ := @exists_leaderOf sha256 _ _ _ hmem heligible requestId
    rw [(nodes node).leader_eq hsome, hleader]
    obtain ⟨hlisted, hchosen⟩ := leaderOf_eligible hleader
    exact ⟨leader, hlisted, hchosen, rfl⟩
  case only_leader =>
    intro node hgiven
    obtain ⟨hcan, hleader⟩ := (hgives node).mp hgiven
    rw [hqueued node hcan, hleader]
  case exactly_one =>
    intro leader hcan hleader node
    rw [hqueued leader hcan] at hleader
    constructor
    · intro hgiven
      have hnode := ((hgives node).mp hgiven).2
      rw [hagree node leader, hleader] at hnode
      exact (hdistinct (Option.some.inj hnode)).symm
    · rintro rfl
      exact (hgives node).mpr ⟨hcan, hleader⟩

/-- Everyone is connected and at height ten. -/
def twoAtTen : NetworkView := ⟨{1, 2}, fun _ ↦ some 10⟩

/-- What a node attempts that saw one block with one request. -/
def attemptsOf (participants : List ParticipantId) (me : ParticipantId) :
    NodeResult (List RequestId) := do
  let history ← RequestHistory.run (fun _ ↦ 0) participants me [.newBlock 0 [7] [] ⟨1, 10, 0, 0⟩]
  let (_, attempts) ← history.queue.getRequestsToAttempt 5 twoAtTen
  return attempts

theorem exists_node_of_attemptsOf {attempts} (hattempts : attemptsOf participants me = .ok attempts)
    :
    ∃ node : RequestNode RequestId fun _ ↦ 0, node.participants = participants ∧ node.me = me ∧
      ∀ requestId, node.queue.GivesAttempt 5 twoAtTen requestId ↔ requestId ∈ attempts := by
  obtain ⟨history, hrun, hrest⟩ := bind_eq_ok.mp hattempts
  obtain ⟨⟨next, given⟩, hget, hdone⟩ := bind_eq_ok.mp hrest
  obtain rfl := ok.inj hdone
  refine ⟨⟨participants, me, _, history, hrun⟩, rfl, rfl, fun requestId ↦ ?_⟩
  have hmap : given.map Request.getId = given := List.map_id given
  constructor
  · rintro ⟨_, _, hgiven, hmem⟩
    obtain ⟨rfl, rfl⟩ := Prod.mk.inj (ok.inj (hget.symm.trans hgiven))
    rwa [hmap] at hmem
  · intro hmem
    exact ⟨next, given, hget, hmap.symm ▸ hmem⟩

/-- Two nodes that list each other in different orders have a request; the first one leads. -/
theorem requestLeader_agreed_two : ∃ nodes : Fin 2 → RequestNode RequestId fun _ ↦ 0,
    AgreedLeader nodes (fun _ ↦ 5) twoAtTen 7 ∧
      (nodes 0).queue.GivesAttempt 5 twoAtTen 7 ∧
      ¬ (nodes 1).queue.GivesAttempt 5 twoAtTen 7 := by
  obtain ⟨first, hfirstList, _, hfirst⟩ := exists_node_of_attemptsOf
    (show attemptsOf [1, 2] 1 = .ok [7] by decide +kernel)
  obtain ⟨second, hsecondList, _, hsecond⟩ := exists_node_of_attemptsOf
    (show attemptsOf [2, 1] 2 = .ok [] by decide +kernel)
  refine ⟨![first, second], requestLeader_agreed _ _ _ _ ?_ ?_ ?_, ?_, ?_⟩
  · intro one other
    fin_cases one <;> fin_cases other <;> simp [hfirstList, hsecondList, List.Perm.swap]
  · intro one other hsame
    fin_cases one <;> fin_cases other <;> simp_all
  · intro node participant _ _
    exact (by decide : 10 + 10 < 2 ^ 64)
  · exact (hfirst 7).mpr (by simp)
  · exact fun hgiven ↦ absurd ((hsecond 7).mp hgiven) (by simp)

/-- A second call right after the first hands out nothing, though this node leads the request and
its block is usable. -/
theorem requestLeader_waits : ∃ node : RequestNode RequestId fun _ ↦ 0,
    node.participants = [1] ∧ node.me = 1 ∧
      node.events = [.newBlock 0 [7] [] ⟨1, 10, 0, 0⟩, .getRequestsToAttempt 5 twoAtTen] ∧
      node.queue.leader twoAtTen 7 = some 1 ∧
      (∃ request recentBlocks, node.queue.requests.get? 7 = some request ∧
        node.queue.recentBlocks.notifyMaximumHeightAvailable twoAtTen.maximumHeight =
          .ok recentBlocks ∧
        isUsable
          (recentBlocks.classifyBlock request.blockHash request.blockHeight) = true) ∧
      ¬ node.queue.GivesAttempt 5 twoAtTen 7 := by
  have hlooked : (do
      let history ← RequestHistory.run (fun _ ↦ 0) [1] 1
        [.newBlock 0 [7] [] ⟨1, 10, 0, 0⟩, .getRequestsToAttempt 5 twoAtTen]
      let recentBlocks ← history.queue.recentBlocks.notifyMaximumHeightAvailable
        twoAtTen.maximumHeight
      let (_, attempts) ← history.queue.getRequestsToAttempt 5 twoAtTen
      return (history.queue.leader twoAtTen 7, (history.queue.requests.get? 7).map fun request ↦
        isUsable (recentBlocks.classifyBlock request.blockHash
          request.blockHeight), attempts) : NodeResult _) =
        .ok (some 1, some true, ([] : List RequestId)) := by
    decide +kernel
  obtain ⟨history, hrun, hlooked⟩ := bind_eq_ok.mp hlooked
  obtain ⟨recentBlocks, hnotify, hlooked⟩ := bind_eq_ok.mp hlooked
  obtain ⟨⟨_, _⟩, hget, hlooked⟩ := bind_eq_ok.mp hlooked
  obtain ⟨hleader, hpair⟩ := Prod.mk.inj (ok.inj hlooked)
  obtain ⟨hfound, rfl⟩ := Prod.mk.inj hpair
  obtain ⟨request, hrequest, husable⟩ := Option.map_eq_some_iff.mp hfound
  refine ⟨⟨[1], 1, _, history, hrun⟩, rfl, rfl, rfl, hleader,
    ⟨request, recentBlocks, hrequest, hnotify, husable⟩, ?_⟩
  rintro ⟨_, _, hgiven, hmem⟩
  obtain ⟨rfl, rfl⟩ := Prod.mk.inj (ok.inj (hget.symm.trans hgiven))
  exact absurd hmem List.not_mem_nil

end Nodes

end NearMpc.Node
