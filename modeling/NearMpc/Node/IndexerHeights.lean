import NearMpc.Node.LeaderAgreement

/-!
# The heights that peers report

Every node tells its peers how far its indexer is. The heights are stored as they are received and
decide which participants count as alive and which may lead a request. Follows
`network/indexer_heights.rs` and the parts of `network.rs` that use the heights.

Both decisions add a tolerance to a height with checked arithmetic, although the height may be any
number of 64 bits: a peer that reports a height close to the largest one stops the node
(`reportedHeight_overflows`). Below that, nothing overflows, and a participant that is as far as all
others is never stale (`reportedHeights_harmless_iff`).
-/

set_option autoImplicit false

namespace NearMpc.Node

open Library Library.Outcome

/-! ### The tracker -/

/-- The height of the indexer of each participant. -/
structure IndexerHeightTracker where
  heights : ParticipantId → Option UInt64

/-- A height with the peer that reports it. -/
structure PeerIndexerHeightMessage where
  sender : ParticipantId
  height : UInt64

namespace IndexerHeightTracker

def new (participants : List ParticipantId) : IndexerHeightTracker where
  heights := fun participant ↦ if participant ∈ participants then some 0 else none

variable (tracker : IndexerHeightTracker) (participant : ParticipantId)

/-- Stores a height that is larger than the one before. A participant that is not listed panics. -/
def setHeight (height : UInt64) : NodeResult IndexerHeightTracker := do
  let current ← unwrap (tracker.heights participant)
  return if current < height
    then { heights := Function.update tracker.heights participant (some height) } else tracker

def getHeights : ParticipantId → Option ℕ :=
  fun participant ↦ (tracker.heights participant).map UInt64.toNat

/-- The height that is used for a participant. -/
def height : ℕ :=
  (tracker.getHeights participant).getD 0

/-- Handles a message about the height of a peer. -/
def receive (message : PeerIndexerHeightMessage) : NodeResult IndexerHeightTracker :=
  tracker.setHeight message.sender message.height

end IndexerHeightTracker

/-! ### The participants that are alive -/

def maxHeightDiff : ℕ := 50

/-- What a node knows of the network when it asks who is alive. -/
structure MeshView where
  myParticipantId : ParticipantId
  allParticipantIds : List ParticipantId
  isBidirectionallyConnected : ParticipantId → Bool
  indexerHeights : IndexerHeightTracker

namespace MeshView

variable (mesh : MeshView) (participant : ParticipantId)

def height : ℕ := mesh.indexerHeights.height participant

/-- The peer is connected and its indexer is not too far behind. -/
def IsAlivePeer : Prop :=
  mesh.height mesh.myParticipantId ≤ mesh.height participant + maxHeightDiff ∧
    mesh.isBidirectionallyConnected participant = true

instance (participant : ParticipantId) : Decidable (mesh.IsAlivePeer participant) :=
  inferInstanceAs (Decidable (_ ∧ _))

/-- The body of the loop over the participants. The addition of the tolerance is checked, also for a
peer that is not connected. -/
def considerPeer (result : List ParticipantId) (participant : ParticipantId) :
    NodeResult (List ParticipantId) :=
  if participant = mesh.myParticipantId then .ok result
  else do
    guardPanic (mesh.height participant + maxHeightDiff < 2 ^ 64)
    return if mesh.IsAlivePeer participant then result ++ [participant] else result

/-- The participants that are alive, this node included, in order. -/
def allAliveParticipantIds : NodeResult (List ParticipantId) := do
  let result ← mesh.allParticipantIds.foldlM mesh.considerPeer []
  return (result ++ [mesh.myParticipantId]).insertionSort (· ≤ ·)

variable {mesh}

theorem foldlM_considerPeer_eq_ok {participants result final : List ParticipantId} :
    participants.foldlM mesh.considerPeer result = .ok final ↔
      (∀ participant ∈ participants, participant ≠ mesh.myParticipantId →
        mesh.height participant + maxHeightDiff < 2 ^ 64) ∧
      final = result ++ participants.filter fun participant ↦
        participant ≠ mesh.myParticipantId ∧ mesh.IsAlivePeer participant := by
  induction participants generalizing result with
  | nil => simp [eq_comm]
  | cons participant _ ih =>
    rw [List.foldlM_cons, List.forall_mem_cons, List.filter_cons, considerPeer]
    generalize 2 ^ 64 = limit at *
    by_cases hme : participant = mesh.myParticipantId
    · simp [hme, ih]
    · by_cases hsmall : mesh.height participant + maxHeightDiff < limit
      · by_cases halive : mesh.IsAlivePeer participant <;>
          simp [hme, hsmall, halive, ih, guardPanic]
      · simp [hme, hsmall, guardPanic]

variable {alive : List ParticipantId}

/-- The computation returns exactly if no addition for a peer overflows. -/
theorem allAliveParticipantIds_eq_ok :
    mesh.allAliveParticipantIds = .ok alive ↔
      (∀ participant ∈ mesh.allParticipantIds, participant ≠ mesh.myParticipantId →
        mesh.height participant + maxHeightDiff < 2 ^ 64) ∧
      alive = ((mesh.allParticipantIds.filter fun participant ↦
        participant ≠ mesh.myParticipantId ∧ mesh.IsAlivePeer participant) ++
          [mesh.myParticipantId]).insertionSort (· ≤ ·) := by
  rw [allAliveParticipantIds, bind_eq_ok]
  simp only [foldlM_considerPeer_eq_ok, pure_eq, ok.injEq, List.nil_append]
  constructor
  · rintro ⟨_, ⟨hsmall, rfl⟩, rfl⟩
    exact ⟨hsmall, rfl⟩
  · rintro ⟨hsmall, rfl⟩
    exact ⟨_, ⟨hsmall, rfl⟩, rfl⟩

theorem mem_allAliveParticipantIds {participant} (halive : mesh.allAliveParticipantIds = .ok alive)
    :
    participant ∈ alive ↔ participant = mesh.myParticipantId ∨
      participant ∈ mesh.allParticipantIds ∧ mesh.IsAlivePeer participant := by
  rw [(allAliveParticipantIds_eq_ok.mp halive).2, List.mem_insertionSort, List.mem_append,
    List.mem_filter, List.mem_singleton]
  by_cases hme : participant = mesh.myParticipantId <;> simp [hme]

/-- What the queue of requests is told about the network. -/
def networkView (mesh : MeshView) (alive : List ParticipantId) : NetworkView where
  aliveParticipants := alive.toFinset
  indexerHeights := mesh.indexerHeights.getHeights

end MeshView

/-! ### Alive participants and eligible leaders -/

variable {RequestType : Type} [Request RequestType] (mesh : MeshView)
  (queue : PendingRequests RequestType)

/-- The participants are found alive and eligible without an overflow, and a connected participant
that is as far as all others counts as both. -/
def HeightsHarmless : Prop :=
  ∃ alive eligible maximum, mesh.allAliveParticipantIds = .ok alive ∧
    queue.eligibleLeadersAndMaximumHeight (mesh.networkView alive) = .ok (eligible, maximum) ∧
    ∀ participant ∈ mesh.allParticipantIds,
      mesh.isBidirectionallyConnected participant = true →
      mesh.height mesh.myParticipantId ≤ mesh.height participant →
      (∀ other ∈ mesh.allParticipantIds, mesh.height other ≤ mesh.height participant) →
        participant ∈ alive ∧ (participant ∈ queue.allParticipants → participant ∈ eligible)

/-- The heights that peers report are harmless exactly as long as adding the tolerances to them does
not overflow. -/
theorem reportedHeights_harmless_iff :
    HeightsHarmless mesh queue ↔
      (∀ participant ∈ mesh.allParticipantIds, participant ≠ mesh.myParticipantId →
        mesh.height participant + maxHeightDiff < 2 ^ 64) ∧
      (mesh.myParticipantId ∈ queue.allParticipants →
        mesh.height mesh.myParticipantId + staleParticipantThreshold < 2 ^ 64) := by
  constructor
  · rintro ⟨alive, eligible, maximum, halive, heligible, -⟩
    obtain ⟨hsmall, -⟩ := PendingRequests.eligibleLeadersAndMaximumHeight_eq_ok.mp heligible
    refine ⟨(MeshView.allAliveParticipantIds_eq_ok.mp halive).1, fun hlisted ↦ ?_⟩
    refine hsmall _ hlisted (List.mem_toFinset.mpr ?_)
    exact (MeshView.mem_allAliveParticipantIds halive).mpr (.inl rfl)
  · rintro ⟨hpeers, hme⟩
    have halive := MeshView.allAliveParticipantIds_eq_ok.mpr ⟨hpeers, rfl⟩
    generalize ((mesh.allParticipantIds.filter fun participant ↦
      participant ≠ mesh.myParticipantId ∧ mesh.IsAlivePeer participant) ++
        [mesh.myParticipantId]).insertionSort (· ≤ ·) = alive at halive
    have hmem := fun participant ↦
      @MeshView.mem_allAliveParticipantIds mesh alive participant halive
    have hsmall : ∀ participant ∈ queue.allParticipants,
        participant ∈ (mesh.networkView alive).aliveParticipants →
          mesh.height participant + staleParticipantThreshold < 2 ^ 64 := by
      intro participant hlisted hin
      by_cases hself : participant = mesh.myParticipantId
      · rw [hself] at hlisted ⊢
        exact hme hlisted
      · have hmember := (hmem participant).mp (List.mem_toFinset.mp hin)
        have hpeer := hpeers participant (hmember.resolve_left hself).1 hself
        unfold maxHeightDiff at hpeer
        unfold staleParticipantThreshold
        omega
    have hreturns := PendingRequests.eligibleLeadersAndMaximumHeight_eq_ok.mpr ⟨hsmall, rfl⟩
    refine ⟨alive, _, _, halive, hreturns, fun participant hmesh hconnected hahead hhighest ↦ ?_⟩
    have hin : participant ∈ alive :=
      (hmem participant).mpr (.inr ⟨hmesh, hahead.trans (Nat.le_add_right _ _), hconnected⟩)
    refine ⟨hin, fun hlisted ↦ mem_eligibleLeaders.mpr ⟨hlisted, ?_, ?_⟩⟩
    · exact List.mem_toFinset.mpr hin
    · refine (Finset.sup_le fun other hother ↦ ?_).trans (Nat.le_add_right _ _)
      rcases (hmem other).mp (List.mem_toFinset.mp hother) with rfl | ⟨hother, -⟩
      · exact hahead
      · exact hhighest other hother

/-- A node with two participants, whose peer has reported the given height. -/
def meshWithPeerAt (height : UInt64) : NodeResult MeshView := do
  let indexerHeights ← (IndexerHeightTracker.new [1, 2]).receive ⟨2, height⟩
  return ⟨1, [1, 2], fun _ ↦ true, indexerHeights⟩

/-- A single message with a large height is stored as it is and overflows. -/
theorem reportedHeight_overflows : ∃ mesh, meshWithPeerAt 18446744073709551615 = .ok mesh ∧
    mesh.allAliveParticipantIds = .panicked ∧
    ¬ HeightsHarmless mesh (.new [1, 2] 1 : PendingRequests RequestId) := by
  have hlooked : (do
      let mesh ← meshWithPeerAt 18446744073709551615
      let _ ← mesh.allAliveParticipantIds
      return true : NodeResult Bool) = .panicked := by
    decide +kernel
  obtain ⟨mesh, hmesh, -⟩ : ∃ mesh, meshWithPeerAt 18446744073709551615 = .ok mesh ∧ True :=
    ⟨_, rfl, trivial⟩
  have hpanics : mesh.allAliveParticipantIds = .panicked := by
    rw [hmesh, ok_bind] at hlooked
    cases halive : mesh.allAliveParticipantIds with
    | panicked => rfl
    | err | ok =>
      rw [halive] at hlooked
      exact absurd hlooked (by simp)
  refine ⟨mesh, hmesh, hpanics, ?_⟩
  rintro ⟨_, _, _, halive, -⟩
  rw [hpanics] at halive
  exact absurd halive (by simp)

end NearMpc.Node
