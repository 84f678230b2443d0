import NearMpc.Library.KeyedTable
import NearMpc.Node.RecentBlocks

/-!
# The queue of pending requests

The requests a node has seen on chain and may have to answer. Follows `requests/queue.rs`.

The queue is told of every block, removes the requests whose responses are final, and hands out
attempts for the requests whose leader this node is. The leader of a request is the first eligible
participant in an order that depends on the request alone.

`SHA-256` is a parameter. Instants and durations are nanoseconds. A call reads the clock once, and
what the network reports is an argument (`NetworkView`). A `Weak` reference to the attempt that was
handed out becomes the flag `activeAttempt`; dropping the attempt and recording a submission, which
the task that runs the attempt does, are operations of their own.
-/

set_option autoImplicit false

namespace NearMpc.Node

open Library Library.Outcome

abbrev RequestId := CryptoHash

/-- The trait of requests. -/
class Request (RequestType : Type) where
  getId : RequestType → RequestId

/-- A request of which only the id is known. -/
instance : Request RequestId := ⟨id⟩

/-- What the network reports: the connected participants and the heights of the indexers. -/
structure NetworkView where
  aliveParticipants : Finset ParticipantId
  indexerHeights : ParticipantId → Option ℕ

namespace NetworkView

variable (network : NetworkView)

def height (participant : ParticipantId) : ℕ :=
  (network.indexerHeights participant).getD 0

/-- The largest height of the connected participants. -/
def maximumHeight : ℕ := network.aliveParticipants.sup network.height

end NetworkView

def checkEachRequestInterval : ℕ := 1000000000

def staleParticipantThreshold : ℕ := 10

def requestExpirationBlocks : ℕ+ := 200

def maxLatencyBeforeExpectingTransactionToFinalize : ℕ := 10000000000

def maxAttemptsPerRequestAsLeader : ℕ := 10

/-- Block data to be buffered until the block is final. -/
structure BufferedBlockData where
  requests : List RequestId
  completedRequests : List RequestId
  timestampReceived : ℕ
deriving DecidableEq, Repr

/-- The state of a single request in the queue. -/
structure QueuedRequest (RequestType : Type) where
  request : RequestType
  blockHash : CryptoHash
  blockHeight : ℕ
  leaderSelectionOrder : List ParticipantId
  nextCheckDue : ℕ
  attempts : ℕ
  selectedLeader : Option ParticipantId
  lastResponseSubmission : Option ℕ
  activeAttempt : Bool
  timeIndexed : ℕ

variable {RequestType : Type}

/-! ### The leader of a request -/

section Leader

variable (sha256 : List UInt8 → BitVec 256)

/-- The first eight bytes of a hash, read as a little-endian number. -/
def leaderSelectionHash (participantId : ParticipantId) (requestId : RequestId) : ℕ :=
  let hash := sha256 ((BigEndian.toBytes 4 participantId.toNat).reverse ++
    BigEndian.toBytes 32 requestId.toNat)
  BigEndian.ofBytes ((BigEndian.toBytes 32 hash.toNat).take 8).reverse

/-- The order of pairs of a hash and a participant. -/
def SelectionLe (first second : ℕ × ParticipantId) : Prop :=
  first.1 < second.1 ∨ first.1 = second.1 ∧ first.2 ≤ second.2

instance : DecidableRel SelectionLe := fun _ _ ↦ inferInstanceAs (Decidable (_ ∨ _ ∧ _))

/-- The participants in the order in which they are considered as leader of a request. -/
def leaderSelectionOrder (participants : List ParticipantId) (requestId : RequestId) :
    List ParticipantId :=
  ((participants.map fun participant ↦
    (leaderSelectionHash sha256 participant requestId, participant)).insertionSort
      SelectionLe).map Prod.snd

end Leader

namespace QueuedRequest

def new [Request RequestType] (sha256 : List UInt8 → BitVec 256) (now : ℕ) (request : RequestType)
    (blockHash : CryptoHash) (blockHeight : ℕ) (allParticipants : List ParticipantId) :
    QueuedRequest RequestType where
  request
  blockHash
  blockHeight
  leaderSelectionOrder := Node.leaderSelectionOrder sha256 allParticipants (Request.getId request)
  nextCheckDue := now
  attempts := 0
  selectedLeader := none
  lastResponseSubmission := none
  activeAttempt := false
  timeIndexed := now

/-- The first participant in the order that is eligible. -/
def currentLeader (request : QueuedRequest RequestType) (eligibleLeaders : Finset ParticipantId) :
    Option ParticipantId :=
  request.leaderSelectionOrder.find? fun candidate ↦ candidate ∈ eligibleLeaders

def id [Request RequestType] (request : QueuedRequest RequestType) : RequestId :=
  Request.getId request.request

end QueuedRequest

/-! ### The queue -/

structure PendingRequests (RequestType : Type) [Request RequestType] where
  allParticipants : List ParticipantId
  myParticipantId : ParticipantId
  requests : KeyedTable (QueuedRequest.id : QueuedRequest RequestType → RequestId)
  recentBlocks : RecentBlocksTracker BufferedBlockData

/-- What `get_requests_to_attempt` decides about one request. -/
inductive RequestCheck where
  | skip
  | attempt
  | remove
deriving DecidableEq, Repr

namespace PendingRequests

/-- The classifications under which a request is worked on. -/
def isUsable : CheckBlockResult → Bool
  | .recentAndFinal | .optimisticAndCanonical | .unknown => true
  | _ => false

/-- The classifications under which a request is discarded. -/
def isDiscarded : CheckBlockResult → Bool
  | .notIncluded | .olderThanRecentWindow => true
  | _ => false

variable (now : ℕ) (request : QueuedRequest RequestType)

/-- What `get_requests_to_attempt` does for a request that this node leads. -/
def leadRequest : QueuedRequest RequestType × RequestCheck :=
  if maxAttemptsPerRequestAsLeader ≤ request.attempts then (request, .remove)
  else if request.lastResponseSubmission.any fun submitted ↦
      now < submitted + maxLatencyBeforeExpectingTransactionToFinalize
  then (request, .skip)
  else ({ request with attempts := request.attempts + 1, activeAttempt := true }, .attempt)

/-- What `get_requests_to_attempt` does for a request in a usable block. -/
def workOnRequest (now : ℕ) (eligibleLeaders : Finset ParticipantId)
    (myParticipantId : ParticipantId) (request : QueuedRequest RequestType) :
    QueuedRequest RequestType × RequestCheck :=
  match request.currentLeader eligibleLeaders with
  | none => (request, .skip)
  | some leader =>
      let request := { request with selectedLeader := some leader }
      if leader = myParticipantId then leadRequest now request else (request, .skip)

/-- The body of the loop of `get_requests_to_attempt` for one request. -/
def checkRequest (now : ℕ) (eligibleLeaders : Finset ParticipantId)
    (recentBlocks : RecentBlocksTracker BufferedBlockData) (myParticipantId : ParticipantId)
    (request : QueuedRequest RequestType) : QueuedRequest RequestType × RequestCheck :=
  if now < request.nextCheckDue then (request, .skip)
  else
    let request := { request with nextCheckDue := now + checkEachRequestInterval }
    if request.activeAttempt then (request, .skip)
    else
      let classification := recentBlocks.classifyBlock request.blockHash request.blockHeight
      if isUsable classification then workOnRequest now eligibleLeaders myParticipantId request
      else if isDiscarded classification then (request, .remove)
      else (request, .skip)

/-- The two entries agree on what was recorded when the request came in. -/
def SameRequest (first second : QueuedRequest RequestType) : Prop :=
  first.request = second.request ∧ first.blockHash = second.blockHash ∧
    first.blockHeight = second.blockHeight ∧
    first.leaderSelectionOrder = second.leaderSelectionOrder

theorem leadRequest_same : SameRequest (leadRequest now request).1 request := by
  unfold leadRequest
  split_ifs <;> exact ⟨rfl, rfl, rfl, rfl⟩

theorem workOnRequest_same (now : ℕ) (eligibleLeaders : Finset ParticipantId)
    (myParticipantId : ParticipantId) (request : QueuedRequest RequestType) :
    SameRequest (workOnRequest now eligibleLeaders myParticipantId request).1 request := by
  unfold workOnRequest
  cases request.currentLeader eligibleLeaders with
  | none => exact ⟨rfl, rfl, rfl, rfl⟩
  | some =>
    dsimp only
    split_ifs
    · exact leadRequest_same now _
    · exact ⟨rfl, rfl, rfl, rfl⟩

/-- A check leaves alone what was recorded when the request came in. -/
theorem checkRequest_same (now : ℕ) (eligibleLeaders : Finset ParticipantId)
    (recentBlocks : RecentBlocksTracker BufferedBlockData) (myParticipantId : ParticipantId)
    (request : QueuedRequest RequestType) :
    SameRequest (checkRequest now eligibleLeaders recentBlocks myParticipantId request).1
      request := by
  unfold checkRequest
  dsimp only
  split_ifs
  · exact ⟨rfl, rfl, rfl, rfl⟩
  · exact ⟨rfl, rfl, rfl, rfl⟩
  · exact workOnRequest_same now eligibleLeaders myParticipantId _
  · exact ⟨rfl, rfl, rfl, rfl⟩
  · exact ⟨rfl, rfl, rfl, rfl⟩

variable [Request RequestType] (allParticipants : List ParticipantId)

def new (myParticipantId : ParticipantId) : PendingRequests RequestType where
  allParticipants
  myParticipantId
  requests := .empty
  recentBlocks := .new requestExpirationBlocks

/-- Removes a request whose response is in a final block. The latency in blocks is a checked
subtraction. -/
def removeCompleted (finalBlockHeight : ℕ)
    (requests : KeyedTable (QueuedRequest.id : QueuedRequest RequestType → RequestId))
    (requestId : RequestId) :
    NodeResult (KeyedTable (QueuedRequest.id : QueuedRequest RequestType → RequestId)) :=
  match requests.get? requestId with
  | none => .ok requests
  | some request => do
      guardPanic (request.blockHeight ≤ finalBlockHeight)
      return requests.remove requestId

/-- What is buffered of a new block. -/
def bufferedBlockData (now : ℕ) (requests : List RequestType)
    (completedRequests : List RequestId) : BufferedBlockData where
  requests := requests.map Request.getId
  completedRequests
  timestampReceived := now

/-- A block that the tracker refuses is ignored. -/
def notifyNewBlock (sha256 : List UInt8 → BitVec 256) (queue : PendingRequests RequestType)
    (now : ℕ) (requests : List RequestType) (completedRequests : List RequestId)
    (block : BlockViewLite) : NodeResult (PendingRequests RequestType) :=
  match queue.recentBlocks.addBlock block (bufferedBlockData now requests completedRequests) with
  | .panicked => .panicked
  | .err _ => .ok queue
  | .ok (recentBlocks, newFinalBlocks) => do
      let remaining ← newFinalBlocks.foldlM (fun remaining finalBlock ↦
        finalBlock.2.completedRequests.foldlM (removeCompleted finalBlock.1) remaining)
          queue.requests
      let all := requests.foldl (fun all request ↦ all.orInsert
        (.new sha256 now request block.hash block.height queue.allParticipants)) remaining
      return { queue with requests := all, recentBlocks }

/-- The given participants that are connected and not stale. -/
def eligibleLeaders (network : NetworkView) : Finset ParticipantId :=
  (allParticipants.filter fun participant ↦ participant ∈ network.aliveParticipants ∧
    network.maximumHeight ≤ network.height participant + staleParticipantThreshold).toFinset

variable (queue : PendingRequests RequestType)

/-- The participants that may lead and the largest height of the connected ones. The addition of the
threshold to a height is checked. -/
def eligibleLeadersAndMaximumHeight (network : NetworkView) :
    NodeResult (Finset ParticipantId × ℕ) := do
  guardPanic (queue.allParticipants.all fun participant ↦
    participant ∈ network.aliveParticipants →
      network.height participant + staleParticipantThreshold < 2 ^ 64)
  return (eligibleLeaders queue.allParticipants network, network.maximumHeight)

/-- Hands out an attempt for every request that is due and that this node leads. -/
def getRequestsToAttempt (now : ℕ) (network : NetworkView) :
    NodeResult (PendingRequests RequestType × List RequestType) := do
  let (eligibleLeaders, maximumHeight) ← queue.eligibleLeadersAndMaximumHeight network
  let recentBlocks ← queue.recentBlocks.notifyMaximumHeightAvailable maximumHeight
  let check := checkRequest now eligibleLeaders recentBlocks queue.myParticipantId
  let attempts := queue.requests.items.filterMap fun request ↦
    if (check request).2 = .attempt then some request.request else none
  let requests := queue.requests.update
    (fun request ↦ if (check request).2 = .remove then none else some (check request).1)
    (by
      intro request next hnext
      split_ifs at hnext
      cases hnext
      exact congrArg Request.getId (checkRequest_same _ _ _ _ request).1)
  return ({ queue with requests, recentBlocks }, attempts)

variable (requestId : RequestId)

/-- The attempt that was handed out for a request is dropped. -/
def attemptDropped : PendingRequests RequestType :=
  { queue with
    requests := queue.requests.update
      (fun request ↦ some (if request.id = requestId then { request with activeAttempt := false }
        else request))
      (by
        intro request next hnext
        cases hnext
        split_ifs <;> rfl) }

/-- The task that runs the attempt records when it submitted the response. -/
def responseSubmitted (time : ℕ) : PendingRequests RequestType :=
  { queue with
    requests := queue.requests.update
      (fun request ↦ some (if request.id = requestId
        then { request with lastResponseSubmission := some time } else request))
      (by
        intro request next hnext
        cases hnext
        split_ifs <;> rfl) }

/-! ### What is found under an id afterwards -/

section Find

variable
  {requests remaining : KeyedTable (QueuedRequest.id : QueuedRequest RequestType → RequestId)}
  {requestId : RequestId} {finalBlockHeight : ℕ}

theorem get?_removeCompleted {completed}
    (hremoved : removeCompleted finalBlockHeight requests completed = .ok remaining) :
    remaining.get? requestId = if requestId = completed then none else requests.get? requestId := by
  unfold removeCompleted at hremoved
  cases hfound : requests.get? completed with
  | none =>
    rw [hfound] at hremoved
    cases hremoved
    split_ifs with hsame
    · rw [hsame, hfound]
    · rfl
  | some =>
    rw [hfound] at hremoved
    obtain ⟨_, _, hdone⟩ := bind_eq_ok.mp hremoved
    cases hdone
    exact requests.get?_remove completed requestId

theorem get?_removeAllCompleted {completed : List RequestId}
    (hremoved : completed.foldlM (removeCompleted finalBlockHeight) requests = .ok remaining) :
    remaining.get? requestId = if requestId ∈ completed then none else requests.get? requestId := by
  induction completed generalizing requests with
  | nil =>
    cases hremoved
    rw [if_neg List.not_mem_nil]
  | cons first completed ih =>
    obtain ⟨_, hfirst, hrest⟩ := bind_eq_ok.mp hremoved
    rw [ih hrest, get?_removeCompleted hfirst]
    by_cases hsame : requestId = first <;> by_cases hmem : requestId ∈ completed <;>
      simp [hsame, hmem]

/-- The requests whose responses are in the newly final blocks are gone, the others are as before.
-/
theorem get?_removeFinal {newFinalBlocks : List (ℕ × BufferedBlockData)}
    (hremoved : newFinalBlocks.foldlM (fun remaining finalBlock ↦
      finalBlock.2.completedRequests.foldlM (removeCompleted finalBlock.1) remaining)
        requests = .ok remaining) :
    remaining.get? requestId =
      if ∃ finalBlock ∈ newFinalBlocks, requestId ∈ finalBlock.2.completedRequests then none
      else requests.get? requestId := by
  induction newFinalBlocks generalizing requests with
  | nil =>
    cases hremoved
    simp
  | cons first newFinalBlocks ih =>
    obtain ⟨_, hfirst, hrest⟩ := bind_eq_ok.mp hremoved
    rw [ih hrest, get?_removeAllCompleted hfirst]
    simp only [List.exists_mem_cons_iff]
    by_cases hlater : ∃ finalBlock ∈ newFinalBlocks, requestId ∈ finalBlock.2.completedRequests <;>
      by_cases hmem : requestId ∈ first.2.completedRequests <;> simp [hlater, hmem]

/-- A new request is found under its id if there was none before. -/
theorem get?_insertAll (make : RequestType → QueuedRequest RequestType)
    (hmake : ∀ request, (make request).request = request) (incoming : List RequestType) :
    (incoming.foldl (fun all request ↦ all.orInsert (make request)) requests).get? requestId =
      (requests.get? requestId).or
        ((incoming.find? fun request ↦ Request.getId request = requestId).map make) := by
  induction incoming generalizing requests with
  | nil => simp
  | cons first _ ih =>
    have hkey : (make first).id = Request.getId first := congrArg Request.getId (hmake first)
    rw [List.foldl_cons, ih, KeyedTable.get?_orInsert, hkey, List.find?_cons]
    by_cases hsame : requestId = Request.getId first
    · cases hfound : requests.get? requestId <;> simp [hsame]
    · have hne : ¬ Request.getId first = requestId := fun heq ↦ hsame heq.symm
      simp [hsame, hne]

end Find

end PendingRequests

/-! ### Histories of the queue -/

/-- What happens to the queue. -/
inductive RequestEvent (RequestType : Type) where
  | newBlock (now : ℕ) (requests : List RequestType) (completedRequests : List RequestId)
      (block : BlockViewLite)
  | getRequestsToAttempt (now : ℕ) (network : NetworkView)
  | attemptDropped (requestId : RequestId)
  | responseSubmitted (requestId : RequestId) (time : ℕ)

/-- The queue with the blocks that were added to its tracker, the final blocks that were returned
and the ids of the requests that attempts were handed out for, each oldest first. -/
structure RequestHistory (RequestType : Type) [Request RequestType] where
  queue : PendingRequests RequestType
  added : List (BlockViewLite × BufferedBlockData)
  stream : List (ℕ × BufferedBlockData)
  issued : List RequestId

namespace RequestHistory

variable [Request RequestType]

def start (allParticipants : List ParticipantId) (myParticipantId : ParticipantId) :
    RequestHistory RequestType where
  queue := .new allParticipants myParticipantId
  added := []
  stream := []
  issued := []

variable (sha256 : List UInt8 → BitVec 256)

def step (history : RequestHistory RequestType) :
    RequestEvent RequestType → NodeResult (RequestHistory RequestType)
  | .newBlock now requests completedRequests block => do
      let content := PendingRequests.bufferedBlockData now requests completedRequests
      let queue ← history.queue.notifyNewBlock sha256 now requests completedRequests block
      match history.queue.recentBlocks.addBlock block content with
      | .ok (_, newFinalBlocks) =>
          .ok
            { history with
              queue
              added := history.added ++ [(block, content)]
              stream := history.stream ++ newFinalBlocks }
      | _ => .ok { history with queue }
  | .getRequestsToAttempt now network => do
      let (queue, attempts) ← history.queue.getRequestsToAttempt now network
      return { history with queue, issued := history.issued ++ attempts.map Request.getId }
  | .attemptDropped requestId =>
      .ok { history with queue := history.queue.attemptDropped requestId }
  | .responseSubmitted requestId time =>
      .ok { history with queue := history.queue.responseSubmitted requestId time }

/-- The history after the given events. -/
def run (allParticipants : List ParticipantId) (myParticipantId : ParticipantId)
    (events : List (RequestEvent RequestType)) : NodeResult (RequestHistory RequestType) :=
  events.foldlM (step sha256) (start allParticipants myParticipantId)

end RequestHistory

end NearMpc.Node
