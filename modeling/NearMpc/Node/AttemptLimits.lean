import NearMpc.Node.LeaderAgreement
import NearMpc.Node.LiveRequests

/-!
# Limits on the attempts for a request

While a request stays queued, the node that leads it hands out at most ten attempts, one at a time,
at least a second after the last check and ten seconds after the last submission
(`attempts_limited`).

The limits are kept in four fields of the entry that change independently of each other. What
happened to a request since it was queued is recorded beside the queue (`Stay`), with every attempt
counted on its own: attempts may be dropped in any order, also those that the entry no longer refers
to. The clock is part of the state and only advances.
-/

set_option autoImplicit false

namespace NearMpc.Node

open Library Library.Outcome PendingRequests

variable {RequestType : Type}

/-! ### One check -/

namespace PendingRequests

/-- What a check does to the progress of a request, the next check being due at `due`. -/
structure CheckChanges (due : ℕ) (request : QueuedRequest RequestType)
    (result : QueuedRequest RequestType × RequestCheck) : Prop where
  attempts : result.1.attempts = request.attempts + if result.2 = .attempt then 1 else 0
  activeAttempt : result.1.activeAttempt = true ↔
    request.activeAttempt = true ∨ result.2 = .attempt
  lastResponseSubmission : result.1.lastResponseSubmission = request.lastResponseSubmission
  nextCheckDue : result.1.nextCheckDue = due

variable (now : ℕ) (eligible : Finset ParticipantId) (me : ParticipantId)
  (request : QueuedRequest RequestType)

theorem leadRequest_changes :
    CheckChanges request.nextCheckDue request (leadRequest now request) := by
  unfold leadRequest
  split_ifs <;> exact ⟨rfl, by simp, rfl, rfl⟩

theorem workOnRequest_changes :
    CheckChanges request.nextCheckDue request (workOnRequest now eligible me request) := by
  unfold workOnRequest
  cases request.currentLeader eligible with
  | none => exact ⟨rfl, by simp, rfl, rfl⟩
  | some leader =>
    dsimp only
    split_ifs
    · have hlead := leadRequest_changes now { request with selectedLeader := some leader }
      exact ⟨hlead.attempts, hlead.activeAttempt, hlead.lastResponseSubmission, hlead.nextCheckDue⟩
    · exact ⟨rfl, by simp, rfl, rfl⟩

theorem checkRequest_changes (recentBlocks : RecentBlocksTracker BufferedBlockData) :
    CheckChanges
      (if request.nextCheckDue ≤ now then now + checkEachRequestInterval else request.nextCheckDue)
      request (checkRequest now eligible recentBlocks me request) := by
  unfold checkRequest
  dsimp only
  by_cases hearly : now < request.nextCheckDue
  · rw [if_pos hearly, if_neg (not_le.mpr hearly)]
    exact ⟨rfl, by simp, rfl, rfl⟩
  · rw [if_neg hearly, if_pos (not_lt.mp hearly)]
    split_ifs
    · exact ⟨rfl, by simp, rfl, rfl⟩
    · have hwork := workOnRequest_changes now eligible me
        { request with nextCheckDue := now + checkEachRequestInterval }
      exact ⟨hwork.attempts, hwork.activeAttempt, hwork.lastResponseSubmission, hwork.nextCheckDue⟩
    · exact ⟨rfl, by simp, rfl, rfl⟩
    · exact ⟨rfl, by simp, rfl, rfl⟩

end PendingRequests

/-! ### What happened to a request since it was queued -/

/-- What happened to a request since it was queued: when it was checked, when attempts were handed
out, which of these are still held, and when a response was submitted. -/
structure Stay where
  checks : List ℕ
  issues : List ℕ
  held : Finset ℕ
  submissions : List ℕ

namespace Stay

def new : Stay where
  checks := []
  issues := []
  held := ∅
  submissions := []

variable (stay : Stay)

/-- A call at `now` checks the request if it is due and hands out `count` attempts for it. -/
def check (now : ℕ) (isDue : Prop) [Decidable isDue] (count : ℕ) : Stay :=
  { stay with
    checks := if isDue then stay.checks ++ [now] else stay.checks
    issues := stay.issues ++ List.replicate count now
    held := stay.held ∪ (Finset.range count).map (addLeftEmbedding stay.issues.length) }

def drop (index : ℕ) : Stay :=
  { stay with held := stay.held.erase index }

def submit (now : ℕ) : Stay :=
  { stay with submissions := stay.submissions ++ [now] }

/-- The entry has kept track of what happened since it was queued. -/
structure Tracks (now : ℕ) (request : QueuedRequest RequestType) (stay : Stay) : Prop where
  attempts : request.attempts = stay.issues.length
  bounded : stay.issues.length ≤ maxAttemptsPerRequestAsLeader
  held : ∀ index ∈ stay.held, index + 1 = stay.issues.length ∧ request.activeAttempt = true
  checks : ∀ check ∈ stay.checks, check + checkEachRequestInterval ≤ request.nextCheckDue
  submissions : ∀ submitted ∈ stay.submissions, submitted ≤ now ∧
    ∃ last ∈ request.lastResponseSubmission, submitted ≤ last

theorem tracks_new {now} {request : QueuedRequest RequestType} (hnone : request.attempts = 0) :
    Tracks now request .new where
  attempts := hnone
  bounded := Nat.zero_le _
  held := fun _ hmem ↦ absurd hmem (Finset.notMem_empty _)
  checks := fun _ hmem ↦ absurd hmem List.not_mem_nil
  submissions := fun _ hmem ↦ absurd hmem List.not_mem_nil

variable {now : ℕ} {request : QueuedRequest RequestType} {stay : Stay}

section

variable (htracks : Tracks now request stay)
include htracks

theorem Tracks.advance (duration : ℕ) :
    Tracks (now + duration) request stay where
  attempts := htracks.attempts
  bounded := htracks.bounded
  held := htracks.held
  checks := htracks.checks
  submissions := fun submitted hmem ↦
    ⟨(htracks.submissions submitted hmem).1.trans (Nat.le_add_right _ _),
      (htracks.submissions submitted hmem).2⟩

/-- What an attempt that is handed out now respects. -/
structure Permitted (now : ℕ) (stay : Stay) : Prop where
  count : stay.issues.length < maxAttemptsPerRequestAsLeader
  exclusive : stay.held = ∅
  interval : ∀ check ∈ stay.checks, check + checkEachRequestInterval ≤ now
  latency : ∀ submitted ∈ stay.submissions,
    submitted + maxLatencyBeforeExpectingTransactionToFinalize ≤ now

theorem Tracks.permitted (hready : PendingRequests.ReadyToAttempt now request) :
    Permitted now stay where
  count := htracks.attempts ▸ hready.attempts
  exclusive := by
    refine Finset.eq_empty_of_forall_notMem fun index hmem ↦ ?_
    exact absurd (htracks.held index hmem).2 (by simp [hready.idle])
  interval := fun check hmem ↦ (htracks.checks check hmem).trans hready.due
  latency := fun submitted hmem ↦ by
    obtain ⟨-, last, hlast, hle⟩ := htracks.submissions submitted hmem
    exact (Nat.add_le_add_right hle _).trans (hready.settled last hlast)

/-- A check keeps track of itself, and of the attempt it may hand out. -/
theorem Tracks.check {isDue : Prop} [Decidable isDue] (hdue : isDue ↔ request.nextCheckDue ≤ now)
    {result : QueuedRequest RequestType × RequestCheck}
    (hchanges : PendingRequests.CheckChanges
      (if request.nextCheckDue ≤ now then now + checkEachRequestInterval else request.nextCheckDue)
      request result)
    (hpermitted : result.2 = .attempt → Permitted now stay) :
    Tracks now result.1 (stay.check now isDue (if result.2 = .attempt then 1 else 0)) := by
  constructor
  case attempts => simp [hchanges.attempts, htracks.attempts, Stay.check]
  case bounded =>
    by_cases hattempt : result.2 = .attempt
    · have hcount := (hpermitted hattempt).count
      simpa [Stay.check, hattempt] using hcount
    · simpa [Stay.check, hattempt] using htracks.bounded
  case held =>
    intro index hmem
    by_cases hattempt : result.2 = .attempt
    · -- nothing else is held when an attempt is handed out
      have hindex : index = stay.issues.length := by
        simpa [Stay.check, hattempt, (hpermitted hattempt).exclusive] using hmem
      exact ⟨by simp [Stay.check, hattempt, hindex], hchanges.activeAttempt.mpr (.inr hattempt)⟩
    · have hbefore : index ∈ stay.held := by simpa [Stay.check, hattempt] using hmem
      obtain ⟨hindex, hactive⟩ := htracks.held index hbefore
      exact ⟨by simpa [Stay.check, hattempt] using hindex,
        hchanges.activeAttempt.mpr (.inl hactive)⟩
  case checks =>
    intro check hmem
    rw [hchanges.nextCheckDue]
    by_cases hnow : request.nextCheckDue ≤ now
    · rw [if_pos hnow]
      simp only [Stay.check, hdue.mpr hnow, if_true, List.mem_append, List.mem_singleton] at hmem
      rcases hmem with hbefore | rfl
      · exact (htracks.checks check hbefore).trans (hnow.trans (Nat.le_add_right _ _))
      · exact le_rfl
    · rw [if_neg hnow]
      simp only [Stay.check, mt hdue.mp hnow, if_false] at hmem
      exact htracks.checks check hmem
  case submissions =>
    rw [hchanges.lastResponseSubmission]
    exact htracks.submissions

/-- Dropping the attempt that was handed out last leaves nothing held. -/
theorem Tracks.dropLast {index} (hlast : index + 1 = stay.issues.length) :
    Tracks now { request with activeAttempt := false } (stay.drop index) where
  attempts := htracks.attempts
  bounded := htracks.bounded
  held := fun other hmem ↦ by
    obtain ⟨_, hbefore⟩ := Finset.mem_erase.mp hmem
    exact absurd ((htracks.held other hbefore).1.trans hlast.symm) (by omega)
  checks := htracks.checks
  submissions := htracks.submissions

theorem Tracks.drop (index : ℕ) :
    Tracks now request (stay.drop index) where
  attempts := htracks.attempts
  bounded := htracks.bounded
  held := fun other hmem ↦ htracks.held other (Finset.mem_of_mem_erase hmem)
  checks := htracks.checks
  submissions := htracks.submissions

theorem Tracks.submit :
    Tracks now { request with lastResponseSubmission := some now } (stay.submit now) where
  attempts := htracks.attempts
  bounded := htracks.bounded
  held := htracks.held
  checks := htracks.checks
  submissions := fun submitted hmem ↦ by
    have hle : submitted ≤ now := by
      rcases List.mem_append.mp hmem with hbefore | hnow
      · exact (htracks.submissions submitted hbefore).1
      · exact (List.mem_singleton.mp hnow).le
    exact ⟨hle, now, rfl, hle⟩

end

end Stay

/-! ### Histories with a clock -/

/-- What happens to the queue, at the time the clock shows. An attempt is named by its place among
the attempts handed out while the request is queued. -/
inductive ClockedEvent (RequestType : Type) where
  | advance (duration : ℕ)
  | newBlock (requests : List RequestType) (completedRequests : List RequestId)
      (block : BlockViewLite)
  | getRequestsToAttempt (network : NetworkView)
  | dropAttempt (requestId : RequestId) (index : ℕ)
  | submitResponse (requestId : RequestId)

/-- The queue with its clock, and what happened to each request since it was queued. -/
structure ClockedHistory (RequestType : Type) [Request RequestType] where
  history : RequestHistory RequestType
  now : ℕ
  stays : RequestId → Stay

namespace ClockedHistory

variable [Request RequestType] (clocked : ClockedHistory RequestType)

def queue : PendingRequests RequestType :=
  clocked.history.queue

def start (allParticipants : List ParticipantId) (myParticipantId : ParticipantId) (now : ℕ) :
    ClockedHistory RequestType where
  history := .start allParticipants myParticipantId
  now
  stays := fun _ ↦ .new

/-- The request is queued and its next check is due. -/
def IsDue (requestId : RequestId) : Prop :=
  ∃ request ∈ clocked.queue.requests.get? requestId, request.nextCheckDue ≤ clocked.now

instance (clocked : ClockedHistory RequestType) (requestId : RequestId) :
    Decidable (clocked.IsDue requestId) :=
  inferInstanceAs (Decidable (∃ request ∈ clocked.queue.requests.get? requestId, _))

/-- The request is queued and none of the final blocks has its response. -/
def StaysQueued (newFinalBlocks : List (ℕ × BufferedBlockData)) (requestId : RequestId) : Prop :=
  (clocked.queue.requests.get? requestId).isSome ∧
    ¬ ∃ finalBlock ∈ newFinalBlocks, requestId ∈ finalBlock.2.completedRequests

instance (clocked : ClockedHistory RequestType) (newFinalBlocks : List (ℕ × BufferedBlockData))
    (requestId : RequestId) : Decidable (clocked.StaysQueued newFinalBlocks requestId) :=
  inferInstanceAs (Decidable (_ ∧ _))

/-- The ids for which attempts were handed out between two histories. -/
def issuedBetween (earlier later : RequestHistory RequestType) : List RequestId :=
  later.issued.drop earlier.issued.length

variable (sha256 : List UInt8 → BitVec 256)

def step (clocked : ClockedHistory RequestType) :
    ClockedEvent RequestType → NodeResult (ClockedHistory RequestType)
  | .advance duration => .ok { clocked with now := clocked.now + duration }
  | .newBlock requests completedRequests block => do
      let history ← clocked.history.step sha256
        (.newBlock clocked.now requests completedRequests block)
      let newFinalBlocks := history.stream.drop clocked.history.stream.length
      .ok
        { clocked with
          history
          stays := fun requestId ↦
            if clocked.StaysQueued newFinalBlocks requestId then clocked.stays requestId else .new }
  | .getRequestsToAttempt network => do
      let history ← clocked.history.step sha256 (.getRequestsToAttempt clocked.now network)
      .ok
        { clocked with
          history
          stays := fun requestId ↦ (clocked.stays requestId).check clocked.now
            (clocked.IsDue requestId) ((issuedBetween clocked.history history).count requestId) }
  | .dropAttempt requestId index =>
      -- the entry refers to the attempt that was handed out last
      .ok
        { clocked with
          history := if index + 1 = (clocked.stays requestId).issues.length
            then { clocked.history with queue := clocked.queue.attemptDropped requestId }
            else clocked.history
          stays := Function.update clocked.stays requestId
            ((clocked.stays requestId).drop index) }
  | .submitResponse requestId => do
      let history ← clocked.history.step sha256 (.responseSubmitted requestId clocked.now)
      .ok
        { clocked with
          history
          stays := Function.update clocked.stays requestId
            ((clocked.stays requestId).submit clocked.now) }

/-- The queue after the given events. -/
def run (allParticipants : List ParticipantId) (myParticipantId : ParticipantId) (now : ℕ)
    (events : List (ClockedEvent RequestType)) : NodeResult (ClockedHistory RequestType) :=
  events.foldlM (step sha256) (start allParticipants myParticipantId now)

variable {sha256 : List UInt8 → BitVec 256} {clocked next : ClockedHistory RequestType}

/-- Every queued request has kept track of what happened since it was queued. -/
def Tracked (clocked : ClockedHistory RequestType) : Prop :=
  ∀ requestId request, clocked.queue.requests.get? requestId = some request →
    Stay.Tracks clocked.now request (clocked.stays requestId)

theorem start_tracked (allParticipants : List ParticipantId) (myParticipantId : ParticipantId)
    (now : ℕ) : (start allParticipants myParticipantId now : ClockedHistory RequestType).Tracked :=
  fun _ _ hfound ↦ absurd hfound.symm (Option.some_ne_none _)

variable {request : QueuedRequest RequestType}

theorem isDue_iff {requestId} (hfound : clocked.queue.requests.get? requestId = some request) :
    clocked.IsDue requestId ↔ request.nextCheckDue ≤ clocked.now := by
  simp [IsDue, hfound]

section

variable {network : NetworkView} {history : RequestHistory RequestType} {requestId : RequestId}
  (hstep : clocked.history.step sha256 (.getRequestsToAttempt clocked.now network) = .ok history)
include hstep

theorem mem_issuedBetween_iff : requestId ∈ issuedBetween clocked.history history ↔
    ∃ request, clocked.queue.requests.get? requestId = some request ∧
      (checkRequest clocked.now (eligibleLeaders clocked.queue.allParticipants network)
        history.queue.recentBlocks clocked.queue.myParticipantId request).2 = .attempt := by
  obtain ⟨_, hget, hnext⟩ := RequestHistory.step_getRequestsToAttempt hstep
  rw [issuedBetween, hnext, List.drop_left]
  exact (getRequestsToAttempt_eq_ok hget).mem_attempts_iff

/-- A call hands out attempts for requests that are ready, at most one for each. -/
theorem count_issuedBetween (hfound : clocked.queue.requests.get? requestId = some request) :
    (issuedBetween clocked.history history).count requestId =
      if (checkRequest clocked.now
        (eligibleLeaders clocked.queue.allParticipants network)
        history.queue.recentBlocks clocked.queue.myParticipantId request).2 = .attempt
      then 1 else 0 := by
  obtain ⟨attempts, hget, hnext⟩ := RequestHistory.step_getRequestsToAttempt hstep
  have hissued : issuedBetween clocked.history history = attempts.map Request.getId := by
    rw [issuedBetween, hnext, List.drop_left]
  rw [hissued]
  exact (getRequestsToAttempt_eq_ok hget).count_attempts hfound

end

section

variable (htrack : clocked.Tracked)
include htrack

theorem Tracked.newBlock {requests : List RequestType} {completedRequests block}
    (hstep : clocked.step sha256 (.newBlock requests completedRequests block) = .ok next) :
    next.Tracked := by
  obtain ⟨history, hhistory, hdone⟩ := bind_eq_ok.mp hstep
  cases hdone
  intro requestId request hfound
  change history.queue.requests.get? requestId = some request at hfound
  dsimp only
  rcases RequestHistory.step_newBlock hhistory with
    ⟨newFinalBlocks, -, hnoted, -, hstream, -⟩ | ⟨-, rfl⟩
  · rw [hstream, List.drop_left]
    rw [hnoted.get?, Option.or_eq_some_iff] at hfound
    rcases hfound with hold | ⟨hgone, hnew⟩
    · split_ifs at hold with hcompleted
      rw [if_pos ⟨Option.isSome_iff_exists.mpr ⟨request, hold⟩, hcompleted⟩]
      exact htrack requestId request hold
    · -- a request that was not queued, or whose response is final, is queued anew
      have hanew : ¬ clocked.StaysQueued newFinalBlocks requestId := by
        rintro ⟨hqueued, hopen⟩
        rw [if_neg hopen] at hgone
        exact absurd hgone (Option.isSome_iff_ne_none.mp hqueued)
      rw [if_neg hanew]
      obtain ⟨_, -, rfl⟩ := Option.map_eq_some_iff.mp hnew
      exact Stay.tracks_new rfl
  · rw [if_pos ⟨Option.isSome_iff_exists.mpr ⟨request, hfound⟩, by simp⟩]
    exact htrack requestId request hfound

theorem Tracked.getRequestsToAttempt {network}
    (hstep : clocked.step sha256 (.getRequestsToAttempt network) = .ok next) : next.Tracked := by
  obtain ⟨history, hhistory, hdone⟩ := bind_eq_ok.mp hstep
  cases hdone
  intro requestId request hfound
  change history.queue.requests.get? requestId = some request at hfound
  obtain ⟨_, hget, -⟩ := RequestHistory.step_getRequestsToAttempt hhistory
  have hchecked := getRequestsToAttempt_eq_ok hget
  rw [hchecked.get?] at hfound
  obtain ⟨before, hbefore, hcheck⟩ := Option.bind_eq_some_iff.mp hfound
  split_ifs at hcheck
  cases hcheck
  have htracks := htrack requestId before hbefore
  dsimp only
  rw [count_issuedBetween hhistory hbefore]
  refine htracks.check (isDue_iff hbefore) (checkRequest_changes _ _ _ before _) fun hattempt ↦ ?_
  exact htracks.permitted (checkRequest_attempt_iff.mp hattempt).1

theorem Tracked.dropAttempt {dropped index}
    (hstep : clocked.step sha256 (.dropAttempt dropped index) = .ok next) : next.Tracked := by
  cases hstep
  intro requestId request hfound
  simp only [queue] at hfound
  dsimp only
  split_ifs at hfound with hlast
  · dsimp only at hfound
    rw [attemptDropped, KeyedTable.get?_update] at hfound
    obtain ⟨before, hbefore, htouched⟩ := Option.bind_eq_some_iff.mp hfound
    cases htouched
    have hid : before.id = requestId := (KeyedTable.get?_eq_some_iff.mp hbefore).2
    have htracks := htrack requestId before hbefore
    by_cases hsame : requestId = dropped
    · subst hsame
      rw [if_pos hid, Function.update_self]
      exact htracks.dropLast hlast
    · rw [if_neg (hid ▸ hsame), Function.update_of_ne hsame]
      exact htracks
  · have htracks := htrack requestId request hfound
    by_cases hsame : requestId = dropped
    · subst hsame
      rw [Function.update_self]
      exact htracks.drop index
    · rwa [Function.update_of_ne hsame]

theorem Tracked.submitResponse {submitted}
    (hstep : clocked.step sha256 (.submitResponse submitted) = .ok next) : next.Tracked := by
  obtain ⟨_, hhistory, hdone⟩ := bind_eq_ok.mp hstep
  cases hdone
  cases hhistory
  intro requestId request hfound
  change (clocked.queue.responseSubmitted submitted clocked.now).requests.get? requestId =
    some request at hfound
  dsimp only
  rw [responseSubmitted, KeyedTable.get?_update] at hfound
  obtain ⟨before, hbefore, htouched⟩ := Option.bind_eq_some_iff.mp hfound
  cases htouched
  have hid : before.id = requestId := (KeyedTable.get?_eq_some_iff.mp hbefore).2
  have htracks := htrack requestId before hbefore
  by_cases hsame : requestId = submitted
  · subst hsame
    rw [if_pos hid, Function.update_self]
    exact htracks.submit
  · rw [if_neg (hid ▸ hsame), Function.update_of_ne hsame]
    exact htracks

theorem Tracked.step {event : ClockedEvent RequestType}
    (hstep : clocked.step sha256 event = .ok next) : next.Tracked := by
  cases event with
  | advance duration =>
    cases hstep
    exact fun requestId request hfound ↦ (htrack requestId request hfound).advance duration
  | newBlock => exact htrack.newBlock hstep
  | getRequestsToAttempt => exact htrack.getRequestsToAttempt hstep
  | dropAttempt => exact htrack.dropAttempt hstep
  | submitResponse => exact htrack.submitResponse hstep

end

/-- The limits on the attempts for a request: while it is queued there are at most ten, and the next
call hands out at most one, which is permitted by what happened since the request was queued. -/
structure Limited (sha256 : List UInt8 → BitVec 256) (clocked : ClockedHistory RequestType)
    (requestId : RequestId) : Prop where
  bounded : (clocked.queue.requests.get? requestId).isSome →
    (clocked.stays requestId).issues.length ≤ maxAttemptsPerRequestAsLeader
  single : ∀ network next,
    clocked.step sha256 (.getRequestsToAttempt network) = .ok next →
      (issuedBetween clocked.history next.history).count requestId ≤ 1
  permitted : ∀ network next,
    clocked.step sha256 (.getRequestsToAttempt network) = .ok next →
      requestId ∈ issuedBetween clocked.history next.history →
        (clocked.queue.requests.get? requestId).isSome ∧
          Stay.Permitted clocked.now (clocked.stays requestId)

end ClockedHistory

/-- Whatever happens to the queue, the attempts for a request stay within their limits. -/
theorem attempts_limited [Request RequestType] (sha256 : List UInt8 → BitVec 256)
    (allParticipants : List ParticipantId) (myParticipantId : ParticipantId) (now : ℕ)
    (events : List (ClockedEvent RequestType)) (clocked : ClockedHistory RequestType)
    (requestId : RequestId)
    (hrun : ClockedHistory.run sha256 allParticipants myParticipantId now events = .ok clocked) :
    ClockedHistory.Limited sha256 clocked requestId := by
  have htrack := foldlM_invariant ClockedHistory.Tracked.step
    (ClockedHistory.start_tracked allParticipants myParticipantId now) hrun
  constructor
  case bounded =>
    intro hqueued
    obtain ⟨request, hfound⟩ := Option.isSome_iff_exists.mp hqueued
    exact (htrack requestId request hfound).bounded
  case single =>
    intro network next hstep
    obtain ⟨history, hhistory, hdone⟩ := bind_eq_ok.mp hstep
    cases hdone
    by_cases hissued : requestId ∈ ClockedHistory.issuedBetween clocked.history history
    · obtain ⟨_, hfound, -⟩ := ClockedHistory.mem_issuedBetween_iff hhistory |>.mp hissued
      rw [ClockedHistory.count_issuedBetween hhistory hfound]
      split_ifs <;> omega
    · rw [List.count_eq_zero_of_not_mem hissued]
      exact Nat.zero_le 1
  case permitted =>
    intro network next hstep hissued
    obtain ⟨_, hhistory, hdone⟩ := bind_eq_ok.mp hstep
    cases hdone
    obtain ⟨request, hfound, hcheck⟩ := ClockedHistory.mem_issuedBetween_iff hhistory |>.mp hissued
    exact ⟨Option.isSome_iff_exists.mpr ⟨request, hfound⟩, (htrack requestId request
      hfound).permitted (checkRequest_attempt_iff.mp hcheck).1⟩

/-- An attempt is handed out, submits a response and is dropped; two more calls follow. -/
def retryEvents : List (ClockedEvent RequestId) :=
  [.newBlock [7] [] ⟨1, 10, 0, 0⟩, .getRequestsToAttempt twoAtTen, .submitResponse 7,
    .dropAttempt 7 0, .advance 9000000000, .getRequestsToAttempt twoAtTen, .advance 1000000000,
    .getRequestsToAttempt twoAtTen]

/-- A node that submits a response and drops its attempt gets another one ten seconds later. -/
theorem attempts_limited_retry : ∃ clocked : ClockedHistory RequestId,
    ClockedHistory.run (fun _ ↦ 0) [1] 1 0 retryEvents = .ok clocked ∧
      (clocked.stays 7).issues = [0, 10000000000] ∧ (clocked.stays 7).held = {1} ∧
      ClockedHistory.Limited (fun _ ↦ 0) clocked 7 := by
  refine Exists.imp (fun clocked ⟨hrun, hissues, hheld⟩ ↦
    ⟨hrun, hissues, hheld, attempts_limited _ _ _ _ _ _ _ hrun⟩) (exists_of_decide (fun clocked ↦
      (clocked.stays 7).issues = [0, 10000000000] ∧ (clocked.stays 7).held = {1}) ?_)
  decide +kernel

end NearMpc.Node
