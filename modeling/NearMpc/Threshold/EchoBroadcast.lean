import NearMpc.Library.Quorum
import NearMpc.Threshold.Comms

/-!
# Echo broadcast

Every participant broadcasts one value, and all of them should end up with the same value from each.
There is one session for each participant. Its value is sent, then echoed by everybody, and once a
participant has collected more than `(n + f) / 2` echoes of a value it declares itself ready to
accept it. It also does so after more than `f` others have, and accepts the value after more than
`2 f` have. Follows `protocol/echo_broadcast.rs`.

The loop of `reliable_broadcast_receive_all` handles one vote in each round: one that has arrived,
or one that the participant has sent and now counts for itself, the simulated vote. `iterate` is one
round. All that it sends in a round is the vote it will simulate in the next one.
-/

set_option autoImplicit false

namespace NearMpc.Threshold

open Library Library.Outcome ParticipantList

variable {Data : Type}

/-- A vote of the first, second or third phase. -/
inductive MessageType (Data : Type) where
  | send (data : Data)
  | echo (data : Data)
  | ready (data : Data)
deriving DecidableEq, Repr

/-- The numbers of echo and ready votes to be exceeded. -/
def echoReadyThresholds (n : ℕ) : ℕ × ℕ :=
  if n ≤ 3 then (0, 0)
  else
    let broadcastThreshold := (n - 1) / 3
    ((n + broadcastThreshold) / 2, broadcastThreshold)

/-- The error for a session in which no value can get enough echo votes any more. -/
def maliciousSender (sid : ℕ) : ProtocolError :=
  .assertionFailed ("The original sender in session " ++ toString sid ++
    " is malicious! Could not collect enough echo votes to meet the threshold")

def missingElement : ProtocolError := .other "Missing element in CounterList"

def tooManyMalicious : ProtocolError :=
  .assertionFailed ("Too many malicious parties, way above the assumed threshold:
                            The message output after the broadcast protocol is not the same as
                            the one originally sent by me")

/-! ### One session -/

structure BroadcastProtocolState (Data : Type) where
  dataEcho : CounterList Data := []
  dataReady : CounterList Data := []
  seenEcho : ParticipantCounter
  seenReady : ParticipantCounter
  finishSend : Bool := false
  finishEcho : Bool := false
  finishAmplification : Bool := false
  finishReady : Bool := false

namespace BroadcastProtocolState

variable [DecidableEq Data]

def new (participants : ParticipantList) : BroadcastProtocolState Data where
  seenEcho := { participants }
  seenReady := { participants }

variable (state : BroadcastProtocolState Data)

/-- The first value from the participant of the session is echoed. -/
def onSend (participants : ParticipantList) (sid : ℕ) (sender : Participant) (data : Data) :
    Outcome ProtocolError (BroadcastProtocolState Data × Option (MessageType Data)) :=
  if state.finishSend then .ok (state, none)
  else do
    let index ← participants.index sender
    if sid ≠ index then return (state, none)
    else return ({ state with finishSend := true }, some (.echo data))

/-- Whether some value can still get more than `echoT` echo votes. -/
def isEnough (n echoT : ℕ) : Outcome ProtocolError Bool := do
  let receivedEchoCnt := state.dataEcho.getSumCounters
  guardPanic (receivedEchoCnt ≤ n)
  return state.dataEcho.any fun entry ↦ echoT < entry.2 + (n - receivedEchoCnt)

def onEcho (n echoT sid : ℕ) (sender : Participant) (data : Data) :
    Outcome ProtocolError (BroadcastProtocolState Data × Option (MessageType Data)) :=
  let (seenEcho, isNew) := state.seenEcho.put sender
  let state := { state with seenEcho }
  if isNew = false ∨ state.finishEcho = true then .ok (state, none)
  else do
    let state := { state with dataEcho := state.dataEcho.insertOrIncreaseCounter data }
    let count ← okOr (state.dataEcho.get data) missingElement
    if echoT < count then return ({ state with finishEcho := true }, some (.ready data))
    else if state.finishAmplification = false then do
      let enough ← state.isEnough n echoT
      if enough then return (state, none)
      else .err (maliciousSender sid)
    else return (state, none)

/-- The vote to be sent, if any, and whether the value is accepted. -/
def onReady (readyT : ℕ) (sender : Participant) (data : Data) :
    Outcome ProtocolError (BroadcastProtocolState Data × Option (MessageType Data) × Bool) :=
  let (seenReady, isNew) := state.seenReady.put sender
  let state := { state with seenReady }
  if isNew = false ∨ state.finishReady = true then .ok (state, none, false)
  else do
    let state := { state with dataReady := state.dataReady.insertOrIncreaseCounter data }
    let count ← okOr (state.dataReady.get data) missingElement
    let amplifies := readyT < count ∧ state.finishAmplification = false
    let vote := if amplifies then some (.ready data) else none
    let state := if amplifies then { state with finishAmplification := true } else state
    if 2 * readyT < count then
      return ({ state with finishSend := true, finishEcho := true, finishReady := true }, vote,
        true)
    else return (state, vote, false)

end BroadcastProtocolState

/-! ### All sessions of a participant -/

/-- A participant in `reliable_broadcast_receive_all`. -/
structure BroadcastReceiver (Data : Type) where
  participants : ParticipantList
  me : Participant
  sendVote : MessageType Data
  voteOutput : ParticipantMap Data
  /-- The states of the sessions `0`, ..., `n - 1`. -/
  state : ℕ → BroadcastProtocolState Data
  /-- The session and the vote that is counted next, if it is one of its own. -/
  simulated : Option (ℕ × MessageType Data)
  /-- What the call has returned. -/
  result : Option (Outcome ProtocolError (ParticipantMap Data))

namespace BroadcastReceiver

/-- `do_broadcast` up to its loop, with what it sends. -/
def doBroadcast (participants : ParticipantList) (me : Participant) (data : Data) :
    BroadcastReceiver Data × Option (ℕ × MessageType Data) :=
  let receiver : BroadcastReceiver Data :=
    { participants, me
      sendVote := .send data
      voteOutput := ParticipantMap.new participants
      state := fun _ ↦ .new participants
      simulated := none
      result := none }
  match participants.index me with
  | .ok sid => ({ receiver with simulated := some (sid, .send data) }, some (sid, .send data))
  | .err error => ({ receiver with result := some (.err error) }, none)
  | .panicked => ({ receiver with result := some .panicked }, none)

theorem doBroadcast_eq {participants me sid} (hsid : participants.getParticipant sid = some me)
    (data : Data) :
    doBroadcast participants me data =
      ({ participants, me
         sendVote := .send data
         voteOutput := ParticipantMap.new participants
         state := fun _ ↦ .new participants
         simulated := some (sid, .send data)
         result := none }, some (sid, .send data)) := by
  rw [doBroadcast, index_eq_ok.mpr hsid]

theorem exists_output {receiver : BroadcastReceiver Data}
    (hok : receiver.result.any Outcome.isOk = true) :
    ∃ output, receiver.result = some (.ok output) := by
  cases hresult : receiver.result with
  | none => simp [hresult] at hok
  | some outcome =>
    cases outcome with
    | ok output => exact ⟨output, rfl⟩
    | err | panicked => simp [hresult, Outcome.isOk] at hok

variable [DecidableEq Data] (receiver : BroadcastReceiver Data)

/-- The end of a round: the state of the session and the vote that is sent and simulated. -/
def continueWith (sid : ℕ) (state : BroadcastProtocolState Data)
    (vote : Option (MessageType Data)) : BroadcastReceiver Data :=
  { receiver with
    state := Function.update receiver.state sid state
    simulated := vote.map fun vote ↦ (sid, vote) }

/-- The value of a session is accepted; the output, if it was the last session. -/
def deliver (sid : ℕ) (data : Data) : Outcome ProtocolError (ParticipantMap Data × Bool) := do
  let participant ← okOr (receiver.participants.getParticipant sid) (.other "Missing participant")
  let voteOutput := receiver.voteOutput.put participant data
  let own ← receiver.participants.index receiver.me
  require (¬ (sid = own ∧ MessageType.send data ≠ receiver.sendVote)) tooManyMalicious
  return (voteOutput,
    (List.range receiver.participants.len).all fun other ↦ (receiver.state other).finishReady)

/-- The call returns with an error. -/
def failWith {Value : Type} :
    Outcome ProtocolError Value → BroadcastReceiver Data
  | .err error => { receiver with simulated := none, result := some (.err error) }
  | _ => { receiver with simulated := none, result := some .panicked }

/-- One round of the loop, with the vote it sends to everybody. -/
def iterate (sender : Participant) (sid : ℕ) (vote : MessageType Data) :
    BroadcastReceiver Data × Option (MessageType Data) :=
  let n := receiver.participants.len
  let (echoT, readyT) := echoReadyThresholds n
  if n ≤ sid then ({ receiver with simulated := none }, none)
  else
    match vote with
    | .send data =>
        match (receiver.state sid).onSend receiver.participants sid sender data with
        | .ok (state, sent) => (receiver.continueWith sid state sent, sent)
        | failure => (receiver.failWith failure, none)
    | .echo data =>
        match (receiver.state sid).onEcho n echoT sid sender data with
        | .ok (state, sent) => (receiver.continueWith sid state sent, sent)
        | failure => (receiver.failWith failure, none)
    | .ready data =>
        match (receiver.state sid).onReady readyT sender data with
        | .ok (state, sent, false) => (receiver.continueWith sid state sent, sent)
        | .ok (state, sent, true) =>
            let receiver := receiver.continueWith sid state sent
            match receiver.deliver sid data with
            | .ok (voteOutput, false) => ({ receiver with voteOutput }, sent)
            | .ok (voteOutput, true) =>
                ({ receiver with voteOutput, result := some (.ok voteOutput) }, sent)
            | failure => (receiver.failWith failure, sent)
        | failure => (receiver.failWith failure, none)

end BroadcastReceiver

/-! ### What a vote does to its session -/

namespace BroadcastProtocolState

variable [DecidableEq Data] (participants : ParticipantList) (sid : ℕ) (sender : Participant)
  (before : BroadcastProtocolState Data)

/-- The number of echo votes to be exceeded. -/
def echoT : ℕ := (echoReadyThresholds participants.len).1

/-- The number of ready votes to be exceeded. -/
def readyT : ℕ := (echoReadyThresholds participants.len).2

variable (data : Data)

/-- With one more echo vote. -/
def countEcho : BroadcastProtocolState Data :=
  { before with
    seenEcho := { before.seenEcho with seen := insert sender before.seenEcho.seen }
    dataEcho := before.dataEcho.insertOrIncreaseCounter data }

/-- With one more ready vote. -/
def countReady : BroadcastProtocolState Data :=
  { before with
    seenReady := { before.seenReady with seen := insert sender before.seenReady.seen }
    dataReady := before.dataReady.insertOrIncreaseCounter data }

/-- With another ready vote the participant joins those who are ready. -/
def Amplifies : Prop :=
  readyT participants < before.dataReady.count data + 1 ∧ before.finishAmplification = false

instance (data : Data) : Decidable (before.Amplifies participants data) :=
  inferInstanceAs (Decidable (_ ∧ _))

/-- With one more ready vote, after which the participant may be ready as well. -/
def amplify : BroadcastProtocolState Data :=
  { before.countReady sender data with
    finishAmplification :=
      if before.Amplifies participants data then true else before.finishAmplification }

/-- The vote that joins those who are ready. -/
def amplification : Option (MessageType Data) :=
  if before.Amplifies participants data then some (.ready data) else none

/-- All that a vote can do to its session, short of an error: the state after it, the vote that is
sent, and whether a value is accepted. -/
inductive Handles : MessageType Data → BroadcastProtocolState Data → Option (MessageType Data) →
    Bool → Prop where
  | sendIgnored (data : Data)
      (hignored : before.finishSend = true ∨ participants.getParticipant sid ≠ some sender) :
      Handles (.send data) before none false
  | echoes (data : Data) (hopen : before.finishSend = false)
      (hsender : participants.getParticipant sid = some sender) :
      Handles (.send data) { before with finishSend := true } (some (.echo data)) false
  | echoIgnored (data : Data)
      (hignored : before.finishEcho = true ∨ ¬ before.seenEcho.Fresh sender) :
      Handles (.echo data) { before with seenEcho := (before.seenEcho.put sender).1 } none false
  | echoCounted (data : Data) (hopen : before.finishEcho = false)
      (hfresh : before.seenEcho.Fresh sender)
      (hcount : before.dataEcho.count data + 1 ≤ echoT participants) :
      Handles (.echo data) (before.countEcho sender data) none false
  | becomesReady (data : Data) (hopen : before.finishEcho = false)
      (hfresh : before.seenEcho.Fresh sender)
      (hcount : echoT participants < before.dataEcho.count data + 1) :
      Handles (.echo data) { before.countEcho sender data with finishEcho := true }
        (some (.ready data)) false
  | readyIgnored (data : Data)
      (hignored : before.finishReady = true ∨ ¬ before.seenReady.Fresh sender) :
      Handles (.ready data) { before with seenReady := (before.seenReady.put sender).1 } none false
  | readyCounted (data : Data) (hopen : before.finishReady = false)
      (hfresh : before.seenReady.Fresh sender)
      (hcount : before.dataReady.count data + 1 ≤ 2 * readyT participants) :
      Handles (.ready data) (before.amplify participants sender data)
        (before.amplification participants data) false
  | accepts (data : Data) (hopen : before.finishReady = false)
      (hfresh : before.seenReady.Fresh sender)
      (hcount : 2 * readyT participants < before.dataReady.count data + 1) :
      Handles (.ready data)
        { before.amplify participants sender data with
          finishSend := true
          finishEcho := true
          finishReady := true }
        (before.amplification participants data) true

variable {participants sid sender before} {after : BroadcastProtocolState Data}
  {vote : Option (MessageType Data)} {data : Data}

theorem handles_of_onSend (hok : before.onSend participants sid sender data = .ok (after, vote)) :
    Handles participants sid sender before (.send data) after vote false := by
  unfold onSend at hok
  split_ifs at hok with hfinished
  · cases hok
    exact .sendIgnored data (Or.inl hfinished)
  · rw [bind_eq_ok] at hok
    obtain ⟨_, hindex, hok⟩ := hok
    rw [index_eq_ok] at hindex
    split_ifs at hok with hother
    · cases hok
      refine .sendIgnored data (Or.inr fun hsender ↦ hother ?_)
      have hsame := index_eq_ok.mpr hsender
      rw [index_eq_ok.mpr hindex] at hsame
      exact (ok.inj hsame).symm
    · cases hok
      rw [not_not] at hother
      exact .echoes data (Bool.not_eq_true _ ▸ hfinished) (hother ▸ hindex)

/-- An echo vote in terms of what it counts. -/
theorem onEcho_eq (n threshold : ℕ) : before.onEcho n threshold sid sender data =
    if before.seenEcho.Fresh sender ∧ before.finishEcho = false then
      if threshold < before.dataEcho.count data + 1 then
        .ok ({ before.countEcho sender data with finishEcho := true }, some (.ready data))
      else if before.finishAmplification = false then do
        let enough ← (before.countEcho sender data).isEnough n threshold
        if enough then return (before.countEcho sender data, none)
        else .err (maliciousSender sid)
      else .ok (before.countEcho sender data, none)
    else .ok ({ before with seenEcho := (before.seenEcho.put sender).1 }, none) := by
  unfold onEcho ParticipantCounter.put
  by_cases hfresh : before.seenEcho.Fresh sender
  · by_cases hfinished : before.finishEcho = true
    · simp [hfresh, hfinished]
    · simp only [if_pos hfresh, hfinished, CounterList.get_insert_self, okOr, ok_bind, countEcho]
      simp [hfresh]
  · simp [hfresh]

/-- A ready vote in terms of what it counts. -/
theorem onReady_eq : before.onReady (readyT participants) sender data =
    if before.seenReady.Fresh sender ∧ before.finishReady = false then
      if 2 * readyT participants < before.dataReady.count data + 1 then
        .ok ({ before.amplify participants sender data with
               finishSend := true
               finishEcho := true
               finishReady := true }, before.amplification participants data, true)
      else .ok (before.amplify participants sender data,
        before.amplification participants data, false)
    else .ok ({ before with seenReady := (before.seenReady.put sender).1 }, none, false) := by
  unfold onReady ParticipantCounter.put
  by_cases hfresh : before.seenReady.Fresh sender
  · by_cases hfinished : before.finishReady = true
    · simp [hfresh, hfinished]
    · simp only [if_pos hfresh, hfinished, CounterList.get_insert_self, okOr, ok_bind]
      simp only [amplify, amplification, countReady]
      by_cases hamplifies : readyT participants < before.dataReady.count data + 1 ∧
          before.finishAmplification = false
      · have hdoes : before.Amplifies participants data := hamplifies
        simp only [if_pos hamplifies, if_pos hdoes, hfresh, pure_eq]
        simp [hfinished]
      · have hdoesNot : ¬ before.Amplifies participants data := hamplifies
        simp only [if_neg hamplifies, if_neg hdoesNot, hfresh, pure_eq]
        simp [hfinished]
  · simp [hfresh]

theorem handles_of_onEcho
    (hok : before.onEcho participants.len (echoT participants) sid sender data =
      .ok (after, vote)) :
    Handles participants sid sender before (.echo data) after vote false := by
  rw [onEcho_eq] at hok
  split_ifs at hok with hcounted henough hopen
  · cases hok
    exact .becomesReady data hcounted.2 hcounted.1 henough
  · rw [bind_eq_ok] at hok
    obtain ⟨_, -, hok⟩ := hok
    split_ifs at hok
    cases hok
    exact .echoCounted data hcounted.2 hcounted.1 (not_lt.mp henough)
  · cases hok
    exact .echoCounted data hcounted.2 hcounted.1 (not_lt.mp henough)
  · cases hok
    rw [not_and_or, Bool.not_eq_false] at hcounted
    exact .echoIgnored data hcounted.symm

theorem handles_of_onReady {accepted}
    (hok : before.onReady (readyT participants) sender data = .ok (after, vote, accepted)) :
    Handles participants sid sender before (.ready data) after vote accepted := by
  rw [onReady_eq] at hok
  split_ifs at hok with hcounted henough
  · obtain ⟨rfl, rfl, rfl⟩ := ok.inj hok
    exact .accepts data hcounted.2 hcounted.1 henough
  · obtain ⟨rfl, rfl, rfl⟩ := ok.inj hok
    exact .readyCounted data hcounted.2 hcounted.1 (not_lt.mp henough)
  · obtain ⟨rfl, rfl, rfl⟩ := ok.inj hok
    rw [not_and_or, Bool.not_eq_false] at hcounted
    exact .readyIgnored data hcounted.symm

theorem exists_onReady (participants : ParticipantList) (sender : Participant)
    (before : BroadcastProtocolState Data) (data : Data) :
    ∃ value, before.onReady (readyT participants) sender data = .ok value := by
  rw [onReady_eq]
  split_ifs
  · exact ⟨_, rfl⟩
  · exact ⟨_, rfl⟩
  · exact ⟨_, rfl⟩

/-- The sender of the session is blamed when, with this echo vote, no value can get enough of them
any more. -/
theorem eq_maliciousSender_of_onEcho {n threshold error}
    (herr : before.onEcho n threshold sid sender data = .err error) :
    error = maliciousSender sid ∧ before.finishEcho = false ∧ before.seenEcho.Fresh sender ∧
      ∀ entry ∈ (before.countEcho sender data).dataEcho,
        entry.2 + (n - (before.dataEcho.getSumCounters + 1)) ≤ threshold := by
  rw [onEcho_eq] at herr
  split_ifs at herr with hcounted henough hopen
  by_cases hsum : (before.countEcho sender data).dataEcho.getSumCounters ≤ n
  · simp only [isEnough, guardPanic, if_pos hsum, ok_bind, pure_eq] at herr
    split_ifs at herr with hany
    refine ⟨(err.inj herr).symm, hcounted.2, hcounted.1, fun entry hentry ↦ ?_⟩
    rw [Bool.not_eq_true, List.any_eq_false] at hany
    have hentry := hany entry hentry
    rw [countEcho, CounterList.sum_insert] at hentry
    simpa using hentry
  · simp [isEnough, guardPanic, if_neg hsum] at herr

/-- The subtraction overflows only when more votes have been counted than there are participants. -/
theorem lt_sum_of_onEcho_panicked {n threshold}
    (hpanic : before.onEcho n threshold sid sender data = .panicked) :
    before.finishEcho = false ∧ before.seenEcho.Fresh sender ∧
      n < before.dataEcho.getSumCounters + 1 := by
  rw [onEcho_eq] at hpanic
  split_ifs at hpanic with hcounted henough hopen
  by_cases hsum : (before.countEcho sender data).dataEcho.getSumCounters ≤ n
  · simp only [isEnough, guardPanic, if_pos hsum, ok_bind, pure_eq] at hpanic
    split_ifs at hpanic
  · rw [countEcho, CounterList.sum_insert, not_le] at hsum
    exact ⟨hcounted.2, hcounted.1, hsum⟩

end BroadcastProtocolState

/-! ### What a round does -/

namespace BroadcastReceiver

open BroadcastProtocolState

variable [DecidableEq Data] (receiver : BroadcastReceiver Data) (sender : Participant) (sid : ℕ)

/-- Every session has accepted a value. -/
def allFinished : Bool :=
  (List.range receiver.participants.len).all fun sid ↦ (receiver.state sid).finishReady

/-- With the value of a participant accepted. The call returns if it was the last one. -/
def acceptFrom (participant : Participant) (data : Data) : BroadcastReceiver Data :=
  { receiver with
    voteOutput := receiver.voteOutput.put participant data
    result :=
      if receiver.allFinished then some (.ok (receiver.voteOutput.put participant data))
      else receiver.result }

/-- All that a round can do: the participant after it, and the vote it sends. -/
inductive Iterates : MessageType Data → BroadcastReceiver Data → Option (MessageType Data) →
    Prop where
  | outOfRange (vote : MessageType Data) (hrange : receiver.participants.len ≤ sid) :
      Iterates vote { receiver with simulated := none } none
  | continues {vote : MessageType Data} {state : BroadcastProtocolState Data}
      {sent : Option (MessageType Data)} (hrange : sid < receiver.participants.len)
      (hhandles : Handles receiver.participants sid sender (receiver.state sid) vote state sent
        false) :
      Iterates vote (receiver.continueWith sid state sent) sent
  | accepts {data : Data} {state : BroadcastProtocolState Data} {sent : Option (MessageType Data)}
      {participant : Participant}
      (hhandles : Handles receiver.participants sid sender (receiver.state sid) (.ready data) state
        sent true)
      (hsession : receiver.participants.getParticipant sid = some participant) :
      Iterates (.ready data) ((receiver.continueWith sid state sent).acceptFrom participant data)
        sent
  | rejects {data : Data} {state : BroadcastProtocolState Data} {sent : Option (MessageType Data)}
      {failure : Outcome ProtocolError (ParticipantMap Data × Bool)}
      (hrange : sid < receiver.participants.len)
      (hhandles : Handles receiver.participants sid sender (receiver.state sid) (.ready data) state
        sent true)
      (hrejected : receiver.participants.contains receiver.me = true →
        receiver.participants.getParticipant sid = some receiver.me ∧
          MessageType.send data ≠ receiver.sendVote) :
      Iterates (.ready data) ((receiver.continueWith sid state sent).failWith failure) sent
  | unknownSender (data : Data) (hsender : receiver.participants.contains sender = false) :
      Iterates (.send data)
        { receiver with simulated := none, result := some (.err .invalidIndex) } none
  | blames (data : Data) (hrange : sid < receiver.participants.len)
      (hopen : (receiver.state sid).finishEcho = false)
      (hfresh : (receiver.state sid).seenEcho.Fresh sender)
      (hlost : ∀ entry ∈ ((receiver.state sid).countEcho sender data).dataEcho,
        entry.2 + (receiver.participants.len -
          ((receiver.state sid).dataEcho.getSumCounters + 1)) ≤ echoT receiver.participants) :
      Iterates (.echo data)
        { receiver with simulated := none, result := some (.err (maliciousSender sid)) } none
  | overflows (data : Data) (hrange : sid < receiver.participants.len)
      (hopen : (receiver.state sid).finishEcho = false)
      (hfresh : (receiver.state sid).seenEcho.Fresh sender)
      (hsum : receiver.participants.len < (receiver.state sid).dataEcho.getSumCounters + 1) :
      Iterates (.echo data) { receiver with simulated := none, result := some .panicked } none

variable {receiver sender sid}

section

variable (hrange : sid < receiver.participants.len) (data : Data)
include hrange

theorem iterates_send :
    Iterates receiver sender sid (.send data) (receiver.iterate sender sid (.send data)).1
      (receiver.iterate sender sid (.send data)).2 := by
  unfold iterate
  simp only [if_neg (not_le.mpr hrange)]
  cases hresult : (receiver.state sid).onSend receiver.participants sid sender data with
  | ok => exact .continues hrange (handles_of_onSend hresult)
  | err =>
    unfold onSend at hresult
    split_ifs at hresult
    cases hsender : receiver.participants.contains sender with
    | true =>
      obtain ⟨_, hplace⟩ := exists_getParticipant.mp hsender
      rw [index_eq_ok.mpr hplace, ok_bind] at hresult
      split_ifs at hresult
    | false =>
      rw [index_of_not_contains hsender, err_bind] at hresult
      cases hresult
      exact .unknownSender data hsender
  | panicked =>
    unfold onSend at hresult
    split_ifs at hresult
    rw [bind_eq_panicked] at hresult
    rcases hresult with hindex | ⟨place, -, hplace⟩
    · exact absurd hindex (okOr_ne_panicked _ _)
    · split_ifs at hplace

theorem iterates_echo :
    Iterates receiver sender sid (.echo data) (receiver.iterate sender sid (.echo data)).1
      (receiver.iterate sender sid (.echo data)).2 := by
  unfold iterate
  simp only [if_neg (not_le.mpr hrange)]
  cases hresult : (receiver.state sid).onEcho receiver.participants.len
      (echoReadyThresholds receiver.participants.len).1 sid sender data with
  | ok => exact .continues hrange (handles_of_onEcho hresult)
  | err =>
    obtain ⟨rfl, hopen, hfresh, hlost⟩ := eq_maliciousSender_of_onEcho hresult
    exact .blames data hrange hopen hfresh hlost
  | panicked =>
    obtain ⟨hopen, hfresh, hsum⟩ := lt_sum_of_onEcho_panicked hresult
    exact .overflows data hrange hopen hfresh hsum

/-- The value of a session cannot be delivered only if it is the participant's own session and
another value than its own. -/
theorem deliver_cases :
    (∃ participant, receiver.participants.getParticipant sid = some participant ∧
      receiver.deliver sid data =
        .ok (receiver.voteOutput.put participant data, receiver.allFinished)) ∨
    ((∀ value, receiver.deliver sid data ≠ .ok value) ∧
      (receiver.participants.contains receiver.me = true →
        receiver.participants.getParticipant sid = some receiver.me ∧
          MessageType.send data ≠ receiver.sendVote)) := by
  obtain ⟨participant, hparticipant⟩ := getParticipant_of_lt hrange
  unfold deliver
  simp only [hparticipant, okOr, ok_bind]
  cases hme : receiver.participants.contains receiver.me with
  | false =>
    right
    rw [index_of_not_contains hme]
    simp
  | true =>
    obtain ⟨own, hown⟩ := exists_getParticipant.mp hme
    rw [index_eq_ok.mpr hown, ok_bind]
    by_cases hmine : sid = own ∧ MessageType.send data ≠ receiver.sendVote
    · right
      have hsame : participant = receiver.me :=
        Option.some.inj (hparticipant.symm.trans (hmine.1 ▸ hown))
      simp only [require, hmine]
      simp [hsame, hmine.2]
    · left
      refine ⟨participant, rfl, ?_⟩
      rw [require_pos hmine]
      rfl

theorem iterates_ready :
    Iterates receiver sender sid (.ready data) (receiver.iterate sender sid (.ready data)).1
      (receiver.iterate sender sid (.ready data)).2 := by
  obtain ⟨value, hvalue⟩ := exists_onReady receiver.participants sender (receiver.state sid) data
  obtain ⟨state, sent, accepted⟩ := value
  have hhandles : Handles receiver.participants sid sender (receiver.state sid) (.ready data) state
      sent accepted := handles_of_onReady hvalue
  unfold readyT at hvalue
  unfold iterate
  simp only [if_neg (not_le.mpr hrange), hvalue]
  cases accepted with
  | false => exact .continues hrange hhandles
  | true =>
    have hin : sid < (receiver.continueWith sid state sent).participants.len := hrange
    rcases deliver_cases hin data with ⟨participant, hparticipant, hdeliver⟩ | ⟨hfailed, hrejected⟩
    · have haccepts := Iterates.accepts hhandles hparticipant
      unfold acceptFrom at haccepts
      simp only [hdeliver]
      cases hall : (receiver.continueWith sid state sent).allFinished with
      | false =>
        rw [hall, if_neg Bool.false_ne_true] at haccepts
        exact haccepts
      | true =>
        rw [hall, if_pos rfl] at haccepts
        exact haccepts
    · cases hdeliver : (receiver.continueWith sid state sent).deliver sid data with
      | ok value => exact absurd hdeliver (hfailed value)
      | err | panicked =>
        simp only [hdeliver]
        exact .rejects hrange hhandles hrejected

end

/-- A round does what `Iterates` says. -/
theorem iterates (vote : MessageType Data) :
    Iterates receiver sender sid vote (receiver.iterate sender sid vote).1
      (receiver.iterate sender sid vote).2 := by
  rcases Nat.lt_or_ge sid receiver.participants.len with hrange | hrange
  · cases vote with
    | send data => exact iterates_send hrange data
    | echo data => exact iterates_echo hrange data
    | ready data => exact iterates_ready hrange data
  · unfold iterate
    simp only [ge_iff_le] at hrange
    simp only [if_pos hrange]
    exact .outOfRange vote hrange

end BroadcastReceiver

end NearMpc.Threshold
