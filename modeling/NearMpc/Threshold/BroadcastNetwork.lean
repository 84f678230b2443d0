import NearMpc.Threshold.EchoBroadcast

/-!
# A network of broadcasting participants

All participants run `do_broadcast` at the same time. Those that are not faulty follow the code; a
faulty one sends any vote, in any session, to anybody, and different ones to different participants.
The network delivers the votes in flight in any order. A participant that has a vote of its own to
count does so before it takes the next one from the network, as the loop of
`reliable_broadcast_receive_all` does.

`sent` is a log of the votes that the participants that are not faulty have sent. It is never read
by a step. What has been said to a participant in the name of another is supported by the log
(`Supports`), unless that other is faulty; a value is certified in a session when more than
`(n + f) / 2` participants support an echo of it (`Certified`).
-/

set_option autoImplicit false

namespace NearMpc.Threshold

open Library

variable {Data : Type}

structure BroadcastSetting (Data : Type) where
  participants : ParticipantList
  enough : 4 ≤ participants.len
  faulty : Finset Participant
  faulty_mem : ∀ participant ∈ faulty, participants.contains participant = true
  faulty_card : faulty.card ≤ (participants.len - 1) / 3
  /-- The value each participant broadcasts. -/
  input : Participant → Data

structure BroadcastVote (Data : Type) where
  sender : Participant
  sid : ℕ
  vote : MessageType Data
deriving DecidableEq, Repr

structure BroadcastSystem (Data : Type) where
  receiver : Participant → BroadcastReceiver Data
  /-- Votes on their way, with the recipient of each. -/
  inFlight : List (Participant × BroadcastVote Data)
  /-- The votes that participants which are not faulty have sent so far. -/
  sent : List (BroadcastVote Data)

inductive BroadcastEvent (Data : Type) where
  /-- A participant counts the vote it has sent itself. -/
  | advance (participant : Participant)
  /-- A vote in flight arrives. -/
  | deliver (place : ℕ)
  /-- A faulty participant sends a vote. -/
  | inject (recipient : Participant) (message : BroadcastVote Data)
deriving DecidableEq, Repr

namespace BroadcastSetting

variable (setting : BroadcastSetting Data)

/-- The participant follows the code. -/
def Honest (participant : Participant) : Prop :=
  setting.participants.contains participant = true ∧ participant ∉ setting.faulty

instance (participant : Participant) : Decidable (setting.Honest participant) :=
  inferInstanceAs (Decidable (_ ∧ _))

/-- All participants. -/
def everyone : Finset Participant := setting.participants.members

variable {participant : Participant}

theorem mem_everyone :
    participant ∈ setting.everyone ↔ setting.participants.contains participant = true :=
  ParticipantList.mem_members

theorem card_everyone : setting.everyone.card = setting.participants.len :=
  setting.participants.card_members

theorem echoT_eq : BroadcastProtocolState.echoT setting.participants =
    (setting.participants.len + (setting.participants.len - 1) / 3) / 2 := by
  have henough := setting.enough
  simp only [BroadcastProtocolState.echoT, echoReadyThresholds]
  rw [if_neg (by omega)]

theorem readyT_eq : BroadcastProtocolState.readyT setting.participants =
    (setting.participants.len - 1) / 3 := by
  have henough := setting.enough
  simp only [BroadcastProtocolState.readyT, echoReadyThresholds]
  rw [if_neg (by omega)]

/-- Among more than `f` participants there is one that is not faulty. -/
theorem exists_honest {group} (hgroup : group ⊆ setting.everyone)
    (hcard : (setting.participants.len - 1) / 3 < group.card) :
    ∃ participant ∈ group, setting.Honest participant := by
  have hlt : setting.faulty.card < group.card := setting.faulty_card.trans_lt hcard
  obtain ⟨participant, hmem, hnotFaulty⟩ := Finset.exists_mem_notMem_of_card_lt_card hlt
  exact ⟨participant, hmem, setting.mem_everyone.mp (hgroup hmem), hnotFaulty⟩

/-- The participant may have said so. -/
def Supports (sent : List (BroadcastVote Data)) (sid : ℕ) (vote : MessageType Data)
    (participant : Participant) : Prop :=
  participant ∈ setting.faulty ∨ (⟨participant, sid, vote⟩ : BroadcastVote Data) ∈ sent

variable {setting : BroadcastSetting Data} {sid : ℕ}

theorem Supports.mono {sent later} {vote : MessageType Data} (hlog : sent ⊆ later)
    (hsupports : setting.Supports sent sid vote participant) :
    setting.Supports later sid vote participant :=
  hsupports.imp_right fun hsent ↦ hlog hsent

variable (sent : List (BroadcastVote Data)) (me : Participant)

/-- The log with the vote a participant has sent, if any. -/
def logVote (sid : ℕ) :
    Option (MessageType Data) → List (BroadcastVote Data)
  | none => sent
  | some vote => ⟨me, sid, vote⟩ :: sent

/-- `send_many`: a vote for all participants but the sender. -/
def sendMany (system : BroadcastSystem Data) (me : Participant) (sid : ℕ) :
    Option (MessageType Data) → BroadcastSystem Data
  | none => system
  | some vote =>
      { system with
        inFlight := system.inFlight ++
          (setting.participants.others me).map fun recipient ↦ (recipient, ⟨me, sid, vote⟩)
        sent := ⟨me, sid, vote⟩ :: system.sent }

theorem subset_logVote (sid : ℕ) (vote : Option (MessageType Data)) :
    sent ⊆ logVote sent me sid vote := by
  cases vote with
  | none => exact List.Subset.refl _
  | some => exact List.subset_cons_self _ _

variable {message : BroadcastVote Data}

theorem mem_logVote {sent me} {vote : Option (MessageType Data)} :
    message ∈ logVote sent me sid vote ↔
      message ∈ sent ∨ ∃ sentVote, vote = some sentVote ∧ message = ⟨me, sid, sentVote⟩ := by
  cases vote with
  | none => simp [logVote]
  | some => simp [logVote, or_comm]

variable (system : BroadcastSystem Data) (me : Participant)

@[simp] theorem sendMany_receiver (sid : ℕ) (vote : Option (MessageType Data)) :
    (setting.sendMany system me sid vote).receiver = system.receiver := by
  cases vote <;> rfl

@[simp] theorem sendMany_sent (sid : ℕ) (vote : Option (MessageType Data)) :
    (setting.sendMany system me sid vote).sent = logVote system.sent me sid vote := by
  cases vote <;> rfl

variable {arriving : Participant × BroadcastVote Data}

/-- A vote in flight was so before or has just been sent. -/
theorem mem_sendMany_inFlight {system me} {vote : Option (MessageType Data)} :
    arriving ∈ (setting.sendMany system me sid vote).inFlight ↔
      arriving ∈ system.inFlight ∨ ∃ sentVote, vote = some sentVote ∧
        arriving.1 ∈ setting.participants.others me ∧ arriving.2 = ⟨me, sid, sentVote⟩ := by
  cases vote with
  | none => simp [sendMany]
  | some =>
    simp only [sendMany, List.mem_append, List.mem_map, Option.some.injEq, exists_eq_left']
    refine or_congr_right ⟨?_, ?_⟩
    · rintro ⟨_, hrecipient, rfl⟩
      exact ⟨hrecipient, rfl⟩
    · rintro ⟨hrecipient, hmessage⟩
      exact ⟨arriving.1, hrecipient, by rw [← hmessage]⟩

/-- Everybody that is not faulty has sent its value. -/
def start : BroadcastSystem Data :=
  let sent := setting.participants.participants.filterMap fun participant ↦
    if setting.Honest participant then
      (BroadcastReceiver.doBroadcast setting.participants participant
        (setting.input participant)).2.map fun vote ↦ ⟨participant, vote.1, vote.2⟩
    else none
  { receiver := fun participant ↦
      (BroadcastReceiver.doBroadcast setting.participants participant
        (setting.input participant)).1
    inFlight := sent.flatMap fun message ↦
      (setting.participants.others message.sender).map fun recipient ↦ (recipient, message)
    sent }

/-- The votes sent at the start are the values of the participants that are not faulty. -/
theorem mem_start_sent :
    message ∈ setting.start.sent ↔ setting.Honest message.sender ∧
      setting.participants.getParticipant message.sid = some message.sender ∧
      message.vote = .send (setting.input message.sender) := by
  simp only [start, List.mem_filterMap]
  constructor
  · rintro ⟨_, -, hsome⟩
    split_ifs at hsome with hhonest
    obtain ⟨_, hsid⟩ := ParticipantList.exists_getParticipant.mp hhonest.1
    rw [BroadcastReceiver.doBroadcast_eq hsid] at hsome
    cases hsome
    exact ⟨hhonest, hsid, rfl⟩
  · rintro ⟨hhonest, hsid, hvote⟩
    refine ⟨message.sender, List.contains_iff_mem.mp hhonest.1, ?_⟩
    rw [if_pos hhonest, BroadcastReceiver.doBroadcast_eq hsid, Option.map_some, ← hvote]

theorem start_receiver (hsid : setting.participants.getParticipant sid = some participant) :
    setting.start.receiver participant =
      { participants := setting.participants
        me := participant
        sendVote := .send (setting.input participant)
        voteOutput := ParticipantMap.new setting.participants
        state := fun _ ↦ .new setting.participants
        simulated := some (sid, .send (setting.input participant))
        result := none } := by
  simp only [start, BroadcastReceiver.doBroadcast_eq hsid]

theorem mem_start_inFlight :
    arriving ∈ setting.start.inFlight ↔
      arriving.2 ∈ setting.start.sent ∧
        arriving.1 ∈ setting.participants.others arriving.2.sender := by
  simp only [start, List.mem_flatMap, List.mem_map]
  constructor
  · rintro ⟨_, hmessage, _, hrecipient, rfl⟩
    exact ⟨hmessage, hrecipient⟩
  · rintro ⟨hmessage, hrecipient⟩
    exact ⟨arriving.2, hmessage, arriving.1, hrecipient, rfl⟩

/-- A vote that a participant can handle next. -/
inductive Arrives (system : BroadcastSystem Data) (participant : Participant) :
    BroadcastVote Data → List (Participant × BroadcastVote Data) → Prop where
  | simulated (sid : ℕ) (vote : MessageType Data)
      (hmoved : (system.receiver participant).simulated = some (sid, vote)) :
      Arrives system participant ⟨participant, sid, vote⟩ system.inFlight
  | delivered (message : BroadcastVote Data) (place : ℕ)
      (hplace : system.inFlight[place]? = some (participant, message))
      (hidle : (system.receiver participant).simulated = none) :
      Arrives system participant message (system.inFlight.eraseIdx place)

/-- A vote in flight stays so, unless it is the one that is handled. -/
theorem remains_of_arrives {system other waiting inFlight}
    (harrives : Arrives system participant message inFlight)
    (hwaiting : (other, waiting) ∈ system.inFlight) :
    (other, waiting) ∈ inFlight ∨ (other = participant ∧ waiting = message) := by
  cases harrives with
  | simulated => exact Or.inl hwaiting
  | delivered _ place hplace =>
    obtain ⟨found, hfound⟩ := List.mem_iff_getElem?.mp hwaiting
    by_cases hsame : found = place
    · subst hsame
      right
      have hpair := Option.some.inj (hfound.symm.trans hplace)
      exact Prod.mk.inj hpair
    · exact Or.inl (List.mem_eraseIdx_iff_getElem?.mpr ⟨found, hsame, hfound⟩)

variable [DecidableEq Data] (system : BroadcastSystem Data)

/-- A participant handles a vote. -/
def receive (participant : Participant) (message : BroadcastVote Data) : BroadcastSystem Data :=
  let round := (system.receiver participant).iterate message.sender message.sid message.vote
  setting.sendMany
    { system with receiver := Function.update system.receiver participant round.1 }
    participant message.sid round.2

/-- The participant follows the code and has not returned. -/
def Running (participant : Participant) : Prop :=
  setting.Honest participant ∧ (system.receiver participant).result.isNone = true

instance (system : BroadcastSystem Data) (participant : Participant) :
    Decidable (setting.Running system participant) := inferInstanceAs (Decidable (_ ∧ _))

/-- One step of the network. A vote for a participant that is faulty or has returned is lost. -/
def step : BroadcastEvent Data → BroadcastSystem Data
  | .advance participant =>
      match (system.receiver participant).simulated with
      | some (sid, vote) =>
          if setting.Running system participant then
            setting.receive system participant ⟨participant, sid, vote⟩
          else system
      | none => system
  | .deliver place =>
      match system.inFlight[place]? with
      | some (recipient, message) =>
          if setting.Running system recipient then
            if (system.receiver recipient).simulated.isNone then
              setting.receive { system with inFlight := system.inFlight.eraseIdx place } recipient
                message
            else system
          else { system with inFlight := system.inFlight.eraseIdx place }
      | none => system
  | .inject recipient message =>
      if message.sender ∈ setting.faulty then
        { system with inFlight := system.inFlight ++ [(recipient, message)] }
      else system

/-! ### What a step does -/

/-- All that a step can do. -/
inductive Steps (system : BroadcastSystem Data) : BroadcastSystem Data → Prop where
  | stays : Steps system system
  | receives (participant : Participant) (message : BroadcastVote Data)
      (inFlight : List (Participant × BroadcastVote Data))
      (hrunning : setting.Running system participant)
      (harrives : Arrives system participant message inFlight) :
      Steps system (setting.receive { system with inFlight } participant message)
  | loses (recipient : Participant) (message : BroadcastVote Data) (place : ℕ)
      (hplace : system.inFlight[place]? = some (recipient, message))
      (hnotRunning : ¬ setting.Running system recipient) :
      Steps system { system with inFlight := system.inFlight.eraseIdx place }
  | injects (recipient : Participant) (message : BroadcastVote Data)
      (hfaulty : message.sender ∈ setting.faulty) :
      Steps system { system with inFlight := system.inFlight ++ [(recipient, message)] }

theorem steps_step (event : BroadcastEvent Data) :
    setting.Steps system (setting.step system event) := by
  cases event with
  | advance participant =>
    simp only [step]
    cases hmoved : (system.receiver participant).simulated with
    | none => exact .stays
    | some own =>
      split_ifs with hrunning
      · exact .receives participant _ _ hrunning (.simulated own.1 own.2 hmoved)
      · exact .stays
  | deliver place =>
    simp only [step]
    cases hplace : system.inFlight[place]? with
    | none => exact .stays
    | some arriving =>
      dsimp only
      split_ifs with hrunning hidle
      · exact .receives arriving.1 arriving.2 _ hrunning
          (.delivered _ place hplace (Option.isNone_iff_eq_none.mp hidle))
      · exact .stays
      · exact .loses arriving.1 arriving.2 place hplace hrunning
  | inject recipient message =>
    simp only [step]
    split_ifs with hfaulty
    · exact .injects recipient message hfaulty
    · exact .stays

/-! ### What the log supports -/

section Log

variable (sent : List (BroadcastVote Data)) (sid : ℕ)

instance (vote : MessageType Data) (participant : Participant) :
    Decidable (setting.Supports sent sid vote participant) := inferInstanceAs (Decidable (_ ∨ _))

def supporters (vote : MessageType Data) : Finset Participant :=
  setting.everyone.filter fun participant ↦ setting.Supports sent sid vote participant

/-- More than `(n + f) / 2` participants support an echo of the value. -/
def Certified (data : Data) : Prop :=
  (setting.participants.len + (setting.participants.len - 1) / 3) / 2 <
    (setting.supporters sent sid (.echo data)).card

variable {sent sid} {later : List (BroadcastVote Data)} (vote : MessageType Data)

theorem supporters_mono (hlog : sent ⊆ later) :
    setting.supporters sent sid vote ⊆ setting.supporters later sid vote :=
  Finset.monotone_filter_right _ fun _ _ hsupports ↦ hsupports.mono hlog

theorem Certified.mono {data} (hlog : sent ⊆ later) (hcertified : setting.Certified sent sid data) :
    setting.Certified later sid data :=
  hcertified.trans_le (Finset.card_le_card (setting.supporters_mono _ hlog))

theorem supporters_subset :
    setting.supporters sent sid vote ⊆ setting.everyone := Finset.filter_subset _ _

/-- More than `f` supporters include one that has sent the vote. -/
theorem exists_sent {vote : MessageType Data}
    (hcard : (setting.participants.len - 1) / 3 < (setting.supporters sent sid vote).card) :
    ∃ participant, setting.Honest participant ∧
      (⟨participant, sid, vote⟩ : BroadcastVote Data) ∈ sent := by
  obtain ⟨participant, hmem, hhonest⟩ :=
    setting.exists_honest (setting.supporters_subset vote) hcard
  exact ⟨participant, hhonest, (Finset.mem_filter.mp hmem).2.resolve_left hhonest.2⟩

end Log

end BroadcastSetting

end NearMpc.Threshold
