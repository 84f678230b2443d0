import NearMpc.Node.ProtocolDriver

/-!
# Messages that a task takes into account

A channel receives every message with its channel id, from any connected peer. This module says what
follows for the two decisions a task makes about messages: when the leader declares success
(`wait_for_followers_to_succeed` in `network.rs`), and what the computation receives (`receive`).

The leader counts the senders of success messages and never compares them with the participants of
the task. It may declare success without one of its followers as soon as enough other peers are
connected (`leaderSuccess_sound_iff`).

A message of a peer outside the task is handed to the computation or ends it, except for a success
message to the leader (`receive_unaffected_iff`). A follower takes the abort of anyone for the abort
of its leader (`receive_aborted_by_stranger`).
-/

set_option autoImplicit false

namespace NearMpc.Node

open Library Library.Outcome NetworkTaskChannel

namespace NetworkTaskChannel

/-! ### Waiting for the followers -/

variable (channel : NetworkTaskChannel) (messages : List MpcPeerMessage)

/-- The channel after the computation has received the given messages. -/
def receiveMany : NodeResult NetworkTaskChannel :=
  messages.foldlM (fun channel message ↦ do
    let (channel, _) ← channel.receiveOne message
    return channel) channel

/-- The loop that waits for the followers. The number of followers is a checked subtraction. With no
message left the loop keeps waiting. -/
def awaitSuccesses (channel : NetworkTaskChannel) : List MpcPeerMessage → NodeResult (Option Unit)
  | [] => do
      guardPanic (1 ≤ channel.participants.length)
      return if channel.successfulParticipants.card < channel.participants.length - 1 then none
        else some ()
  | message :: rest => do
      guardPanic (1 ≤ channel.participants.length)
      if channel.successfulParticipants.card < channel.participants.length - 1 then do
        let (channel, _) ← channel.receiveOne message
        awaitSuccesses channel rest
      else return some ()

/-- The leader may call this to wait for all followers to succeed. -/
def waitForFollowersToSucceed : NodeResult (Option Unit) :=
  if channel.isLeader then channel.awaitSuccesses messages
  else .err "Only the leader can wait for others to succeed"

variable {channel next : NetworkTaskChannel}

/-- The peer has sent a success message. -/
def SentSuccess (messages : List MpcPeerMessage) (peer : ParticipantId) : Prop :=
  ∃ message ∈ messages, message.sender = peer ∧ message.message.kind = .success

/-- The channel is of the same task, and its successful participants have sent a success message. -/
structure Follows (channel next : NetworkTaskChannel) (messages : List MpcPeerMessage) : Prop where
  participants : next.participants = channel.participants
  isLeader : next.isLeader = channel.isLeader
  successful : ∀ peer ∈ next.successfulParticipants,
    peer ∈ channel.successfulParticipants ∨ SentSuccess messages peer

theorem Follows.refl (channel : NetworkTaskChannel) : Follows channel channel [] :=
  ⟨rfl, rfl, fun _ hmem ↦ .inl hmem⟩

theorem Follows.trans {last first second} (hfirst : Follows channel next first)
    (hsecond : Follows next last second) :
    Follows channel last (first ++ second) where
  participants := hsecond.participants.trans hfirst.participants
  isLeader := hsecond.isLeader.trans hfirst.isLeader
  successful := by
    intro peer hmem
    rcases hsecond.successful peer hmem with hbefore | ⟨message, hmessage, hsent⟩
    · refine (hfirst.successful peer hbefore).imp_right ?_
      rintro ⟨message, hmessage, hsent⟩
      exact ⟨message, List.mem_append_left _ hmessage, hsent⟩
    · exact .inr ⟨message, List.mem_append_right _ hmessage, hsent⟩

theorem receiveOne_follows {message data} (hreceive : channel.receiveOne message = .ok (next, data))
    :
    Follows channel next [message] := by
  unfold receiveOne at hreceive
  split at hreceive
  · cases hreceive
    exact ⟨rfl, rfl, fun _ hmem ↦ .inl hmem⟩
  · split_ifs at hreceive
  · rename_i hkind
    split_ifs at hreceive
    cases hreceive
    refine ⟨rfl, rfl, fun peer hmem ↦ ?_⟩
    rcases Finset.mem_insert.mp hmem with rfl | hbefore
    · exact .inr ⟨message, List.mem_singleton_self message, rfl, hkind⟩
    · exact .inl hbefore
  · exact absurd hreceive (by simp)

theorem receiveMany_follows {messages} (hreceive : channel.receiveMany messages = .ok next) :
    Follows channel next messages := by
  induction messages generalizing channel with
  | nil =>
    obtain rfl := ok.inj hreceive
    exact .refl channel
  | cons _ _ ih =>
    obtain ⟨_, hfirst, hrest⟩ := bind_eq_ok.mp hreceive
    obtain ⟨⟨_, _⟩, hone, hdone⟩ := bind_eq_ok.mp hfirst
    cases hdone
    exact (receiveOne_follows hone).trans (ih hrest)

/-- When the loop ends, enough peers have been counted. -/
theorem awaitSuccesses_returns {messages}
    (hreturns : channel.awaitSuccesses messages = .ok (some ())) :
    ∃ last, Follows channel last messages ∧
      channel.participants.length - 1 ≤ last.successfulParticipants.card := by
  induction messages generalizing channel with
  | nil =>
    obtain ⟨_, -, hdone⟩ := bind_eq_ok.mp hreturns
    have hcount := ok.inj hdone
    split_ifs at hcount with hfew
    exact ⟨channel, .refl channel, not_lt.mp hfew⟩
  | cons _ _ ih =>
    obtain ⟨_, -, hrest⟩ := bind_eq_ok.mp hreturns
    split_ifs at hrest with hfew
    · obtain ⟨⟨_, _⟩, hone, hlater⟩ := bind_eq_ok.mp hrest
      have hfollows := receiveOne_follows hone
      obtain ⟨last, hlast, hcount⟩ := ih hlater
      exact ⟨last, hfollows.trans hlast, hfollows.participants ▸ hcount⟩
    · refine ⟨channel, ⟨rfl, rfl, fun _ hmem ↦ .inl hmem⟩, not_lt.mp hfew⟩

/-- A success message on the channel. -/
def successFrom (channel : NetworkTaskChannel) (peer : ParticipantId) : MpcPeerMessage :=
  ⟨peer, channel.channelId, .success⟩

/-- The loop ends once enough different peers have sent success messages, whoever they are. -/
theorem awaitSuccesses_of_card (hleader : channel.isLeader = true)
    (hnonempty : 1 ≤ channel.participants.length) (peers : List ParticipantId)
    (henough : channel.participants.length - 1 ≤
      (channel.successfulParticipants ∪ peers.toFinset).card) :
    channel.awaitSuccesses (peers.map channel.successFrom) = .ok (some ()) := by
  have hguard : (guardPanic (1 ≤ channel.participants.length) : NodeResult Unit) = .ok () :=
    guardPanic_eq_ok.mpr hnonempty
  induction peers generalizing channel with
  | nil =>
    rw [List.toFinset_nil, Finset.union_empty] at henough
    rw [List.map_nil, awaitSuccesses, hguard, ok_bind, if_neg (not_lt.mpr henough)]
    rfl
  | cons peer _ ih =>
    rw [List.map_cons, awaitSuccesses, hguard, ok_bind]
    split_ifs with hfew
    · have hone : channel.receiveOne (channel.successFrom peer) = .ok ({ channel with
          successfulParticipants := insert peer channel.successfulParticipants }, none) := by
        simp [receiveOne, successFrom, hleader]
      rw [hone, ok_bind]
      refine ih hleader hnonempty ?_ hguard
      rwa [List.toFinset_cons, Finset.union_insert, ← Finset.insert_union] at henough
    · rfl

/-- Whatever the connected peers send, the leader declares success only if every other participant
of the task has sent a success message. The first messages arrive while the leader computes, the
others while it waits. -/
def SuccessSound (channel : NetworkTaskChannel) (connected : Finset ParticipantId) : Prop :=
  ∀ early late waiting, (∀ message ∈ early ++ late, message.sender ∈ connected) →
    channel.receiveMany early = .ok waiting →
    waiting.waitForFollowersToSucceed late = .ok (some ()) →
      ∀ follower ∈ channel.participants, follower ≠ channel.leader →
        SentSuccess (early ++ late) follower

end NetworkTaskChannel

/-- The leader waits for every follower exactly if, whichever follower is left out, fewer other
peers are connected than there are followers to wait for. -/
theorem leaderSuccess_sound_iff (channel : NetworkTaskChannel) (connected : Finset ParticipantId)
    (hleader : channel.isLeader = true) (hnew : channel.successfulParticipants = ∅) :
    channel.SuccessSound connected ↔
      ∀ follower ∈ channel.participants, follower ≠ channel.leader →
        (connected.erase follower).card < channel.participants.length - 1 := by
  constructor
  · intro hsound follower hmem hfollower
    by_contra! hmany
    have hnonempty : 1 ≤ channel.participants.length := List.length_pos_of_mem hmem
    have hreturns := awaitSuccesses_of_card hleader hnonempty
      (connected.erase follower).toList (by simpa [hnew] using hmany)
    obtain ⟨message, hmessage, hsender, -⟩ := hsound []
      ((connected.erase follower).toList.map channel.successFrom) channel
      (by
        intro message hmessage
        obtain ⟨peer, hpeer, rfl⟩ := List.mem_map.mp hmessage
        exact Finset.mem_of_mem_erase (Finset.mem_toList.mp hpeer))
      rfl (by rw [waitForFollowersToSucceed, if_pos hleader, hreturns])
      follower hmem hfollower
    -- no message is from the follower that was left out
    obtain ⟨peer, hpeer, rfl⟩ := List.mem_map.mp hmessage
    exact absurd hsender (Finset.ne_of_mem_erase (Finset.mem_toList.mp hpeer))
  · intro hfew early late waiting hconnected hearly hreturns follower hmem hfollower
    by_contra hsilent
    have hfollows := receiveMany_follows hearly
    rw [waitForFollowersToSucceed, hfollows.isLeader, if_pos hleader] at hreturns
    obtain ⟨last, hlast, hcount⟩ := awaitSuccesses_returns hreturns
    have hsubset : last.successfulParticipants ⊆ connected.erase follower := by
      intro peer hpeer
      have hsent := ((hfollows.trans hlast).successful peer hpeer).resolve_left (by simp [hnew])
      obtain ⟨message, hmessage, rfl, -⟩ := id hsent
      refine Finset.mem_erase.mpr ⟨?_, hconnected message hmessage⟩
      rintro rfl
      exact hsilent hsent
    have hbound := (Finset.card_le_card hsubset).trans_lt (hfew follower hmem hfollower)
    rw [hfollows.participants] at hcount
    omega

/-- The channel of a task with the participants 1, 2 and 3, led by 1, on the given node. -/
def taskOfThree (me : ParticipantId) : NetworkTaskChannel where
  channelId := .new 1 0 0
  taskId := .eddsaTaskId (.signature [])
  leader := 1
  myParticipantId := me
  participants := [1, 2, 3]
  connectionVersions := []
  receiver := []
  successfulParticipants := ∅

/-- Only the followers are connected. -/
theorem leaderSuccess_sound_three : (taskOfThree 1).SuccessSound {2, 3} :=
  (leaderSuccess_sound_iff (taskOfThree 1) {2, 3} rfl rfl).mpr fun follower hmem hfollower ↦ by
    rcases (by simpa [taskOfThree] using hmem : follower = 1 ∨ follower = 2 ∨ follower = 3)
      with rfl | rfl | rfl
    · exact absurd rfl hfollower
    · decide
    · decide

/-- The leader of a task with the followers 2 and 3 declares success when 2 and the peer 4, which is
not in the task, have sent success messages. -/
theorem leaderSuccess_without_follower :
    (taskOfThree 1).waitForFollowersToSucceed
        [(taskOfThree 1).successFrom 2, (taskOfThree 1).successFrom 4] = .ok (some ()) ∧
      ¬ (taskOfThree 1).SuccessSound {2, 3, 4} := by
  refine ⟨by decide, fun hsound ↦ ?_⟩
  obtain ⟨message, _, _, -⟩ := hsound []
    [(taskOfThree 1).successFrom 2, (taskOfThree 1).successFrom 4] (taskOfThree 1) (by decide) rfl
    (by decide) 3 (by decide) (by decide)
  revert message
  decide

/-! ### What the computation receives -/

namespace NetworkTaskChannel

variable {channel : NetworkTaskChannel}

/-- Receives a computation message. With no message left the call keeps waiting. -/
def receive (channel : NetworkTaskChannel) : List MpcPeerMessage →
    NodeResult (Option (NetworkTaskChannel × TaskChannelComputationData × List MpcPeerMessage))
  | [] => .ok none
  | message :: rest => do
      match ← channel.receiveOne message with
      | (channel, none) => channel.receive rest
      | (channel, some data) => return some (channel, data, rest)

/-- What a message contributes to the results of `receive`. -/
def resultOf (isLeader : Bool) (message : MpcPeerMessage) :
    Option (Except NodeError TaskChannelComputationData) :=
  match message.message.kind with
  | .computation data => some (.ok { sender := message.sender, data })
  | .abort text =>
      if isLeader then
        some (.error ("Aborted by participant " ++ toString message.sender ++ ": " ++ text))
      else some (.error ("Aborted by leader: " ++ text))
  | .success =>
      if isLeader then none
      else some (.error "Received unexpected Success message when we are not the leader")
  | .start start => some (.error ("Unexpected Start message: " ++ start.debug))

/-- The results of calling `receive` again and again on the given messages, also after an error. -/
def receiveResults (channel : NetworkTaskChannel) : List MpcPeerMessage →
    List (Except NodeError TaskChannelComputationData)
  | [] => []
  | message :: rest =>
      match channel.receiveOne message with
      | .ok (channel, none) => channel.receiveResults rest
      | .ok (channel, some data) => .ok data :: channel.receiveResults rest
      | .err failure => .error failure :: channel.receiveResults rest
      | .panicked => []

/-- The first result is what `receive` returns. -/
theorem receiveResults_head? (channel : NetworkTaskChannel) (messages : List MpcPeerMessage) :
    (channel.receiveResults messages).head? =
      match channel.receive messages with
      | .ok none => none
      | .ok (some (_, data, _)) => some (.ok data)
      | .err failure => some (.error failure)
      | .panicked => none := by
  induction messages generalizing channel with
  | nil => rfl
  | cons message _ ih =>
    rw [receiveResults, receive]
    cases channel.receiveOne message with
    | ok result =>
      obtain ⟨next, _ | _⟩ := result
      · exact ih next
      · rfl
    | err => rfl
    | panicked => rfl

theorem receiveOne_eq (channel : NetworkTaskChannel) (message : MpcPeerMessage) :
    ∃ next, next.isLeader = channel.isLeader ∧ channel.receiveOne message =
      match resultOf channel.isLeader message with
      | none => .ok (next, none)
      | some (.ok data) => .ok (next, some data)
      | some (.error failure) => .err failure := by
  unfold receiveOne resultOf
  cases message.message.kind with
  | computation | start => exact ⟨channel, rfl, rfl⟩
  | abort => exact ⟨channel, rfl, by dsimp only; split_ifs <;> rfl⟩
  | success =>
    refine ⟨{ channel with
      successfulParticipants := insert message.sender channel.successfulParticipants }, rfl, ?_⟩
    dsimp only
    split_ifs <;> rfl

/-- Every message contributes to the results on its own. -/
theorem receiveResults_eq (channel : NetworkTaskChannel) (messages : List MpcPeerMessage) :
    channel.receiveResults messages = messages.filterMap (resultOf channel.isLeader) := by
  induction messages generalizing channel with
  | nil => rfl
  | cons message _ ih =>
    obtain ⟨next, hleader, hone⟩ := receiveOne_eq channel message
    rw [receiveResults, hone, List.filterMap_cons]
    cases resultOf channel.isLeader message with
    | none =>
      dsimp only
      rw [ih next, hleader]
    | some result =>
      cases result with
      | ok =>
        dsimp only
        rw [ih next, hleader]
      | error =>
        dsimp only
        rw [ih channel]

/-- A message that tells that the task has ended. -/
def tellsEnd : MpcMessageKind → Bool
  | .abort _ | .success => true
  | _ => false

/-- The message is from outside the task, or it tells a follower that the task has ended without
being from the leader. -/
def IsStray (channel : NetworkTaskChannel) (message : MpcPeerMessage) : Prop :=
  message.sender ∉ channel.participants ∨
    channel.isLeader = false ∧ message.sender ≠ channel.leader ∧
      tellsEnd message.message.kind = true

instance (channel : NetworkTaskChannel) (message : MpcPeerMessage) :
    Decidable (channel.IsStray message) :=
  inferInstanceAs (Decidable (_ ∨ _))

/-- The messages that are not stray. -/
def withoutStrays (channel : NetworkTaskChannel) (messages : List MpcPeerMessage) :
    List MpcPeerMessage :=
  messages.filter fun message ↦ ¬ channel.IsStray message

/-- Any two runs of the channel that differ only by stray messages give the same results, where
`arriving` says which stray messages may arrive. -/
def Unaffected (channel : NetworkTaskChannel) (arriving : MpcPeerMessage → Prop) : Prop :=
  ∀ first second, (∀ message ∈ first ++ second, channel.IsStray message → arriving message) →
    channel.withoutStrays first = channel.withoutStrays second →
      channel.receiveResults first = channel.receiveResults second

theorem resultOf_eq_none_iff {isLeader message} :
    resultOf isLeader message = none ↔ isLeader = true ∧ message.message.kind = .success := by
  unfold resultOf
  cases message.message.kind <;> cases isLeader <;> simp

/-- Stray messages that contribute nothing may be left out. -/
theorem receiveResults_withoutStrays {messages}
    (hsilent : ∀ message ∈ messages, channel.IsStray message →
      resultOf channel.isLeader message = none) :
    channel.receiveResults (channel.withoutStrays messages) = channel.receiveResults messages := by
  rw [receiveResults_eq, receiveResults_eq, withoutStrays, List.filterMap_filter]
  refine List.filterMap_congr fun message hmem ↦ ?_
  by_cases hstray : channel.IsStray message
  · simp [hstray, hsilent message hmem hstray]
  · simp [hstray]

end NetworkTaskChannel

/-- Stray messages have no influence on what the computation receives exactly if they are success
messages to the leader. -/
theorem receive_unaffected_iff (channel : NetworkTaskChannel) (arriving : MpcPeerMessage → Prop) :
    channel.Unaffected arriving ↔
      ∀ message, channel.IsStray message → arriving message →
        channel.isLeader = true ∧ message.message.kind = .success := by
  constructor
  · intro hunaffected message hstray harriving
    -- a run with this message alone against the run without messages
    have hsame := hunaffected [message] [] (by simpa using fun _ ↦ harriving)
      (by simp [withoutStrays, hstray])
    rw [receiveResults_eq, receiveResults_eq] at hsame
    rw [← resultOf_eq_none_iff]
    simpa using hsame
  · intro hsilent first second harriving hcommon
    have hstrip : ∀ messages, (∀ message ∈ messages, message ∈ first ++ second) →
        channel.receiveResults (channel.withoutStrays messages) =
          channel.receiveResults messages := by
      intro messages hsub
      refine receiveResults_withoutStrays fun message hmem hstray ↦ ?_
      exact resultOf_eq_none_iff.mpr
        (hsilent message hstray (harriving message (hsub message hmem) hstray))
    rw [← hstrip first fun _ ↦ List.mem_append_left second,
      ← hstrip second fun _ ↦ List.mem_append_right first, hcommon]

/-- An abort message for the task of three. -/
def abortFrom (peer : ParticipantId) : MpcPeerMessage := ⟨peer, .new 1 0 0, .abort "no"⟩

/-- Node 2 follows in a task led by 1. The peer 4, which is not in the task, and the follower 3 can
each make it fail as if the leader had aborted the task. -/
theorem receive_aborted_by_stranger :
    (taskOfThree 2).withoutStrays [abortFrom 4] = (taskOfThree 2).withoutStrays [] ∧
      (taskOfThree 2).withoutStrays [abortFrom 3] = (taskOfThree 2).withoutStrays [] ∧
      (taskOfThree 2).receiveResults [] = [] ∧
      (taskOfThree 2).receiveResults [abortFrom 4] = [.error "Aborted by leader: no"] ∧
      (taskOfThree 2).receiveResults [abortFrom 3] = [.error "Aborted by leader: no"] ∧
      ¬ (taskOfThree 2).Unaffected fun _ ↦ True := by
  have houtside : (taskOfThree 2).withoutStrays [abortFrom 4] = [] := by decide
  have hresults : (taskOfThree 2).receiveResults [abortFrom 4] =
      [.error "Aborted by leader: no"] := rfl
  refine ⟨houtside, by decide, rfl, hresults, rfl, fun hunaffected ↦ ?_⟩
  have hsame := hunaffected [abortFrom 4] [] (fun _ _ _ ↦ trivial) houtside
  rw [hresults] at hsame
  exact absurd hsame (by simp [receiveResults])

end NearMpc.Node
