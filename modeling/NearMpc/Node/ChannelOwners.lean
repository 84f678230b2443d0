import NearMpc.Node.ChannelDispatch

/-!
# Owners of channels

A channel id carries the participant that generated it, the leader of the task. Which peer becomes
the leader of a channel with a given id, over all runs of the dispatch. Follows
`generate_unique_channel_id`, `new_channel_for_task` and `sender_for` in `network.rs`.

`sender_for` makes the sender of the first start message the leader, whoever the id belongs to.
`OwnStart` is the condition that start messages come from the peer that their channel id names. Then
every channel is led by its owner, and this node can create a channel whenever it picks an id, since
its own ids are picked in increasing order.
-/

set_option autoImplicit false

namespace NearMpc.Node

open Library Library.Outcome MeshNetworkClient

variable {lru : LruCache ChannelId (List MpcPeerMessage)}

/-- A start message comes from a peer, the one that its channel id carries. -/
def OwnStart (me : ParticipantId) : DispatchEvent → Prop
  | .receive _ message => ∀ start, message.message.kind = .start start →
      message.sender ≠ me ∧ message.sender = message.message.channelId.participantId
  | _ => True

/-- Every channel is led by its owner, and this node's own channels have ids that it has picked. -/
structure Owned (me : ParticipantId) (dispatcher : Dispatcher lru) : Prop where
  mine : dispatcher.lastId.participantId = me
  led : ∀ channel ∈ dispatcher.client.live, channel.leader = channel.channelId.participantId
  picked : ∀ channel ∈ dispatcher.client.live, channel.channelId.participantId = me →
    channel.channelId.raw.toNat ≤ dispatcher.lastId.raw.toNat

variable {me : ParticipantId} {dispatcher after : Dispatcher lru} {ledger : Ledger}

section

variable (howned : Owned me dispatcher)
include howned

/-- Channels may change in anything but their id and leader. -/
theorem Owned.of_live (hlastId : after.lastId = dispatcher.lastId)
    (hlive : ∀ channel ∈ after.client.live, ∃ old ∈ dispatcher.client.live,
      channel.channelId = old.channelId ∧ channel.leader = old.leader) : Owned me after where
  mine := by
    rw [hlastId]
    exact howned.mine
  led := by
    intro channel hchannel
    obtain ⟨old, hold, hid, hleader⟩ := hlive channel hchannel
    rw [hid, hleader]
    exact howned.led old hold
  picked := by
    intro channel hchannel hown
    obtain ⟨old, hold, hid, -⟩ := hlive channel hchannel
    rw [hid] at hown ⊢
    rw [hlastId]
    exact howned.picked old hold hown

/-- A picked id is not in use. -/
theorem Owned.not_live {now channelId} (hpick : dispatcher.lastId.pickNewAfter now = .ok channelId)
    :
    channelId ∉ dispatcher.client.liveIds := by
  intro hlive
  obtain ⟨channel, hchannel, rfl⟩ := List.mem_map.mp hlive
  obtain ⟨hparticipant, _⟩ := UniqueId.pickNewAfter_spec hpick
  have hle := howned.picked channel hchannel (hparticipant.trans howned.mine)
  omega

section

variable (hexact : Exact dispatcher ledger)
include hexact

theorem Owned.step_receive {connectivities : ParticipantId → Option ConnectionVersion} {message}
    (hown : OwnStart me (.receive connectivities message))
    (hstep : dispatcher.step me (.receive connectivities message) = .ok after) :
    Owned me after := by
  have hunchanged : ∀ client : MeshNetworkClient lru, client.live = dispatcher.client.live →
      ∀ inFlight, Owned me { dispatcher with client, inFlight } := by
    intro _ hlive _
    refine howned.of_live rfl fun channel hchannel ↦ ⟨channel, ?_, rfl, rfl⟩
    exact hlive ▸ hchannel
  by_cases hbusy : dispatcher.inFlight.isSome = true
  · simp only [Dispatcher.step, hbusy, if_true, ok.injEq] at hstep
    exact hstep ▸ howned
  simp only [Dispatcher.step, hbusy, if_false, Bool.false_eq_true] at hstep
  cases hkind : startOf message.message.kind with
  | none =>
    rw [hkind, senderFor_none] at hstep
    cases hstep
    exact hunchanged _ (live_ensureSender _) _
  | some start =>
    rw [hkind] at hstep
    by_cases hlive : message.message.channelId ∈ dispatcher.client.liveIds
    · rw [hexact.backed.senderFor_live hlive] at hstep
      cases hstep
      exact hunchanged _ (live_ensureSender _) _
    · rcases hexact.backed.senderFor_start hlive with
        ⟨connectionVersions, receiver, -, hsender⟩ | ⟨broken, hpanic⟩
      · rw [hsender] at hstep
        cases hstep
        have hstart : message.message.kind = .start start := by
          cases hmessage : message.message.kind <;>
            simp_all [startOf]
        obtain ⟨hpeer, howner⟩ := hown start hstart
        have hlive : (dispatcher.client.started message.message.channelId).live =
            dispatcher.client.live := live_ensureSender _
        refine ⟨howned.mine, ?_, ?_⟩
        · intro channel hchannel
          rcases List.mem_cons.mp hchannel with rfl | hold
          · exact howner
          · exact howned.led channel (hlive ▸ hold)
        · intro channel hchannel hmine
          rcases List.mem_cons.mp hchannel with rfl | hold
          · exact absurd (howner.trans hmine) hpeer
          · exact howned.picked channel (hlive ▸ hold) hmine
      · rw [hpanic] at hstep
        cases hstep

/-- Creating a channel succeeds, unless it panics. -/
theorem Owned.newChannelForTask (connectivities : ParticipantId → Option ConnectionVersion)
    (now : UInt64) (start : MpcStartMessage) :
    (∃ created channel, Dispatcher.newChannelForTask ⟨me, connectivities⟩ now start dispatcher =
      (created, .ok channel) ∧ Owned me created) ∨
    ∃ broken, Dispatcher.newChannelForTask ⟨me, connectivities⟩ now start dispatcher =
      (broken, .panicked) := by
  unfold Dispatcher.newChannelForTask
  cases hpick : dispatcher.lastId.pickNewAfter now with
  | err =>
    unfold UniqueId.pickNewAfter unwrap at hpick
    split at hpick
    · cases hpick
    · cases hcounter : checkedAdd dispatcher.lastId.counter 1 with
      | none | some =>
        rw [hcounter] at hpick
        cases hpick
  | panicked => exact Or.inr ⟨_, rfl⟩
  | ok channelId =>
    obtain ⟨hparticipant, hlarger⟩ := UniqueId.pickNewAfter_spec hpick
    have hmessage : ({ sender := me, message := { channelId, kind := .start start } } :
        MpcPeerMessage).message.channelId ∉ dispatcher.client.liveIds := howned.not_live hpick
    rcases @MeshNetworkClient.Backed.senderFor_start _ _ ⟨me, connectivities⟩ start hexact.backed _
        hmessage with ⟨connectionVersions, receiver, -, hsender⟩ | ⟨broken, hpanic⟩
    · refine Or.inl ?_
      simp only at hsender
      simp only [hsender]
      refine ⟨_, _, rfl, hparticipant.trans howned.mine, ?_, ?_⟩
      · intro channel hchannel
        rcases List.mem_cons.mp hchannel with rfl | hold
        · exact (hparticipant.trans howned.mine).symm
        · exact howned.led channel (live_ensureSender channelId ▸ hold)
      · intro channel hchannel hmine
        rcases List.mem_cons.mp hchannel with rfl | hold
        · exact le_rfl
        · have hle := howned.picked channel
            (live_ensureSender channelId ▸ hold) hmine
          exact hle.trans hlarger.le
    · simp only at hpanic
      simp only [hpanic]
      exact Or.inr ⟨_, rfl⟩

theorem Owned.step {event} (hown : OwnStart me event)
    (hstep : dispatcher.step me event = .ok after) :
    Owned me after := by
  cases event with
  | receive => exact howned.step_receive hexact hown hstep
  | create connectivities now start =>
    simp only [Dispatcher.step] at hstep
    rcases howned.newChannelForTask hexact connectivities now start with
      ⟨created, channel, hcreated, hafter⟩ | ⟨broken, hpanic⟩
    · rw [hcreated] at hstep
      cases hstep
      exact hafter
    · rw [hpanic] at hstep
      cases hstep
  | send =>
    simp only [Dispatcher.step] at hstep
    split at hstep
    next =>
      cases hstep
      exact howned
    next message hmessage =>
      cases hstep
      refine howned.of_live rfl fun channel hchannel ↦ ?_
      simp only [deliver] at hchannel
      split_ifs at hchannel with hwaiting hlive
      · exact ⟨channel, hchannel, rfl, rfl⟩
      · obtain ⟨old, hold, rfl⟩ := List.mem_map.mp hchannel
        refine ⟨old, hold, old.channelId_enqueue message, ?_⟩
        unfold NetworkTaskChannel.enqueue
        split_ifs <;> rfl
      · exact ⟨channel, hchannel, rfl, rfl⟩
    next message hmessage =>
      cases hstep
      exact howned.of_live rfl fun channel hchannel ↦ ⟨channel, hchannel, rfl, rfl⟩
  | take channelId =>
    cases hstep
    refine howned.of_live rfl fun channel hchannel ↦ ?_
    obtain ⟨old, hold, rfl⟩ := List.mem_map.mp hchannel
    refine ⟨old, hold, old.channelId_dequeue channelId, ?_⟩
    unfold NetworkTaskChannel.dequeue
    split_ifs <;> rfl
  | drop =>
    simp only [Dispatcher.step] at hstep
    split at hstep
    next =>
      cases hstep
      exact howned.of_live rfl fun channel hchannel ↦
        ⟨channel, List.mem_of_mem_filter hchannel, rfl, rfl⟩
    next =>
      cases hstep
      exact howned

theorem Owned.run {events} (hown : ∀ event ∈ events, OwnStart me event) {final}
    (hrun : dispatchRun me (dispatcher, ledger) events = .ok final) : Owned me final.1 := by
  induction events generalizing dispatcher ledger with
  | nil =>
    cases hrun
    exact howned
  | cons _ _ ih =>
    obtain ⟨hfirst, hothers⟩ := List.forall_mem_cons.mp hown
    simp only [dispatchRun, bind_eq_ok] at hrun
    obtain ⟨_, hstep, hrest⟩ := hrun
    exact ih (howned.step hexact hfirst hstep) (hexact.step hstep) hothers hrest

end

end

theorem owned_new {lastId} (hmine : lastId.participantId = me) :
    Owned me (.new lastId : Dispatcher lru) where
  mine := hmine
  led := by simp [Dispatcher.new, new]
  picked := by simp [Dispatcher.new, new]

open PeerChannel

/-- In every run in which start messages come from the peer that their channel id carries, every
channel is led by the participant of its id, and creating a channel never fails because it
exists. -/
theorem channels_led_by_their_owner {lastId : UniqueId} (hmine : lastId.participantId = me)
    {events : List DispatchEvent} (hown : ∀ event ∈ events, OwnStart me event)
    {final : Dispatcher lru × Ledger}
    (hrun : dispatchRun me (.new lastId, Ledger.empty) events = .ok final) :
    (∀ channel ∈ final.1.client.live, channel.leader = channel.channelId.participantId) ∧
      ∀ connectivities now start,
        (Dispatcher.newChannelForTask ⟨me, connectivities⟩ now start final.1).2 ≠
          .err "Channel already exists" := by
  have howned := (owned_new hmine).run (exact_new lastId) hown hrun
  have hexact := (exact_new lastId).run hrun
  refine ⟨howned.led, fun connectivities now start herr ↦ ?_⟩
  rcases howned.newChannelForTask hexact connectivities now start with
    ⟨created, channel, hcreated, -⟩ | ⟨broken, hpanic⟩
  · rw [hcreated] at herr
    cases herr
  · rw [hpanic] at herr
    cases herr

/-- Participant 2 starts its own channel on node 1. -/
theorem channels_led_by_their_owner_peer :
    ∃ final : Dispatcher boundedLru × Ledger,
      dispatchRun 1 (Dispatcher.new (.new 1 100 0), Ledger.empty)
        [receive (startFrom 2)] = .ok final ∧ final.1.client.liveIds = [peerId] ∧
      ∀ channel ∈ final.1.client.live, channel.leader = channel.channelId.participantId := by
  have hown : ∀ event ∈ [receive (startFrom 2)], OwnStart 1 event := by
    intro event hevent
    rw [List.mem_singleton.mp hevent]
    exact fun _ _ ↦ ⟨by decide, by decide +kernel⟩
  refine Exists.imp (fun final ⟨hrun, hlive⟩ ↦
    ⟨hrun, hlive, (channels_led_by_their_owner (by decide +kernel) hown hrun).1⟩)
    (exists_of_decide (fun final ↦ final.1.client.liveIds = [peerId]) ?_)
  decide +kernel

/-- The id that node 1 picks next. -/
def nextOwnId : ChannelId := .new 1 100 1

/-- A start message of participant 3 for the next channel of node 1. -/
def forged : MpcPeerMessage where
  sender := 3
  message := { channelId := nextOwnId, kind := .start { taskId := task, participants := [1, 3] } }

/-- Participant 3 becomes the leader of a channel of participant 2 on node 1. With a start message
for the id that node 1 picks next it also makes node 1 fail to create that channel. -/
theorem forged_start_takes_channel :
    (do
      let final ← dispatchRun 1 ((.new (.new 1 100 0) : Dispatcher boundedLru), Ledger.empty)
        [receive (startFrom 3)]
      return final.1.client.live.map fun (channel : NetworkTaskChannel) ↦
        (channel.channelId.participantId, channel.leader)) = .ok [(2, 3)] ∧
    (do
      let final ← dispatchRun 1 ((.new (.new 1 100 0) : Dispatcher boundedLru), Ledger.empty)
        [receive forged]
      return (Dispatcher.newChannelForTask ⟨1, connectivities⟩ 100
        { taskId := task, participants := [1, 2] } final.1).2) =
      .ok (.err "Channel already exists") := by
  decide +kernel

end NearMpc.Node
