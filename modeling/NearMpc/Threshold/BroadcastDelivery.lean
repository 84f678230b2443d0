import NearMpc.Threshold.BroadcastAgreement

/-!
# Echo broadcast returns

Nobody blames a participant that is not faulty. If no participant is faulty, then all of them have
returned once all votes have been delivered.

For the second part, a vote that has been sent is still in flight to a participant, is the one it
counts next, or has been handled (`Delivered`); a session that is not over has not had enough votes
(`LiveSession`). When everything has been delivered, an open session of some participant is
contradictory. If another participant has accepted a value in it, then more than `2 f` participants
are ready, and their votes have arrived. Otherwise all participants have the session open: all have
the value, so all have echoed it, so all are ready, and these votes have arrived.
-/

set_option autoImplicit false

namespace NearMpc.Threshold

open Library BroadcastProtocolState ParticipantList

variable {Data : Type} [DecidableEq Data]

theorem maliciousSender_inj {first second}
    (hsame : maliciousSender first = maliciousSender second) :
    first = second := by
  unfold maliciousSender at hsame
  have htext := ProtocolError.assertionFailed.inj hsame
  rw [String.append_left_inj, String.append_right_inj] at htext
  exact Nat.repr_injective htext

namespace BroadcastSetting

variable {setting : BroadcastSetting Data} {sent later : List (BroadcastVote Data)} {sid : ℕ}
  {me sender : Participant} {vote : MessageType Data} {reply : Option (MessageType Data)}

/-! ### Sessions that are not over -/

/-- A phase of a session that is not over has not had enough votes; one that is over has led to a
vote of the participant. -/
structure LiveSession (setting : BroadcastSetting Data) (sent : List (BroadcastVote Data))
    (me : Participant) (sid : ℕ) (state : BroadcastProtocolState Data) : Prop where
  echo_open : state.finishEcho = false →
    ∀ data, state.dataEcho.count data ≤ echoT setting.participants
  ready_open : state.finishReady = false →
    ∀ data, state.dataReady.count data ≤ 2 * readyT setting.participants
  echoed : state.finishSend = true → state.finishReady = false →
    ∃ data, (⟨me, sid, .echo data⟩ : BroadcastVote Data) ∈ sent
  ready : state.finishEcho = true ∨ state.finishAmplification = true →
    ∃ data, (⟨me, sid, .ready data⟩ : BroadcastVote Data) ∈ sent
  accepted : state.finishReady = true →
    ∃ data, 2 * readyT setting.participants < (setting.supporters sent sid (.ready data)).card

namespace LiveSession

variable {state after : BroadcastProtocolState Data} {accepted : Bool}

theorem new : LiveSession setting sent me sid (.new setting.participants) where
  echo_open := fun _ _ ↦ Nat.zero_le _
  ready_open := fun _ _ ↦ Nat.zero_le _
  echoed := fun hfinished ↦ by cases hfinished
  ready := fun hfinished ↦ by rcases hfinished with hfinished | hfinished <;> cases hfinished
  accepted := fun hfinished ↦ by cases hfinished

theorem mono (hsession : LiveSession setting sent me sid state) (hlog : sent ⊆ later) :
    LiveSession setting later me sid state where
  echo_open := hsession.echo_open
  ready_open := hsession.ready_open
  echoed := by
    intro hsend hopen
    obtain ⟨data, hdata⟩ := hsession.echoed hsend hopen
    exact ⟨data, hlog hdata⟩
  ready := by
    intro hfinished
    obtain ⟨data, hdata⟩ := hsession.ready hfinished
    exact ⟨data, hlog hdata⟩
  accepted := by
    intro hfinished
    obtain ⟨data, hdata⟩ := hsession.accepted hfinished
    exact ⟨data, hdata.trans_le (Finset.card_le_card (setting.supporters_mono _ hlog))⟩

/-- Counting one more vote for a value that has not had enough. -/
theorem count_le {counters : CounterList Data} {data : Data} {bound : ℕ}
    (hcounts : ∀ other, counters.count other ≤ bound) (hcount : counters.count data + 1 ≤ bound)
    (other : Data) : (counters.insertOrIncreaseCounter data).count other ≤ bound := by
  by_cases hother : data = other
  · rw [← hother, CounterList.count_insert_self]
    exact hcount
  · rw [CounterList.count_insert_of_ne _ hother]
    exact hcounts other

/-- With enough ready votes, or once it has amplified them, the participant has sent its own. -/
theorem ready_of_amplify (hsession : LiveSession setting sent me sid state) {data}
    (hready : readyT setting.participants < state.dataReady.count data + 1 ∨
      state.finishEcho = true ∨ state.finishAmplification = true) :
    ∃ value, (⟨me, sid, .ready value⟩ : BroadcastVote Data) ∈
      logVote sent me sid (state.amplification setting.participants data) := by
  by_cases hamplifies : state.Amplifies setting.participants data
  · refine ⟨data, mem_logVote.mpr (.inr ⟨_, ?_, rfl⟩)⟩
    rw [amplification, if_pos hamplifies]
  · have hfinished : state.finishEcho = true ∨ state.finishAmplification = true := by
      rcases hready with hcount | hfinished
      · rw [Amplifies, not_and, Bool.not_eq_false] at hamplifies
        exact .inr (hamplifies hcount)
      · exact hfinished
    obtain ⟨value, hvalue⟩ := hsession.ready hfinished
    exact ⟨value, subset_logVote _ _ _ _ hvalue⟩

/-- A session stays live, with what the participant sends in it. -/
theorem handle (hsession : LiveSession setting sent me sid state)
    (hsound : SoundSession setting sent me sid state)
    (hsupports : setting.Supports sent sid vote sender)
    (hhandles : Handles setting.participants sid sender state vote after reply accepted) :
    LiveSession setting (logVote sent me sid reply) me sid after := by
  cases hhandles with
  | sendIgnored => exact hsession
  | echoIgnored => exact { hsession with }
  | readyIgnored => exact { hsession with }
  | echoes data =>
    have hbefore := hsession.mono (subset_logVote sent me sid (some (.echo data)))
    exact { hbefore with echoed := fun _ _ ↦ ⟨data, List.mem_cons_self⟩ }
  | echoCounted _ _ _ hcount =>
    exact { hsession with
      echo_open := fun hstill ↦ count_le (hsession.echo_open hstill) hcount }
  | becomesReady data =>
    have hbefore := hsession.mono (subset_logVote sent me sid (some (.ready data)))
    exact { hbefore with
      echo_open := fun hfinished ↦ by cases hfinished
      ready := fun _ ↦ ⟨data, List.mem_cons_self⟩ }
  | readyCounted data _ _ hcount =>
    have hbefore := hsession.mono
      (subset_logVote sent me sid (state.amplification setting.participants data))
    refine { hbefore with
      ready_open := fun hstill ↦ count_le (hsession.ready_open hstill) hcount
      ready := fun hfinished ↦ hsession.ready_of_amplify ?_ }
    rcases hfinished with hecho | hamplified
    · exact .inr (.inl hecho)
    · simp only [amplify] at hamplified
      split_ifs at hamplified with hamplifies
      · exact .inl hamplifies.1
      · exact .inr (.inr hamplified)
  | accepts data hopen hfresh =>
    have hcard := hsound.count_readies_lt hopen hfresh hsupports
    have hgrows : (setting.supporters sent sid (.ready data)).card ≤
        (setting.supporters (logVote sent me sid (state.amplification setting.participants data))
          sid (.ready data)).card :=
      Finset.card_le_card (setting.supporters_mono _ (subset_logVote _ _ _ _))
    exact
      { echo_open := fun hfinished ↦ by cases hfinished
        ready_open := fun hfinished ↦ by cases hfinished
        echoed := fun _ hfinished ↦ by cases hfinished
        ready := fun _ ↦ hsession.ready_of_amplify (.inl (by omega))
        accepted := fun _ ↦ ⟨data, by omega⟩ }

end LiveSession

/-! ### Votes that have been handled -/

/-- A vote of the sender has been handled in the session. -/
def Handled (state : BroadcastProtocolState Data) (sender : Participant) : MessageType Data → Prop
  | .send _ => state.finishSend = true
  | .echo _ => sender ∈ state.seenEcho.seen
  | .ready _ => sender ∈ state.seenReady.seen

section Handled

variable {state after : BroadcastProtocolState Data} {accepted : Bool} {other : Participant}
  {otherVote : MessageType Data}

theorem Handled.mono (hhandled : Handled state other otherVote)
    (hhandles : Handles setting.participants sid sender state vote after reply accepted) :
    Handled after other otherVote := by
  cases hhandles with
  | sendIgnored => exact hhandled
  | echoes =>
    cases otherVote with
    | send => rfl
    | echo | ready => exact hhandled
  | echoIgnored =>
    cases otherVote with
    | send | ready => exact hhandled
    | echo => exact ParticipantCounter.mem_put_of_mem sender hhandled
  | echoCounted | becomesReady =>
    cases otherVote with
    | send | ready => exact hhandled
    | echo => exact Finset.mem_insert_of_mem hhandled
  | readyIgnored =>
    cases otherVote with
    | send | echo => exact hhandled
    | ready => exact ParticipantCounter.mem_put_of_mem sender hhandled
  | readyCounted =>
    cases otherVote with
    | send | echo => exact hhandled
    | ready => exact Finset.mem_insert_of_mem hhandled
  | accepts =>
    cases otherVote with
    | send => rfl
    | echo => exact hhandled
    | ready => exact Finset.mem_insert_of_mem hhandled

/-- A vote that was really sent has been handled after its round. -/
theorem handled_of_handles (hsession : SoundSession setting sent me sid state)
    (hjustified : setting.Justified sent ⟨sender, sid, vote⟩)
    (hhandles : Handles setting.participants sid sender state vote after reply accepted) :
    Handled after sender vote := by
  have hcontains := hjustified.1.1
  cases hhandles with
  | sendIgnored _ hignored =>
    exact hignored.resolve_right (not_not.mpr hjustified.2.1)
  | echoes => rfl
  | echoIgnored =>
    exact ParticipantCounter.mem_put_self (hsession.echoes.participants_eq ▸ hcontains)
  | readyIgnored =>
    exact ParticipantCounter.mem_put_self (hsession.readies.participants_eq ▸ hcontains)
  | echoCounted | becomesReady | readyCounted | accepts => exact Finset.mem_insert_self _ _

end Handled

variable {message : BroadcastVote Data}

section Rounds

variable {receiver after : BroadcastReceiver Data} {session : ℕ} {other : Participant}
  {otherVote : MessageType Data}

theorem lt_len_of_sent (hlog : setting.SoundLog sent) (hmessage : message ∈ sent) :
    message.sid < setting.participants.len := by
  have hecho : ∀ participant sid data,
      (⟨participant, sid, .echo data⟩ : BroadcastVote Data) ∈ sent →
        sid < setting.participants.len := by
    intro _ _ _ hmem
    obtain ⟨-, _, hsource, -⟩ := hlog.justified _ hmem
    exact lt_len_of_getParticipant hsource
  obtain ⟨sender, sid, vote⟩ := message
  obtain ⟨-, hreason⟩ := hlog.justified _ hmessage
  cases vote with
  | send => exact lt_len_of_getParticipant hreason.1
  | echo data => exact hecho sender sid data hmessage
  | ready data =>
    have hcard : (setting.participants.len - 1) / 3 <
        (setting.supporters sent sid (.echo data)).card := by
      have hcertified : setting.Certified sent sid data := hreason
      unfold Certified at hcertified
      omega
    obtain ⟨participant, -, hmem⟩ := setting.exists_sent hcard
    exact hecho participant sid data hmem

/-- What a round does to the sessions, unless the participant returns with an error. -/
theorem handles_of_iterates (hiterates : receiver.Iterates sender sid vote after reply)
    (hrange : sid < receiver.participants.len)
    (hafter : ∀ outcome, after.result = some outcome → outcome.isOk = true) :
    ∃ state accepted,
      Handles receiver.participants sid sender (receiver.state sid) vote state reply accepted ∧
      after.state = Function.update receiver.state sid state ∧
      after.simulated = reply.map fun answer ↦ (sid, answer) := by
  cases hiterates with
  | outOfRange => omega
  | continues _ hhandles => exact ⟨_, _, hhandles, rfl, rfl⟩
  | accepts hhandles => exact ⟨_, _, hhandles, rfl, rfl⟩
  | @rejects _ _ _ failure _ _ =>
    cases failure with
    | err error => cases hafter (.err error) rfl
    | ok | panicked => cases hafter .panicked rfl
  | unknownSender => cases hafter (.err .invalidIndex) rfl
  | blames => cases hafter (.err (maliciousSender sid)) rfl
  | overflows => cases hafter .panicked rfl

/-- The sessions of the participant are live, and one is not over as long as it has not returned. -/
structure LiveReceiver (setting : BroadcastSetting Data) (sent : List (BroadcastVote Data))
    (me : Participant) (receiver : BroadcastReceiver Data) : Prop where
  sessions : ∀ sid, LiveSession setting sent me sid (receiver.state sid)
  unfinished : receiver.result = none →
    ∃ sid < setting.participants.len, (receiver.state sid).finishReady = false

namespace LiveReceiver

section

variable (hreceiver : LiveReceiver setting sent me receiver)
include hreceiver

theorem mono (hlog : sent ⊆ later) : LiveReceiver setting later me receiver where
  sessions := fun sid ↦ (hreceiver.sessions sid).mono hlog
  unfinished := hreceiver.unfinished

theorem sessions_after {state accepted} (hsound : SoundReceiver setting sent me receiver)
    (hsupports : setting.Supports sent sid vote sender)
    (hhandles : Handles setting.participants sid sender (receiver.state sid) vote state reply
      accepted) (other : ℕ) :
    LiveSession setting (logVote sent me sid reply) me other
      (Function.update receiver.state sid state other) := by
  by_cases hother : other = sid
  · subst hother
    rw [Function.update_self]
    exact (hreceiver.sessions other).handle (hsound.sessions other) hsupports hhandles
  · rw [Function.update_of_ne hother]
    exact (hreceiver.sessions other).mono (subset_logVote sent me sid reply)

theorem iterate (hsound : SoundReceiver setting sent me receiver)
    (hrunning : receiver.result = none) (hsupports : setting.Supports sent sid vote sender)
    (hiterates : receiver.Iterates sender sid vote after reply) :
    LiveReceiver setting (logVote sent me sid reply) me after := by
  cases hiterates with
  | outOfRange => exact ⟨hreceiver.sessions, hreceiver.unfinished⟩
  | continues _ hhandles =>
    rw [hsound.participants_eq] at hhandles
    refine ⟨hreceiver.sessions_after hsound hsupports hhandles, fun _ ↦ ?_⟩
    obtain ⟨place, hopen, hunfinished⟩ := hreceiver.unfinished hrunning
    refine ⟨place, hopen, ?_⟩
    by_cases hsame : place = sid
    · subst hsame
      simp only [BroadcastReceiver.continueWith, Function.update_self]
      rw [SoundSession.finishReady_of_handles hhandles, hunfinished]
    · simpa only [BroadcastReceiver.continueWith, Function.update_of_ne hsame] using hunfinished
  | accepts hhandles =>
    rw [hsound.participants_eq] at hhandles
    refine ⟨hreceiver.sessions_after hsound hsupports hhandles, fun hnone ↦ ?_⟩
    simp only [BroadcastReceiver.acceptFrom] at hnone
    split_ifs at hnone with hall
    simp only [BroadcastReceiver.allFinished, List.all_eq_true, List.mem_range, not_forall] at hall
    obtain ⟨place, hopen, hunfinished⟩ := hall
    exact ⟨place, hsound.participants_eq ▸ hopen, Bool.not_eq_true _ ▸ hunfinished⟩
  | @rejects _ _ _ failure _ hhandles =>
    rw [hsound.participants_eq] at hhandles
    have hsessions := hreceiver.sessions_after hsound hsupports hhandles
    cases failure with
    | ok | err | panicked => exact ⟨hsessions, fun hnone ↦ by cases hnone⟩
  | unknownSender | blames | overflows => exact ⟨hreceiver.sessions, fun hnone ↦ by cases hnone⟩

end

end LiveReceiver

/-- A vote is on its way to the participant, is the one it counts next, or has been handled. -/
def Pending (inFlight : List (Participant × BroadcastVote Data)) (me : Participant)
    (receiver : BroadcastReceiver Data) (message : BroadcastVote Data) : Prop :=
  (me, message) ∈ inFlight ∨
    (message.sender = me ∧ receiver.simulated = some (message.sid, message.vote)) ∨
    Handled (receiver.state message.sid) message.sender message.vote

/-- A vote that has been sent is the next one to be counted. -/
theorem simulated_of_reply (hiterates : receiver.Iterates sender sid vote after reply)
    (hafter : after.result = none) {answer : MessageType Data} (hreply : reply = some answer) :
    after.simulated = some (sid, answer) := by
  rcases Nat.lt_or_ge sid receiver.participants.len with hrange | hrange
  · obtain ⟨_, _, -, -, hmoved⟩ :=
      handles_of_iterates hiterates hrange fun outcome hsome ↦ by cases hafter.symm.trans hsome
    rw [hmoved, hreply, Option.map_some]
  · cases hiterates with
    | outOfRange | unknownSender => cases hreply
    | continues hin | rejects hin | blames _ hin | overflows _ hin => omega
    | accepts _ hsession =>
      have hin := lt_len_of_getParticipant hsession
      omega

theorem Handled.iterate (hsound : SoundReceiver setting sent me receiver)
    (hiterates : receiver.Iterates sender sid vote after reply) (hafter : after.result = none)
    (hhandled : Handled (receiver.state session) other otherVote) :
    Handled (after.state session) other otherVote := by
  rcases Nat.lt_or_ge sid receiver.participants.len with hrange | hrange
  · obtain ⟨_, _, hhandles, hstate, -⟩ :=
      handles_of_iterates hiterates hrange fun outcome hsome ↦ by cases hafter.symm.trans hsome
    rw [hsound.participants_eq] at hhandles
    rw [hstate]
    by_cases hsession : session = sid
    · subst hsession
      rw [Function.update_self]
      exact hhandled.mono hhandles
    · rw [Function.update_of_ne hsession]
      exact hhandled
  · cases hiterates with
    | outOfRange => exact hhandled
    | unknownSender => cases hafter
    | continues hin | rejects hin | blames _ hin | overflows _ hin => omega
    | accepts _ hsource =>
      have hin := lt_len_of_getParticipant hsource
      omega

/-- A vote that was really sent has been handled after its round. -/
theorem handled_of_iterates (hlog : setting.SoundLog sent)
    (hsound : SoundReceiver setting sent me receiver)
    (hsent : (⟨sender, sid, vote⟩ : BroadcastVote Data) ∈ sent)
    (hiterates : receiver.Iterates sender sid vote after reply) (hafter : after.result = none) :
    Handled (after.state sid) sender vote := by
  have hrange : sid < receiver.participants.len :=
    hsound.participants_eq ▸ lt_len_of_sent hlog hsent
  obtain ⟨_, _, hhandles, hstate, -⟩ :=
    handles_of_iterates hiterates hrange fun outcome hsome ↦ by cases hafter.symm.trans hsome
  rw [hsound.participants_eq] at hhandles
  rw [hstate, Function.update_self]
  exact handled_of_handles (hsound.sessions sid) (hlog.justified _ hsent) hhandles

end Rounds

/-! ### Live networks -/

structure LiveSystem (setting : BroadcastSetting Data) (system : BroadcastSystem Data) : Prop where
  sound : SoundSystem setting system
  own : ∀ participant sid, setting.Honest participant →
    setting.participants.getParticipant sid = some participant →
      (⟨participant, sid, .send (setting.input participant)⟩ : BroadcastVote Data) ∈ system.sent
  receivers : ∀ participant, setting.Honest participant →
    LiveReceiver setting system.sent participant (system.receiver participant)
  delivered : ∀ participant, setting.Running system participant → ∀ message ∈ system.sent,
    Pending system.inFlight participant (system.receiver participant) message

namespace LiveSystem

variable {system : BroadcastSystem Data}

theorem start : LiveSystem setting setting.start where
  sound := SoundSystem.start
  own := fun participant sid hhonest hsid ↦ setting.mem_start_sent.mpr ⟨hhonest, hsid, rfl⟩
  receivers := by
    intro _ hhonest
    obtain ⟨_, hsid⟩ := exists_getParticipant.mp hhonest.1
    rw [start_receiver hsid]
    have henough := setting.enough
    exact ⟨fun _ ↦ LiveSession.new, fun _ ↦ ⟨0, by omega, rfl⟩⟩
  delivered := by
    intro participant hrunning message hmessage
    obtain ⟨_, hsid, hvote⟩ := setting.mem_start_sent.mp hmessage
    by_cases hown : message.sender = participant
    · right
      left
      subst hown
      rw [start_receiver hsid, hvote]
      exact ⟨rfl, rfl⟩
    · left
      refine setting.mem_start_inFlight.mpr ⟨hmessage, ?_⟩
      simp only [others, List.mem_filter, bne_iff_ne]
      exact ⟨List.contains_iff_mem.mp hrunning.1.1, fun hsame ↦ hown hsame.symm⟩

section

variable (hsystem : LiveSystem setting system) {participant : Participant}
  {inFlight : List (Participant × BroadcastVote Data)}
  (hrunning : setting.Running system participant)
include hsystem hrunning

/-- Whoever handles a vote has not missed another one. -/
theorem pending_receiver {waiting after} (harrives : Arrives system participant message inFlight)
    (hiterates : (system.receiver participant).Iterates message.sender message.sid message.vote
      after reply) (hafter : after.result = none) (hwaiting : waiting ∈ system.sent) :
    Pending inFlight participant after waiting := by
  have hreceiver := hsystem.sound.receivers participant hrunning.1
  have hhandled : waiting = message → Pending inFlight participant after waiting := by
    rintro rfl
    exact .inr (.inr (handled_of_iterates hsystem.sound.log hreceiver hwaiting hiterates hafter))
  rcases hsystem.delivered participant hrunning waiting hwaiting with
    hflying | ⟨hown, hmoved⟩ | hdone
  · rcases remains_of_arrives harrives hflying with hstill | ⟨-, hsame⟩
    · exact .inl hstill
    · exact hhandled hsame
  · -- the vote it counts for itself is the one it handles
    cases harrives with
    | simulated _ _ hnext =>
      cases hmoved.symm.trans hnext
      exact hhandled (by rw [← hown])
    | delivered _ _ _ hidle => cases hidle.symm.trans hmoved
  · exact .inr (.inr (hdone.iterate hreceiver hiterates hafter))

theorem receive (harrives : Arrives system participant message inFlight) :
    LiveSystem setting (setting.receive { system with inFlight } participant message) := by
  have hresult := Option.isNone_iff_eq_none.mp hrunning.2
  have hreceiver := hsystem.sound.receivers participant hrunning.1
  have hsupports := (hsystem.sound.supports_of_arrives hrunning.1 harrives).1
  have hiterates : (system.receiver participant).Iterates message.sender message.sid message.vote
      _ _ := BroadcastReceiver.iterates message.vote
  refine ⟨hsystem.sound.receive hrunning harrives, ?_, ?_, ?_⟩
  · intro other sid hother hsid
    rw [BroadcastSetting.receive, sendMany_sent]
    exact subset_logVote _ _ _ _ (hsystem.own other sid hother hsid)
  · intro other hother
    rw [BroadcastSetting.receive, sendMany_sent, sendMany_receiver]
    by_cases hsame : other = participant
    · subst hsame
      simp only [Function.update_self]
      exact (hsystem.receivers other hother).iterate hreceiver hresult hsupports hiterates
    · simp only [Function.update_of_ne hsame]
      exact (hsystem.receivers other hother).mono (subset_logVote _ _ _ _)
  · intro other hother waiting hwaiting
    rw [BroadcastSetting.receive, sendMany_sent] at hwaiting
    rw [BroadcastSetting.receive, sendMany_receiver]
    have hstill := Option.isNone_iff_eq_none.mp hother.2
    rw [BroadcastSetting.receive, sendMany_receiver] at hstill
    by_cases hsame : other = participant
    · subst hsame
      simp only [Function.update_self] at hstill ⊢
      rcases mem_logVote.mp hwaiting with hsent | ⟨answer, hreply, rfl⟩
      · rcases hsystem.pending_receiver hrunning harrives hiterates hstill hsent with
          hflying | hrest
        · exact .inl (setting.mem_sendMany_inFlight.mpr (.inl hflying))
        · exact .inr hrest
      · exact .inr (.inl ⟨rfl, simulated_of_reply hiterates hstill hreply⟩)
    · simp only [Function.update_of_ne hsame] at hstill ⊢
      rcases mem_logVote.mp hwaiting with hsent | ⟨answer, hreply, rfl⟩
      · have hrunningOther : setting.Running system other :=
          ⟨hother.1, Option.isNone_iff_eq_none.mpr hstill⟩
        rcases hsystem.delivered other hrunningOther waiting hsent with hflying | hrest
        · rcases remains_of_arrives harrives hflying with hremains | ⟨hparticipant, -⟩
          · exact .inl (setting.mem_sendMany_inFlight.mpr (.inl hremains))
          · exact absurd hparticipant hsame
        · exact .inr hrest
      · left
        refine setting.mem_sendMany_inFlight.mpr (.inr ⟨answer, hreply, ?_, rfl⟩)
        simp only [others, List.mem_filter, bne_iff_ne]
        exact ⟨List.contains_iff_mem.mp hother.1.1, hsame⟩

end

theorem step (hsystem : LiveSystem setting system) (event : BroadcastEvent Data) :
    LiveSystem setting (setting.step system event) := by
  have hsound := hsystem.sound.step event
  have hsteps := setting.steps_step system event
  generalize setting.step system event = later at hsteps hsound
  cases hsteps with
  | stays => exact hsystem
  | receives _ _ _ hrunning harrives => exact hsystem.receive hrunning harrives
  | loses recipient _ _ hplace hnotRunning =>
    refine ⟨hsound, hsystem.own, hsystem.receivers, fun participant hrunning waiting hwaiting ↦ ?_⟩
    have hother : participant ≠ recipient := fun hsame ↦ hnotRunning (hsame ▸ hrunning)
    rcases hsystem.delivered participant hrunning waiting hwaiting with hflying | hrest
    · left
      obtain ⟨found, hfound⟩ := List.mem_iff_getElem?.mp hflying
      refine List.mem_eraseIdx_iff_getElem?.mpr ⟨found, fun hsame ↦ hother ?_, hfound⟩
      rw [hsame] at hfound
      exact (Prod.mk.inj (Option.some.inj (hfound.symm.trans hplace))).1
    · exact .inr hrest
  | injects =>
    refine ⟨hsound, hsystem.own, hsystem.receivers, fun participant hrunning waiting hwaiting ↦ ?_⟩
    exact (hsystem.delivered participant hrunning waiting hwaiting).imp_left
      fun hflying ↦ List.mem_append_left _ hflying

theorem run (events : List (BroadcastEvent Data)) :
    LiveSystem setting (run setting.step setting.start events) :=
  run_invariant start (fun _ event hsystem ↦ hsystem.step event) events

end LiveSystem

/-! ### When everything has been delivered -/

/-- No vote is in flight, and nobody that is still running has a vote of its own to count. -/
def Quiescent (setting : BroadcastSetting Data) (system : BroadcastSystem Data) : Prop :=
  system.inFlight = [] ∧ ∀ participant, setting.Running system participant →
    (system.receiver participant).simulated = none

omit [DecidableEq Data] in
theorem quiescent_of_all {system} (hnone : system.inFlight.isEmpty = true)
    (hall : (setting.participants.participants.all fun participant ↦
      (system.receiver participant).simulated.isNone ||
        (system.receiver participant).result.isSome) = true) : setting.Quiescent system := by
  refine ⟨List.isEmpty_iff.mp hnone, fun participant hrunning ↦ ?_⟩
  have hidle := List.all_eq_true.mp hall participant (List.contains_iff_mem.mp hrunning.1.1)
  rw [Option.isNone_iff_eq_none.mp hrunning.2] at hidle
  simpa using hidle

omit [DecidableEq Data] in
theorem honest_of_getParticipant (setting : BroadcastSetting Data) (hfaulty : setting.faulty = ∅)
    {source} (hsource : setting.participants.getParticipant sid = some source) :
    setting.Honest source :=
  ⟨exists_getParticipant.mpr ⟨sid, hsource⟩, by simp [hfaulty]⟩

/-- In a count that is open every vote that has been seen is counted, for the one value that all of
them support. -/
theorem Counts.card_le {counter counters} {supports : Data → Participant → Prop} {value}
    (hcounts : Counts setting counter counters false supports) (hfaulty : setting.faulty = ∅)
    (honly : ∀ other voter, voter ∉ setting.faulty → supports other voter → other = value) {group}
    (hseen : group ⊆ counter.seen) : group.card ≤ counters.count value := by
  obtain ⟨_, -, hopen, htallies⟩ := hcounts.tallies
  have hsum := htallies.sum_le honly
  rw [hfaulty, Finset.card_empty, Nat.add_zero, htallies.sum_eq, hopen rfl] at hsum
  exact (Finset.card_le_card hseen).trans hsum

section Quiescent

variable {system : BroadcastSystem Data} {participant source : Participant}
  (hsystem : LiveSystem setting system) (hquiescent : setting.Quiescent system)
  (hfaulty : setting.faulty = ∅)

include hsystem

section Counted

variable (hsource : setting.participants.getParticipant sid = some source)
  (hrunning : setting.Running system participant) {group : Finset Participant}

include hquiescent hrunning

theorem handled_of_quiescent (hsent : message ∈ system.sent) :
    Handled ((system.receiver participant).state message.sid) message.sender message.vote := by
  rcases hsystem.delivered participant hrunning message hsent with
    hflying | ⟨-, hmoved⟩ | hhandled
  · rw [hquiescent.1] at hflying
    cases hflying
  · cases (hquiescent.2 participant hrunning).symm.trans hmoved
  · exact hhandled

include hfaulty hsource

/-- At most `2 f` participants are ready in a session that is not over. -/
theorem card_ready_le (hopen : ((system.receiver participant).state sid).finishReady = false)
    (hready : ∀ member ∈ group, ∃ data,
      (⟨member, sid, .ready data⟩ : BroadcastVote Data) ∈ system.sent) :
    group.card ≤ 2 * readyT setting.participants := by
  have hcounts := ((hsystem.sound.receivers participant hrunning.1).sessions sid).readies
  rw [hopen] at hcounts
  refine (hcounts.card_le hfaulty ?_ fun member hmember ↦ ?_).trans
    (((hsystem.receivers participant hrunning.1).sessions sid).ready_open hopen
      (setting.input source))
  · intro _ _ hvoter hsupports
    exact hsystem.sound.log.eq_input hsource (setting.honest_of_getParticipant hfaulty hsource)
      (hsystem.sound.log.justified _ (hsupports.resolve_left hvoter)).2
  · obtain ⟨_, hdata⟩ := hready member hmember
    exact handled_of_quiescent hsystem hquiescent hrunning hdata

/-- Not enough participants have echoed in a session in which a participant is not ready. -/
theorem card_echo_le (hopen : ((system.receiver participant).state sid).finishEcho = false)
    (hecho : ∀ member ∈ group, ∃ data,
      (⟨member, sid, .echo data⟩ : BroadcastVote Data) ∈ system.sent) :
    group.card ≤ echoT setting.participants := by
  have hcounts := ((hsystem.sound.receivers participant hrunning.1).sessions sid).echoes
  rw [hopen] at hcounts
  refine (hcounts.card_le hfaulty ?_ fun member hmember ↦ ?_).trans
    (((hsystem.receivers participant hrunning.1).sessions sid).echo_open hopen
      (setting.input source))
  · intro _ _ hvoter hsupports
    exact hsystem.sound.log.echo_eq_input hsource
      (setting.honest_of_getParticipant hfaulty hsource) (hsupports.resolve_left hvoter)
  · obtain ⟨_, hdata⟩ := hecho member hmember
    exact handled_of_quiescent hsystem hquiescent hrunning hdata

end Counted

include hfaulty

/-- Without faulty participants the only way to return is with an output. -/
theorem running_or_returned (hhonest : setting.Honest participant) :
    setting.Running system participant ∨
      ∃ output, (system.receiver participant).result = some (.ok output) := by
  have hreceiver := hsystem.sound.receivers participant hhonest
  cases hresult : (system.receiver participant).result with
  | none => exact .inl ⟨hhonest, Option.isNone_iff_eq_none.mpr hresult⟩
  | some outcome =>
    cases outcome with
    | ok output => exact .inr ⟨output, rfl⟩
    | err error =>
      obtain ⟨_, _, -, -, hblamed⟩ := hreceiver.failed error hresult
      rw [hfaulty] at hblamed
      exact absurd hblamed (Finset.notMem_empty _)
    | panicked => exact absurd hresult hreceiver.not_panicked

/-- Nobody is still running. -/
theorem not_running (hquiescent : setting.Quiescent system) :
    ¬ setting.Running system participant := by
  intro hrunning
  obtain ⟨sid, hsid, hopen⟩ := (hsystem.receivers participant hrunning.1).unfinished
    (Option.isNone_iff_eq_none.mp hrunning.2)
  obtain ⟨source, hsource⟩ := getParticipant_of_lt hsid
  have hhonest : ∀ other ∈ setting.everyone, setting.Honest other := fun other hother ↦
    ⟨setting.mem_everyone.mp hother, by simp [hfaulty]⟩
  have hsourceHonest := setting.honest_of_getParticipant hfaulty hsource
  have henough := setting.enough
  have hready := setting.readyT_eq
  have hecho := setting.echoT_eq
  by_cases haccepted : ∃ other ∈ setting.everyone,
      ((system.receiver other).state sid).finishReady = true
  · -- the ready votes that made another participant accept have arrived here as well
    obtain ⟨other, hother, hfinished⟩ := haccepted
    obtain ⟨data, _⟩ :=
      ((hsystem.receivers other (hhonest other hother)).sessions sid).accepted hfinished
    have hmembers : ∀ member ∈ setting.supporters system.sent sid (.ready data), ∃ value,
        (⟨member, sid, .ready value⟩ : BroadcastVote Data) ∈ system.sent := fun member hmember ↦
      ⟨data, (Finset.mem_filter.mp hmember).2.resolve_left (by simp [hfaulty])⟩
    have hle := card_ready_le hsystem hquiescent hfaulty hsource hrunning hopen hmembers
    omega
  · push Not at haccepted
    -- everybody echoes the value, and then everybody is ready
    have hrunningAll : ∀ other ∈ setting.everyone, setting.Running system other := by
      intro other hother
      rcases running_or_returned hsystem hfaulty (hhonest other hother) with
        hstill | ⟨output, hresult⟩
      · exact hstill
      · have hall := ((hsystem.sound.receivers other (hhonest other hother)).returned output
          hresult).2 sid hsid
        exact absurd hall (haccepted other hother)
    have hechoAll : ∀ other ∈ setting.everyone, ∃ data,
        (⟨other, sid, .echo data⟩ : BroadcastVote Data) ∈ system.sent := by
      intro other hother
      have hsend := handled_of_quiescent hsystem hquiescent (hrunningAll other hother)
        (hsystem.own source sid hsourceHonest hsource)
      exact ((hsystem.receivers other (hhonest other hother)).sessions sid).echoed hsend
        (Bool.not_eq_true _ ▸ haccepted other hother)
    have hreadyAll : ∀ other ∈ setting.everyone, ∃ data,
        (⟨other, sid, .ready data⟩ : BroadcastVote Data) ∈ system.sent := by
      intro other hother
      refine ((hsystem.receivers other (hhonest other hother)).sessions sid).ready (.inl ?_)
      by_contra hechoOpen
      have hle := card_echo_le hsystem hquiescent hfaulty hsource (hrunningAll other hother)
        (Bool.not_eq_true _ ▸ hechoOpen) hechoAll
      rw [setting.card_everyone] at hle
      omega
    have hle := card_ready_le hsystem hquiescent hfaulty hsource hrunning hopen hreadyAll
    rw [setting.card_everyone] at hle
    omega

end Quiescent

/-- Nobody blames a participant that is not faulty, and without faulty participants everybody has
returned the values of all once all votes have been delivered. -/
theorem broadcast_blames_faulty_and_returns (setting : BroadcastSetting Data)
    (events : List (BroadcastEvent Data)) :
    (∀ participant sid source, setting.Honest participant →
      setting.participants.getParticipant sid = some source → setting.Honest source →
      ((run setting.step setting.start events).receiver participant).result ≠
        some (.err (maliciousSender sid))) ∧
    (setting.faulty = ∅ → setting.Quiescent (run setting.step setting.start events) →
      ∀ participant, setting.participants.contains participant = true →
        ∃ output, ((run setting.step setting.start events).receiver participant).result =
          some (.ok output)) := by
  have hsystem : LiveSystem setting (run setting.step setting.start events) := LiveSystem.run events
  refine ⟨fun participant sid source hhonest hsource hsourceHonest hblamed ↦ ?_,
    fun hfaulty hquiescent participant hcontains ↦ ?_⟩
  · obtain ⟨_, _, hsame, hsession, hfaulty⟩ :=
      (hsystem.sound.receivers participant hhonest).failed _ hblamed
    rw [← maliciousSender_inj hsame] at hsession
    cases hsource.symm.trans hsession
    exact hsourceHonest.2 hfaulty
  · have hhonest : setting.Honest participant := ⟨hcontains, by simp [hfaulty]⟩
    exact (running_or_returned hsystem hfaulty hhonest).resolve_left
      (not_running hsystem hfaulty hquiescent)

/-- Four participants, none of which is faulty. -/
def fourHonest : BroadcastSetting Bool :=
  { fourWithFaulty with
    faulty := ∅
    faulty_mem := fun participant hmem ↦ absurd hmem (Finset.notMem_empty participant)
    faulty_card := Nat.zero_le _ }

/-- All votes are delivered in the order in which they are sent. -/
def inOrder : List (BroadcastEvent Bool) :=
  (List.replicate 160 [.advance 1, .advance 2, .advance 3, .advance 4, .deliver 0]).flatten

theorem broadcast_blames_faulty_and_returns_four :
    ((run fourWithFaulty.step fourWithFaulty.start faultyEcho).receiver 1).result ≠
      some (.err (maliciousSender 0)) ∧
    fourHonest.Quiescent (run fourHonest.step fourHonest.start inOrder) ∧
    ∃ output, ((run fourHonest.step fourHonest.start inOrder).receiver 1).result =
      some (.ok output) := by
  have hquiescent : fourHonest.Quiescent (run fourHonest.step fourHonest.start inOrder) :=
    quiescent_of_all (by decide +kernel) (by decide +kernel)
  exact ⟨(broadcast_blames_faulty_and_returns fourWithFaulty faultyEcho).1 1 0 1 (by decide) rfl
      (by decide), hquiescent,
    (broadcast_blames_faulty_and_returns fourHonest inOrder).2 rfl hquiescent 1 rfl⟩

end BroadcastSetting

end NearMpc.Threshold
