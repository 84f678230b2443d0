import NearMpc.Threshold.BroadcastNetwork

/-!
# Echo broadcast agrees

Whatever the faulty participants send and however the network delivers it, two participants that
return from `do_broadcast` return the same values, and the value of a participant that is not faulty
is the one it has sent.

A log of sent votes is sound when every vote in it has its reason (`Justified`): an echo repeats the
value of the participant of the session, and a ready vote is for a certified value. In a sound log
only one value of a session is certified (`SoundLog.certified_unique`), since two quorums share an
echo of a participant that is not faulty, and it is the value of the participant of the session, if
that one is not faulty (`SoundLog.eq_input`). A participant accepts certified values only. Its
counters count one vote of each participant (`Counts`), so more than `f` of them include one that
was really sent.

The sender of a session is blamed when no value can get enough echo votes any more. In the session
of a participant that is not faulty all but `f` echo votes are for its value, which leaves enough of
them (`SoundReceiver.failed`).
-/

set_option autoImplicit false

namespace NearMpc.Threshold

open Library BroadcastProtocolState BroadcastReceiver ParticipantList

variable {Data : Type} [DecidableEq Data]

namespace BroadcastSetting

variable (setting : BroadcastSetting Data) (sent : List (BroadcastVote Data))

/-! ### Sound logs -/

/-- The reason for a vote of a participant that is not faulty. -/
def Justified (message : BroadcastVote Data) : Prop :=
  setting.Honest message.sender ∧
    match message.vote with
    | .send data =>
        setting.participants.getParticipant message.sid = some message.sender ∧
          data = setting.input message.sender
    | .echo data =>
        ∃ source, setting.participants.getParticipant message.sid = some source ∧
          setting.Supports sent message.sid (.send data) source
    | .ready data => setting.Certified sent message.sid data

structure SoundLog : Prop where
  justified : ∀ message ∈ sent, setting.Justified sent message
  echo_unique : ∀ (participant : Participant) (sid : ℕ) (first second : Data),
    ⟨participant, sid, .echo first⟩ ∈ sent → ⟨participant, sid, .echo second⟩ ∈ sent →
      first = second

variable {setting sent} {later : List (BroadcastVote Data)} {sid : ℕ} {message : BroadcastVote Data}

theorem Justified.mono (hlog : sent ⊆ later) (hjustified : setting.Justified sent message) :
    setting.Justified later message := by
  obtain ⟨_, _, vote⟩ := message
  refine ⟨hjustified.1, ?_⟩
  cases vote with
  | send => exact hjustified.2
  | echo =>
    obtain ⟨source, hsource, hsupports⟩ := hjustified.2
    exact ⟨source, hsource, hsupports.mono hlog⟩
  | ready => exact hjustified.2.mono hlog

namespace SoundLog

theorem contains_of_supports (hlog : setting.SoundLog sent) {vote : MessageType Data} {participant}
    (hsupports : setting.Supports sent sid vote participant) :
    setting.participants.contains participant = true := by
  rcases hsupports with hfaulty | hsent
  · exact setting.faulty_mem participant hfaulty
  · exact (hlog.justified _ hsent).1.1

variable {data : Data}

section

variable (hlog : setting.SoundLog sent)
include hlog

/-- What supports a ready vote of more than `f` participants is certified. -/
theorem certified_of_ready
    (hcard : (setting.participants.len - 1) / 3 <
      (setting.supporters sent sid (.ready data)).card) : setting.Certified sent sid data := by
  obtain ⟨_, -, hsent⟩ := setting.exists_sent hcard
  exact (hlog.justified _ hsent).2

/-- An echo of a participant that is not faulty repeats the value of the participant of the session,
if that one is not faulty either. -/
theorem echo_eq_input {participant source}
    (hsource : setting.participants.getParticipant sid = some source)
    (hhonest : setting.Honest source)
    (hecho : (⟨participant, sid, .echo data⟩ : BroadcastVote Data) ∈ sent) :
    data = setting.input source := by
  obtain ⟨-, other, hother, hsupports⟩ := hlog.justified _ hecho
  have hsame : other = source := Option.some.inj (hother.symm.trans hsource)
  subst hsame
  exact (hlog.justified _ (hsupports.resolve_left hhonest.2)).2.2

theorem eq_input {source} (hsource : setting.participants.getParticipant sid = some source)
    (hhonest : setting.Honest source) (hcertified : setting.Certified sent sid data) :
    data = setting.input source := by
  have henough := setting.enough
  have hcard : (setting.participants.len - 1) / 3 <
      (setting.supporters sent sid (.echo data)).card := by
    unfold Certified at hcertified
    omega
  obtain ⟨_, -, hecho⟩ := setting.exists_sent hcard
  exact hlog.echo_eq_input hsource hhonest hecho

/-- Only one value of a session is certified. -/
theorem certified_unique {first second} (hfirst : setting.Certified sent sid first)
    (hsecond : setting.Certified sent sid second) : first = second := by
  have hquorum : ∀ data, setting.Certified sent sid data →
      setting.everyone.card + (setting.participants.len - 1) / 3 <
        2 * (setting.supporters sent sid (.echo data)).card := by
    intro _ hcertified
    rw [setting.card_everyone]
    unfold Certified at hcertified
    omega
  obtain ⟨participant, hmemFirst, hmemSecond, hnotFaulty⟩ := exists_common_notMem
    (setting.supporters_subset (.echo first)) (setting.supporters_subset (.echo second))
    setting.faulty_card (hquorum first hfirst) (hquorum second hsecond)
  exact hlog.echo_unique participant sid first second
    ((Finset.mem_filter.mp hmemFirst).2.resolve_left hnotFaulty)
    ((Finset.mem_filter.mp hmemSecond).2.resolve_left hnotFaulty)

end

end SoundLog

/-! ### Counters -/

/-- The counters count votes of participants that have been seen, and of all of them as long as the
count is open. -/
structure Counts (setting : BroadcastSetting Data) (counter : ParticipantCounter)
    (counters : CounterList Data) (closed : Bool) (supports : Data → Participant → Prop) :
    Prop where
  participants_eq : counter.participants = setting.participants
  seen_subset : counter.seen ⊆ setting.everyone
  tallies : ∃ counted ⊆ counter.seen, (closed = false → counted = counter.seen) ∧
    Tallies counters counted supports

namespace Counts

variable {counter : ParticipantCounter} {counters : CounterList Data} {closed : Bool}
  {supports : Data → Participant → Prop} {participant : Participant}

theorem new (data : Data) :
    Counts setting { participants := setting.participants } [] false supports where
  participants_eq := rfl
  seen_subset := Finset.empty_subset _
  tallies := ⟨∅, Finset.empty_subset _, fun _ ↦ rfl, Tallies.empty data⟩

section

variable (hcounts : Counts setting counter counters closed supports)
include hcounts

theorem mono {wider : Data → Participant → Prop}
    (hwider : ∀ data participant, supports data participant → wider data participant) :
    Counts setting counter counters closed wider where
  participants_eq := hcounts.participants_eq
  seen_subset := hcounts.seen_subset
  tallies := by
    obtain ⟨counted, hsubset, hopen, htallies⟩ := hcounts.tallies
    exact ⟨counted, hsubset, hopen, htallies.mono hwider⟩

theorem close : Counts setting counter counters true supports where
  participants_eq := hcounts.participants_eq
  seen_subset := hcounts.seen_subset
  tallies := by
    obtain ⟨counted, hsubset, -, htallies⟩ := hcounts.tallies
    exact ⟨counted, hsubset, fun hfalse ↦ by simp at hfalse, htallies⟩

theorem mem_everyone_of_fresh (hfresh : counter.Fresh participant) :
    participant ∈ setting.everyone :=
  setting.mem_everyone.mpr (hcounts.participants_eq ▸ hfresh.1)

/-- A vote that is not counted. -/
theorem ignore (hignored : closed = true ∨ ¬ counter.Fresh participant) :
    Counts setting (counter.put participant).1 counters closed supports := by
  by_cases hfresh : counter.Fresh participant
  · have hclosed : closed = true := hignored.resolve_right (not_not.mpr hfresh)
    obtain ⟨counted, hsubset, -, htallies⟩ := hcounts.tallies
    rw [ParticipantCounter.put, if_pos hfresh]
    exact
      { participants_eq := hcounts.participants_eq
        seen_subset :=
          Finset.insert_subset (hcounts.mem_everyone_of_fresh hfresh) hcounts.seen_subset
        tallies := ⟨counted, hsubset.trans (Finset.subset_insert _ _),
          fun hopen ↦ absurd hopen (by simp [hclosed]), htallies⟩ }
  · rw [ParticipantCounter.put, if_neg hfresh]
    exact hcounts

end

/-- A vote that is counted. -/
theorem count (closed : Bool) {data} (hcounts : Counts setting counter counters false supports)
    (hfresh : counter.Fresh participant) (hsupports : supports data participant) :
    Counts setting { counter with seen := insert participant counter.seen }
      (counters.insertOrIncreaseCounter data) closed supports where
  participants_eq := hcounts.participants_eq
  seen_subset := Finset.insert_subset (hcounts.mem_everyone_of_fresh hfresh) hcounts.seen_subset
  tallies := by
    obtain ⟨_, -, hopen, htallies⟩ := hcounts.tallies
    have hsame := hopen rfl
    subst hsame
    exact ⟨insert participant counter.seen, Finset.Subset.refl _, fun _ ↦ rfl,
      htallies.insert hfresh.2 hsupports⟩

theorem sum_le_len (hcounts : Counts setting counter counters closed supports) :
    counters.getSumCounters ≤ setting.participants.len := by
  obtain ⟨_, hsubset, -, htallies⟩ := hcounts.tallies
  rw [htallies.sum_eq, ← setting.card_everyone]
  exact Finset.card_le_card (hsubset.trans hcounts.seen_subset)

/-- With another vote for it the value has been counted at most as often as there are participants
that support it. -/
theorem count_lt {data : Data} (hcounts : Counts setting counter counters false supports)
    (hfresh : counter.Fresh participant) (hsupports : supports data participant)
    {voters : Finset Participant}
    (hvoters : ∀ participant ∈ setting.everyone, supports data participant → participant ∈ voters) :
    counters.count data + 1 ≤ voters.card := by
  have hafter := hcounts.count true hfresh hsupports
  obtain ⟨_, hsubset, -, htallies⟩ := hafter.tallies
  rw [← CounterList.count_insert_self]
  exact htallies.count_le data fun participant hmem ↦
    hvoters participant (hafter.seen_subset (hsubset hmem))

end Counts

/-! ### Sound sessions -/

/-- The counters of a session count supported votes, and the participant has not echoed a value
unless it has seen one. -/
structure SoundSession (setting : BroadcastSetting Data) (sent : List (BroadcastVote Data))
    (me : Participant) (sid : ℕ) (state : BroadcastProtocolState Data) : Prop where
  echoes : Counts setting state.seenEcho state.dataEcho state.finishEcho fun data ↦
    setting.Supports sent sid (.echo data)
  readies : Counts setting state.seenReady state.dataReady state.finishReady fun data ↦
    setting.Supports sent sid (.ready data)
  silent : state.finishSend = false → ∀ data,
    (⟨me, sid, .echo data⟩ : BroadcastVote Data) ∉ sent

variable {answer : MessageType Data}

namespace SoundSession

variable {me sender : Participant} {state after : BroadcastProtocolState Data}
  {vote : MessageType Data} {reply : Option (MessageType Data)} {accepted : Bool}

theorem new : SoundSession setting [] me sid (.new setting.participants) where
  echoes := Counts.new (setting.input me)
  readies := Counts.new (setting.input me)
  silent := fun _ _ ↦ List.not_mem_nil

/-- The log grows, but not by an echo of the participant in this session. -/
theorem mono (hsession : SoundSession setting sent me sid state) (hlog : sent ⊆ later)
    (hsilent : ∀ data, (⟨me, sid, .echo data⟩ : BroadcastVote Data) ∈ later →
      ⟨me, sid, .echo data⟩ ∈ sent) : SoundSession setting later me sid state where
  echoes := hsession.echoes.mono fun _ _ hsupports ↦ hsupports.mono hlog
  readies := hsession.readies.mono fun _ _ hsupports ↦ hsupports.mono hlog
  silent := fun hopen data hsent ↦ hsession.silent hopen data (hsilent data hsent)

variable {data : Data}

section Certified

variable (hsession : SoundSession setting sent me sid state)

include hsession

/-- A value with enough echo votes is certified. -/
theorem certified_of_echoes
    (hopen : state.finishEcho = false) (hfresh : state.seenEcho.Fresh sender)
    (hsupports : setting.Supports sent sid (.echo data) sender)
    (hcount : echoT setting.participants < state.dataEcho.count data + 1) :
    setting.Certified sent sid data := by
  have hcounts := hsession.echoes
  rw [hopen] at hcounts
  rw [setting.echoT_eq] at hcount
  exact hcount.trans_le (hcounts.count_lt hfresh hsupports
    fun participant hmem hsupported ↦ Finset.mem_filter.mpr ⟨hmem, hsupported⟩)

variable (hopen : state.finishReady = false) (hfresh : state.seenReady.Fresh sender)
  (hsupports : setting.Supports sent sid (.ready data) sender)

include hopen hfresh hsupports

theorem count_readies_lt :
    state.dataReady.count data + 1 ≤ (setting.supporters sent sid (.ready data)).card := by
  have hcounts := hsession.readies
  rw [hopen] at hcounts
  exact hcounts.count_lt hfresh hsupports
    fun participant hmem hsupported ↦ Finset.mem_filter.mpr ⟨hmem, hsupported⟩

/-- A value with more than `f` ready votes is certified. -/
theorem certified_of_readies (hlog : setting.SoundLog sent)
    (hcount : readyT setting.participants < state.dataReady.count data + 1) :
    setting.Certified sent sid data := by
  rw [setting.readyT_eq] at hcount
  exact hlog.certified_of_ready (hcount.trans_le (hsession.count_readies_lt hopen hfresh hsupports))

end Certified

theorem lt_of_amplification (hreply : state.amplification setting.participants data = some answer) :
    answer = .ready data ∧ readyT setting.participants < state.dataReady.count data + 1 := by
  unfold BroadcastProtocolState.amplification at hreply
  split_ifs at hreply with hamplifies
  exact ⟨(Option.some.inj hreply).symm, hamplifies.1⟩

/-! ### Votes that are handled -/

section Handles

variable (hsession : SoundSession setting sent me sid state)
  (hsupports : setting.Supports sent sid vote sender)
  (hhandles : Handles setting.participants sid sender state vote after reply accepted)

include hhandles

/-- A value is echoed only if none has been seen, and one has been seen from then on. -/
theorem finishSend_of_handles (hopen : after.finishSend = false) :
    state.finishSend = false ∧ ∀ data, reply ≠ some (.echo data) := by
  cases hhandles with
  | sendIgnored | echoIgnored | echoCounted | readyIgnored | becomesReady => exact ⟨hopen, by simp⟩
  | echoes | accepts => cases hopen
  | readyCounted =>
    refine ⟨hopen, fun other hreply ↦ ?_⟩
    cases (lt_of_amplification hreply).1

theorem open_of_echo (hreply : reply = some (.echo data)) : state.finishSend = false := by
  cases hhandles with
  | sendIgnored | echoIgnored | echoCounted | readyIgnored | becomesReady => cases hreply
  | echoes _ hopen => exact hopen
  | readyCounted other | accepts other => cases (lt_of_amplification hreply).1

include hsession hsupports

/-- Every reply has its reason. -/
theorem justified (hlog : setting.SoundLog sent) (hhonest : setting.Honest me)
    (hreply : reply = some answer) : setting.Justified sent ⟨me, sid, answer⟩ := by
  cases hhandles with
  | sendIgnored | echoIgnored | echoCounted | readyIgnored => cases hreply
  | echoes _ _ hsender =>
    cases hreply
    exact ⟨hhonest, sender, hsender, hsupports⟩
  | becomesReady _ hopen hfresh hcount =>
    cases hreply
    exact ⟨hhonest, hsession.certified_of_echoes hopen hfresh hsupports hcount⟩
  | readyCounted data hopen hfresh | accepts data hopen hfresh =>
    obtain ⟨rfl, hcount⟩ := lt_of_amplification hreply
    exact ⟨hhonest, hsession.certified_of_readies hopen hfresh hsupports hlog hcount⟩

theorem handle_echoes :
    Counts setting after.seenEcho after.dataEcho after.finishEcho fun data ↦
      setting.Supports sent sid (.echo data) := by
  cases hhandles with
  | sendIgnored | echoes | readyIgnored | readyCounted => exact hsession.echoes
  | accepts => exact hsession.echoes.close
  | echoIgnored _ hignored => exact hsession.echoes.ignore hignored
  | echoCounted data hopen hfresh | becomesReady data hopen hfresh =>
    exact Counts.count _ (hopen ▸ hsession.echoes) hfresh hsupports

theorem handle_readies :
    Counts setting after.seenReady after.dataReady after.finishReady fun data ↦
      setting.Supports sent sid (.ready data) := by
  cases hhandles with
  | sendIgnored | echoes | echoIgnored | echoCounted | becomesReady => exact hsession.readies
  | readyIgnored _ hignored => exact hsession.readies.ignore hignored
  | readyCounted data hopen hfresh | accepts data hopen hfresh =>
    exact Counts.count _ (hopen ▸ hsession.readies) hfresh hsupports

/-- A session stays sound, with what the participant sends in it. -/
theorem handle : SoundSession setting (logVote sent me sid reply) me sid after where
  echoes := (hsession.handle_echoes hsupports hhandles).mono fun _ _ hsupported ↦
    hsupported.mono (subset_logVote sent me sid reply)
  readies := (hsession.handle_readies hsupports hhandles).mono fun _ _ hsupported ↦
    hsupported.mono (subset_logVote sent me sid reply)
  silent := by
    intro hopen data hmem
    obtain ⟨hbefore, hnoEcho⟩ := finishSend_of_handles hhandles hopen
    rcases mem_logVote.mp hmem with hsent | ⟨answer, hreply, hmessage⟩
    · exact hsession.silent hbefore data hsent
    · cases hmessage
      exact hnoEcho data hreply

/-- A log stays sound. -/
theorem handle_log (hlog : setting.SoundLog sent) (hhonest : setting.Honest me) :
    setting.SoundLog (logVote sent me sid reply) where
  justified := by
    intro message hmem
    refine Justified.mono (subset_logVote sent me sid reply) ?_
    rcases mem_logVote.mp hmem with hsent | ⟨answer, hreply, rfl⟩
    · exact hlog.justified message hsent
    · exact hsession.justified hsupports hhandles hlog hhonest hreply
  echo_unique := by
    -- a second echo of the session would have been sent before
    have hnew : ∀ answer other, reply = some (.echo answer) →
        (⟨me, sid, .echo other⟩ : BroadcastVote Data) ∉ sent :=
      fun answer other hreply ↦ hsession.silent (open_of_echo hhandles hreply) other
    intro participant session first second hfirst hsecond
    rcases mem_logVote.mp hfirst with hfirstSent | ⟨answer, hreply, hmessage⟩
    · rcases mem_logVote.mp hsecond with hsecondSent | ⟨answer, hreply, hmessage⟩
      · exact hlog.echo_unique participant session first second hfirstSent hsecondSent
      · cases hmessage
        exact absurd hfirstSent (hnew second first hreply)
    · cases hmessage
      rcases mem_logVote.mp hsecond with hsecondSent | ⟨other, hother, hmessage⟩
      · exact absurd hsecondSent (hnew first second hreply)
      · cases hmessage
        rw [hreply] at hother
        exact MessageType.echo.inj (Option.some.inj hother)

end Handles

theorem finishReady_of_handles
    (hhandles : Handles setting.participants sid sender state vote after reply false) :
    after.finishReady = state.finishReady := by
  cases hhandles <;> rfl

end SoundSession

/-! ### Sound participants -/

/-- The participant has accepted certified values only, and one of every session that is over. It
blames faulty senders only. -/
structure SoundReceiver (setting : BroadcastSetting Data) (sent : List (BroadcastVote Data))
    (me : Participant) (receiver : BroadcastReceiver Data) : Prop where
  participants_eq : receiver.participants = setting.participants
  me_eq : receiver.me = me
  sendVote_eq : receiver.sendVote = .send (setting.input me)
  output_participants : receiver.voteOutput.participants = setting.participants
  simulated : ∀ sid vote, receiver.simulated = some (sid, vote) → ⟨me, sid, vote⟩ ∈ sent
  sessions : ∀ sid, SoundSession setting sent me sid (receiver.state sid)
  output : ∀ source data, receiver.voteOutput.data source = some data →
    ∃ sid, setting.participants.getParticipant sid = some source ∧
      setting.Certified sent sid data
  finished : ∀ sid source, setting.participants.getParticipant sid = some source →
    (receiver.state sid).finishReady = true →
      ∃ data, receiver.voteOutput.data source = some data
  returned : ∀ output, receiver.result = some (.ok output) →
    output = receiver.voteOutput ∧
      ∀ sid < setting.participants.len, (receiver.state sid).finishReady = true
  failed : ∀ error, receiver.result = some (.err error) →
    ∃ sid source, error = maliciousSender sid ∧
      setting.participants.getParticipant sid = some source ∧ source ∈ setting.faulty
  not_panicked : receiver.result ≠ some .panicked

namespace SoundReceiver

variable {me sender : Participant} {receiver after : BroadcastReceiver Data}
  {vote : MessageType Data} {reply : Option (MessageType Data)}

/-- The log grows, but not by an echo of the participant. -/
theorem mono (hreceiver : SoundReceiver setting sent me receiver) (hlog : sent ⊆ later)
    (hsilent : ∀ sid data, (⟨me, sid, .echo data⟩ : BroadcastVote Data) ∈ later →
      ⟨me, sid, .echo data⟩ ∈ sent) : SoundReceiver setting later me receiver :=
  { hreceiver with
    simulated := fun sid vote hmoved ↦ hlog (hreceiver.simulated sid vote hmoved)
    sessions := fun sid ↦ (hreceiver.sessions sid).mono hlog (hsilent sid)
    output := by
      intro source data hdata
      obtain ⟨sid, hsource, hcertified⟩ := hreceiver.output source data hdata
      exact ⟨sid, hsource, hcertified.mono hlog⟩ }

variable {state : BroadcastProtocolState Data}

omit [DecidableEq Data] in
theorem simulated_after {session}
    (hmoved : (reply.map fun vote ↦ (sid, vote)) = some (session, answer)) :
    (⟨me, session, answer⟩ : BroadcastVote Data) ∈ logVote sent me sid reply := by
  obtain ⟨_, hreply, hpair⟩ := Option.map_eq_some_iff.mp hmoved
  cases hpair
  exact mem_logVote.mpr (.inr ⟨answer, hreply, rfl⟩)

section Rounds

variable (hreceiver : SoundReceiver setting sent me receiver)

include hreceiver

theorem sessions_after {accepted} (hsupports : setting.Supports sent sid vote sender)
    (hhandles : Handles setting.participants sid sender (receiver.state sid) vote state reply
      accepted) (other : ℕ) :
    SoundSession setting (logVote sent me sid reply) me other
      ((receiver.continueWith sid state reply).state other) := by
  unfold continueWith
  by_cases hother : other = sid
  · subst hother
    simp only [Function.update_self]
    exact (hreceiver.sessions other).handle hsupports hhandles
  · simp only [Function.update_of_ne hother]
    refine (hreceiver.sessions other).mono (subset_logVote sent me sid reply) fun data hmem ↦ ?_
    rcases mem_logVote.mp hmem with hsent | ⟨answer, -, hmessage⟩
    · exact hsent
    · cases hmessage
      exact absurd rfl hother

variable (hrunning : receiver.result = none)

include hrunning in
/-- A round that goes on. -/
theorem continues (hsupports : setting.Supports sent sid vote sender)
    (hhandles : Handles setting.participants sid sender (receiver.state sid) vote state reply
      false) :
    SoundReceiver setting (logVote sent me sid reply) me
      (receiver.continueWith sid state reply) where
  participants_eq := hreceiver.participants_eq
  me_eq := hreceiver.me_eq
  sendVote_eq := hreceiver.sendVote_eq
  output_participants := hreceiver.output_participants
  simulated := fun _ _ hmoved ↦ simulated_after hmoved
  sessions := hreceiver.sessions_after hsupports hhandles
  output := by
    intro source data hdata
    obtain ⟨session, hsource, hcertified⟩ := hreceiver.output source data hdata
    exact ⟨session, hsource, hcertified.mono (subset_logVote sent me sid reply)⟩
  finished := by
    intro session source hsource hfinished
    refine hreceiver.finished session source hsource ?_
    unfold continueWith at hfinished
    by_cases hsession : session = sid
    · subst hsession
      simp only [Function.update_self] at hfinished
      rw [← SoundSession.finishReady_of_handles hhandles, hfinished]
    · simpa only [Function.update_of_ne hsession] using hfinished
  returned := fun output hresult ↦ by cases hrunning.symm.trans hresult
  failed := fun error hresult ↦ by cases hrunning.symm.trans hresult
  not_panicked := fun hresult ↦ by cases hrunning.symm.trans hresult

variable {data : Data} (hlog : setting.SoundLog sent)

include hlog

section

variable (hsupports : setting.Supports sent sid (.ready data) sender)
  (hhandles : Handles setting.participants sid sender (receiver.state sid) (.ready data) state reply
    true)
include hsupports hhandles

theorem certified_of_accepts : setting.Certified sent sid data := by
  cases hhandles with
  | accepts _ hopen hfresh =>
    exact (hreceiver.sessions sid).certified_of_readies hopen hfresh hsupports hlog (by omega)

include hrunning in
/-- A round that accepts a value. -/
theorem accepts {participant} (hsource : setting.participants.getParticipant sid = some participant)
    :
    SoundReceiver setting (logVote sent me sid reply) me
      ((receiver.continueWith sid state reply).acceptFrom participant data) where
  participants_eq := hreceiver.participants_eq
  me_eq := hreceiver.me_eq
  sendVote_eq := hreceiver.sendVote_eq
  output_participants := by
    simp only [acceptFrom, ParticipantMap.put_participants]
    exact hreceiver.output_participants
  simulated := fun _ _ hmoved ↦ simulated_after hmoved
  sessions := hreceiver.sessions_after hsupports hhandles
  output := by
    intro source found hfound
    rcases ParticipantMap.eq_of_put hfound with hold | ⟨rfl, rfl⟩
    · obtain ⟨session, hsession, hcertified⟩ := hreceiver.output source found hold
      exact ⟨session, hsession, hcertified.mono (subset_logVote sent me sid reply)⟩
    · exact ⟨sid, hsource, (hreceiver.certified_of_accepts hlog hsupports hhandles).mono
        (subset_logVote sent me sid reply)⟩
  finished := by
    intro session source hsession hfinished
    by_cases hsame : session = sid
    · subst hsame
      cases hsource.symm.trans hsession
      refine ParticipantMap.exists_put_self _ data ?_
      have hcontains := exists_getParticipant.mpr ⟨session, hsession⟩
      exact hreceiver.output_participants ▸ hcontains
    · simp only [acceptFrom, continueWith, Function.update_of_ne hsame] at hfinished
      obtain ⟨found, hfound⟩ := hreceiver.finished session source hsession hfinished
      exact ⟨found, ParticipantMap.put_of_some participant data hfound⟩
  returned := by
    intro _ hresult
    have hafter : (receiver.continueWith sid state reply).result = none := hrunning
    simp only [acceptFrom, hafter] at hresult
    split_ifs at hresult with hall
    cases hresult
    refine ⟨rfl, fun session hsession ↦ ?_⟩
    simp only [allFinished, List.all_eq_true, List.mem_range] at hall
    exact hall session (hreceiver.participants_eq.symm ▸ hsession)
  failed := by
    intro _ hresult
    have hafter : (receiver.continueWith sid state reply).result = none := hrunning
    simp only [acceptFrom, hafter] at hresult
    split_ifs at hresult
    cases hresult
  not_panicked := by
    have hafter : (receiver.continueWith sid state reply).result = none := hrunning
    simp only [acceptFrom, hafter]
    split_ifs <;> simp

end

/-- No value can get enough echo votes any more only if the participant of the session is faulty. -/
theorem faulty_of_blames {source} (hsupports : setting.Supports sent sid (.echo data) sender)
    (hopen : (receiver.state sid).finishEcho = false)
    (hfresh : (receiver.state sid).seenEcho.Fresh sender)
    (hlost : ∀ entry ∈ ((receiver.state sid).countEcho sender data).dataEcho,
      entry.2 + (setting.participants.len -
        ((receiver.state sid).dataEcho.getSumCounters + 1)) ≤ echoT setting.participants)
    (hsource : setting.participants.getParticipant sid = some source) :
    source ∈ setting.faulty := by
  by_contra hnotFaulty
  have hhonest : setting.Honest source := ⟨exists_getParticipant.mpr ⟨sid, hsource⟩, hnotFaulty⟩
  have hcounts := (hreceiver.sessions sid).echoes
  rw [hopen] at hcounts
  have hafter := hcounts.count true hfresh hsupports
  obtain ⟨_, -, -, htallies⟩ := hafter.tallies
  -- all echo votes but those of faulty participants are for the value of the sender
  have honly : ∀ other voter, voter ∉ setting.faulty →
      setting.Supports sent sid (.echo other) voter → other = setting.input source :=
    fun other voter hvoter hsupported ↦
      hlog.echo_eq_input hsource hhonest (hsupported.resolve_left hvoter)
  have hsum := htallies.sum_le honly
  have hlen := hafter.sum_le_len
  rw [CounterList.sum_insert] at hsum hlen
  obtain ⟨entry, hmem, _⟩ :=
    CounterList.exists_count_le (receiver.state sid).dataEcho data (setting.input source)
  have hbound := hlost entry hmem
  rw [setting.echoT_eq] at hbound
  have hfaulty := setting.faulty_card
  have henough := setting.enough
  omega

include hrunning in
/-- A round keeps a participant sound, and the log with what it sends. -/
theorem iterate (hhonest : setting.Honest me) (hsupports : setting.Supports sent sid vote sender)
    (hiterates : receiver.Iterates sender sid vote after reply) :
    SoundReceiver setting (logVote sent me sid reply) me after ∧
      setting.SoundLog (logVote sent me sid reply) := by
  have hsession := hreceiver.sessions sid
  have hcontains := hlog.contains_of_supports hsupports
  cases hiterates with
  | outOfRange => exact ⟨{ hreceiver with simulated := by simp }, hlog⟩
  | continues _ hhandles =>
    rw [hreceiver.participants_eq] at hhandles
    exact ⟨hreceiver.continues hrunning hsupports hhandles,
      hsession.handle_log hsupports hhandles hlog hhonest⟩
  | accepts hhandles hsource =>
    rw [hreceiver.participants_eq] at hhandles hsource
    exact ⟨hreceiver.accepts hrunning hlog hsupports hhandles hsource,
      hsession.handle_log hsupports hhandles hlog hhonest⟩
  | rejects _ hhandles hrejected =>
    -- the value of its own session is its own
    rw [hreceiver.participants_eq] at hhandles hrejected
    rw [hreceiver.me_eq, hreceiver.sendVote_eq] at hrejected
    obtain ⟨hown, hother⟩ := hrejected hhonest.1
    have hcertified := hreceiver.certified_of_accepts hlog hsupports hhandles
    rw [hlog.eq_input hown hhonest hcertified] at hother
    exact absurd rfl hother
  | unknownSender _ hsender =>
    rw [hreceiver.participants_eq, hcontains] at hsender
    cases hsender
  | blames _ hrange hopen hfresh hlost =>
    rw [hreceiver.participants_eq] at hrange hlost
    obtain ⟨source, hsource⟩ := getParticipant_of_lt hrange
    have hfaulty := hreceiver.faulty_of_blames hlog hsupports hopen hfresh hlost hsource
    refine ⟨?_, hlog⟩
    exact
      { hreceiver with
        simulated := by simp
        returned := by simp
        failed := fun error hresult ↦
          ⟨sid, source, (Outcome.err.inj (Option.some.inj hresult)).symm, hsource, hfaulty⟩
        not_panicked := by simp }
  | overflows _ _ hopen hfresh hsum =>
    have hcounts := hsession.echoes
    rw [hopen] at hcounts
    have hlen := (hcounts.count true hfresh hsupports).sum_le_len
    rw [CounterList.sum_insert] at hlen
    rw [hreceiver.participants_eq] at hsum
    omega

end Rounds

end SoundReceiver

/-! ### Sound networks -/

structure SoundSystem (setting : BroadcastSetting Data) (system : BroadcastSystem Data) : Prop where
  log : setting.SoundLog system.sent
  authentic : ∀ arriving ∈ system.inFlight,
    setting.Supports system.sent arriving.2.sid arriving.2.vote arriving.2.sender
  receivers : ∀ participant, setting.Honest participant →
    SoundReceiver setting system.sent participant (system.receiver participant)

namespace SoundSystem

variable {system : BroadcastSystem Data}

theorem start : SoundSystem setting setting.start where
  log :=
    { justified := by
        intro _ hmessage
        obtain ⟨hhonest, hsid, hvote⟩ := setting.mem_start_sent.mp hmessage
        refine ⟨hhonest, ?_⟩
        rw [hvote]
        exact ⟨hsid, rfl⟩
      echo_unique := by
        intro _ _ _ _ hfirst
        cases (setting.mem_start_sent.mp hfirst).2.2 }
  authentic := fun arriving harriving ↦ .inr (setting.mem_start_inFlight.mp harriving).1
  receivers := by
    intro participant hhonest
    obtain ⟨sid, hsid⟩ := exists_getParticipant.mp hhonest.1
    have hown : (⟨participant, sid, .send (setting.input participant)⟩ : BroadcastVote Data) ∈
        setting.start.sent := setting.mem_start_sent.mpr ⟨hhonest, hsid, rfl⟩
    have hsession : ∀ session, SoundSession setting setting.start.sent participant session
        (.new setting.participants) := by
      intro _
      refine SoundSession.new.mono (List.nil_subset _) fun data hecho ↦ ?_
      cases (setting.mem_start_sent.mp hecho).2.2
    rw [start_receiver hsid]
    exact
      { participants_eq := rfl
        me_eq := rfl
        sendVote_eq := rfl
        output_participants := rfl
        simulated := by
          intro _ _ hmoved
          cases hmoved
          exact hown
        sessions := hsession
        output := fun source data hdata ↦ by cases hdata
        finished := fun session source hsource hfinished ↦ by cases hfinished
        returned := fun output hresult ↦ by cases hresult
        failed := fun error hresult ↦ by cases hresult
        not_panicked := by simp }

section

variable (hsystem : SoundSystem setting system) {participant : Participant}
  {inFlight : List (Participant × BroadcastVote Data)}
include hsystem

/-- A vote that a participant handles is supported. -/
theorem supports_of_arrives (hhonest : setting.Honest participant)
    (harrives : Arrives system participant message inFlight) :
    setting.Supports system.sent message.sid message.vote message.sender ∧
      inFlight ⊆ system.inFlight := by
  cases harrives with
  | simulated sid vote hmoved =>
    exact ⟨.inr ((hsystem.receivers participant hhonest).simulated sid vote hmoved),
      List.Subset.refl _⟩
  | delivered _ _ hplace =>
    exact ⟨hsystem.authentic _ (List.mem_of_getElem? hplace), List.eraseIdx_subset⟩

theorem receive (hrunning : setting.Running system participant)
    (harrives : Arrives system participant message inFlight) :
    SoundSystem setting (setting.receive { system with inFlight } participant message) := by
  obtain ⟨hsupports, hinFlight⟩ := hsystem.supports_of_arrives hrunning.1 harrives
  have hresult := Option.isNone_iff_eq_none.mp hrunning.2
  obtain ⟨hreceiver, hlog⟩ := (hsystem.receivers participant hrunning.1).iterate hresult
    hsystem.log hrunning.1 hsupports (iterates message.vote)
  unfold BroadcastSetting.receive
  refine ⟨?_, ?_, ?_⟩
  · simpa only [sendMany_sent] using hlog
  · intro arriving harriving
    rw [sendMany_sent]
    rcases (setting.mem_sendMany_inFlight).mp harriving with hold | ⟨vote, hvote, -, hmessage⟩
    · exact (hsystem.authentic arriving (hinFlight hold)).mono (subset_logVote _ _ _ _)
    · rw [hmessage]
      exact .inr (mem_logVote.mpr (.inr ⟨vote, hvote, rfl⟩))
  · intro other hother
    rw [sendMany_sent, sendMany_receiver]
    by_cases hsame : other = participant
    · subst hsame
      simpa only [Function.update_self] using hreceiver
    · simp only [Function.update_of_ne hsame]
      refine (hsystem.receivers other hother).mono (subset_logVote _ _ _ _) fun sid data hmem ↦ ?_
      rcases mem_logVote.mp hmem with hsent | ⟨vote, -, hmessage⟩
      · exact hsent
      · cases hmessage
        exact absurd rfl hsame

end

theorem step (hsystem : SoundSystem setting system) (event : BroadcastEvent Data) :
    SoundSystem setting (setting.step system event) := by
  have hsteps := setting.steps_step system event
  generalize setting.step system event = later at hsteps
  cases hsteps with
  | stays => exact hsystem
  | receives _ _ _ hrunning harrives => exact hsystem.receive hrunning harrives
  | loses =>
    exact { hsystem with
      authentic := fun arriving harriving ↦
        hsystem.authentic arriving (List.eraseIdx_subset harriving) }
  | injects _ _ hfaulty =>
    refine { hsystem with authentic := fun arriving harriving ↦ ?_ }
    rcases List.mem_append.mp harriving with hold | hnew
    · exact hsystem.authentic arriving hold
    · rw [List.mem_singleton.mp hnew]
      exact .inl hfaulty

theorem run (events : List (BroadcastEvent Data)) :
    SoundSystem setting (run setting.step setting.start events) :=
  run_invariant start (fun _ event hsystem ↦ hsystem.step event) events

end SoundSystem

/-! ### Agreement -/

variable {me : Participant} {receiver : BroadcastReceiver Data} {output : ParticipantMap Data}

section

variable (hreceiver : SoundReceiver setting sent me receiver)
  (hresult : receiver.result = some (.ok output)) {source : Participant}
include hreceiver hresult

/-- A returned map has the certified value of every session. -/
theorem SoundReceiver.certified_of_returned
    (hsource : setting.participants.getParticipant sid = some source) :
    ∃ data, output.data source = some data ∧ setting.Certified sent sid data := by
  obtain ⟨rfl, hall⟩ := hreceiver.returned output hresult
  have hfinished := hall sid (lt_len_of_getParticipant hsource)
  obtain ⟨data, hdata⟩ := hreceiver.finished sid source hsource hfinished
  obtain ⟨_, hsession, hcertified⟩ := hreceiver.output source data hdata
  rw [getParticipant_inj hsession hsource] at hcertified
  exact ⟨data, hdata, hcertified⟩

/-- A returned map has no values of others. -/
theorem SoundReceiver.none_of_returned (hsource : setting.participants.contains source = false) :
    output.data source = none := by
  obtain ⟨rfl, -⟩ := hreceiver.returned output hresult
  by_contra hnone
  obtain ⟨data, hdata⟩ := Option.ne_none_iff_exists'.mp hnone
  obtain ⟨session, hsession, -⟩ := hreceiver.output source data hdata
  rw [exists_getParticipant.mpr ⟨session, hsession⟩] at hsource
  cases hsource

end

/-- Two participants that return do so with the same map, and its entries for participants that are
not faulty are the values these have broadcast. -/
theorem broadcast_agreement (setting : BroadcastSetting Data) (events : List (BroadcastEvent Data))
    {first second : Participant} {firstOutput secondOutput : ParticipantMap Data}
    (hfirst : setting.Honest first) (hsecond : setting.Honest second)
    (hfirstResult : ((run setting.step setting.start events).receiver first).result =
      some (.ok firstOutput))
    (hsecondResult : ((run setting.step setting.start events).receiver second).result =
      some (.ok secondOutput)) :
    firstOutput = secondOutput ∧
      ∀ source, setting.Honest source → firstOutput.data source = some (setting.input source) := by
  have hsystem : SoundSystem setting (run setting.step setting.start events) :=
    SoundSystem.run events
  have hfirstSound := hsystem.receivers first hfirst
  have hsecondSound := hsystem.receivers second hsecond
  have hmembers : firstOutput.participants = secondOutput.participants := by
    rw [(hfirstSound.returned _ hfirstResult).1, (hsecondSound.returned _ hsecondResult).1,
      hfirstSound.output_participants, hsecondSound.output_participants]
  refine ⟨?_, fun source hsource ↦ ?_⟩
  · refine ParticipantMap.ext hmembers (funext fun source ↦ ?_)
    cases hcontains : setting.participants.contains source with
    | false =>
      rw [hfirstSound.none_of_returned hfirstResult hcontains,
        hsecondSound.none_of_returned hsecondResult hcontains]
    | true =>
      obtain ⟨sid, hsid⟩ := exists_getParticipant.mp hcontains
      obtain ⟨mine, hmine, hmineCertified⟩ := hfirstSound.certified_of_returned hfirstResult hsid
      obtain ⟨other, hother, hotherCertified⟩ :=
        hsecondSound.certified_of_returned hsecondResult hsid
      rw [hmine, hother, hsystem.log.certified_unique hmineCertified hotherCertified]
  · obtain ⟨sid, hsid⟩ := exists_getParticipant.mp hsource.1
    obtain ⟨data, hdata, hcertified⟩ := hfirstSound.certified_of_returned hfirstResult hsid
    rw [hdata, hsystem.log.eq_input hsid hsource hcertified]

/-- Four participants, the last of which is faulty. -/
def fourWithFaulty : BroadcastSetting Bool where
  participants := ⟨[1, 2, 3, 4], by decide⟩
  enough := by decide
  faulty := {4}
  faulty_mem := by
    intro participant hmem
    rw [Finset.mem_singleton.mp hmem]
    rfl
  faulty_card := by decide
  input := fun participant ↦ participant == 1

/-- The faulty participant sends a value of its own, and an echo of a value that the first one has
not sent. Then all votes are delivered in the order in which they are sent. -/
def faultyEcho : List (BroadcastEvent Bool) :=
  [.inject 1 ⟨4, 0, .echo false⟩, .inject 1 ⟨4, 3, .send true⟩, .inject 2 ⟨4, 3, .send true⟩,
    .inject 3 ⟨4, 3, .send true⟩] ++
  (List.replicate 130 [.advance 1, .advance 2, .advance 3, .deliver 0]).flatten

theorem broadcast_agreement_fourWithFaulty :
    ∃ firstOutput secondOutput,
      ((run fourWithFaulty.step fourWithFaulty.start faultyEcho).receiver 1).result =
        some (.ok firstOutput) ∧
      ((run fourWithFaulty.step fourWithFaulty.start faultyEcho).receiver 2).result =
        some (.ok secondOutput) ∧
      firstOutput = secondOutput ∧
        ∀ source, fourWithFaulty.Honest source →
          firstOutput.data source = some (fourWithFaulty.input source) := by
  have hfirst : ((run fourWithFaulty.step fourWithFaulty.start faultyEcho).receiver 1).result.any
      Outcome.isOk = true := by decide +kernel
  have hsecond : ((run fourWithFaulty.step fourWithFaulty.start faultyEcho).receiver 2).result.any
      Outcome.isOk = true := by decide +kernel
  obtain ⟨firstOutput, hfirstResult⟩ := exists_output hfirst
  obtain ⟨secondOutput, hsecondResult⟩ := exists_output hsecond
  exact ⟨firstOutput, secondOutput, hfirstResult, hsecondResult,
    broadcast_agreement fourWithFaulty faultyEcho (by decide) (by decide) hfirstResult
      hsecondResult⟩

end BroadcastSetting

end NearMpc.Threshold
