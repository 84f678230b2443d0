import NearMpc.Threshold.Comms
import NearMpc.Threshold.Interpolation

/-!
# Runs of a protocol

A run of a protocol in which everybody follows it and every message that is sent arrives. The
inboxes of such a run are a fixed point: the messages under a header of an inbox are, in some order,
those that the others send under it on their own inboxes (`HonestRun`).

To follow a run it is enough to know what each participant sends. `Keeps` says that participants who
have received the right messages of the earlier rounds send the right messages of the next one,
where the rounds are the values of a rank on headers. Then the inboxes of every run hold exactly
these messages (`HonestRun.perm_arrivals`), and there is such a run (`Keeps.honestRun`).
-/

set_option autoImplicit false

namespace NearMpc.Threshold

open Library Library.Outcome ParticipantList

variable {Payload Value : Type}

/-! ### What arrives -/

/-- A message to this recipient reaches the participant. -/
def Recipient.reaches (recipient : Recipient) (participant : Participant) : Bool :=
  recipient = .everyone ∨ recipient = .participant participant

/-- The payloads that a sender of these messages addresses to a participant under a header. -/
def addressed (sent : List (Outgoing Payload)) (me : Participant) (header : MessageHeader) :
    List Payload :=
  sent.filterMap fun message ↦
    if message.header = header ∧ message.recipient.reaches me then some message.payload else none

section Addressed

variable {me : Participant} {header : MessageHeader}

@[simp] theorem addressed_append (first second : List (Outgoing Payload)) :
    addressed (first ++ second) me header =
      addressed first me header ++ addressed second me header :=
  List.filterMap_append

theorem addressed_eq_nil {sent : List (Outgoing Payload)}
    (hsent : ∀ message ∈ sent, message.header ≠ header) : addressed sent me header = [] := by
  refine List.filterMap_eq_nil_iff.mpr fun message hmessage ↦ ?_
  rw [if_neg fun hsame ↦ hsent message hmessage hsame.1]

/-- Once a session has come to a point after which nothing is sent under a header, what it has sent
under it is settled. -/
theorem addressed_of_reaches {session rest : Party Payload Value} {inbox : Inbox Payload}
    {sent : List (Outgoing Payload)} (hreaches : session.Reaches inbox sent rest)
    (hrest : rest.Emits fun message ↦ message.header ≠ header) :
    addressed (session inbox).1 me header = addressed sent me header := by
  have hlater : addressed (rest inbox).1 me header = [] := addressed_eq_nil (hrest inbox)
  rw [hreaches, addressed_append, hlater, List.append_nil]

end Addressed

/-- The inbox of a participant that has received what the others sent. -/
def arrivals (participants : ParticipantList) (sent : Participant → List (Outgoing Payload))
    (me : Participant) : Inbox Payload := fun header ↦
  (participants.others me).flatMap fun sender ↦
    (addressed (sent sender) me header).map fun payload ↦ (sender, payload)

variable {participants : ParticipantList}

theorem ParticipantList.mem_others {me other} :
    other ∈ participants.others me ↔ participants.contains other = true ∧ other ≠ me := by
  simp [others, contains]

/-- One message of each of the others. -/
theorem arrivals_of_one {sent : Participant → List (Outgoing Payload)} {me header}
    {payload : Participant → Payload}
    (hsent : ∀ sender ∈ participants.others me,
      addressed (sent sender) me header = [payload sender]) :
    arrivals participants sent me header =
      (participants.others me).map fun sender ↦ (sender, payload sender) := by
  unfold arrivals
  rw [List.map_eq_flatMap]
  refine List.flatMap_congr fun sender hsender ↦ ?_
  rw [hsent sender hsender]
  rfl

/-! ### Runs where everybody follows the protocol -/

variable (participants : ParticipantList) (party : Participant → Party Payload Value)

/-- Everything that the participants send on their inboxes has arrived, and nothing else. -/
def HonestRun (inboxes : Participant → Inbox Payload) : Prop :=
  ∀ me, participants.contains me = true → ∀ header,
    (inboxes me header).Perm
      (arrivals participants (fun sender ↦ (party sender (inboxes sender)).1) me header)

/-- There are runs, and in all of them everybody returns its output. -/
def AllReturn (output : Participant → Value) : Prop :=
  (∃ inboxes, HonestRun participants party inboxes) ∧
    ∀ inboxes, HonestRun participants party inboxes →
      ∀ me, participants.contains me = true → (party me (inboxes me)).2 = .ok (some (output me))

/-- A participant that has received the messages of all ranks below that of a header sends the right
messages under it. -/
def Keeps (rank : MessageHeader → ℕ) (messages : Participant → List (Outgoing Payload)) : Prop :=
  ∀ me, participants.contains me = true → ∀ (inbox : Inbox Payload) (header : MessageHeader),
    (∀ earlier, rank earlier < rank header →
      (inbox earlier).Perm (arrivals participants messages me earlier)) →
    ∀ recipient, addressed (party me inbox).1 recipient header =
      addressed (messages me) recipient header

section Runs

variable {participants : ParticipantList} {party : Participant → Party Payload Value}
  {rank : MessageHeader → ℕ} {messages : Participant → List (Outgoing Payload)}
  {inboxes : Participant → Inbox Payload}

/-- It is enough that with the messages of all ranks below a given one a participant comes to a
point after which it sends only messages of higher ranks. -/
theorem keeps_of_progress
    (hprogress : ∀ me, participants.contains me = true → ∀ (inbox : Inbox Payload) (step : ℕ),
      (∀ earlier, rank earlier < step →
        (inbox earlier).Perm (arrivals participants messages me earlier)) →
      ∃ sent later rest, (party me).Reaches inbox sent rest ∧ messages me = sent ++ later ∧
        (rest.Emits fun message ↦ step < rank message.header) ∧
        ∀ message ∈ later, step < rank message.header) :
    Keeps participants party rank messages := by
  intro me hme inbox header hearlier _
  obtain ⟨_, _, _, hreaches, hmessages, hrest, hlater⟩ :=
    hprogress me hme inbox (rank header) hearlier
  have hne : ∀ message : Outgoing Payload, rank header < rank message.header →
      message.header ≠ header := by
    intro _ hlt hsame
    rw [hsame] at hlt
    exact lt_irrefl _ hlt
  rw [addressed_of_reaches hreaches (hrest.mono hne), hmessages, addressed_append,
    addressed_eq_nil fun message hmessage ↦ hne message (hlater message hmessage), List.append_nil]

theorem arrivals_congr {first second : Participant → List (Outgoing Payload)} {me header}
    (hsame : ∀ sender, participants.contains sender = true →
      addressed (first sender) me header = addressed (second sender) me header) :
    arrivals participants first me header = arrivals participants second me header := by
  unfold arrivals
  refine List.flatMap_congr fun sender hsender ↦ ?_
  rw [hsame sender (mem_others.mp hsender).1]

/-- The inboxes of a run hold the expected messages. -/
theorem HonestRun.perm_arrivals (hrun : HonestRun participants party inboxes)
    (hkeeps : Keeps participants party rank messages) {me} (hme : participants.contains me = true)
    (header : MessageHeader) :
    (inboxes me header).Perm (arrivals participants messages me header) := by
  -- By induction on the rank: the senders have received what they need by then.
  induction hrank : rank header using Nat.strong_induction_on generalizing me header with
  | _ _ ih =>
    have hsame : ∀ sender, participants.contains sender = true →
        addressed (party sender (inboxes sender)).1 me header =
          addressed (messages sender) me header := by
      intro sender hsender
      refine hkeeps sender hsender (inboxes sender) header (fun earlier hearlier ↦ ?_) me
      exact ih (rank earlier) (hrank ▸ hearlier) hsender earlier rfl
    rw [← arrivals_congr hsame]
    exact hrun me hme header

/-- There is a run. -/
theorem Keeps.honestRun (hkeeps : Keeps participants party rank messages) :
    HonestRun participants party (arrivals participants messages) := by
  intro me _ header
  have hsame : ∀ sender, participants.contains sender = true →
      addressed (party sender (arrivals participants messages sender)).1 me header =
        addressed (messages sender) me header := by
    intro sender hsender
    exact hkeeps sender hsender _ header (fun earlier _ ↦ List.Perm.refl _) me
  rw [arrivals_congr hsame]

/-- It is enough to follow a participant that has received the expected messages. -/
theorem Keeps.allReturn (hkeeps : Keeps participants party rank messages)
    {output : Participant → Value}
    (houtput : ∀ me, participants.contains me = true → ∀ inbox : Inbox Payload,
      (∀ header, (inbox header).Perm (arrivals participants messages me header)) →
        (party me inbox).2 = .ok (some (output me))) :
    AllReturn participants party output := by
  refine ⟨⟨_, hkeeps.honestRun⟩, fun inboxes hrun me hme ↦ ?_⟩
  exact houtput me hme (inboxes me) (hrun.perm_arrivals hkeeps hme)

end Runs

/-! ### Sending -/

theorem reaches_send (recipient : Recipient) (header : MessageHeader) (payload : Payload)
    (inbox : Inbox Payload) :
    (send recipient header (some payload)).Reaches inbox [{ recipient, header, payload }]
      (pure ()) := rfl

variable {allowed : Outgoing Payload → Prop}

theorem emits_send {recipient header} (hallowed : ∀ payload, allowed { recipient, header, payload })
    (encoded : Option Payload) : (send recipient header encoded).Emits allowed :=
  (Session.Emits.lift _).bind fun payload ↦ Session.Emits.emit (hallowed payload)

theorem emits_recvFromOthers (decode : Payload → Option Value) (waitpoint : ℕ)
    (participants : ParticipantList) (me : Participant) :
    (recvFromOthers decode waitpoint participants me).Emits allowed :=
  .read _

/-! ### Gathering one message of each -/

section Gathering

variable {participants : ParticipantList} {me : Participant} {decode : Payload → Option Value}
  {value : Participant → Value}

/-- A queue with one message of each participant that has not been seen is gathered as it is. -/
theorem gather_of_fresh {queue seen messages} (hnodup : (queue.map Prod.fst).Nodup)
    (hfresh : ∀ entry ∈ queue, participants.contains entry.1 = true ∧ entry.1 ∉ seen)
    (hcover : ∀ participant ∈ participants.participants,
      participant ∈ seen ∨ participant ∈ queue.map Prod.fst)
    (hdecode : ∀ entry ∈ queue, decode entry.2 = some (value entry.1)) :
    gather decode participants seen messages queue =
      .ok (some (messages ++ queue.map fun entry ↦ (entry.1, value entry.1))) := by
  induction queue generalizing seen messages with
  | nil =>
    unfold gather
    rw [if_pos, List.map_nil, List.append_nil]
    simpa using hcover
  | cons first _ ih =>
    rw [List.forall_mem_cons] at hfresh hdecode
    rw [List.map_cons, List.nodup_cons] at hnodup
    have hunseen : ¬ participants.participants.all (· ∈ seen) = true := by
      intro hall
      have hmem : first.1 ∈ participants.participants := List.contains_iff_mem.mp hfresh.1.1
      exact hfresh.1.2 (by simpa using List.all_eq_true.mp hall first.1 hmem)
    unfold gather
    rw [if_neg hunseen]
    simp only [hdecode.1, okOr, ok_bind, if_pos hfresh.1]
    rw [ih hnodup.2 ?_ ?_ hdecode.2]
    · simp
    · intro entry hentry
      refine ⟨(hfresh.2 entry hentry).1, fun hseen ↦ ?_⟩
      rcases List.mem_cons.mp hseen with hsame | hseen
      · exact hnodup.1 (hsame ▸ List.mem_map_of_mem hentry)
      · exact (hfresh.2 entry hentry).2 hseen
    · intro participant hparticipant
      rcases hcover participant hparticipant with hseen | hqueue
      · exact .inl (List.mem_cons_of_mem _ hseen)
      · rw [List.map_cons, List.mem_cons] at hqueue
        rcases hqueue with hfirst | hrest
        · exact .inl (hfirst ▸ List.mem_cons_self)
        · exact .inr hrest

theorem ParticipantList.nodup_others (participants : ParticipantList) (me : Participant) :
    (participants.others me).Nodup := participants.nodup.filter _

/-- With one message of each of the others in the queue, all of them are gathered. -/
theorem reaches_recvFromOthers (decode : Payload → Option Value) (value : Participant → Value)
    {waitpoint} {payload : Participant → Payload} {inbox}
    (hinbox : (inbox (SharedChannel.header waitpoint)).Perm
      ((participants.others me).map fun sender ↦ (sender, payload sender)))
    (hdecode : ∀ sender ∈ participants.others me, decode (payload sender) = some (value sender)) :
    ∃ gathered : List (Participant × Value),
      gathered.Perm ((participants.others me).map fun sender ↦ (sender, value sender)) ∧
      (recvFromOthers decode waitpoint participants me).Reaches inbox [] (pure gathered) := by
  have hsenders : ((inbox (SharedChannel.header waitpoint)).map Prod.fst).Perm
      (participants.others me) := by
    have hmap := hinbox.map Prod.fst
    rwa [List.map_map, show Prod.fst ∘ (fun sender ↦ (sender, payload sender)) = id from rfl,
      List.map_id] at hmap
  have hentry : ∀ entry ∈ inbox (SharedChannel.header waitpoint),
      entry.1 ∈ participants.others me ∧ entry.2 = payload entry.1 := by
    intro _ hentry
    obtain ⟨_, hsender, rfl⟩ := List.mem_map.mp (hinbox.mem_iff.mp hentry)
    exact ⟨hsender, rfl⟩
  have hgather := @gather_of_fresh Payload Value participants decode value _ [me] []
    (hsenders.nodup_iff.mpr (participants.nodup_others me))
    (fun entry hmem ↦ by
      have hother := mem_others.mp (hentry entry hmem).1
      exact ⟨hother.1, by simpa using hother.2⟩)
    (fun participant hparticipant ↦ by
      by_cases hme : participant = me
      · exact Or.inl (by simp [hme])
      · refine .inr (hsenders.mem_iff.mpr (mem_others.mpr ⟨?_, hme⟩))
        exact List.contains_iff_mem.mpr hparticipant)
    (fun entry hmem ↦ by
      rw [(hentry entry hmem).2]
      exact hdecode entry.1 (hentry entry hmem).1)
  refine ⟨_, ?_, .read hgather⟩
  have hmap := hinbox.map fun entry ↦ (entry.1, value entry.1)
  rw [List.map_map] at hmap
  exact hmap

theorem foldl_add_eq {Entry Sum : Type} [AddCommMonoid Sum] (term : Entry → Sum) (start : Sum)
    (entries : List Entry) :
    entries.foldl (fun sum entry ↦ sum + term entry) start = start + (entries.map term).sum := by
  induction entries generalizing start with
  | nil => simp
  | cons _ _ ih => rw [List.foldl_cons, ih, List.map_cons, List.sum_cons, add_assoc]

variable {gathered : List (Participant × Value)}

/-- What has been gathered from the others and one's own value, summed up. -/
theorem add_sum_gathered {Sum : Type} [AddCommMonoid Sum]
    (hgathered : gathered.Perm ((participants.others me).map fun sender ↦ (sender, value sender)))
    (hme : participants.contains me = true) (term : Value → Sum) :
    term (value me) + (gathered.map fun entry ↦ term entry.2).sum =
      ∑ participant ∈ participants.members, term (value participant) := by
  have hothers : (participants.others me).toFinset = participants.members.erase me := by
    ext participant
    rw [List.mem_toFinset, mem_others, Finset.mem_erase,
      mem_members, and_comm]
  have hsum : (gathered.map fun entry ↦ term entry.2).sum =
      ∑ participant ∈ participants.members.erase me, term (value participant) := by
    rw [(hgathered.map _).sum_eq, List.map_map, ← hothers,
      List.sum_toFinset _ (participants.nodup_others me)]
    rfl
  rw [hsum]
  exact Finset.add_sum_erase _ (fun participant ↦ term (value participant))
    (mem_members.mpr hme)

/-- A shared value that is opened: everybody sends its weighted share, and the sum is the secret. -/
theorem foldl_gathered {F : Type} [Field F] (hlarge : LargeField F) {threshold}
    (hthreshold : threshold ≤ participants.len) (hme : participants.contains me = true)
    (sharing : Sharing F threshold)
    (hgathered : gathered.Perm ((participants.others me).map fun sender ↦ (sender, value sender)))
    (term : Value → F)
    (hterm : ∀ sender,
      term (value sender) = participants.weight sender * sharing.share sender.scalar) :
    gathered.foldl (fun sum message ↦ sum + term message.2)
      (participants.weight me * sharing.share me.scalar) = sharing.secret := by
  rw [foldl_add_eq, ← hterm, add_sum_gathered hgathered hme]
  simp only [hterm]
  exact sum_weight_mul_share hlarge sharing hthreshold

end Gathering

/-! ### Protocols of one round -/

section OneRound

variable {Output : Type} {participants : ParticipantList} {coordinator : Participant}

open SharedChannel

/-- Everybody but the coordinator sends it a share; the coordinator computes its output from those
of all. -/
def oneRound (participants : ParticipantList) (coordinator me : Participant)
    (share : Outcome ProtocolError Value)
    (output : Value → List (Participant × Value) → Outcome ProtocolError Output) :
    Party Value (Option Output) :=
  if me = coordinator then do
    let own ← share
    let messages ← recvFromOthers some 0 participants me
    let result ← output own messages
    return some result
  else do
    let own ← share
    sendPrivate 0 coordinator (some own)
    return none

/-- The coordinator returns what it computes from the shares of all, in whichever order they
arrive. -/
theorem allReturn_oneRound (hcoordinator : participants.contains coordinator = true)
    {share : Participant → Outcome ProtocolError Value} {value : Participant → Value}
    (hshare : ∀ me, participants.contains me = true → share me = .ok (value me))
    {output : Participant → Value → List (Participant × Value) → Outcome ProtocolError Output}
    {result}
    (houtput : ∀ gathered : List (Participant × Value), gathered.Perm
      ((participants.others coordinator).map fun sender ↦ (sender, value sender)) →
      output coordinator (value coordinator) gathered = .ok result) :
    AllReturn participants
      (fun me ↦ oneRound participants coordinator me (share me) (output me))
      (fun me ↦ if me = coordinator then some result else none) := by
  let messages (sender : Participant) : List (Outgoing Value) :=
    if sender = coordinator then []
    else [{ recipient := .participant coordinator, header := header 0, payload := value sender }]
  have hsends {me : Participant} (hme : participants.contains me = true) (hother : me ≠ coordinator)
      (inbox : Inbox Value) :
      (oneRound participants coordinator me (share me) (output me)).Reaches inbox (messages me)
        (pure none) := by
    rw [oneRound, if_neg hother, show messages me = [_] from if_neg hother]
    exact (Session.Reaches.lift (hshare me hme)).next (reaches_send _ _ _ inbox).bind
  have hkeeps : Keeps participants
      (fun me ↦ oneRound participants coordinator me (share me) (output me))
      MessageHeader.waitpoint messages := by
    refine keeps_of_progress fun me hme inbox step _ ↦ ?_
    by_cases hother : me = coordinator
    · -- the coordinator sends nothing
      refine ⟨[], [], _, .refl _ _, if_pos hother, ?_, by simp⟩
      rw [oneRound, if_pos hother]
      refine (Session.Emits.lift _).bind fun _ ↦ (emits_recvFromOthers _ _ _ _).bind fun _ ↦ ?_
      exact (Session.Emits.lift _).bind fun _ ↦ Session.Emits.pure _
    · exact ⟨_, [], _, hsends hme hother inbox, (List.append_nil _).symm, Session.Emits.pure _,
        by simp⟩
  refine hkeeps.allReturn fun me hme inbox hinbox ↦ ?_
  by_cases hother : me = coordinator
  · subst hother
    have hsent : ∀ sender ∈ participants.others me,
        addressed (messages sender) me (header 0) = [value sender] := by
      intro sender hsender
      rw [show messages sender = [_] from if_neg (mem_others.mp hsender).2]
      simp [addressed, Recipient.reaches]
    have hqueue := hinbox (header 0)
    rw [arrivals_of_one hsent] at hqueue
    obtain ⟨gathered, hgathered, hrecv⟩ :=
      reaches_recvFromOthers some value hqueue fun sender _ ↦ rfl
    have hreaches : (oneRound participants me me (share me) (output me)).Reaches inbox []
        (pure (some result)) := by
      rw [oneRound, if_pos rfl]
      exact (Session.Reaches.lift (hshare me hme)).next
        (hrecv.next (Session.Reaches.lift (houtput gathered hgathered)).bind)
    rw [if_pos rfl]
    exact hreaches.returned
  · rw [if_neg hother]
    exact (hsends hme hother inbox).returned

end OneRound

end NearMpc.Threshold
