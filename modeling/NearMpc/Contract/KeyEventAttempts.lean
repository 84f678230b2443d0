import NearMpc.Contract.ParticipantIds

/-!
# Attempts of a key event

A key event is worked on in attempts. The leader starts one under the next attempt id; every
participant votes for the public key it has computed; a vote for another key, a vote to abort or the
expiry of the attempt ends it, and the leader may start the next.

Runs here are arbitrary sequences of the three calls, each signed by any account at any block
height. A failed call leaves the event as it was: the contract discards the state of a failed
transaction, and the removal of an expired attempt that such a call makes first changes nothing that
later calls can see.

`EventChange` says what a successful call does. From it follow the invariant that a public key is
stored exactly when somebody has voted (`KeyStoredIffVoted`), and the history of the votes that are
counted: each was cast by its participant, in the attempt that is still in progress, for the key
that is stored (`VotedInAttempt`). The event reports success when as many participants have voted as
it has, and then all of them have.

Attempt ids are advanced by an unchecked addition; `AttemptIdsRemain` excludes the start that
exhausts them.
-/

set_option autoImplicit false

namespace NearMpc.Contract

open Library Library.Outcome AttemptId
open MpcContract.TwoNodes (envOf firstDomain)

/-! ### Calls of a key event -/

inductive EventMethod where
  | start (keyEventId : KeyEventId) (timeoutBlocks : ℕ)
  | voteSuccess (keyEventId : KeyEventId) (publicKey : PublicKeyExtended)
  | voteAbort (keyEventId : KeyEventId)
deriving DecidableEq

/-- A call of a key event with the environment it meets. -/
structure EventCall where
  env : Env
  method : EventMethod
deriving DecidableEq

namespace KeyEvent

variable (self : KeyEvent) (call : EventCall)

/-- The event after a call, and whether the call reports success. -/
def perform : Outcome Error (KeyEvent × Bool) :=
  match call.method with
  | .start keyEventId timeoutBlocks => do
      return (← self.start call.env keyEventId timeoutBlocks, false)
  | .voteSuccess keyEventId publicKey => self.voteSuccess call.env keyEventId publicKey
  | .voteAbort keyEventId => do return (← self.voteAbort call.env keyEventId, false)

/-- One call: a failed one changes nothing. -/
def apply : KeyEvent :=
  match self.perform call with
  | .ok (after, _) => after
  | _ => self

/-- The attempt id that a call starts, if it starts one. -/
def startedBy (event : KeyEvent) (call : EventCall) : List AttemptId :=
  match call.method, event.perform call with
  | .start keyEventId _, .ok _ => [keyEventId.attemptId]
  | _, _ => []

/-- The attempt ids that a run starts, oldest first. -/
def startedAttempts : KeyEvent → List EventCall → List AttemptId
  | _, [] => []
  | event, call :: rest => event.startedBy call ++ startedAttempts (event.apply call) rest

/-- The id of the attempt in progress, unless it has expired. -/
def currentKeyEventId (self : KeyEvent) (env : Env) : Option KeyEventId :=
  match self.currentInstance with
  | none => none
  | some current =>
      if current.expiresOn ≤ env.blockHeight then none
      else some { epochId := self.epochId, domainId := self.domain.id,
                  attemptId := current.attemptId }

/-- What a successful call does to the event, and what it reports. -/
inductive EventChange (call : EventCall) (before : KeyEvent) : KeyEvent → Bool → Prop where
  | started (timeoutBlocks : ℕ)
      (hmethod : call.method = .start before.expectedKeyEventId timeoutBlocks) :
      EventChange call before { before with
        currentInstance := some (.new call.env before.nextAttemptId timeoutBlocks)
        nextAttemptId := next before.nextAttemptId } false
  | voted (keyEventId : KeyEventId) (publicKey : PublicKeyExtended) (candidate : ParticipantId)
      (current : KeyEventInstance) (hmethod : call.method = .voteSuccess keyEventId publicKey)
      (hcandidate :
        authenticatedParticipantId call.env before.parameters.participants = .ok candidate)
      (hcurrent : before.currentInstance = some current)
      (hnamed : before.currentKeyEventId call.env = some keyEventId)
      (hkey : ∀ existing ∈ current.publicKey, existing = publicKey)
      (hfirst : candidate ∉ current.completed) :
      EventChange call before { before with
        currentInstance := some { current with
          completed := insert candidate current.completed
          publicKey := some publicKey } }
        (decide ((insert candidate current.completed).card = before.parameters.participants.len))
  | disagreed (keyEventId : KeyEventId) (publicKey : PublicKeyExtended)
      (hmethod : call.method = .voteSuccess keyEventId publicKey) :
      EventChange call before { before with currentInstance := none } false
  | aborted (keyEventId : KeyEventId) (hmethod : call.method = .voteAbort keyEventId) :
      EventChange call before { before with currentInstance := none } false

/-! ### Inversion of the calls -/

variable {self : KeyEvent} {keyEventId : KeyEventId}

/-- A vote is about the attempt in progress, which has not expired. -/
theorem verifyVote_cases {verified env candidate}
    (hok : self.verifyVote env keyEventId = .ok (verified, candidate)) :
    verified = self ∧ authenticatedParticipantId env self.parameters.participants = .ok candidate ∧
      self.currentKeyEventId env = some keyEventId := by
  simp only [verifyVote, bind_eq_ok, okOr_eq_ok, require_eq_ok, exists_const, pure_eq,
    ok.injEq, Prod.mk.injEq] at hok
  obtain ⟨_, hcandidate, current, hcurrent, ⟨hepoch, hdomain, hattempt⟩, rfl, rfl⟩ := hok
  simp only [cleanupIfTimedOut, Option.filter_eq_some_iff] at hcurrent
  obtain ⟨hinstance, hactive⟩ := hcurrent
  have hkept : (self.currentInstance.filter fun current ↦ current.active env) =
      self.currentInstance := by
    rw [hinstance, Option.filter_some, if_pos hactive]
  have hclean : self.cleanupIfTimedOut env = self := by
    rw [cleanupIfTimedOut, hkept]
  have hheight : ¬ current.expiresOn ≤ env.blockHeight := Nat.not_le.mpr (of_decide_eq_true hactive)
  rw [hclean] at hepoch hdomain
  refine ⟨hclean, hcandidate, ?_⟩
  rw [currentKeyEventId, hinstance]
  show (if current.expiresOn ≤ env.blockHeight then none else _) = _
  rw [if_neg hheight, ← hepoch, ← hdomain, ← hattempt]

variable {after : KeyEvent} {call : EventCall}

theorem eventChange_start {timeoutBlocks} (hmethod : call.method = .start keyEventId timeoutBlocks)
    (hok : self.start call.env keyEventId timeoutBlocks = .ok after) :
    EventChange call self after false := by
  simp only [start, bind_eq_ok, require_eq_ok, exists_const, pure_eq, ok.injEq] at hok
  obtain ⟨-, hid, -, -, rfl⟩ := hok
  rw [hid] at hmethod
  exact .started timeoutBlocks hmethod

variable {publicKey : PublicKeyExtended}

theorem eventChange_voteSuccess {reported}
    (hmethod : call.method = .voteSuccess keyEventId publicKey)
    (hok : self.voteSuccess call.env keyEventId publicKey = .ok (after, reported)) :
    EventChange call self after reported := by
  simp only [voteSuccess, bind_eq_ok, Prod.exists, unwrap_eq_ok] at hok
  obtain ⟨_, candidate, hverify, current, hcurrent, next, result, hvote, hresult⟩ := hok
  obtain ⟨rfl, hcandidate, hnamed⟩ := verifyVote_cases hverify
  -- the tail that a first and an agreeing vote share
  have hcommit : ∀ opened : KeyEventInstance, opened.completed = current.completed →
      KeyEventInstance.voteSuccess.commit candidate opened = .ok (next, result) →
      candidate ∉ current.completed ∧
        next = { opened with completed := insert candidate current.completed } ∧
        result = .voted (insert candidate current.completed).card := by
    intro _ hcompleted hcommitted
    simp only [KeyEventInstance.voteSuccess.commit, bind_eq_ok, require_eq_ok, exists_const,
      pure_eq, ok.injEq, Prod.mk.injEq, hcompleted] at hcommitted
    exact ⟨hcommitted.1, hcommitted.2.1.symm, hcommitted.2.2.symm⟩
  unfold KeyEventInstance.voteSuccess at hvote
  cases hkey : current.publicKey with
  | none =>
    simp only [hkey] at hvote
    obtain ⟨hfirst, rfl, rfl⟩ := hcommit { current with publicKey := some publicKey } rfl hvote
    simp only [pure_eq, ok.injEq, Prod.mk.injEq] at hresult
    obtain ⟨rfl, rfl⟩ := hresult
    exact .voted keyEventId publicKey candidate current hmethod hcandidate hcurrent hnamed
      (by simp [hkey]) hfirst
  | some existing =>
    simp only [hkey] at hvote
    by_cases hagree : existing = publicKey
    · rw [if_neg (not_not_intro hagree)] at hvote
      obtain ⟨hfirst, rfl, rfl⟩ := hcommit current rfl hvote
      simp only [pure_eq, ok.injEq, Prod.mk.injEq] at hresult
      obtain ⟨rfl, rfl⟩ := hresult
      have hchange := EventChange.voted keyEventId publicKey candidate current hmethod hcandidate
        hcurrent hnamed (by simp [hkey, hagree]) hfirst
      rw [← hagree, ← hkey] at hchange
      exact hchange
    · rw [if_pos hagree] at hvote
      cases hvote
      simp only [pure_eq, ok.injEq, Prod.mk.injEq] at hresult
      obtain ⟨rfl, rfl⟩ := hresult
      exact .disagreed keyEventId publicKey hmethod

theorem eventChange_voteAbort (hmethod : call.method = .voteAbort keyEventId)
    (hok : self.voteAbort call.env keyEventId = .ok after) : EventChange call self after false := by
  rw [voteAbort_eq_ok hok]
  exact .aborted keyEventId hmethod

theorem eventChange_perform {reported} (hok : self.perform call = .ok (after, reported)) :
    EventChange call self after reported := by
  unfold perform at hok
  cases hmethod : call.method with
  | start =>
    simp only [hmethod, bind_eq_ok, pure_eq, ok.injEq, Prod.mk.injEq] at hok
    obtain ⟨_, hstart, rfl, rfl⟩ := hok
    exact eventChange_start hmethod hstart
  | voteSuccess =>
    rw [hmethod] at hok
    exact eventChange_voteSuccess hmethod hok
  | voteAbort =>
    simp only [hmethod, bind_eq_ok, pure_eq, ok.injEq, Prod.mk.injEq] at hok
    obtain ⟨_, habort, rfl, rfl⟩ := hok
    exact eventChange_voteAbort hmethod habort

/-- A call changes nothing or succeeds. -/
theorem apply_cases (self : KeyEvent) (call : EventCall) :
    self.apply call = self ∨ ∃ reported, EventChange call self (self.apply call) reported := by
  unfold apply
  cases hperform : self.perform call with
  | ok result => exact .inr ⟨result.2, eventChange_perform hperform⟩
  | err => exact .inl rfl
  | panicked => exact .inl rfl

/-! ### The stored public key -/

/-- A public key is stored exactly when somebody has voted in the attempt in progress. -/
def KeyStoredIffVoted (event : KeyEvent) : Prop :=
  ∀ current ∈ event.currentInstance, current.publicKey = none ↔ current.completed = ∅

variable {event : KeyEvent}

theorem KeyStoredIffVoted.apply (hstored : event.KeyStoredIffVoted) (call : EventCall) :
    (event.apply call).KeyStoredIffVoted := by
  rcases event.apply_cases call with hsame | ⟨reported, hchange⟩
  · rw [hsame]
    exact hstored
  · generalize event.apply call = after at hchange
    intro _ hcurrent
    cases hchange with
    | started =>
      cases hcurrent
      exact iff_of_true rfl rfl
    | voted =>
      cases hcurrent
      exact iff_of_false (Option.some_ne_none _) (Finset.insert_ne_empty _ _)
    | disagreed => cases hcurrent
    | aborted => cases hcurrent

/-! ### Attempt ids -/

/-- A start does not use up the last attempt id. -/
def AttemptIdsRemain (event : KeyEvent) (call : EventCall) : Prop :=
  ∀ keyEventId timeoutBlocks, call.method = .start keyEventId timeoutBlocks →
    event.nextAttemptId + 1 < counterLimit

/-- A call starts the next attempt and takes its id, or starts none and leaves the counter alone. -/
theorem startedBy_cases (event : KeyEvent) (call : EventCall) :
    (∃ keyEventId timeoutBlocks, call.method = .start keyEventId timeoutBlocks ∧
      event.startedBy call = [event.nextAttemptId] ∧
      (event.apply call).nextAttemptId = next event.nextAttemptId) ∨
    event.startedBy call = [] ∧ (event.apply call).nextAttemptId = event.nextAttemptId := by
  cases hperform : event.perform call with
  | ok result =>
    obtain ⟨after, _⟩ := result
    have hafter : event.apply call = after := by rw [apply, hperform]
    have hchange := eventChange_perform hperform
    rw [hafter, startedBy, hperform]
    cases hchange with
    | started timeoutBlocks hmethod =>
      rw [hmethod]
      exact .inl ⟨event.expectedKeyEventId, timeoutBlocks, rfl, rfl, rfl⟩
    | voted _ _ _ _ hmethod =>
      rw [hmethod]
      exact .inr ⟨rfl, rfl⟩
    | disagreed _ _ hmethod =>
      rw [hmethod]
      exact .inr ⟨rfl, rfl⟩
    | aborted _ hmethod =>
      rw [hmethod]
      exact .inr ⟨rfl, rfl⟩
  | err | panicked => exact Or.inr (by simp [startedBy, apply, hperform])

/-- The started ids increase from the counter on. -/
theorem startedAttempts_increasing {calls} (hmeet : StepsMeet apply AttemptIdsRemain event calls) :
    (∀ attemptId ∈ startedAttempts event calls, event.nextAttemptId ≤ attemptId) ∧
      (startedAttempts event calls).Pairwise fun earlier later ↦ earlier < later := by
  induction calls generalizing event with
  | nil => exact ⟨fun _ hmem ↦ absurd hmem List.not_mem_nil, List.Pairwise.nil⟩
  | cons call _ ih =>
    obtain ⟨hremain, hrest⟩ := hmeet
    obtain ⟨hfrom, hincreasing⟩ := ih hrest
    rw [startedAttempts]
    rcases event.startedBy_cases call with
      ⟨keyEventId, timeoutBlocks, hmethod, hstarted, hnext⟩ | ⟨hstarted, hnext⟩
    · have hsucc : next event.nextAttemptId = event.nextAttemptId + 1 :=
        Nat.mod_eq_of_lt (hremain keyEventId timeoutBlocks hmethod)
      rw [hnext, hsucc] at hfrom
      rw [hstarted, List.singleton_append]
      refine ⟨?_, List.Pairwise.cons (fun later hlater ↦ hfrom later hlater) hincreasing⟩
      intro attemptId hmem
      rcases List.mem_cons.mp hmem with rfl | hlater
      · exact le_refl _
      · exact (Nat.le_succ _).trans (hfrom attemptId hlater)
    · rw [hnext] at hfrom
      rw [hstarted, List.nil_append]
      exact ⟨hfrom, hincreasing⟩

/-! ### Votes that do not count -/

/-- A vote that does not name the attempt in progress, or comes after its expiry, changes nothing.
-/
theorem apply_of_stale (hvote : call.method = .voteAbort keyEventId ∨
      ∃ publicKey, call.method = .voteSuccess keyEventId publicKey)
    (hstale : event.currentKeyEventId call.env ≠ some keyEventId) : event.apply call = event := by
  have hverify : ∀ result, event.verifyVote call.env keyEventId ≠ .ok result :=
    fun result hok ↦ hstale (verifyVote_cases hok).2.2
  have hperform : ∀ result, event.perform call ≠ .ok result := by
    intro _ hok
    rcases hvote with hmethod | ⟨publicKey, hmethod⟩
    · simp only [perform, hmethod, voteAbort, bind_eq_ok] at hok
      obtain ⟨_, ⟨verified, hverified, -⟩, -⟩ := hok
      exact hverify verified hverified
    · simp only [perform, hmethod, voteSuccess, bind_eq_ok] at hok
      obtain ⟨verified, hverified, -⟩ := hok
      exact hverify verified hverified
  unfold apply
  cases hresult : event.perform call with
  | ok result => exact absurd hresult (hperform result)
  | err => rfl
  | panicked => rfl

/-! ### The history of a counted vote -/

/-- The attempt in progress is `keyEventId`; it has counted a vote of the participant and stores no
other key. -/
structure Counts (event : KeyEvent) (participant : ParticipantId) (keyEventId : KeyEventId)
    (publicKey : PublicKeyExtended) (current : KeyEventInstance) : Prop where
  inProgress : event.currentInstance = some current
  named : keyEventId = ⟨event.epochId, event.domain.id, current.attemptId⟩
  completed : participant ∈ current.completed
  key : ∀ existing ∈ current.publicKey, existing = publicKey

/-- The same attempt of the same event is in progress in both states. -/
structure SameAttempt (before after : KeyEvent) : Prop where
  epochId : after.epochId = before.epochId
  domain : after.domain = before.domain
  parameters : after.parameters = before.parameters
  attempt : ∃ first last, before.currentInstance = some first ∧ after.currentInstance = some last ∧
    last.attemptId = first.attemptId ∧ last.startedIn = first.startedIn ∧
    last.expiresOn = first.expiresOn

theorem SameAttempt.trans {first middle last} (hfirst : SameAttempt first middle)
    (hlast : SameAttempt middle last) : SameAttempt first last := by
  obtain ⟨start, between, hstart, hbetween, hattempt, hstarted, hexpires⟩ := hfirst.attempt
  obtain ⟨again, stop, hagain, hstop, hattempt', hstarted', hexpires'⟩ := hlast.attempt
  obtain rfl : between = again := Option.some_inj.mp (hbetween.symm.trans hagain)
  exact ⟨hlast.epochId.trans hfirst.epochId, hlast.domain.trans hfirst.domain,
    hlast.parameters.trans hfirst.parameters, start, stop, hstart, hstop,
    hattempt'.trans hattempt, hstarted'.trans hstarted, hexpires'.trans hexpires⟩

/-- The call votes for the key, in the attempt in progress and before its expiry. -/
structure CastsVote (event : KeyEvent) (call : EventCall) (keyEventId : KeyEventId)
    (publicKey : PublicKeyExtended) : Prop where
  method : call.method = .voteSuccess keyEventId publicKey
  named : event.currentKeyEventId call.env = some keyEventId

theorem eq_of_currentKeyEventId {env current} (hcurrent : event.currentInstance = some current)
    (hnamed : event.currentKeyEventId env = some keyEventId) :
    keyEventId = ⟨event.epochId, event.domain.id, current.attemptId⟩ := by
  simp only [currentKeyEventId, hcurrent] at hnamed
  split_ifs at hnamed
  exact (Option.some_inj.mp hnamed).symm

/-- A vote is counted because it was before, in the same attempt, or because the call casts it. -/
theorem counts_apply {participant}
    (hcounts : ∃ current, (event.apply call).Counts participant keyEventId publicKey current) :
    SameAttempt event (event.apply call) ∧
      ((∃ current, event.Counts participant keyEventId publicKey current) ∨
        authenticatedParticipantId call.env event.parameters.participants = .ok participant ∧
          event.CastsVote call keyEventId publicKey) := by
  obtain ⟨current, hcounts⟩ := hcounts
  rcases event.apply_cases call with hsame | ⟨reported, hchange⟩
  · rw [hsame] at hcounts ⊢
    exact ⟨⟨rfl, rfl, rfl, current, current, hcounts.inProgress, hcounts.inProgress, rfl, rfl, rfl⟩,
      .inl ⟨current, hcounts⟩⟩
  · generalize event.apply call = after at hchange hcounts
    have hcurrent := hcounts.inProgress
    have hvoted := hcounts.completed
    cases hchange with
    | started =>
      cases hcurrent
      exact absurd hvoted (Finset.notMem_empty participant)
    | voted votedId votedKey _ previous hmethod hcandidate hprev hnamed hkey =>
      cases hcurrent
      obtain rfl : votedKey = publicKey := hcounts.key votedKey rfl
      refine ⟨⟨rfl, rfl, rfl, previous, _, hprev, rfl, rfl, rfl, rfl⟩, ?_⟩
      rcases Finset.mem_insert.mp hvoted with rfl | hearlier
      · obtain rfl : votedId = keyEventId :=
          (eq_of_currentKeyEventId hprev hnamed).trans hcounts.named.symm
        exact .inr ⟨hcandidate, hmethod, hnamed⟩
      · exact .inl ⟨previous, hprev, hcounts.named, hearlier, hkey⟩
    | disagreed => cases hcurrent
    | aborted => cases hcurrent

variable (epochId : EpochId) (domain : DomainConfig) (parameters : ThresholdParameters)
  (calls : List EventCall)

/-- Every counted vote was cast by a call of the run, and its attempt has been in progress since. -/
theorem since_of_counts {participant current}
    (hcounts : (run apply (new epochId domain parameters) calls).Counts participant keyEventId
      publicKey current) :
    Since apply (fun event call ↦
        authenticatedParticipantId call.env event.parameters.participants = .ok participant ∧
          event.CastsVote call keyEventId publicKey)
      SameAttempt (new epochId domain parameters) calls := by
  have hnew : ¬ ∃ current, (new epochId domain parameters).Counts participant keyEventId publicKey
      current := by
    rintro ⟨_, hfirst⟩
    cases hfirst.inProgress
  have hsince := since_run
    (fun event : KeyEvent ↦ ∃ current, event.Counts participant keyEventId publicKey current)
    SameAttempt hnew (fun _ _ _ hfirst hlast ↦ SameAttempt.trans hfirst hlast)
    (fun _ _ hafter ↦ counts_apply hafter) calls ⟨current, hcounts⟩
  exact hsince.imp (fun _ _ horigin ↦ horigin) (fun _ _ hboth ↦ hboth.2)

/-! ### Success -/

theorem parameters_apply (event : KeyEvent) (call : EventCall) :
    (event.apply call).parameters = event.parameters := by
  rcases event.apply_cases call with hsame | ⟨reported, hchange⟩
  · rw [hsame]
  · generalize event.apply call = after at hchange
    cases hchange <;> rfl

theorem parameters_run (event : KeyEvent) (calls : List EventCall) :
    (run apply event calls).parameters = event.parameters :=
  run_related (fun before after : KeyEvent ↦ after.parameters = before.parameters) (fun _ ↦ rfl)
    (fun _ _ _ hfirst hlast ↦ hlast.trans hfirst) parameters_apply event calls

/-- A call that reports success is a vote in the attempt in progress, and every other participant
has voted for the same key in that attempt. -/
theorem all_voted_of_reported
    (hok : (run apply (new epochId domain parameters) calls).perform call = .ok (after, true)) :
    ∃ keyEventId publicKey,
      (run apply (new epochId domain parameters) calls).CastsVote call keyEventId publicKey ∧
        ∀ entry ∈ parameters.participants.participants,
          call.env.signerAccountId = entry.1 ∨
            Since apply (fun event vote ↦ vote.env.signerAccountId = entry.1 ∧
                event.CastsVote vote keyEventId publicKey)
              SameAttempt (new epochId domain parameters) calls := by
  have hparams : ∀ earlier, (run apply (new epochId domain parameters) earlier).parameters =
      parameters := fun earlier ↦ parameters_run _ earlier
  have hchange := eventChange_perform hok
  generalize hreported : true = reported at hchange
  cases hchange with
  | voted keyEventId publicKey candidate current hmethod hcandidate hcurrent hnamed hkey =>
    refine ⟨keyEventId, publicKey, ⟨hmethod, hnamed⟩, ?_⟩
    rw [hparams] at hcandidate hreported
    have hcard := of_decide_eq_true hreported.symm
    have hsince : ∀ voter ∈ current.completed, _ := fun voter hvoter ↦
      since_of_counts epochId domain parameters calls
        ⟨hcurrent, eq_of_currentKeyEventId hcurrent hnamed, hvoter, hkey⟩
    have hmaps : ∀ voter ∈ insert candidate current.completed,
        ∃ account, parameters.participants.Maps voter account := by
      intro voter hvoter
      rcases Finset.mem_insert.mp hvoter with rfl | hearlier
      · exact ⟨_, Participants.maps_of_authenticated hcandidate⟩
      · obtain ⟨_, _, -, -, ⟨hauthenticated, -⟩, -⟩ := hsince voter hearlier
        rw [hparams] at hauthenticated
        exact ⟨_, Participants.maps_of_authenticated hauthenticated⟩
    intro entry hentry
    obtain ⟨hvoted, hunique⟩ := Participants.all_voted_of_card hmaps hcard hentry
    rcases Finset.mem_insert.mp hvoted with hlast | hearlier
    · rw [← hlast] at hcandidate
      exact .inl (hunique _ (Participants.maps_of_authenticated hcandidate))
    · refine .inr ((hsince entry.2.1 hearlier).imp ?_ fun _ _ hsame ↦ hsame)
      rintro _ _ ⟨hauthenticated, hcasts⟩
      rw [hparams] at hauthenticated
      exact ⟨hunique _ (Participants.maps_of_authenticated hauthenticated), hcasts⟩
  | started | disagreed | aborted => cases hreported

/-! ### Runs of a key event -/

/-- In every run of a key event: while attempt ids remain, those started increase strictly; a vote
that names another epoch, domain or attempt, or comes after the expiry, changes nothing; a public
key is stored exactly when somebody has voted; and success is reported only to a vote in the attempt
in progress for a key that every other participant has voted for in that attempt. -/
theorem unanimous_in_one_attempt :
    (StepsMeet apply AttemptIdsRemain (new epochId domain parameters) calls →
        (startedAttempts (new epochId domain parameters) calls).Pairwise
          fun earlier later ↦ earlier < later) ∧
      (∀ call keyEventId,
        (call.method = .voteAbort keyEventId ∨
          ∃ publicKey, call.method = .voteSuccess keyEventId publicKey) →
        (run apply (new epochId domain parameters) calls).currentKeyEventId call.env ≠
          some keyEventId →
        (run apply (new epochId domain parameters) calls).apply call =
          run apply (new epochId domain parameters) calls) ∧
      (run apply (new epochId domain parameters) calls).KeyStoredIffVoted ∧
      ∀ call after,
        (run apply (new epochId domain parameters) calls).perform call = .ok (after, true) →
        ∃ keyEventId publicKey,
          (run apply (new epochId domain parameters) calls).CastsVote call keyEventId publicKey ∧
            ∀ entry ∈ parameters.participants.participants,
              call.env.signerAccountId = entry.1 ∨
                Since apply (fun event vote ↦ vote.env.signerAccountId = entry.1 ∧
                    event.CastsVote vote keyEventId publicKey)
                  SameAttempt (new epochId domain parameters) calls := by
  refine ⟨fun hmeet ↦ (startedAttempts_increasing hmeet).2, ?_, ?_, ?_⟩
  · intro call keyEventId hvote hstale
    exact apply_of_stale hvote hstale
  · have hnew : (new epochId domain parameters).KeyStoredIffVoted := by
      intro current hcurrent
      cases hcurrent
    exact run_invariant hnew (fun _ call hstored ↦ hstored.apply call) calls
  · intro call after hok
    exact all_voted_of_reported epochId domain parameters calls hok

namespace AliceAndBob

def members : ThresholdParameters := MpcContract.TwoNodes.parameters

/-- A call signed by the account at block 5. -/
def signedBy (account : AccountId) (method : EventMethod) : EventCall :=
  { env := envOf account, method }

variable (attemptId : AttemptId)

/-- Alice starts an attempt and aborts it. -/
def restart : List EventCall :=
  [signedBy "alice" (.start ⟨0, 0, attemptId⟩ 10), signedBy "alice" (.voteAbort ⟨0, 0, attemptId⟩)]

def restarts : ℕ → AttemptId → List EventCall
  | 0, _ => []
  | count + 1, attemptId => restart attemptId ++ restarts count (next attemptId)

/-- The key event between two attempts. -/
def idle : KeyEvent :=
  { new 0 firstDomain members with nextAttemptId := attemptId }

/-- Alice restarts once, then both vote for the same key. -/
def votes : List EventCall :=
  restart 0 ++ [signedBy "alice" (.start ⟨0, 0, 1⟩ 10),
    signedBy "alice" (.voteSuccess ⟨0, 0, 1⟩ (.secp256k1 "key"))]

end AliceAndBob

open AliceAndBob in
/-- Bob's vote completes the second attempt, in which alice has voted for the same key. -/
theorem unanimous_in_one_attempt_second :
    startedAttempts (new 0 firstDomain members) votes = [0, 1] ∧
      (startedAttempts (new 0 firstDomain members) votes).Pairwise
        (fun earlier later ↦ earlier < later) ∧
      Since apply (fun event vote ↦ vote.env.signerAccountId = "alice" ∧
          event.CastsVote vote ⟨0, 0, 1⟩ (.secp256k1 "key"))
        SameAttempt (new 0 firstDomain members) votes := by
  have hruns := unanimous_in_one_attempt 0 firstDomain members votes
  have hmeet : StepsMeet apply AttemptIdsRemain (new 0 firstDomain members) votes := by
    refine ⟨?_, ?_, ?_, ?_, trivial⟩ <;> intro _ _ _ <;> decide +kernel
  have hreported : ∃ after, (run apply (new 0 firstDomain members) votes).perform
      (signedBy "bob" (.voteSuccess ⟨0, 0, 1⟩ (.secp256k1 "key"))) = .ok (after, true) :=
    ⟨_, rfl⟩
  obtain ⟨after, hok⟩ := hreported
  obtain ⟨_, _, hcasts, hvoted⟩ := hruns.2.2.2 _ after hok
  obtain ⟨rfl, rfl⟩ := EventMethod.voteSuccess.inj hcasts.method
  refine ⟨by decide +kernel, hruns.1 hmeet, ?_⟩
  rcases hvoted ("alice", 0, { url := "a", signPk := "alice" }) List.mem_cons_self with
    hself | hsince
  · exact absurd hself (by decide)
  · exact hsince

namespace AliceAndBob

variable (attemptId : AttemptId)

theorem perform_start :
    (idle attemptId).perform (signedBy "alice" (.start ⟨0, 0, attemptId⟩ 10)) =
      .ok ({ idle (next attemptId) with
        currentInstance := some ⟨attemptId, 5, 16, ∅, none⟩ }, false) := by
  simp [perform, KeyEvent.start, cleanupIfTimedOut, idle, new, signedBy, expectedKeyEventId,
    envOf, firstDomain, verifyLeader, leader, members, MpcContract.TwoNodes.parameters,
    KeyEventInstance.new, counterLimit, require, unwrap, pure, bind, Outcome.andThen]

theorem perform_abort (attemptId nextAttemptId : AttemptId) :
    { idle nextAttemptId with currentInstance := some ⟨attemptId, 5, 16, ∅, none⟩ }.perform
        (signedBy "alice" (.voteAbort ⟨0, 0, attemptId⟩)) = .ok (idle nextAttemptId, false) := by
  simp [perform, voteAbort, verifyVote, authenticatedParticipantId, cleanupIfTimedOut, idle, new,
    signedBy, envOf, firstDomain, members, MpcContract.TwoNodes.parameters,
    KeyEventInstance.active, Option.filter, require, okOr, unwrap, pure, bind, Outcome.andThen]

/-- Starting and aborting an attempt only advances the attempt counter. -/
theorem startedAttempts_restart (rest : List EventCall) :
    startedAttempts (idle attemptId) (restart attemptId ++ rest) =
      attemptId :: startedAttempts (idle (next attemptId)) rest := by
  simp only [restart, List.cons_append, List.nil_append, startedAttempts, startedBy, apply,
    perform_start, perform_abort]
  rfl

variable (count : ℕ) (attemptId : AttemptId)

theorem startedAttempts_restarts :
    startedAttempts (idle attemptId) (restarts count attemptId) =
      List.iterate next attemptId count := by
  induction count generalizing attemptId with
  | zero => rfl
  | succ _ ih =>
    rw [restarts, startedAttempts_restart, ih]
    rfl

theorem iterate_next (count : ℕ) : next^[count] 0 = count % counterLimit := by
  induction count with
  | zero => rfl
  | succ _ ih => rw [Function.iterate_succ_apply', ih, next, Nat.mod_add_mod]

theorem blockHeight_restarts : ∀ call ∈ restarts count attemptId, call.env.blockHeight = 5 := by
  induction count generalizing attemptId with
  | zero => exact fun _ hcall ↦ absurd hcall List.not_mem_nil
  | succ _ ih =>
    intro call hcall
    rcases List.mem_append.mp hcall with hrestart | hlater
    · rcases List.mem_cons.mp hrestart with rfl | habort
      · rfl
      · rw [List.mem_singleton.mp habort]
        rfl
    · exact ih _ call hlater

/-- With more restarts than attempt ids, one id is started twice. -/
theorem not_increasing_restarts {count} (hcount : counterLimit < count) :
    ¬ (startedAttempts (idle 0) (restarts count 0)).Pairwise
      fun earlier later ↦ earlier < later := by
  rw [startedAttempts_restarts, List.pairwise_iff_getElem]
  intro hincreasing
  have hpositive : 0 < counterLimit := Nat.two_pow_pos 64
  have hlength : (List.iterate next 0 count).length = count := List.length_iterate _ _ _
  have hagain := hincreasing 0 counterLimit (by rw [hlength]; exact hpositive.trans hcount)
    (by rw [hlength]; exact hcount) hpositive
  rw [List.getElem_iterate, List.getElem_iterate, iterate_next, iterate_next, Nat.mod_self,
    Nat.zero_mod] at hagain
  exact lt_irrefl 0 hagain

end AliceAndBob

open AliceAndBob in
/-- After `2 ^ 64` aborted attempts the next one is started under the id of the first. -/
theorem attemptIds_start_again :
    (∀ call ∈ restarts (counterLimit + 1) 0, call.env.blockHeight = 5) ∧
      ¬ (startedAttempts (new 0 firstDomain members) (restarts (counterLimit + 1) 0)).Pairwise
        fun earlier later ↦ earlier < later :=
  ⟨blockHeight_restarts _ 0, not_increasing_restarts (Nat.lt_succ_self _)⟩

/-! ### Repeated votes -/

/-- The vote fails, or it reports no success and leaves the attempt as it is. -/
def IgnoresVote (self : KeyEvent) (env : Env) (keyEventId : KeyEventId)
    (publicKey : PublicKeyExtended) : Prop :=
  match self.voteSuccess env keyEventId publicKey with
  | .ok (after, reported) => reported = false ∧ after.currentInstance = self.currentInstance
  | .err _ => True
  | .panicked => False

section RepeatedVote

variable {env : Env} {current : KeyEventInstance} {candidate : ParticipantId}

section

variable (hcurrent : self.currentInstance = some current)
  (hcandidate : authenticatedParticipantId env self.parameters.participants = .ok candidate)
include hcurrent hcandidate

/-- A vote of a participant passes the checks exactly if it names the attempt in progress. -/
theorem verifyVote_of_authenticated :
    self.verifyVote env keyEventId =
      if self.currentKeyEventId env = some keyEventId then .ok (self, candidate)
      else if current.expiresOn ≤ env.blockHeight then .err .noActiveKeyEvent
      else .err .keyEventIdMismatch := by
  rw [verifyVote, hcandidate, ok_bind]
  by_cases hexpired : current.expiresOn ≤ env.blockHeight
  · have hinactive : current.active env = false := decide_eq_false (Nat.not_lt.mpr hexpired)
    simp [cleanupIfTimedOut, currentKeyEventId, hcurrent, hexpired, hinactive, okOr, bind, andThen,
      Option.filter_some]
  · have hactive : current.active env = true := decide_eq_true (Nat.not_le.mp hexpired)
    obtain ⟨_, _, _⟩ := keyEventId
    obtain ⟨_, _, _, _, _⟩ := self
    subst hcurrent
    simp [cleanupIfTimedOut, currentKeyEventId, hexpired, hactive, okOr, bind, andThen, require,
      Option.filter_some, eq_comm, pure]
    split_ifs <;> rfl

/-- A participant that has voted in an attempt can end it with a vote for another key, and can do
nothing else to it by voting. -/
theorem repeatedVote_ignored_iff (hvoted : candidate ∈ current.completed) (keyEventId : KeyEventId)
    (publicKey : PublicKeyExtended) :
    self.IgnoresVote env keyEventId publicKey ↔
      (self.currentKeyEventId env = some keyEventId →
        ∀ existing ∈ current.publicKey, existing = publicKey) := by
  have hcommit : ∀ opened : KeyEventInstance, opened.completed = current.completed →
      KeyEventInstance.voteSuccess.commit candidate opened = .err .voteAlreadySubmitted := by
    intro opened hcompleted
    rw [KeyEventInstance.voteSuccess.commit, hcompleted, require, if_neg (not_not_intro hvoted)]
    rfl
  rw [IgnoresVote, voteSuccess, verifyVote_of_authenticated hcurrent hcandidate]
  split_ifs with hnamed hexpired
  · rw [ok_bind]
    dsimp only
    rw [unwrap_eq_ok.mpr hcurrent, ok_bind, KeyEventInstance.voteSuccess]
    cases hkey : current.publicKey with
    | none => simp [hcommit]
    | some existing =>
      by_cases hagree : existing = publicKey
      · simp [hagree, hcommit, hnamed]
      · simp [hagree, hnamed, hcurrent]
  · simp [hnamed]
  · simp [hnamed]

end

end RepeatedVote

open AliceAndBob in
/-- Alice votes twice for the same key. -/
theorem repeatedVote_ignored_sameKey :
    (run apply (new 0 firstDomain members) votes).IgnoresVote (signedBy "alice" (.voteAbort
      ⟨0, 0, 1⟩)).env ⟨0, 0, 1⟩ (.secp256k1 "key") :=
  (repeatedVote_ignored_iff (by rfl) (by rfl) (by decide) _ _).mpr (by decide +kernel)

open AliceAndBob in
/-- Alice has voted, and ends the attempt with a vote for another key. -/
theorem repeatedVote_ends_attempt :
    (∃ current, (run apply (new 0 firstDomain members) votes).currentInstance = some current ∧
      0 ∈ current.completed) ∧
    authenticatedParticipantId (signedBy "alice" (.voteAbort ⟨0, 0, 1⟩)).env
      members.participants = .ok 0 ∧
    ((run apply (new 0 firstDomain members) votes).apply
      (signedBy "alice" (.voteSuccess ⟨0, 0, 1⟩ (.secp256k1 "other")))).currentInstance = none :=
  ⟨⟨_, rfl, by decide⟩, rfl, by decide +kernel⟩

end KeyEvent

end NearMpc.Contract
