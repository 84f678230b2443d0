import NearMpc.Threshold.Comms

/-!
# Messages of third participants on a private channel

All senders of a header share one queue, and a message is decoded before its sender is looked at.
What the calls on a private channel return should depend only on the messages of the peer.

A run is a sequence of arrivals and polls. A poll goes from call to call as long as they have an
answer; a call that has taken a message of a third participant yields, so each such message costs a
poll. `received` is what the calls have returned once they have been polled often enough
(`results_polled`), and the comparison of a run with the run on the messages of the peer alone is
made there: up to this delay the two agree, whatever the order of arrivals and polls, exactly when
every message of a third participant decodes.
-/

set_option autoImplicit false

namespace NearMpc.Threshold

open Library

namespace PrivateChannel

variable {Payload Value : Type}

/-! ### Polls -/

/-- The calls of `recv` on one header, each with the decoder of its type, that have not returned
yet, the messages that have not been taken, and what the earlier calls have returned. -/
structure Calls (Payload Value : Type) where
  waiting : List (Payload → Option Value)
  queue : List (Participant × Payload)
  results : List (Except ProtocolError Value)

inductive ChannelEvent (Payload : Type) where
  | arrive (message : Participant × Payload)
  | poll

/-- One poll. A call that returns is followed by the next one; a call that yields ends the poll. -/
def poll (peer : Participant) (results : List (Except ProtocolError Value)) :
    List (Payload → Option Value) → List (Participant × Payload) → Calls Payload Value
  | decode :: waiting, message :: queue =>
      match answer decode peer message with
      | some result => poll peer (results ++ [result]) waiting queue
      | none => { waiting := decode :: waiting, queue, results }
  | waiting, queue => { waiting, queue, results }
  termination_by structural _ queue => queue

def step (peer : Participant) (calls : Calls Payload Value) :
    ChannelEvent Payload → Calls Payload Value
  | .arrive message => { calls with queue := calls.queue ++ [message] }
  | .poll => poll peer calls.results calls.waiting calls.queue

/-- What the calls have returned after the events. -/
def results (peer : Participant) (waiting : List (Payload → Option Value))
    (events : List (ChannelEvent Payload)) : List (Except ProtocolError Value) :=
  (run (step peer) ⟨waiting, [], []⟩ events).results

/-- The message that arrives with an event. -/
def ChannelEvent.message? : ChannelEvent Payload → Option (Participant × Payload)
  | .arrive message => some message
  | .poll => none

/-- The messages that arrive, in order. -/
def arrivals (events : List (ChannelEvent Payload)) : List (Participant × Payload) :=
  events.filterMap ChannelEvent.message?

/-- The events without the messages of third participants. -/
def ofPeer (peer : Participant) (events : List (ChannelEvent Payload)) :
    List (ChannelEvent Payload) :=
  events.filter fun event ↦ event.message?.all (·.1 = peer)

/-! ### What the polls come to -/

/-- What the calls return on a queue when they are polled as often as it takes. -/
def received (peer : Participant) : List (Payload → Option Value) → List (Participant × Payload) →
    List (Except ProtocolError Value)
  | [], _ | _, [] => []
  | decode :: waiting, message :: queue =>
      match answer decode peer message with
      | some result => result :: received peer waiting queue
      | none => received peer (decode :: waiting) queue
  termination_by structural _ queue => queue

theorem received_of_nil (peer : Participant) (queue : List (Participant × Payload)) :
    received peer ([] : List (Payload → Option Value)) queue = [] := by
  cases queue <;> rfl

theorem received_nil (peer : Participant) (waiting : List (Payload → Option Value)) :
    received peer waiting [] = [] := by
  cases waiting <;> rfl

theorem received_cons (peer : Participant) (decode : Payload → Option Value)
    (waiting : List (Payload → Option Value)) (message : Participant × Payload)
    (queue : List (Participant × Payload)) :
    received peer (decode :: waiting) (message :: queue) =
      match answer decode peer message with
      | some result => result :: received peer waiting queue
      | none => received peer (decode :: waiting) queue := rfl

/-- One call comes to what `firstFrom` finds. -/
theorem received_singleton (peer : Participant) (decode : Payload → Option Value)
    (queue : List (Participant × Payload)) :
    received peer [decode] queue =
      match firstFrom decode peer queue with
      | .ok none => []
      | .ok (some value) => [.ok value]
      | .err failure => [.error failure]
      | .panicked => [] := by
  induction queue with
  | nil => rfl
  | cons message _ ih =>
    rw [received_cons, firstFrom]
    rcases answer decode peer message with - | failure | value
    · exact ih
    · rw [received_of_nil]
    · rw [received_of_nil]

/-- A poll returns the first of what there is to return. -/
theorem poll_received (peer : Participant) (before : List (Except ProtocolError Value))
    (waiting : List (Payload → Option Value)) (queue later : List (Participant × Payload)) :
    (poll peer before waiting queue).results ++
        received peer (poll peer before waiting queue).waiting
          ((poll peer before waiting queue).queue ++ later) =
      before ++ received peer waiting (queue ++ later) := by
  induction queue generalizing before waiting with
  | nil => cases waiting <;> rfl
  | cons message queue ih =>
    cases waiting with
    | nil => rfl
    | cons decode waiting =>
      rw [List.cons_append, received_cons]
      cases hanswer : answer decode peer message with
      | none => simp only [poll, hanswer]
      | some result =>
        simp only [poll, hanswer]
        rw [ih, List.append_assoc]
        rfl

variable {waiting : List (Payload → Option Value)} {queue : List (Participant × Payload)}

/-- A poll takes a message, unless no call is waiting or no message is left. -/
theorem poll_shorter (peer : Participant) (before : List (Except ProtocolError Value)) {count}
    (hcount : waiting = [] ∨ queue.length ≤ count + 1) :
    (poll peer before waiting queue).waiting = [] ∨
      (poll peer before waiting queue).queue.length ≤ count := by
  induction queue generalizing before waiting with
  | nil => cases waiting <;> simp [poll]
  | cons message queue ih =>
    cases waiting with
    | nil => exact .inl rfl
    | cons decode waiting =>
      have hqueue : queue.length ≤ count := by simpa using hcount
      cases hanswer : answer decode peer message with
      | none => simpa [poll, hanswer] using hqueue
      | some result =>
        simp only [poll, hanswer]
        exact ih _ (.inr (hqueue.trans (Nat.le_succ _)))

/-- What has been returned and what is left to return make up what the arrivals come to. -/
theorem run_received (peer : Participant) (calls : Calls Payload Value)
    (events : List (ChannelEvent Payload)) (later : List (Participant × Payload)) :
    (run (step peer) calls events).results ++ received peer (run (step peer) calls events).waiting
        ((run (step peer) calls events).queue ++ later) =
      calls.results ++ received peer calls.waiting (calls.queue ++ (arrivals events ++ later)) := by
  induction events generalizing calls with
  | nil => rfl
  | cons event events ih =>
    rw [run_cons, ih]
    cases event with
    | arrive => simp [step, arrivals, ChannelEvent.message?]
    | poll => exact poll_received peer _ _ _ _

/-- Polls as many as there are messages leave nothing to return. -/
theorem run_polls (peer : Participant) {count : ℕ} {calls : Calls Payload Value}
    (hcount : calls.waiting = [] ∨ calls.queue.length ≤ count) :
    received peer (run (step peer) calls (.replicate count .poll)).waiting
      (run (step peer) calls (.replicate count .poll)).queue = [] := by
  induction count generalizing calls with
  | zero =>
    rw [List.replicate_zero, run_nil]
    rcases hcount with hnone | hempty
    · rw [hnone, received_of_nil]
    · rw [List.eq_nil_of_length_eq_zero (Nat.le_zero.mp hempty), received_nil]
  | succ _ ih => exact ih (poll_shorter peer calls.results hcount)

/-- The queue holds no more messages than have arrived. -/
theorem run_queue_length (peer : Participant) {calls : Calls Payload Value} {count : ℕ}
    (hcount : calls.waiting = [] ∨ calls.queue.length ≤ count)
    (events : List (ChannelEvent Payload)) :
    (run (step peer) calls events).waiting = [] ∨
      (run (step peer) calls events).queue.length ≤ count + (arrivals events).length := by
  induction events generalizing calls count with
  | nil => exact hcount
  | cons event events ih =>
    cases event with
    | arrive message =>
      have harrivals : arrivals (.arrive message :: events) = message :: arrivals events := rfl
      rw [harrivals, List.length_cons, Nat.add_comm _ 1, ← Nat.add_assoc]
      exact ih (hcount.imp_right fun hle ↦ by simpa [step] using hle)
    | poll => exact ih (poll_shorter peer _ (hcount.imp_right Nat.le_succ_of_le))

/-- The results of a run that has been polled as often as messages arrived. -/
theorem results_polled (peer : Participant) (waiting : List (Payload → Option Value))
    (events : List (ChannelEvent Payload)) {polls : ℕ} (hpolls : (arrivals events).length ≤ polls) :
    results peer waiting (events ++ .replicate polls .poll) =
      received peer waiting (arrivals events) := by
  have hqueue := (run_queue_length peer (.inr (Nat.zero_le 0) :
    (⟨waiting, [], []⟩ : Calls Payload Value).waiting = [] ∨ _) events).imp_right
      fun hle ↦ hle.trans ((Nat.zero_add _).trans_le hpolls)
  have harrivals : arrivals (events ++ .replicate polls .poll) = arrivals events := by
    rw [arrivals, List.filterMap_append, List.filterMap_replicate_of_none rfl, List.append_nil,
      arrivals]
  have hreceived := run_received peer ⟨waiting, [], []⟩ (events ++ .replicate polls .poll) []
  rw [run_append, List.append_nil, run_polls peer hqueue, List.append_nil, ← run_append, harrivals,
    List.append_nil] at hreceived
  exact hreceived

/-! ### With and without third participants -/

theorem arrivals_ofPeer (peer : Participant) (events : List (ChannelEvent Payload)) :
    arrivals (ofPeer peer events) = (arrivals events).filter fun message ↦ message.1 = peer := by
  rw [arrivals, ofPeer, List.filterMap_filter, arrivals, List.filter_filterMap]
  congr 1
  funext event
  cases event <;> simp [ChannelEvent.message?, Option.filter]

theorem received_filter {peer}
    (hdecodes : ∀ message ∈ queue, message.1 ≠ peer → ∀ decode ∈ waiting, (decode message.2).isSome)
    :
    received peer waiting queue =
      received peer waiting (queue.filter fun message ↦ message.1 = peer) := by
  induction queue generalizing waiting with
  | nil => rfl
  | cons message _ ih =>
    rw [List.forall_mem_cons] at hdecodes
    cases waiting with
    | nil => rw [received_of_nil, received_of_nil]
    | cons decode waiting =>
      by_cases hpeer : message.1 = peer
      · obtain ⟨result, hresult⟩ : ∃ result, answer decode peer message = some result := by
          unfold answer
          cases decode message.2 <;> simp [hpeer]
        rw [List.filter_cons_of_pos (by simpa using hpeer), received_cons, received_cons, hresult]
        exact congrArg _ (ih fun other hother hstranger decode hdecode ↦
          hdecodes.2 other hother hstranger decode (List.mem_cons_of_mem _ hdecode))
      · have hyields : answer decode peer message = none := by
          obtain ⟨_, hvalue⟩ :=
            Option.isSome_iff_exists.mp (hdecodes.1 hpeer decode List.mem_cons_self)
          simp [answer, hvalue, hpeer]
        rw [List.filter_cons_of_neg (by simpa using hpeer), received_cons, hyields]
        exact ih hdecodes.2

/-- With calls of one type, every message of the peer and every message that does not decode is
answered. -/
theorem length_received (peer : Participant) (decode : Payload → Option Value) :
    ∀ (queue : List (Participant × Payload)) {count : ℕ}, queue.length ≤ count →
      (received peer (List.replicate count decode) queue).length =
        queue.countP fun message ↦ message.1 = peer ∨ decode message.2 = none
  | [], _, _ => by rw [received_nil]; rfl
  | message :: queue, count, hcount => by
    obtain ⟨_, rfl⟩ := Nat.exists_eq_succ_of_ne_zero (Nat.ne_of_gt (Nat.zero_lt_of_lt hcount))
    have hfewer := length_received peer decode queue (Nat.le_of_succ_le_succ hcount)
    have hsame := length_received peer decode queue (Nat.le_of_succ_le hcount)
    rw [List.replicate_succ] at hsame ⊢
    rw [received_cons, answer]
    cases hvalue : decode message.2 with
    | none => simp [hvalue, hfewer]
    | some =>
      by_cases hpeer : message.1 = peer
      · simp [hvalue, hpeer, hfewer]
      · simp [hvalue, hpeer, hsame]

/-- Decodes every number but zero. -/
def nonzero (payload : ℕ) : Option ℕ := if payload = 0 then none else some payload

/-- A message of a third participant that decodes is dropped, but the answer takes one more poll. -/
example : results 1 [nonzero] [.arrive (2, 3), .arrive (1, 5), .poll] = [] ∧
    results 1 [nonzero] [.arrive (2, 3), .arrive (1, 5), .poll, .poll] = [.ok 5] := ⟨rfl, rfl⟩

end PrivateChannel

end NearMpc.Threshold
