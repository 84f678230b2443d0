import NearMpc.Threshold.ObliviousTransfer

/-!
# Multiplication of shared secrets

Each pair of participants turns the products of its shares into sums, for every triple of the batch.
Follows `ecdsa/ot_based_ecdsa/triples/multiplication.rs`.

Which of two participants is the sender is decided by comparing hashes. All the two-party protocols
of a participant run side by side. `ensures_multiplicationMany` says that no messages of the others
make a participant panic.
-/

set_option autoImplicit false

namespace NearMpc.Threshold

open Library Library.Outcome

/-- The number of transfers for one product. -/
def multiplicationBatchSize : ℕ := scalarBits + securityParameter

structure MultiplicationSenderRandomPackage (F : Type) where
  delta : BitVector
  x : Fin securityParameter → F
  seed : List UInt8
  delta0 : Fin multiplicationBatchSize → F
  delta1 : Fin multiplicationBatchSize → F

structure MultiplicationReceiverRandomPackage (F : Type) where
  y : F
  b : ℕ → BitVector
  seed0 : List UInt8
  seed1 : List UInt8

section Vectors

variable {F G : Type} {condition : Inbox (TriplePayload F G) → Prop}

/-- A random choice vector with the given number of bits. -/
def choiceVector (size : ℕ) (random : ℕ → BitVector) :
    Outcome ProtocolError (List BitVector) := do
  guardPanic (0 < size ∧ size % securityParameter = 0)
  return (List.range (size / securityParameter)).map random

theorem ensures_choiceVector {size} (hsize : 0 < size ∧ size % securityParameter = 0)
    (random : ℕ → BitVector) :
    (Session.lift (choiceVector size random) : Party (TriplePayload F G) _).Ensures
      condition fun choices ↦ choices.length * securityParameter = size := by
  refine .lift ?_ fun choices hchoices ↦ ?_
  · simp [choiceVector, guardPanic, hsize]
  · simp only [choiceVector, guardPanic, hsize, and_self, if_true, ok_bind, pure_eq,
      ok.injEq] at hchoices
    rw [← hchoices, List.length_map, List.length_range]
    exact Nat.div_mul_cancel (Nat.dvd_of_mod_eq_zero hsize.2)

/-- `Vec::split_off` -/
def splitOff {Value : Type} (values : List Value) (index : ℕ) :
    Outcome ProtocolError (List Value × List Value) := do
  guardPanic (index ≤ values.length)
  return (values.take index, values.drop index)

theorem ensures_splitOff {Value : Type} {values : List Value} {index : ℕ}
    (hindex : index ≤ values.length) :
    (Session.lift (splitOff values index) : Party (TriplePayload F G) _).Ensures condition
      fun parts ↦ parts.1.length = index ∧ parts.2.length = values.length - index := by
  refine .lift ?_ fun parts hparts ↦ ?_
  · simp [splitOff, guardPanic, hindex]
  · simp only [splitOff, guardPanic, hindex, if_true, ok_bind, pure_eq, ok.injEq] at hparts
    rw [← hparts]
    exact ⟨List.length_take_of_le hindex, List.length_drop⟩

end Vectors

variable {F G : Type} [Field F] [AddCommGroup G] [Module F G]
  [DecidableEq G] (primitives : Primitives F G)

section TwoParties

variable (channel : PrivateChannel) (sid : HashOutput) (a b : F)

def multiplicationSender (package : MultiplicationSenderRandomPackage F) :
    Party (TriplePayload F G) F := do
  let k ← batchRandomOtReceiver primitives (channel.child 0) package.delta package.x
  let res ← randomOtExtensionSender primitives (channel.child 1) sid (2 * multiplicationBatchSize)
    package.delta k package.seed
  let (res0, res1) ← splitOff res multiplicationBatchSize
  let (gamma0, gamma1) ← Session.joinBoth
    (mtaSender primitives (channel.child 2) res0 a (List.ofFn package.delta0))
    (mtaSender primitives (channel.child 3) res1 b (List.ofFn package.delta1))
  return gamma0 + gamma1

def multiplicationReceiver (package : MultiplicationReceiverRandomPackage F) :
    Party (TriplePayload F G) F := do
  let choices ← choiceVector (adjustSize (2 * multiplicationBatchSize)) package.b
  let (k0, k1) ← batchRandomOtSender primitives (channel.child 0) package.y
  let res ← randomOtExtensionReceiver primitives (channel.child 1) sid
    (2 * multiplicationBatchSize) k0 k1 choices
  let (res0, res1) ← splitOff res multiplicationBatchSize
  let (gamma0, gamma1) ← Session.joinBoth
    (mtaReceiver primitives (channel.child 2) res0 b package.seed0)
    (mtaReceiver primitives (channel.child 3) res1 a package.seed1)
  return gamma0 + gamma1

end TwoParties

/-! ### All pairs -/

/-- Adds the next results to a sum, one for each of the others. -/
def popSum : ℕ → F → List F → Except ProtocolError (F × List F)
  | 0, sum, results => .ok (sum, results)
  | _ + 1, _, [] => .error (.assertionFailed "Received less values than expected")
  | others + 1, sum, result :: results => popSum others (sum + result) results

/-- Adds the results to the products of a participant's own shares, triple by triple. -/
def sumResults (others : ℕ) : (n : ℕ) → (Fin n → F) → List F →
    Except ProtocolError (Fin n → F)
  | 0, _, _ => .ok Fin.elim0
  | n + 1, outs, results => do
      let (first, results) ← popSum others (outs 0) results
      let rest ← sumResults others n (fun index ↦ outs index.succ) results
      return Fin.cons first rest

variable {n : ℕ} (sid : Fin n → HashOutput) (participants : ParticipantList) (me : Participant)
  (a b : Fin n → F)
  (sender : Fin n → Participant → MultiplicationSenderRandomPackage F)
  (receiver : Fin n → Participant → MultiplicationReceiverRandomPackage F)

/-- The two-party protocol for one triple with one peer. -/
def multiplicationTask (index : Fin n) (peer : Participant) :
    Party (TriplePayload F G) F :=
  if primitives.orderKey index peer < primitives.orderKey index me then
    multiplicationSender primitives ((PrivateChannel.new me peer).child index) (sid index)
      (a index) (b index) (sender index peer)
  else
    multiplicationReceiver primitives ((PrivateChannel.new me peer).child index) (sid index)
      (a index) (b index) (receiver index peer)

def multiplicationMany : Party (TriplePayload F G) (Fin n → F) := do
  (require (n ≠ 0) (.assertionFailed "N must be greater than 0") : Outcome ProtocolError _)
  -- the capacity `participants.len() - 1` may not underflow
  (guardPanic (1 ≤ participants.len) : Outcome ProtocolError _)
  let others := participants.others me
  let results ← Session.tryJoinAll ((List.finRange n).flatMap fun index ↦
    others.map (multiplicationTask primitives sid me a b sender receiver index))
  (sumResults others.length n (fun index ↦ a index * b index) results : Outcome ProtocolError _)

/-! ### No panics -/

variable {condition : Inbox (TriplePayload F G) → Prop} (channel : PrivateChannel)

theorem ensures_multiplicationSender (sid : HashOutput) (a b : F)
    (package : MultiplicationSenderRandomPackage F) :
    (multiplicationSender primitives channel sid a b package).Ensures condition fun _ ↦ True := by
  unfold multiplicationSender
  refine (ensures_batchRandomOtReceiver primitives _ _ _).bind fun k _ ↦ ?_
  refine (ensures_randomOtExtensionSender primitives _ sid _ _ k _).bind fun res hres ↦ ?_
  have hindex : multiplicationBatchSize ≤ res.length := by omega
  refine (ensures_splitOff hindex).bind fun parts _ ↦ ?_
  have hdelta : ∀ delta : Fin multiplicationBatchSize → F, List.ofFn delta ≠ [] := by
    intro delta hnil
    have hlength := List.length_ofFn (f := delta)
    rw [hnil] at hlength
    cases hlength
  refine (Session.Ensures.joinBoth (ensures_mtaSender primitives _ _ _ (hdelta _))
    (ensures_mtaSender primitives _ _ _ (hdelta _))).bind fun _ _ ↦ ?_
  exact Session.Ensures.pure trivial

theorem ensures_multiplicationReceiver (sid : HashOutput) (a b : F)
    (package : MultiplicationReceiverRandomPackage F) :
    (multiplicationReceiver primitives channel sid a b package).Ensures condition fun _ ↦ True := by
  unfold multiplicationReceiver
  have hsize : 0 < adjustSize (2 * multiplicationBatchSize) ∧
      adjustSize (2 * multiplicationBatchSize) % securityParameter = 0 :=
    ⟨by decide, adjustSize_mod _⟩
  refine (ensures_choiceVector hsize _).bind fun choices hchoices ↦ ?_
  refine (ensures_batchRandomOtSender primitives _ _).bind fun keys _ ↦ ?_
  refine (ensures_randomOtExtensionReceiver primitives _ sid _ _ hchoices).bind fun res hres ↦ ?_
  have hindex : multiplicationBatchSize ≤ res.length := by omega
  refine (ensures_splitOff hindex).bind fun parts hparts ↦ ?_
  have hpositive : 0 < multiplicationBatchSize := by decide
  have hfirst : parts.1 ≠ [] := List.ne_nil_of_length_pos (by omega)
  have hsecond : parts.2 ≠ [] := List.ne_nil_of_length_pos (by omega)
  refine (Session.Ensures.joinBoth (ensures_mtaReceiver primitives _ hfirst _ _)
    (ensures_mtaReceiver primitives _ hsecond _ _)).bind fun _ _ ↦ ?_
  exact Session.Ensures.pure trivial

theorem ensures_multiplicationTask (index : Fin n) (peer : Participant) :
    (multiplicationTask primitives sid me a b sender receiver index peer).Ensures condition
      fun _ ↦ True := by
  unfold multiplicationTask
  split_ifs with horder
  · exact ensures_multiplicationSender primitives _ _ _ _ _
  · exact ensures_multiplicationReceiver primitives _ _ _ _ _

/-- Multiplication does not panic, whatever the others send. -/
theorem ensures_multiplicationMany (hmembers : 1 ≤ participants.len) :
    (multiplicationMany primitives sid participants me a b sender receiver).Ensures condition
      fun _ ↦ True := by
  unfold multiplicationMany
  refine (Session.Ensures.require _ _).bind fun _ _ ↦ ?_
  have hcapacity : (guardPanic (1 ≤ participants.len) : Outcome ProtocolError Unit) ≠
      .panicked := by
    simp [guardPanic, hmembers]
  refine (Session.Ensures.lift hcapacity fun _ _ ↦ trivial).bind fun _ _ ↦ ?_
  have htasks : ∀ task ∈ (List.finRange n).flatMap fun index ↦
      (participants.others me).map (multiplicationTask primitives sid me a b sender receiver index),
      task.Ensures condition fun _ ↦ True := by
    intro _ htask
    obtain ⟨index, -, htask⟩ := List.mem_flatMap.mp htask
    obtain ⟨peer, -, rfl⟩ := List.mem_map.mp htask
    exact ensures_multiplicationTask primitives sid me a b sender receiver index peer
  refine (Session.Ensures.tryJoinAll htasks).bind fun results _ ↦ ?_
  rw [Session.monadLift_eq, monadLift_except]
  exact (Session.Ensures.liftExcept _).mono fun _ _ ↦ trivial

end NearMpc.Threshold
