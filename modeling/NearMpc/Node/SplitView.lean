import NearMpc.Node.PlantedAssets

/-!
# One view on a presignature

Robust ECDSA is sound as long as a presignature is used with one message, one tweak and one set of
signers. The nodes learn of a presignature through start messages of their peers, each for itself:
nothing a follower checks ties the request or the participants that a start message names to those
that other followers were shown, or to the participants recorded with the presignature.

`SigningSystem` is a network of honest nodes that read one chain; its events are arbitrary start
messages to arbitrary nodes, protocols that finish, and the nodes' own bookkeeping. `Shown` is the
condition that every start message shows a presignature with the request and the participants of
one plan.
-/

set_option autoImplicit false

namespace NearMpc.Node

open Library Library.Outcome NearMpc.Threshold ParticipantList

variable {F G EddsaKeys CkdKeys ElementG1 : Type}

/-! ### The system -/

/-- Honest nodes on one curve, and the signature requests on chain. -/
structure SigningSystem (F G EddsaKeys CkdKeys ElementG1 : Type) where
  clients : ParticipantId → MpcClient F G EddsaKeys CkdKeys ElementG1
  curve : Curve F G
  curve_eq : ∀ node, (clients node).curve = curve
  chain : SignatureId → Option SignatureRequest

/-- A signature share that a node has sent, with what it was computed from. -/
structure Release (F : Type) where
  node : ParticipantId
  presignatureId : UniqueId
  recorded : List ParticipantId
  msgHash : List UInt8
  tweak : F
  entropy : List UInt8
  participants : ParticipantList
  share : F
deriving DecidableEq

/-- A protocol that a node is running. -/
structure RunningTask (F G EddsaKeys CkdKeys ElementG1 : Type) where
  node : ParticipantId
  channel : NetworkTaskChannel
  protocol : FollowerProtocol F G EddsaKeys CkdKeys ElementG1

structure SystemState (F G EddsaKeys CkdKeys ElementG1 : Type) where
  db : ParticipantId → SecretDB (StoredValue F G)
  running : List (RunningTask F G EddsaKeys CkdKeys ElementG1)
  released : List (Release F)

inductive SystemEvent (F G : Type) where
  /-- A node acts on a start message. It has seen some of the requests on chain. -/
  | start (node : ParticipantId) (surroundings : Surroundings) (seen : SignatureId → Bool)
      (channel : NetworkTaskChannel)
  /-- A running protocol returns. -/
  | finish (index : ℕ) (results : ProtocolResults F G)
  /-- A node records a presignature it has generated as the leader. -/
  | addOwned (node : ParticipantId) (domainId : DomainId) (id : UniqueId)
      (record : PresignOutputWithParticipants (RobustEcdsa.PresignOutput F G))
  /-- A node deletes a record. -/
  | delete (node : ParticipantId) (col : DBCol) (key : DBKey)

namespace SigningSystem

/-! ### One plan for every presignature -/

/-- What a presignature is for: a request and a set of signers. -/
structure Plan where
  request : SignatureId
  participants : List ParticipantId

variable (plan : UniqueId → Plan)

/-- The event shows a presignature with the request and the participants of the plan. -/
def Shown : SystemEvent F G → Prop
  | .start _ _ _ channel =>
      match channel.taskId with
      | .robustEcdsaTaskId (.presignature id _) =>
          channel.participants.Perm (plan id).participants
      | .robustEcdsaTaskId (.signature id presignatureId) =>
          id = (plan presignatureId).request ∧
            channel.participants.Perm (plan presignatureId).participants
      | _ => True
  | .finish _ _ => True
  | .addOwned _ _ id record => record.participants.Perm (plan id).participants
  | .delete _ _ _ => True

/-- The key of a presignature. -/
def presignatureKey (domainId : DomainId) (id : UniqueId) : DBKey :=
  domainIdToBytes domainId ++ id.toBytes

/-- The robust presignatures of a database are recorded with the participants of the plan. -/
def RecordsPlanned (db : SecretDB (StoredValue F G)) : Prop :=
  ∀ domainId id record, db.get .presignature (presignatureKey domainId id) =
    some (.robustPresignature record) → record.participants.Perm (plan id).participants

/-! ### Records -/

variable {protocol : FollowerProtocol F G EddsaKeys CkdKeys ElementG1}

variable {record : PresignOutputWithParticipants (RobustEcdsa.PresignOutput F G)}

section Records

variable {plan : UniqueId → Plan} {db after : SecretDB (StoredValue F G)}

theorem presignatureKey_injective {domainId otherDomain id other}
    (hkey : presignatureKey domainId id = presignatureKey otherDomain other) : id = other := by
  have hlength : id.toBytes.length = other.toBytes.length := by
    rw [UniqueId.toBytes, UniqueId.toBytes, BigEndian.length_toBytes, BigEndian.length_toBytes]
  have hbytes : id.toBytes = other.toBytes := List.append_inj_right' hkey hlength
  have hdecoded := UniqueId.tryFromSlice_toBytes id
  rw [hbytes, UniqueId.tryFromSlice_toBytes other, ok.injEq] at hdecoded
  exact hdecoded.symm

theorem recordsPlanned_empty :
    RecordsPlanned plan (SecretDB.empty : SecretDB (StoredValue F G)) := by
  intro _ _ _ hget
  rw [SecretDB.get_empty] at hget
  cases hget

section

variable (hrecord : RecordsPlanned plan db)
include hrecord

theorem RecordsPlanned.of_createsOnly {created : DBCol → DBKey → Prop}
    (hcreates : CreatesOnly created db after) (hcreated : ∀ key, ¬ created .presignature key) :
    RecordsPlanned plan after := by
  intro domainId id record hget
  rcases hcreates _ _ _ hget with hbefore | hcreate
  · exact hrecord domainId id record hbefore
  · exact absurd hcreate (hcreated _)

theorem RecordsPlanned.putRobust {domainId id}
    (hplan : record.participants.Perm (plan id).participants) :
    RecordsPlanned plan (db.put .presignature (presignatureKey domainId id)
      (.robustPresignature record)) := by
  intro otherDomain other otherRecord hget
  rw [SecretDB.get_put] at hget
  by_cases hkey : presignatureKey domainId id = presignatureKey otherDomain other
  · rw [if_pos hkey, Option.some.injEq, StoredValue.robustPresignature.injEq] at hget
    rw [← hget, ← presignatureKey_injective hkey]
    exact hplan
  · rw [if_neg hkey] at hget
    exact hrecord otherDomain other otherRecord hget

/-- A presignature of the other scheme does not count. -/
theorem RecordsPlanned.putOther {key record} :
    RecordsPlanned plan (db.put .presignature key (.presignature record)) := by
  intro otherDomain other otherRecord hget
  rw [SecretDB.get_put] at hget
  by_cases hkey : key = presignatureKey otherDomain other
  · rw [if_pos hkey] at hget
    cases hget
  · rw [if_neg hkey] at hget
    exact hrecord otherDomain other otherRecord hget

theorem RecordsPlanned.delete (col : DBCol) (key : DBKey) :
    RecordsPlanned plan (db.delete col key) := by
  intro domainId id record hget
  refine hrecord domainId id record ?_
  by_cases hcol : col = .presignature
  · subst hcol
    rw [SecretDB.get_delete] at hget
    split_ifs at hget
    exact hget
  · rwa [SecretDB.get_delete_of_ne_col _ hcol] at hget

end

theorem recordsPlanned_update {dbs : ParticipantId → SecretDB (StoredValue F G)}
    (hrecord : ∀ node, RecordsPlanned plan (dbs node)) {node db} (hdb : RecordsPlanned plan db)
    (other : ParticipantId) : RecordsPlanned plan (Function.update dbs node db other) := by
  by_cases hnode : other = node
  · rw [hnode, Function.update_self]
    exact hdb
  · rw [Function.update_of_ne hnode]
    exact hrecord other

variable (client : MpcClient F G EddsaKeys CkdKeys ElementG1)
  (channel : NetworkTaskChannel)

/-- A protocol that returns records a robust presignature with the participants of its channel. -/
theorem RecordsPlanned.complete (hrecord : RecordsPlanned plan db)
    (results : ProtocolResults F G)
    (hrunning : ∀ domainId id presign, protocol = .robustPresignature domainId id presign →
      channel.participants.Perm (plan id).participants) :
    RecordsPlanned plan (complete client channel results protocol db).1 := by
  cases protocol with
  | manyTriples start triples =>
    have hwithin : (Node.complete client channel results (.manyTriples start triples)).Within
        (CreatesOnly fun col _ ↦ col = .triple) := by
      iterate 2 refine .bind .trans (.lift .refl _) fun _ ↦ ?_
      exact createsOnly_storeTriples client start _ (fun _ _ ↦ rfl) 0 _ (zero_add _).le
    exact hrecord.of_createsOnly (hwithin db) (by simp)
  | presignature =>
    simp only [Node.complete, Effect.bind_def, Effect.andThen, Effect.monadLift_eq,
      Effect.lift_apply]
    cases results.presignature with
    | ok => exact hrecord.putOther
    | err => exact hrecord
    | panicked => exact hrecord
  | robustPresignature domainId id presign =>
    simp only [Node.complete, Effect.bind_def, Effect.andThen, Effect.monadLift_eq,
      Effect.lift_apply]
    cases results.robustPresignature with
    | ok => exact hrecord.putRobust (hrunning domainId id presign rfl)
    | err => exact hrecord
    | panicked => exact hrecord
  | signature | robustSignature | eddsaSignature | ckd => exact hrecord

end Records

/-! ### Runs -/

variable [Field F] [DecidableEq F] [AddCommGroup G] [Module F G]
  [DecidableEq G] (system : SigningSystem F G EddsaKeys CkdKeys ElementG1)

/-- What a node reads: of the chain, the requests that it has seen. -/
def view (surroundings : Surroundings) (seen : SignatureId → Bool) : Surroundings :=
  { surroundings with signRequest := fun id ↦ if seen id then system.chain id else none }

/-- The share that a node sends when its protocol starts. -/
def releaseOf (node : ParticipantId) :
    FollowerProtocol F G EddsaKeys CkdKeys ElementG1 → Option (Release F)
  | .robustSignature presignatureId record args protocol =>
      if protocol.me = protocol.coordinator then none
      else
        match RobustEcdsa.computeSignatureShare system.curve protocol with
        | .ok share => some {
            node
            presignatureId
            recorded := record.participants
            msgHash := args.msgHash
            tweak := args.tweak
            entropy := args.entropy
            participants := args.participants
            share }
        | _ => none
  | _ => none

def start : SystemState F G EddsaKeys CkdKeys ElementG1 where
  db := fun _ ↦ SecretDB.empty
  running := []
  released := []

def step (state : SystemState F G EddsaKeys CkdKeys ElementG1)
    (event : SystemEvent F G) : SystemState F G EddsaKeys CkdKeys ElementG1 :=
  match event with
  | .start node surroundings seen channel =>
      match setUp (system.clients node) (system.view surroundings seen) channel (state.db node) with
      | (db, .ok protocol) =>
          { db := Function.update state.db node db
            running := { node, channel, protocol } :: state.running
            released := (system.releaseOf node protocol).toList ++ state.released }
      | (db, _) => { state with db := Function.update state.db node db }
  | .finish index results =>
      match state.running[index]? with
      | some task =>
          { state with
            db := Function.update state.db task.node
              (complete (system.clients task.node) task.channel results task.protocol
                (state.db task.node)).1
            running := state.running.eraseIdx index }
      | none => state
  | .addOwned node domainId id record =>
      { state with
        db := Function.update state.db node ((state.db node).put .presignature
          (((system.clients node).robustPresignatureStore domainId).makeKey id)
          (.robustPresignature record)) }
  | .delete node col key =>
      { state with db := Function.update state.db node ((state.db node).delete col key) }

/-- The share was computed as planned. -/
structure AsPlanned (plan : UniqueId → Plan) (release : Release F) : Prop where
  request : ∃ request, system.chain (plan release.presignatureId).request = some request ∧
    request.payload.asEcdsa = some release.msgHash ∧
    system.curve.fromRepr request.tweak = some release.tweak ∧
    request.entropy = release.entropy
  participants : new (plan release.presignatureId).participants =
    some release.participants
  recorded : release.recorded.Perm (plan release.presignatureId).participants

structure Planned (plan : UniqueId → Plan)
    (state : SystemState F G EddsaKeys CkdKeys ElementG1) : Prop where
  records : ∀ node, RecordsPlanned plan (state.db node)
  running : ∀ task ∈ state.running, ∀ domainId id protocol,
    task.protocol = .robustPresignature domainId id protocol →
      task.channel.participants.Perm (plan id).participants
  released : ∀ release ∈ state.released, system.AsPlanned plan release

/-! ### Every step keeps to the plan -/

variable {system} {plan : UniqueId → Plan}

/-- What a follower has read when it signs with the robust scheme. -/
theorem setUp_eq_robustSignature {client : MpcClient F G EddsaKeys CkdKeys ElementG1}
    {surroundings : Surroundings} {channel : NetworkTaskChannel}
    {db after : SecretDB (StoredValue F G)} {presignatureId : UniqueId}
    {args : RerandomizationArguments F G}
    {protocol : RobustEcdsa.SignProtocol F G}
    (hok : setUp client surroundings channel db =
      (after, .ok (.robustSignature presignatureId record args protocol))) :
    ∃ id request, channel.taskId = .robustEcdsaTaskId (.signature id presignatureId) ∧
      surroundings.signRequest id = some request ∧
      request.payload.asEcdsa = some args.msgHash ∧
      client.curve.fromRepr request.tweak = some args.tweak ∧
      request.entropy = args.entropy ∧
      new channel.participants = some args.participants ∧
      db.get .presignature (presignatureKey request.domain presignatureId) =
        some (.robustPresignature record) := by
  obtain ⟨id, htask⟩ := belongsTo_setUp client surroundings channel _ _ _ hok
  simp only [setUp, htask, RobustEcdsaSignatureProvider.processChannel,
    RobustEcdsaSignatureProvider.makeSignatureFollower, Effect.bind_eq_ok, Effect.monadLift_eq,
    Effect.lift_apply, Effect.pure_apply, Prod.mk.injEq, okOr_eq_ok, ok.injEq] at hok
  obtain ⟨_, request, ⟨rfl, hrequest⟩, _, _, ⟨rfl, -⟩, _, _, ⟨rfl, -⟩, _, _,
    ⟨rfl, hpayload⟩, _, _, ⟨rfl, -⟩, _, _, htake, _, ⟨_, _⟩, ⟨rfl, hsign⟩, -,
    hprotocol⟩ := hok
  obtain ⟨-, rfl, rfl, rfl⟩ := FollowerProtocol.robustSignature.inj hprotocol
  obtain ⟨htweak, hmembers, hhash, hentropy⟩ :=
    RobustEcdsaSignatureProvider.signComputation_eq_ok hsign
  obtain ⟨_, hget, hdecoded, -⟩ := AssetStoreConfig.takeUnowned_eq_ok htake
  refine ⟨id, request, htask, hrequest, ?_, htweak, hentropy.symm, hmembers, ?_⟩
  · rw [hhash]
    exact hpayload
  · rw [eq_of_fromValue_robustPresignature hdecoded] at hget
    exact hget

/-- A share that is released is computed as planned. -/
theorem asPlanned_releaseOf {node : ParticipantId} {surroundings : Surroundings}
    {seen : SignatureId → Bool} {channel : NetworkTaskChannel}
    {db after : SecretDB (StoredValue F G)} {release : Release F}
    (hrecord : RecordsPlanned plan db)
    (hshown : Shown plan (.start node surroundings seen channel : SystemEvent F G))
    (hok : setUp (system.clients node) (system.view surroundings seen) channel db =
      (after, .ok protocol)) (hrelease : system.releaseOf node protocol = some release) :
    system.AsPlanned plan release := by
  cases protocol with
  | robustSignature =>
    obtain ⟨_, request, htask, hrequest, hhash, htweak, hentropy, hmembers, hget⟩ :=
      setUp_eq_robustSignature hok
    simp only [Shown, htask] at hshown
    simp only [releaseOf] at hrelease
    split at hrelease
    · cases hrelease
    split at hrelease
    next share hshare =>
      rw [Option.some.injEq] at hrelease
      subst hrelease
      refine ⟨⟨request, ?_, hhash, ?_, hentropy⟩, ?_, hrecord _ _ _ hget⟩
      · simp only [view] at hrequest
        split_ifs at hrequest
        rw [← hshown.1]
        exact hrequest
      · rw [← system.curve_eq node]
        exact htweak
      · rw [← new_eq_of_perm hshown.2]
        exact hmembers
    · cases hrelease
  | manyTriples | presignature | robustPresignature | signature | eddsaSignature | ckd =>
    cases hrelease

theorem Planned.step {state event} (hplanned : system.Planned plan state)
    (hshown : Shown plan event) : system.Planned plan (system.step state event) := by
  cases event with
  | start node surroundings seen channel =>
    rcases hsetUp : setUp (system.clients node) (system.view surroundings seen) channel
      (state.db node) with ⟨db, outcome⟩
    have hcreates : CreatesOnly (fun _ _ ↦ False) (state.db node) db := by
      have hwithin : (setUp (system.clients node) (system.view surroundings seen) channel).Within
        (CreatesOnly fun _ _ ↦ False) := createsOnly_setUp _ _ _
      have hnode := hwithin (state.db node)
      rwa [hsetUp] at hnode
    have hdb : RecordsPlanned plan db := (hplanned.records node).of_createsOnly hcreates fun _ ↦ id
    simp only [SigningSystem.step, hsetUp]
    cases outcome with
    | ok protocol =>
      refine ⟨recordsPlanned_update hplanned.records hdb, ?_, ?_⟩
      · intro task htask domainId id presign hprotocol
        rcases List.mem_cons.mp htask with rfl | htask
        · have hbelongs := belongsTo_setUp _ _ _ _ _ _ hsetUp
          rw [show protocol = _ from hprotocol] at hbelongs
          simpa only [Shown, show channel.taskId = _ from hbelongs] using hshown
        · exact hplanned.running task htask domainId id presign hprotocol
      · intro release hrelease
        rcases List.mem_append.mp hrelease with hrelease | hrelease
        · exact asPlanned_releaseOf (hplanned.records node) hshown hsetUp
            (Option.mem_toList.mp hrelease)
        · exact hplanned.released release hrelease
    | err | panicked =>
      exact ⟨recordsPlanned_update hplanned.records hdb, hplanned.running, hplanned.released⟩
  | finish index results =>
    simp only [SigningSystem.step]
    cases htask : state.running[index]? with
    | none => exact hplanned
    | some task =>
      have hmem := List.mem_of_getElem? htask
      refine ⟨recordsPlanned_update hplanned.records ?_, ?_, hplanned.released⟩
      · exact (hplanned.records task.node).complete _ _ results (hplanned.running task hmem)
      · intro other hother
        exact hplanned.running other (List.mem_of_mem_eraseIdx hother)
  | addOwned node =>
    exact ⟨recordsPlanned_update hplanned.records ((hplanned.records node).putRobust hshown),
      hplanned.running, hplanned.released⟩
  | delete node col key =>
    exact ⟨recordsPlanned_update hplanned.records ((hplanned.records node).delete col key),
      hplanned.running, hplanned.released⟩

omit [Field F] [DecidableEq F] [AddCommGroup G] [Module F G]
  [DecidableEq G] in
theorem planned_start : system.Planned plan start where
  records := fun _ ↦ recordsPlanned_empty
  running := by simp [start]
  released := by simp [start]

/-- In a run whose start messages show every presignature with one request and one set of
participants, all shares from one presignature are for the same message, tweak, entropy and
participants, and these are the participants recorded with the presignature. -/
theorem one_view_on_presignature (system : SigningSystem F G EddsaKeys CkdKeys ElementG1)
    (plan : UniqueId → Plan) (events : List (SystemEvent F G))
    (hshown : StepsMeet system.step (fun _ event ↦ Shown plan event) start events)
    (first second : Release F) (hfirst : first ∈ (run system.step start events).released)
    (hsecond : second ∈ (run system.step start events).released)
    (hid : first.presignatureId = second.presignatureId) :
    first.msgHash = second.msgHash ∧ first.tweak = second.tweak ∧
      first.entropy = second.entropy ∧ first.participants = second.participants ∧
      new first.recorded = some first.participants ∧
      new second.recorded = some second.participants := by
  have hplanned : system.Planned plan (run system.step start events) :=
    hshown.invariant planned_start fun state event hevent hstate ↦ hstate.step hevent
  have hone := hplanned.released first hfirst
  have htwo := hplanned.released second hsecond
  obtain ⟨request, hrequest, hhash, htweak, hentropy⟩ := hone.request
  obtain ⟨other, hother, hotherHash, hotherTweak, hotherEntropy⟩ := htwo.request
  have hsame : request = other := by
    rw [hid, hother, Option.some.injEq] at hrequest
    exact hrequest.symm
  subst hsame
  refine ⟨?_, ?_, hentropy.symm.trans hotherEntropy, ?_, ?_, ?_⟩
  · exact Option.some.inj (hhash.symm.trans hotherHash)
  · exact Option.some.inj (htweak.symm.trans hotherTweak)
  · refine Option.some.inj (hone.participants.symm.trans ?_)
    rw [hid]
    exact htwo.participants
  · rw [new_eq_of_perm hone.recorded]
    exact hone.participants
  · rw [new_eq_of_perm htwo.recorded]
    exact htwo.participants

end SigningSystem

namespace FiveNodes

/-- The five nodes and the requests they sign. -/
def system : SigningSystem (ZMod 3) (ZMod 3) Unit Unit Unit where
  clients := client
  curve := curve
  curve_eq := fun _ ↦ rfl
  chain := fun id ↦ some { payload := .ecdsa id, tweak := [1], entropy := id, domain := 0 }

/-- Node 1 starts a task at a follower. -/
def startAt (node : ParticipantId) (taskId : MpcTaskId) : SystemEvent (ZMod 3) (ZMod 3) :=
  .start node (surroundings node) (fun _ ↦ true) (channel 1 node taskId)

/-- Nodes 2 and 3 generate a presignature, then sign with it for the given requests. -/
def signTwice (first second : SignatureId) : List (SystemEvent (ZMod 3) (ZMod 3)) :=
  [startAt 2 (presign ownId), startAt 3 (presign ownId), .finish 0 results, .finish 0 results,
    startAt 2 (.robustEcdsaTaskId (.signature first ownId)),
    startAt 3 (.robustEcdsaTaskId (.signature second ownId))]

/-- The share that a node releases for a request. -/
def shareOf (node : ParticipantId) (id : SignatureId) (share : ZMod 3) : Release (ZMod 3) where
  node := node
  presignatureId := ownId
  recorded := [1, 2, 3, 4, 5]
  msgHash := id
  tweak := 1
  entropy := id
  participants := { participants := [1, 2, 3, 4, 5], sorted := by decide }
  share := share

end FiveNodes

namespace SigningSystem

open FiveNodes

theorem one_view_on_presignature_witness :
    (shareOf 2 [1] 2).msgHash = (shareOf 3 [1] 0).msgHash ∧
      (shareOf 2 [1] 2).tweak = (shareOf 3 [1] 0).tweak ∧
      (shareOf 2 [1] 2).entropy = (shareOf 3 [1] 0).entropy ∧
      (shareOf 2 [1] 2).participants = (shareOf 3 [1] 0).participants ∧
      new (shareOf 2 [1] 2).recorded = some (shareOf 2 [1] 2).participants ∧
      new (shareOf 3 [1] 0).recorded = some (shareOf 3 [1] 0).participants :=
  one_view_on_presignature system (fun _ ↦ { request := [1], participants := [1, 2, 3, 4, 5] })
    (signTwice [1] [1])
    (by simp [StepsMeet, signTwice, startAt, Shown, channel, presign])
    (shareOf 2 [1] 2) (shareOf 3 [1] 0) (by decide +kernel) (by decide +kernel) rfl

/-- Node 1 shows the presignature to node 2 with one request and to node 3 with another, and both
release a share. -/
theorem split_view_on_presignature :
    (run system.step start (signTwice [1] [2])).released.map
        (fun release ↦ (release.node, release.presignatureId, release.msgHash)) =
      [(3, ownId, [2]), (2, ownId, [1])] := by
  decide +kernel

end SigningSystem

end NearMpc.Node
