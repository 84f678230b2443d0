import NearMpc.Node.Network

/-!
# Versions of connections

A node numbers the connections to a peer, in each direction, so that a task can tell whether the
connection it started with is still there. Follows `network/conn.rs`.

A direction holds a weak reference to its current connection. A connection that was dropped stands
for the next one: its version is one more. `Tracks` says what a version that was captured earlier
determines: the version and the number of connections that have been current since then add up. All
results follow from that (`interruption_sound`).
-/

set_option autoImplicit false

namespace NearMpc.Node

open Library Library.Outcome

/-! ### One direction -/

/-- A weak reference to a connection, along with a version number. -/
structure ConnectionWithVersion (Connection : Type) where
  connection : Option Connection
  version : ℕ

/-- One direction: the current connection, the counter of versions, and the connections that were
dropped. -/
structure Direction (Connection : Type) where
  current : ConnectionWithVersion Connection
  counter : ℕ
  dropped : Finset Connection

namespace Direction

variable {Connection : Type} [DecidableEq Connection]

def new : Direction Connection where
  current := ⟨none, 0⟩
  counter := 0
  dropped := ∅

variable (direction : Direction Connection)

/-- The current connection, if it was not dropped. -/
def upgrade : Option Connection :=
  direction.current.connection.filter fun connection ↦ connection ∉ direction.dropped

/-- The version of the current connection, or of the next one if it was dropped. -/
def version : NodeResult ℕ :=
  if direction.upgrade.isSome then .ok direction.current.version
  else do
    guardPanic (direction.current.version + 1 < 2 ^ 64)
    return direction.current.version + 1

variable (connection : Connection)

/-- Makes the connection current, under the next version. -/
def replace : NodeResult (Direction Connection) := do
  guardPanic (direction.counter + 1 < 2 ^ 64)
  return { direction with
    current := ⟨some connection, direction.counter + 1⟩
    counter := direction.counter + 1 }

/-- The last reference to a connection is dropped. -/
def drop : Direction Connection :=
  { direction with dropped := insert connection direction.dropped }

/-- The version of the direction, without the check for an overflow. -/
def effectiveVersion : ℕ :=
  if direction.upgrade.isSome then direction.current.version else direction.current.version + 1

/-- The connections that have been current since some moment, oldest first, and the version at that
moment, agree with the direction. -/
structure Tracks (captured : ℕ) (since : List Connection) (direction : Direction Connection) :
    Prop where
  counter : direction.counter = direction.current.version
  version : direction.current.version + 1 = captured + since.length
  last : ∀ connection ∈ since.getLast?, direction.current.connection = some connection
  none : since = [] → direction.upgrade = none

variable {direction next : Direction Connection} {captured version : ℕ} {since : List Connection}
  {connection : Connection}

theorem upgrade_eq_some_iff :
    direction.upgrade = some connection ↔
      direction.current.connection = some connection ∧ connection ∉ direction.dropped := by
  simp [upgrade, Option.filter_eq_some_iff]

theorem version_eq_ok (hversion : direction.version = .ok version) :
    version = direction.effectiveVersion := by
  unfold Direction.version at hversion
  unfold effectiveVersion
  split_ifs at hversion ⊢
  · exact (ok.inj hversion).symm
  · obtain ⟨_, -, hdone⟩ := bind_eq_ok.mp hversion
    exact (ok.inj hdone).symm

theorem version_le_effectiveVersion (direction : Direction Connection) :
    direction.current.version ≤ direction.effectiveVersion := by
  unfold effectiveVersion
  split_ifs
  · exact le_rfl
  · exact Nat.le_succ _

/-- A new connection has at least the version that was expected. -/
theorem effectiveVersion_le_replace (hcounter : direction.counter = direction.current.version)
    (hreplace : direction.replace connection = .ok next) :
    direction.effectiveVersion ≤ next.effectiveVersion := by
  obtain ⟨_, -, hdone⟩ := bind_eq_ok.mp hreplace
  cases hdone
  refine le_trans ?_ (version_le_effectiveVersion _)
  dsimp only
  rw [hcounter]
  unfold effectiveVersion
  split_ifs
  · exact Nat.le_succ _
  · exact le_rfl

theorem effectiveVersion_le_drop (direction : Direction Connection) (connection : Connection) :
    direction.effectiveVersion ≤ (direction.drop connection).effectiveVersion := by
  by_cases hkept : (direction.drop connection).upgrade.isSome
  · obtain ⟨other, hother⟩ := Option.isSome_iff_exists.mp hkept
    obtain ⟨hcurrent, hremains⟩ := upgrade_eq_some_iff.mp hother
    have hbefore : direction.upgrade = some other :=
      upgrade_eq_some_iff.mpr ⟨hcurrent, fun hmem ↦ hremains (Finset.mem_insert_of_mem hmem)⟩
    rw [effectiveVersion, effectiveVersion, if_pos hkept, if_pos (by simp [hbefore])]
    exact le_rfl
  · rw [effectiveVersion, effectiveVersion, if_neg hkept]
    split_ifs
    · exact Nat.le_succ _
    · exact le_rfl

/-- At the moment a version is captured, only a connection that was not dropped is current. -/
theorem tracks_of_version (hcounter : direction.counter = direction.current.version)
    (hversion : direction.version = .ok captured) :
    Tracks captured direction.upgrade.toList direction := by
  have hcaptured := version_eq_ok hversion
  unfold effectiveVersion at hcaptured
  cases hupgrade : direction.upgrade with
  | none =>
    rw [hupgrade] at hcaptured
    exact ⟨hcounter, hcaptured.symm, by simp, fun _ ↦ hupgrade⟩
  | some =>
    rw [hupgrade] at hcaptured
    refine ⟨hcounter, by rw [hcaptured]; rfl, ?_, by simp⟩
    simpa using (upgrade_eq_some_iff.mp hupgrade).1

section

variable (htracks : Tracks captured since direction)
include htracks

theorem Tracks.replace (hreplace : direction.replace connection = .ok next) :
    Tracks captured (since ++ [connection]) next := by
  obtain ⟨_, -, hdone⟩ := bind_eq_ok.mp hreplace
  cases hdone
  refine ⟨rfl, ?_, by simp, by simp⟩
  have hversion := htracks.version
  rw [← htracks.counter] at hversion
  rw [List.length_append, List.length_singleton]
  dsimp only
  omega

theorem Tracks.drop (connection : Connection) :
    Tracks captured since (direction.drop connection) := by
  refine ⟨htracks.counter, htracks.version, htracks.last, fun hempty ↦ ?_⟩
  rw [Option.eq_none_iff_forall_ne_some]
  intro other hother
  obtain ⟨hcurrent, hkept⟩ := upgrade_eq_some_iff.mp hother
  have hbefore : direction.upgrade = some other :=
    upgrade_eq_some_iff.mpr ⟨hcurrent, fun hmem ↦ hkept (Finset.mem_insert_of_mem hmem)⟩
  rw [htracks.none hempty] at hbefore
  exact absurd hbefore nofun

/-- The only connection that has been current is the one that is current now. -/
theorem Tracks.eq_singleton (hupgrade : direction.upgrade = some connection)
    (hlength : since.length = 1) : since = [connection] := by
  obtain ⟨only, rfl⟩ := List.length_eq_one_iff.mp hlength
  have hcurrent := htracks.last only (by simp)
  rw [(upgrade_eq_some_iff.mp hupgrade).1] at hcurrent
  rw [Option.some.inj hcurrent]

/-- If the version is the captured one, at most one connection has been current since then, and it
was not dropped. -/
theorem Tracks.uninterrupted (hversion : direction.version = .ok captured) :
    since.length ≤ 1 ∧ ∀ connection ∈ since, connection ∉ direction.dropped := by
  have hsum := htracks.version
  have hcaptured := version_eq_ok hversion
  unfold effectiveVersion at hcaptured
  cases hupgrade : direction.upgrade with
  | none =>
    rw [hupgrade, Option.isSome_none, if_neg Bool.false_ne_true] at hcaptured
    have hempty : since = [] := List.length_eq_zero_iff.mp (by omega)
    simp [hempty]
  | some =>
    rw [hupgrade, Option.isSome_some, if_pos rfl] at hcaptured
    have honly := htracks.eq_singleton hupgrade (by omega)
    simpa [honly] using (upgrade_eq_some_iff.mp hupgrade).2

end

end Direction

/-! ### Both directions -/

/-- The number that the peer has given to a connection it has made. -/
class SenderConnectionId (Connection : Type) where
  senderConnectionId : Connection → UInt32

/-- The connections with a peer: those this node makes and those the peer makes. -/
structure NodeConnectivity (Outgoing Incoming : Type) where
  outgoing : Direction Outgoing
  incoming : Direction Incoming

/-- What happens to the connections with a peer. -/
inductive ConnectivityEvent (Outgoing Incoming : Type) where
  | setOutgoing (connection : Outgoing)
  | setIncoming (connection : Incoming)
  | dropOutgoing (connection : Outgoing)
  | dropIncoming (connection : Incoming)

namespace NodeConnectivity

variable {Outgoing Incoming : Type} [DecidableEq Outgoing] [DecidableEq Incoming]

def new : NodeConnectivity Outgoing Incoming where
  outgoing := .new
  incoming := .new

variable (connectivity : NodeConnectivity Outgoing Incoming)

def setOutgoingConnection (connection : Outgoing) :
    NodeResult (NodeConnectivity Outgoing Incoming) := do
  let outgoing ← connectivity.outgoing.replace connection
  return { connectivity with outgoing }

/-- A connection of the peer replaces one that was dropped or has a smaller number. -/
def setIncomingConnection [SenderConnectionId Incoming]
    (connectivity : NodeConnectivity Outgoing Incoming) (connection : Incoming) :
    NodeResult (NodeConnectivity Outgoing Incoming) := do
  require (∀ existing ∈ connectivity.incoming.upgrade,
      SenderConnectionId.senderConnectionId existing <
        SenderConnectionId.senderConnectionId connection)
    "can't replace existing connection of higher value"
  let incoming ← connectivity.incoming.replace connection
  return { connectivity with incoming }

def connectionVersion : NodeResult ConnectionVersion := do
  let outgoing ← connectivity.outgoing.version
  let incoming ← connectivity.incoming.version
  return { outgoing, incoming }

/-- Whether the connection in either direction is another one than at the given version. -/
def wasConnectionInterrupted (version : ConnectionVersion) : NodeResult Bool := do
  let outgoing ← connectivity.outgoing.version
  if outgoing ≠ version.outgoing then return true
  else do
    let incoming ← connectivity.incoming.version
    return incoming ≠ version.incoming

/-- The outgoing connection, if it is of the expected version. -/
def outgoingConnectionAsserting (expected : ConnectionVersion) : NodeResult Outgoing := do
  require (connectivity.outgoing.current.version = expected.outgoing)
    ("Connection was reset (expected version " ++ toString expected.outgoing ++ " but got " ++
      toString connectivity.outgoing.current.version ++ ")")
  okOr connectivity.outgoing.upgrade "Connection was dropped"

end NodeConnectivity

/-! ### What has been current since a version was captured -/

/-- The connections with a peer, and those that have been current since some moment, oldest first.
-/
structure ConnectivityHistory (Outgoing Incoming : Type) where
  connectivity : NodeConnectivity Outgoing Incoming
  outgoingSince : List Outgoing
  incomingSince : List Incoming

namespace ConnectivityHistory

variable {Outgoing Incoming : Type} [DecidableEq Outgoing] [DecidableEq Incoming]
  [SenderConnectionId Incoming]

/-- The history from this moment on. -/
def capture (connectivity : NodeConnectivity Outgoing Incoming) :
    ConnectivityHistory Outgoing Incoming where
  connectivity
  outgoingSince := connectivity.outgoing.upgrade.toList
  incomingSince := connectivity.incoming.upgrade.toList

variable (history : ConnectivityHistory Outgoing Incoming)

/-- The history after an event. A connection that was dropped is not set again, and a connection of
the peer may be refused. -/
def step :
    ConnectivityEvent Outgoing Incoming → NodeResult (ConnectivityHistory Outgoing Incoming)
  | .setOutgoing connection =>
      if connection ∈ history.connectivity.outgoing.dropped then .ok history
      else do
        let connectivity ← history.connectivity.setOutgoingConnection connection
        return { history with
          connectivity, outgoingSince := history.outgoingSince ++ [connection] }
  | .setIncoming connection =>
      if connection ∈ history.connectivity.incoming.dropped then .ok history
      else match history.connectivity.setIncomingConnection connection with
        | .ok connectivity => .ok { history with
            connectivity, incomingSince := history.incomingSince ++ [connection] }
        | .err _ => .ok history
        | .panicked => .panicked
  | .dropOutgoing connection => .ok { history with
      connectivity.outgoing := history.connectivity.outgoing.drop connection }
  | .dropIncoming connection => .ok { history with
      connectivity.incoming := history.connectivity.incoming.drop connection }

def run (events : List (ConnectivityEvent Outgoing Incoming)) :
    NodeResult (ConnectivityHistory Outgoing Incoming) :=
  events.foldlM step history

variable {history next : ConnectivityHistory Outgoing Incoming} {captured : ConnectionVersion}

/-- Both directions agree with the captured version and what has been current since then. -/
structure Tracks (captured : ConnectionVersion)
    (history : ConnectivityHistory Outgoing Incoming) : Prop where
  outgoing : history.connectivity.outgoing.Tracks captured.outgoing history.outgoingSince
  incoming : history.connectivity.incoming.Tracks captured.incoming history.incomingSince

/-- In both directions the version is at least as large as before. -/
structure Advances (earlier later : NodeConnectivity Outgoing Incoming) : Prop where
  outgoing : earlier.outgoing.effectiveVersion ≤ later.outgoing.effectiveVersion
  incoming : earlier.incoming.effectiveVersion ≤ later.incoming.effectiveVersion

omit [SenderConnectionId Incoming] in
theorem Advances.refl (connectivity : NodeConnectivity Outgoing Incoming) :
    Advances connectivity connectivity := ⟨le_rfl, le_rfl⟩

/-- What one event does to both directions. -/
theorem Tracks.step (htracks : history.Tracks captured) {event}
    (hstep : history.step event = .ok next) :
    next.Tracks captured ∧ Advances history.connectivity next.connectivity := by
  cases event with
  | setOutgoing =>
    simp only [ConnectivityHistory.step] at hstep
    split_ifs at hstep
    · cases hstep
      exact ⟨htracks, .refl _⟩
    · obtain ⟨_, hset, hdone⟩ := bind_eq_ok.mp hstep
      obtain ⟨_, hreplace, hrest⟩ := bind_eq_ok.mp hset
      cases hrest
      cases hdone
      exact ⟨⟨htracks.outgoing.replace hreplace, htracks.incoming⟩,
        Direction.effectiveVersion_le_replace htracks.outgoing.counter hreplace, le_rfl⟩
  | setIncoming =>
    simp only [ConnectivityHistory.step] at hstep
    split_ifs at hstep
    · cases hstep
      exact ⟨htracks, .refl _⟩
    · split at hstep
      · rename_i connectivity hset
        obtain ⟨_, -, hrest⟩ := bind_eq_ok.mp hset
        obtain ⟨_, hreplace, hrest⟩ := bind_eq_ok.mp hrest
        cases hrest
        cases hstep
        exact ⟨⟨htracks.outgoing, htracks.incoming.replace hreplace⟩, le_rfl,
          Direction.effectiveVersion_le_replace htracks.incoming.counter hreplace⟩
      · cases hstep
        exact ⟨htracks, .refl _⟩
      · exact absurd hstep (by simp)
  | dropOutgoing connection =>
    cases hstep
    exact ⟨⟨htracks.outgoing.drop connection, htracks.incoming⟩,
      Direction.effectiveVersion_le_drop _ connection, le_rfl⟩
  | dropIncoming connection =>
    cases hstep
    exact ⟨⟨htracks.outgoing, htracks.incoming.drop connection⟩, le_rfl,
      Direction.effectiveVersion_le_drop _ connection⟩

variable {events : List (ConnectivityEvent Outgoing Incoming)}

theorem Tracks.run (htracks : history.Tracks captured) (hrun : history.run events = .ok next) :
    next.Tracks captured ∧ Advances history.connectivity next.connectivity := by
  induction events generalizing history with
  | nil =>
    cases hrun
    exact ⟨htracks, .refl _⟩
  | cons _ _ ih =>
    obtain ⟨_, hstep, hrest⟩ := bind_eq_ok.mp hrun
    obtain ⟨hmiddle, hfirst⟩ := htracks.step hstep
    obtain ⟨hlast, hlater⟩ := ih hmiddle hrest
    exact ⟨hlast, hfirst.outgoing.trans hlater.outgoing, hfirst.incoming.trans hlater.incoming⟩

/-- A version that is captured after any events starts a history that agrees with it. -/
theorem tracks_capture
    (hrun : (capture .new : ConnectivityHistory Outgoing Incoming).run events = .ok history)
    (hversion : history.connectivity.connectionVersion = .ok captured) :
    (capture history.connectivity).Tracks captured := by
  have hnew : (capture .new : ConnectivityHistory Outgoing Incoming).Tracks
      ⟨1, 1⟩ :=
    ⟨⟨rfl, rfl, by simp [capture, NodeConnectivity.new, Direction.new, Direction.upgrade],
      fun _ ↦ rfl⟩, ⟨rfl, rfl, by
        simp [capture, NodeConnectivity.new, Direction.new, Direction.upgrade], fun _ ↦ rfl⟩⟩
  obtain ⟨htracks, -⟩ := hnew.run hrun
  obtain ⟨_, houtgoing, hrest⟩ := bind_eq_ok.mp hversion
  obtain ⟨_, hincoming, hdone⟩ := bind_eq_ok.mp hrest
  cases hdone
  exact ⟨Direction.tracks_of_version htracks.outgoing.counter houtgoing,
    Direction.tracks_of_version htracks.incoming.counter hincoming⟩

/-- What a version that was captured tells about a history and a later one. -/
structure InterruptionSound (captured : ConnectionVersion)
    (history later : ConnectivityHistory Outgoing Incoming) : Prop where
  nondecreasing : ∀ version, history.connectivity.connectionVersion = .ok version →
    captured.outgoing ≤ version.outgoing ∧ captured.incoming ≤ version.incoming
  sticky : history.connectivity.wasConnectionInterrupted captured = .ok true →
    later.connectivity.wasConnectionInterrupted captured ≠ .ok false
  sound : history.connectivity.wasConnectionInterrupted captured = .ok false →
    (history.outgoingSince.length ≤ 1 ∧
      ∀ connection ∈ history.outgoingSince, connection ∉ history.connectivity.outgoing.dropped) ∧
    history.incomingSince.length ≤ 1 ∧
      ∀ connection ∈ history.incomingSince, connection ∉ history.connectivity.incoming.dropped
  asserting : ∀ connection,
    history.connectivity.outgoingConnectionAsserting captured = .ok connection →
      history.outgoingSince = [connection]

omit [SenderConnectionId Incoming] in
theorem wasConnectionInterrupted_eq_ok {connectivity : NodeConnectivity Outgoing Incoming}
    {interrupted : Bool}
    (hresult : connectivity.wasConnectionInterrupted captured = .ok interrupted) :
    (interrupted = true ↔ connectivity.outgoing.effectiveVersion ≠ captured.outgoing ∨
      connectivity.incoming.effectiveVersion ≠ captured.incoming) ∧
    (interrupted = false → connectivity.outgoing.version = .ok captured.outgoing ∧
      connectivity.incoming.version = .ok captured.incoming) := by
  obtain ⟨_, houtgoing, hrest⟩ := bind_eq_ok.mp hresult
  have hout := Direction.version_eq_ok houtgoing
  split_ifs at hrest with hdiffers
  · cases hrest
    exact ⟨by simp [← hout, hdiffers], nofun⟩
  · obtain ⟨incoming, hincoming, hdone⟩ := bind_eq_ok.mp hrest
    cases hdone
    have hin := Direction.version_eq_ok hincoming
    rw [not_not] at hdiffers
    refine ⟨by simp [← hout, ← hin, hdiffers], fun hsame ↦ ?_⟩
    rw [← hdiffers, ← show incoming = captured.incoming by simpa using hsame]
    exact ⟨houtgoing, hincoming⟩

end ConnectivityHistory

/-- Interruptions are detected: for every version that is captured after some events, and whatever
connections are made and dropped afterwards. -/
theorem interruption_sound {Outgoing Incoming : Type} [DecidableEq Outgoing] [DecidableEq Incoming]
    [SenderConnectionId Incoming] (before middle last : List (ConnectivityEvent Outgoing Incoming))
    (start history later : ConnectivityHistory Outgoing Incoming) (captured : ConnectionVersion)
    (hbefore : (ConnectivityHistory.capture .new).run before = .ok start)
    (hcaptured : start.connectivity.connectionVersion = .ok captured)
    (hmiddle : (ConnectivityHistory.capture start.connectivity).run middle = .ok history)
    (hlast : history.run last = .ok later) :
    ConnectivityHistory.InterruptionSound captured history later := by
  have hstart := ConnectivityHistory.tracks_capture hbefore hcaptured
  obtain ⟨htracks, hadvances⟩ := hstart.run hmiddle
  obtain ⟨-, hlater⟩ := htracks.run hlast
  have hversion : captured.outgoing = start.connectivity.outgoing.effectiveVersion ∧
      captured.incoming = start.connectivity.incoming.effectiveVersion := by
    obtain ⟨_, houtgoing, hrest⟩ := bind_eq_ok.mp hcaptured
    obtain ⟨_, hincoming, hdone⟩ := bind_eq_ok.mp hrest
    cases hdone
    exact ⟨Direction.version_eq_ok houtgoing, Direction.version_eq_ok hincoming⟩
  have hout : captured.outgoing ≤ history.connectivity.outgoing.effectiveVersion :=
    hversion.1.trans_le hadvances.outgoing
  have hin : captured.incoming ≤ history.connectivity.incoming.effectiveVersion :=
    hversion.2.trans_le hadvances.incoming
  constructor
  case nondecreasing =>
    intro version hnow
    obtain ⟨_, houtgoing, hrest⟩ := bind_eq_ok.mp hnow
    obtain ⟨_, hincoming, hdone⟩ := bind_eq_ok.mp hrest
    cases hdone
    exact ⟨hout.trans_eq (Direction.version_eq_ok houtgoing).symm,
      hin.trans_eq (Direction.version_eq_ok hincoming).symm⟩
  case sticky =>
    intro hnow hnever
    have hdiffers := (ConnectivityHistory.wasConnectionInterrupted_eq_ok hnow).1.mp rfl
    have hsame := (ConnectivityHistory.wasConnectionInterrupted_eq_ok hnever).1
    have houtLater := hlater.outgoing
    have hinLater := hlater.incoming
    refine absurd (hsame.mpr ?_) Bool.false_ne_true
    rcases hdiffers with hdiffers | hdiffers
    · exact .inl (by omega)
    · exact .inr (by omega)
  case sound =>
    intro hnow
    obtain ⟨houtgoing, hincoming⟩ := (ConnectivityHistory.wasConnectionInterrupted_eq_ok hnow).2 rfl
    exact ⟨htracks.outgoing.uninterrupted houtgoing, htracks.incoming.uninterrupted hincoming⟩
  case asserting =>
    intro connection hasserted
    obtain ⟨_, hexpected, hupgrade⟩ := bind_eq_ok.mp hasserted
    have hsum := htracks.outgoing.version
    rw [require_eq_ok.mp hexpected] at hsum
    exact htracks.outgoing.eq_singleton (okOr_eq_ok.mp hupgrade) (by omega)

/-- Connections that are named by their numbers. -/
instance : SenderConnectionId ℕ := ⟨UInt32.ofNat⟩

/-- A version is captured before there is a connection; then one is made in each direction, and one
of them is replaced. -/
theorem interruption_sound_reconnect : ∃ history later : ConnectivityHistory ℕ ℕ,
    (ConnectivityHistory.capture .new).run [.setOutgoing 5, .setIncoming 6] =
        .ok history ∧
      history.run [.dropOutgoing 5, .setOutgoing 7] = .ok later ∧
      history.connectivity.wasConnectionInterrupted ⟨1, 1⟩ = .ok false ∧
      history.connectivity.outgoingConnectionAsserting ⟨1, 1⟩ = .ok 5 ∧
      later.connectivity.wasConnectionInterrupted ⟨1, 1⟩ = .ok true ∧
      ConnectivityHistory.InterruptionSound ⟨1, 1⟩ history later :=
  ⟨_, _, rfl, rfl, by decide, by decide, by decide,
    interruption_sound [] [.setOutgoing 5, .setIncoming 6] [.dropOutgoing 5, .setOutgoing 7] _ _ _
      ⟨1, 1⟩ rfl rfl rfl rfl⟩

end NearMpc.Node
