import NearMpc.Threshold.Ecdsa

/-!
# The protocol interface

What a caller of the library sees of a protocol: it is poked for its next action and told about the
messages that arrive. Follows `protocol/mod.rs`.

Nothing is assumed about a protocol. It "should be poked until it returns an error, or it returns an
action with a return value, or it returns a wait action", which need not come; a poke may panic, and
a private message may be for anyone.
-/

set_option autoImplicit false

namespace NearMpc.Threshold

open Library

abbrev MessageData := List UInt8

/-- An action by a participant in the protocol. -/
inductive Action (Output : Type) where
  | wait
  | sendMany (data : MessageData)
  | sendPrivate (recipient : Participant) (data : MessageData)
  | returned (result : Output)

inductive MessageError where
  | bufferFull (capacity : ℕ)
  | tooShort (len min : ℕ)
  | invalidHeader
deriving DecidableEq, Repr

/-- The text of an error. -/
def MessageError.display : MessageError → String
  | bufferFull capacity =>
      "incoming message buffer is full (capacity: " ++ toString capacity ++ ")"
  | tooShort len min =>
      "message too short (" ++ toString len ++ " bytes, need at least " ++ toString min ++ ")"
  | invalidHeader => "message has an invalid header"

/-- A protocol. Poking it may panic, as any code that it runs may. -/
structure Protocol (Output : Type) where
  State : Type
  start : State
  poke : State → State × Outcome ProtocolError (Action Output)
  message : State → Participant → MessageData → State × Except MessageError Unit

end NearMpc.Threshold
