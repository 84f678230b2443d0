import NearMpc.Contract.TeeState
import NearMpc.Library.BigEndian
import NearMpc.Library.HashChain

/-!
# Event logs of a quote

A quote contains the value of RTMR3, a register that the platform extends with the digest of every
event of the guest. The events themselves come with the quote and are not signed. The verifier
replays them: it recomputes each digest and extends a register of its own, which has to end in the
value of the quote. Follows `verify_event_log_rtmr3`, `event_digest` and `get_single_event` of the
`attestation` crate.

The digest of an event is taken over its name and its payload with a colon in between. The register
determines these strings one by one (`encodings_eq`), but not where the name ends: two logs can move
the boundary past another colon.
-/

set_option autoImplicit false

namespace NearMpc.Contract

open Library

/-! ### Hex strings -/

/-- `str::as_bytes` -/
def asBytes (text : String) : List UInt8 := text.toByteArray.data.toList

theorem asBytes_injective : Function.Injective asBytes := by
  intro _ _ hbytes
  exact String.toByteArray_inj.mp (ByteArray.ext (Array.toList_inj.mp hbytes))

/-- The errors of the `hex` crate. -/
inductive FromHexError where
  | invalidHexCharacter (c : Char) (index : ℕ)
  | oddLength
deriving DecidableEq, Repr

/-- The value of a hex digit of either case. -/
def hexValue (byte : UInt8) (index : ℕ) : Except FromHexError UInt8 :=
  if 65 ≤ byte ∧ byte ≤ 70 then .ok (byte - 65 + 10)
  else if 97 ≤ byte ∧ byte ≤ 102 then .ok (byte - 97 + 10)
  else if 48 ≤ byte ∧ byte ≤ 57 then .ok (byte - 48)
  else .error (.invalidHexCharacter (Char.ofNat byte.toNat) index)

def hexDecodeFrom : ℕ → List UInt8 → Except FromHexError (List UInt8)
  | index, high :: low :: rest => do
      let high ← hexValue high index
      let low ← hexValue low (index + 1)
      let rest ← hexDecodeFrom (index + 2) rest
      return (high <<< 4 ||| low) :: rest
  | _, _ => .ok []

/-- `hex::decode` -/
def hexDecode (text : String) : Except FromHexError (List UInt8) :=
  if (asBytes text).length % 2 = 0 then hexDecodeFrom 0 (asBytes text) else .error .oddLength

def hexDigit (value : ℕ) : Char := Char.ofNat (if value < 10 then 48 + value else 87 + value)

/-- `hex::encode` -/
def hexEncode (bytes : List UInt8) : String :=
  String.ofList (bytes.flatMap fun byte ↦ [hexDigit (byte.toNat / 16), hexDigit (byte.toNat % 16)])

/-! ### Events -/

/-- `HexBytes<48>` -/
abbrev Digest := Vector UInt8 48

def Digest.zero : Digest := Vector.replicate 48 0

structure EventLog where
  imr : UInt32
  eventType : UInt32
  digest : Digest
  event : String
  eventPayload : String
deriving DecidableEq

def dstackEventType : UInt32 := 134217729

def rtmr3Index : UInt32 := 3

/-- The byte that separates the parts of an event. -/
def colon : UInt8 := 58

/-- The name and the payload of an event as they are hashed. -/
def eventEncoding (event : String) (payload : List UInt8) : List UInt8 :=
  asBytes event ++ colon :: payload

/-- What the digest of an event is taken over; the event type is in little-endian order. -/
def eventInput (eventType : UInt32) (event : String) (payload : List UInt8) : List UInt8 :=
  (BigEndian.toBytes 4 eventType.toNat).reverse ++ colon :: eventEncoding event payload

def eventDigest (sha384 : List UInt8 → Digest) (eventType : UInt32) (event : String)
    (payload : List UInt8) : Digest :=
  sha384 (eventInput eventType event payload)

/-- The register after it is extended with a digest. -/
def extendRegister (sha384 : List UInt8 → Digest) (register digest : Digest) : Digest :=
  sha384 (register.toList ++ digest.toList)

theorem except_bind_eq_ok {Failure Value Result : Type} {first}
    {next : Value → Except Failure Result} {result} :
    (first >>= next) = .ok result ↔ ∃ value, first = .ok value ∧ next value = .ok result := by
  cases first <;> simp [bind, Except.bind]

def compareHashes (name : String) (found expected : List UInt8) : Except VerificationError Unit :=
  if found = expected then .ok ()
  else .error (.quote ("wrong " ++ name ++ " hash (found " ++ hexEncode found ++ " expected " ++
    hexEncode expected ++ ")"))

theorem compareHashes_eq_ok {name found expected} :
    compareHashes name found expected = .ok () ↔ found = expected := by
  unfold compareHashes
  split_ifs with hsame <;> simp [hsame]

/-- The payload of an event, if it is a hex string. -/
def EventLog.payload? (event : EventLog) : Option (List UInt8) :=
  (hexDecode event.eventPayload).toOption

/-- The events that RTMR3 is extended with. -/
def rtmr3Events (log : List EventLog) : List EventLog :=
  log.filter fun event ↦ event.imr = rtmr3Index

/-- The loop over the events of RTMR3. -/
def replay (sha384 : List UInt8 → Digest) :
    Digest → List EventLog → Except VerificationError Digest
  | register, [] => .ok register
  | register, event :: rest =>
      if event.eventType ≠ dstackEventType then
        .error (.quote ("invalid event type " ++ toString event.eventType))
      else match hexDecode event.eventPayload with
        | .error _ => .error (.quote ("failed to decode event digest `" ++
            hexEncode event.digest.toList ++ "`"))
        | .ok payload => do
            compareHashes "event_digest" event.digest.toList
              (eventDigest sha384 event.eventType event.event payload).toList
            replay sha384 (extendRegister sha384 register event.digest) rest

def verifyEventLogRtmr3 (sha384 : List UInt8 → Digest) (log : List EventLog)
    (expectedDigest : Digest) : Except VerificationError Unit := do
  let digest ← replay sha384 Digest.zero (rtmr3Events log)
  compareHashes "event_log" digest.toList expectedDigest.toList

/-- The only event of RTMR3 with a name. -/
def getSingleEvent (log : List EventLog) (eventName : String) :
    Except VerificationError EventLog :=
  match log.filter fun event ↦ event.event = eventName ∧ event.imr = rtmr3Index with
  | [] => .error (.quote ("no " ++ eventName ++ " event in event log"))
  | [event] => .ok event
  | _ => .error (.quote ("duplicate " ++ eventName ++ " events in event log"))

/-! ### Replays -/

/-- The name and the payload of an event as they are hashed. -/
def EventLog.encoding (event : EventLog) : List UInt8 :=
  eventEncoding event.event (event.payload?.getD [])

/-- An event that the replay accepts. -/
def EventLog.Replays (sha384 : List UInt8 → Digest) (event : EventLog) : Prop :=
  event.eventType = dstackEventType ∧ event.payload?.isSome = true ∧
    event.digest = eventDigest sha384 event.eventType event.event (event.payload?.getD [])

variable {sha384 : List UInt8 → Digest} {log other : List EventLog} {rtmr3 : Digest}

theorem replay_eq_ok {register final events} :
    replay sha384 register events = .ok final ↔
      (∀ event ∈ events, event.Replays sha384) ∧
        HashChain.value (extendRegister sha384) register (events.map EventLog.digest) = final := by
  induction events generalizing register with
  | nil => simp [replay, HashChain.value]
  | cons event rest ih =>
    rw [List.forall_mem_cons, List.map_cons, HashChain.value, List.foldl_cons, ← HashChain.value]
    simp only [replay, EventLog.Replays, EventLog.payload?]
    by_cases htype : event.eventType = dstackEventType
    · cases hpayload : hexDecode event.eventPayload with
      | error => simp [htype, Except.toOption]
      | ok payload =>
        simp only [htype, ne_eq, not_true_eq_false, if_false, true_and, Except.toOption,
          Option.isSome_some, Option.getD_some]
        by_cases hdigest : event.digest = eventDigest sha384 dstackEventType event.event payload
        · rw [compareHashes_eq_ok.mpr (by rw [hdigest])]
          change replay sha384 (extendRegister sha384 register event.digest) rest = .ok final ↔ _
          rw [ih, and_iff_right hdigest]
          rfl
        · have hbytes : event.digest.toList ≠
              (eventDigest sha384 dstackEventType event.event payload).toList :=
            fun hsame ↦ hdigest (Vector.toList_inj.mp hsame)
          rw [compareHashes, if_neg hbytes]
          change Except.error _ = Except.ok final ↔ _
          simp [hdigest]
    · simp [htype]

theorem verifyEventLogRtmr3_eq_ok :
    verifyEventLogRtmr3 sha384 log rtmr3 = .ok () ↔
      (∀ event ∈ rtmr3Events log, event.Replays sha384) ∧
        HashChain.value (extendRegister sha384) Digest.zero
          ((rtmr3Events log).map EventLog.digest) = rtmr3 := by
  rw [← replay_eq_ok]
  simp only [verifyEventLogRtmr3, except_bind_eq_ok, compareHashes_eq_ok, Vector.toList_inj,
    exists_eq_right]

/-! ### What the register determines -/

/-- The inputs that a replay hashes: those of the events, and those of the register. -/
def hashedInputs (sha384 : List UInt8 → Digest) (log : List EventLog) : List (List UInt8) :=
  (rtmr3Events log).map (fun event ↦
      eventInput event.eventType event.event (event.payload?.getD [])) ++
    (HashChain.links (extendRegister sha384) Digest.zero
      ((rtmr3Events log).map EventLog.digest)).map fun link ↦ link.1.toList ++ link.2.toList

/-- No two of the inputs collide and none has the all-zero digest. -/
structure CollisionFree (sha384 : List UInt8 → Digest) (inputs : List (List UInt8)) : Prop where
  injective : ∀ first ∈ inputs, ∀ second ∈ inputs, sha384 first = sha384 second → first = second
  nonzero : ∀ input ∈ inputs, sha384 input ≠ Digest.zero

/-- Lists that agree under one map agree under every map that it determines on their elements. -/
theorem map_eq_map_of_map_eq {Item Key Value : Type} {key : Item → Key} {value : Item → Value}
    {first second : List Item} (hkeys : first.map key = second.map key)
    (hvalue : ∀ item ∈ first, ∀ other ∈ second, key item = key other → value item = value other) :
    first.map value = second.map value := by
  induction first generalizing second with
  | nil => rw [List.map_eq_nil_iff.mp hkeys.symm]
  | cons item _ ih =>
    obtain ⟨other, _, rfl, hkey, hrest⟩ := List.map_eq_cons_iff.mp hkeys.symm
    rw [List.map_cons, List.map_cons,
      hvalue item List.mem_cons_self other List.mem_cons_self hkey.symm,
      ih hrest.symm fun item hitem other hother ↦
        hvalue item (List.mem_cons_of_mem _ hitem) other (List.mem_cons_of_mem _ hother)]

/-- Where a kept value of the second list is also the value of the first, the kept values of the
second list are some of those of the first. -/
theorem sublist_of_map_eq {Item Key Value : Type} {key : Item → Key} {value : Item → Value}
    {first second : List Item} (keep : Value → Bool) (hkeys : first.map key = second.map key)
    (hvalue : ∀ item ∈ first, ∀ other ∈ second, key item = key other →
      keep (value other) = true → value item = value other) :
    ((second.map value).filter keep).Sublist ((first.map value).filter keep) := by
  induction first generalizing second with
  | nil => rw [List.map_eq_nil_iff.mp hkeys.symm]
  | cons item rest ih =>
    obtain ⟨other, others, rfl, hkey, hrest⟩ := List.map_eq_cons_iff.mp hkeys.symm
    have hsublist := ih hrest.symm fun item hitem other hother ↦
      hvalue item (List.mem_cons_of_mem _ hitem) other (List.mem_cons_of_mem _ hother)
    rw [List.map_cons, List.map_cons]
    by_cases hkept : keep (value other) = true
    · rw [hvalue item List.mem_cons_self other List.mem_cons_self hkey.symm hkept,
        List.filter_cons_of_pos hkept, List.filter_cons_of_pos hkept]
      exact hsublist.cons_cons _
    · rw [List.filter_cons_of_neg hkept]
      exact hsublist.trans ((List.sublist_cons_self _ _).filter _)

/-! ### Names without a colon -/

/-- The names and the decoded payloads of the events of RTMR3. -/
def entries (log : List EventLog) : List (String × Option (List UInt8)) :=
  (rtmr3Events log).map fun event ↦ (event.event, event.payload?)

/-- No name of an event of RTMR3 has a colon. -/
def NamesUnambiguous (log : List EventLog) : Prop :=
  ∀ event ∈ rtmr3Events log, colon ∉ asBytes event.event

theorem append_cons_inj {Item : Type} {separator : Item} {first second rest others : List Item}
    (hfirst : separator ∉ first) (hsecond : separator ∉ second)
    (hsame : first ++ separator :: rest = second ++ separator :: others) :
    first = second ∧ rest = others := by
  induction first generalizing second with
  | nil =>
    cases second with
    | nil => exact ⟨rfl, List.tail_eq_of_cons_eq hsame⟩
    | cons =>
      obtain rfl := List.head_eq_of_cons_eq hsame
      exact absurd List.mem_cons_self hsecond
  | cons _ _ ih =>
    cases second with
    | nil =>
      obtain rfl := List.head_eq_of_cons_eq hsame
      exact absurd List.mem_cons_self hfirst
    | cons =>
      obtain ⟨rfl, htail⟩ := List.cons.inj hsame
      rw [List.mem_cons, not_or] at hfirst hsecond
      obtain ⟨rfl, hrest⟩ := ih hfirst.2 hsecond.2 htail
      exact ⟨rfl, hrest⟩

/-- No payload of an event of RTMR3 with the given name has a colon. -/
def PayloadsUnambiguous (log : List EventLog) (eventName : String) : Prop :=
  ∀ event ∈ rtmr3Events log, event.event = eventName → colon ∉ event.payload?.getD []

/-- An event with only the colon between its name and its payload can only be read in one way. -/
theorem name_unambiguous {event next : EventLog} (hencoding : event.encoding = next.encoding)
    (hname : colon ∉ asBytes event.event) (hpayload : colon ∉ event.payload?.getD []) :
    colon ∉ asBytes next.event := by
  have hcount := congrArg (List.count colon) hencoding
  simp only [EventLog.encoding, eventEncoding, List.count_append, List.count_cons_self,
    List.count_eq_zero_of_not_mem hname, List.count_eq_zero_of_not_mem hpayload] at hcount
  exact List.count_eq_zero.mp (by omega)

/-- The entries with a name. -/
def entriesNamed (log : List EventLog) (eventName : String) :
    List (String × Option (List UInt8)) :=
  (entries log).filter fun entry ↦ entry.1 = eventName

/-! ### Two logs that replay to one value -/

section TwoLogs

variable (hlog : verifyEventLogRtmr3 sha384 log rtmr3 = .ok ())
  (hother : verifyEventLogRtmr3 sha384 other rtmr3 = .ok ())
  (hfree : CollisionFree sha384 (hashedInputs sha384 log ++ hashedInputs sha384 other))
include hlog hother hfree

/-- Two logs that replay to the same value have the same event digests. -/
theorem digests_eq :
    (rtmr3Events log).map EventLog.digest = (rtmr3Events other).map EventLog.digest := by
  obtain ⟨-, hvalue⟩ := verifyEventLogRtmr3_eq_ok.mp hlog
  obtain ⟨-, hotherValue⟩ := verifyEventLogRtmr3_eq_ok.mp hother
  have hinput : ∀ {log : List EventLog} {link : Digest × Digest},
      link ∈ HashChain.links (extendRegister sha384) Digest.zero
        ((rtmr3Events log).map EventLog.digest) →
      link.1.toList ++ link.2.toList ∈ hashedInputs sha384 log :=
    fun hlink ↦ List.mem_append_right _ (List.mem_map_of_mem hlink)
  refine (HashChain.eq_of_value_eq ?_ ?_ ?_ (hvalue.trans hotherValue.symm)).2
  · intro _ hlink _ hnext hsame
    have hbytes := hfree.injective _ (List.mem_append_left _ (hinput hlink)) _
      (List.mem_append_right _ (hinput hnext)) hsame
    obtain ⟨hregister, hdigest⟩ := List.append_inj hbytes (by simp)
    exact Prod.ext (Vector.toList_inj.mp hregister) (Vector.toList_inj.mp hdigest)
  · exact fun link hlink ↦ hfree.nonzero _ (List.mem_append_left _ (hinput hlink))
  · exact fun link hlink ↦ hfree.nonzero _ (List.mem_append_right _ (hinput hlink))

/-- Two logs that replay to the same value have the same names and payloads, up to where the names
end. -/
theorem encodings_eq :
    (rtmr3Events log).map EventLog.encoding = (rtmr3Events other).map EventLog.encoding := by
  obtain ⟨hreplays, -⟩ := verifyEventLogRtmr3_eq_ok.mp hlog
  obtain ⟨hotherReplays, -⟩ := verifyEventLogRtmr3_eq_ok.mp hother
  have hinput : ∀ {log : List EventLog} {event : EventLog}, event ∈ rtmr3Events log →
      eventInput event.eventType event.event (event.payload?.getD []) ∈ hashedInputs sha384 log :=
    fun hevent ↦ List.mem_append_left _ (List.mem_map_of_mem hevent)
  refine map_eq_map_of_map_eq (digests_eq hlog hother hfree) ?_
  intro event hevent next hnext hdigest
  obtain ⟨htype, -, hhash⟩ := hreplays event hevent
  obtain ⟨hnextType, -, hnextHash⟩ := hotherReplays next hnext
  rw [hhash, hnextHash] at hdigest
  have hbytes := hfree.injective _ (List.mem_append_left _ (hinput hevent)) _
    (List.mem_append_right _ (hinput hnext)) hdigest
  rw [htype, hnextType] at hbytes
  exact List.cons_inj_right colon |>.mp (List.append_cancel_left hbytes)

variable (hnames : NamesUnambiguous log)
include hnames

omit hfree in
/-- Two events with one encoding, of which the first was measured, and no colon in the name of the
second, have one name and one payload. -/
theorem entry_eq {event next : EventLog} (hevent : event ∈ rtmr3Events log)
    (hnext : next ∈ rtmr3Events other) (hencoding : event.encoding = next.encoding)
    (hnextName : colon ∉ asBytes next.event) :
    (event.event, event.payload?) = (next.event, next.payload?) := by
  obtain ⟨-, hsome, -⟩ := (verifyEventLogRtmr3_eq_ok.mp hlog).1 event hevent
  obtain ⟨-, hnextSome, -⟩ := (verifyEventLogRtmr3_eq_ok.mp hother).1 next hnext
  obtain ⟨_, hpayload⟩ := Option.isSome_iff_exists.mp hsome
  obtain ⟨_, hnextPayload⟩ := Option.isSome_iff_exists.mp hnextSome
  obtain ⟨hsameName, hsame⟩ := append_cons_inj (hnames event hevent) hnextName hencoding
  rw [hpayload, hnextPayload, Option.getD_some, Option.getD_some] at hsame
  rw [asBytes_injective hsameName, hpayload, hnextPayload, hsame]

/-- Two logs without colons in their names that replay to the same value have the same entries. -/
theorem entries_eq (hotherNames : NamesUnambiguous other) : entries log = entries other := by
  refine map_eq_map_of_map_eq (encodings_eq hlog hother hfree) ?_
  intro event hevent next hnext hencoding
  exact entry_eq hlog hother hnames hevent hnext hencoding (hotherNames next hnext)

variable {eventName : String} (hname : colon ∉ asBytes eventName)
include hname

/-- If no measured name has a colon, the entries another log presents under a name without a colon
are measured ones. -/
theorem entriesNamed_sublist :
    (entriesNamed other eventName).Sublist (entriesNamed log eventName) := by
  refine sublist_of_map_eq _ (encodings_eq hlog hother hfree) ?_
  intro event hevent next hnext hencoding hnamed
  have hnextName : next.event = eventName := of_decide_eq_true hnamed
  exact entry_eq hlog hother hnames hevent hnext hencoding (hnextName ▸ hname)

/-- If their payloads have no colon either, they are all of the measured ones. -/
theorem entriesNamed_eq (hpayloads : PayloadsUnambiguous log eventName) :
    entriesNamed log eventName = entriesNamed other eventName := by
  refine List.Sublist.antisymm (sublist_of_map_eq _ (encodings_eq hlog hother hfree).symm ?_)
    (entriesNamed_sublist hlog hother hfree hnames hname)
  intro next hnext event hevent hencoding hnamed
  refine (entry_eq hlog hother hnames hevent hnext hencoding.symm ?_).symm
  exact name_unambiguous hencoding.symm (hnames event hevent)
    (hpayloads event hevent (of_decide_eq_true hnamed))

end TwoLogs

/-- The payload of the event that is selected by a name. -/
def selectedPayload (log : List EventLog) (eventName : String) :
    Except VerificationError (Option (List UInt8)) :=
  (getSingleEvent log eventName).map EventLog.payload?

/-- The selection only looks at the entries with the name. -/
theorem selectedPayload_eq (log : List EventLog) (eventName : String) :
    selectedPayload log eventName =
      match entriesNamed log eventName with
      | [] => .error (.quote ("no " ++ eventName ++ " event in event log"))
      | [entry] => .ok entry.2
      | _ => .error (.quote ("duplicate " ++ eventName ++ " events in event log")) := by
  have hfilter : entriesNamed log eventName =
      (log.filter fun event ↦ event.event = eventName ∧ event.imr = rtmr3Index).map
        fun event ↦ (event.event, event.payload?) := by
    rw [entriesNamed, entries, List.filter_map, rtmr3Events, List.filter_filter]
    simp only [Function.comp_apply, Bool.decide_and]
  rw [hfilter, selectedPayload, getSingleEvent]
  cases log.filter fun event ↦ event.event = eventName ∧ event.imr = rtmr3Index with
  | nil => rfl
  | cons _ rest => cases rest <;> rfl

theorem selectedPayload_congr {eventName}
    (hsame : entriesNamed log eventName = entriesNamed other eventName) :
    selectedPayload log eventName = selectedPayload other eventName := by
  rw [selectedPayload_eq, selectedPayload_eq, hsame]

theorem mem_entriesNamed_of_getSingleEvent {eventName event}
    (hevent : getSingleEvent log eventName = .ok event) :
    (eventName, event.payload?) ∈ entriesNamed log eventName := by
  have hselected : selectedPayload log eventName = .ok event.payload? :=
    congrArg (Except.map EventLog.payload?) hevent
  rw [selectedPayload_eq] at hselected
  split at hselected
  · cases hselected
  next entry hnamed =>
    have hentry : entry ∈ entriesNamed log eventName := hnamed ▸ List.mem_cons_self
    have hname : entry.1 = eventName := of_decide_eq_true (List.mem_filter.mp hentry).2
    have hsame : entry = (eventName, event.payload?) := Prod.ext hname (Except.ok.inj hselected)
    exact hsame ▸ hentry
  · cases hselected

/-! ### The events that a verifier selects -/

def composeHashEvent : String := "compose-hash"

def keyProviderEvent : String := "key-provider"

def mpcImageHashEvent : String := "mpc-image-digest"

/-- The names by which the verifier of a quote selects events. -/
def selectedNames : List String := [composeHashEvent, keyProviderEvent, mpcImageHashEvent]

namespace SampleLog

/-- The end of the input, after a byte that is not zero. -/
def tailHash (bytes : List UInt8) : Digest :=
  Vector.ofFn fun index ↦ if index.val = 0 then 1 else bytes.reverse.getD (index.val - 1) 0

/-- An event of RTMR3 with its digest. -/
def event (name payload : String) : EventLog where
  imr := rtmr3Index
  eventType := dstackEventType
  digest := eventDigest tailHash dstackEventType name ((hexDecode payload).toOption.getD [])
  event := name
  eventPayload := payload

def image : EventLog := event mpcImageHashEvent (hexEncode (List.replicate 32 9))

def presented : List EventLog :=
  [event composeHashEvent (hexEncode (List.replicate 32 7)), event keyProviderEvent "00", image]

/-- The same log with an event of another register. -/
def measured : List EventLog := { event keyProviderEvent "11" with imr := 0 } :: presented

/-- The value that a log replays to. -/
def replayed (log : List EventLog) : Digest :=
  HashChain.value (extendRegister tailHash) .zero (log.map EventLog.digest)

/-- A second digest of a node image. Its payload is `a:b`. -/
def duplicated : List EventLog := [image, event mpcImageHashEvent "613a62"]

/-- The second event again, with `a` as part of its name. -/
def renamed : List EventLog := [image, event "mpc-image-digest:a" "62"]

end SampleLog

end NearMpc.Contract
