import MediaSession.Proofs.Rtp.Layout
import MediaSession.Rtp.Writer

/-!
# What a sender's packets say

A sender is used by actions, one after the other: it is asked for headers and packets, its clock is moved on, and its payload
type and its own number are changed. What each of its packets has to say can be told from the actions before it alone: how
many packets there were, how many ticks, and which payload type and sender were set last. `Follows` says that the sender
has kept account of this, `Follows.act` that one action keeps it and `Follows.run` that a whole run does. What a header
then says is read from its octets by the accessors (`says_ofParts`).
-/

namespace MediaSession.Rtp

namespace Writer

/-- Something that is done to a sender. -/
inductive Action where
  /-- Asks for the header of the next packet. -/
  | write (marker : Bool)
  /-- Asks for the next packet. -/
  | packet (marker : Bool) (payload : Bytes)
  /-- Moves the clock on. -/
  | advance (ticks : UInt32)
  | setPayloadType (payloadType : UInt8)
  | setSsrc (ssrc : UInt32)
  deriving DecidableEq, Repr

/-- The sender after an action. -/
def act (w : Writer) : Action → Writer
  | .write marker => (w.write marker).2
  | .packet marker payload => (w.packet marker payload).2
  | .advance ticks => w.advance ticks
  | .setPayloadType payloadType => { w with payloadType }
  | .setSsrc ssrc => { w with ssrc }

/-- The sender after a run. -/
def run (w : Writer) (actions : List Action) : Writer := actions.foldl act w

/-- The octets that an action makes, if it asks for any. -/
def sentBy (w : Writer) : Action → List Bytes
  | .write marker => [(w.write marker).1]
  | .packet marker payload => [(w.packet marker payload).1.bytes]
  | _ => []

/-- The headers and packets that a run makes, in order. -/
def sent (w : Writer) : List Action → List Bytes
  | [] => []
  | a :: rest => w.sentBy a ++ (w.act a).sent rest

@[simp] theorem run_nil (w : Writer) : w.run [] = w := rfl

@[simp] theorem run_cons (w : Writer) (a : Action) (rest : List Action) : w.run (a :: rest) = (w.act a).run rest := rfl

/-! ## What the actions alone tell -/

namespace Action

/-- The marker and the payload of what an action asks for. A header alone has no payload. -/
def content? : Action → Option (Bool × Bytes)
  | .write marker => some (marker, [])
  | .packet marker payload => some (marker, payload)
  | _ => none

/-- The ticks by which an action moves the clock on. -/
def ticks : Action → Nat
  | .advance ticks => ticks.toNat
  | _ => 0

/-- The payload type that an action sets. -/
def payloadType? : Action → Option UInt8
  | .setPayloadType payloadType => some payloadType
  | _ => none

/-- The sender's number that an action sets. -/
def ssrc? : Action → Option UInt32
  | .setSsrc ssrc => some ssrc
  | _ => none

end Action

/-- The number of headers and packets that actions ask for. -/
def packetCount (actions : List Action) : Nat := actions.countP (·.content?.isSome)

/-- The ticks by which actions move the clock on, all together. -/
def totalTicks (actions : List Action) : Nat := (actions.map Action.ticks).sum

/-- The payload type that was set last, at first the given one. -/
def lastPayloadType (payloadType : UInt8) (actions : List Action) : UInt8 :=
  (actions.filterMap Action.payloadType?).getLastD payloadType

/-- The sender's number that was set last, at first the given one. -/
def lastSsrc (ssrc : UInt32) (actions : List Action) : UInt32 := (actions.filterMap Action.ssrc?).getLastD ssrc

/-! ## The sender keeps account -/

/-- What a sender knows when the given actions have been done to it. The count of its packets has sixteen bits, and its clock
sixty-four. -/
structure Follows (payloadType : UInt8) (ssrc : UInt32) (done : List Action) (w : Writer) : Prop where
  payloadType_eq : w.payloadType = lastPayloadType payloadType done
  ssrc_eq : w.ssrc = lastSsrc ssrc done
  sequence_eq : w.sequence.toNat = packetCount done % 2 ^ 16
  timestamp_eq : w.timestamp.toNat = totalTicks done % 2 ^ 64

namespace Follows

variable {payloadType : UInt8} {ssrc : UInt32} {done : List Action} {w : Writer}

/-- A new sender has sent nothing. -/
theorem new (payloadType : UInt8) (ssrc : UInt32) : Follows payloadType ssrc [] { payloadType, ssrc } :=
  ⟨rfl, rfl, rfl, rfl⟩

/-- A packet is counted, and changes nothing else. -/
theorem next (h : Follows payloadType ssrc done w) {a : Action} (hcontent : a.content?.isSome) (hticks : a.ticks = 0)
    (hpayloadType : a.payloadType? = none) (hssrc : a.ssrc? = none) :
    Follows payloadType ssrc (done ++ [a]) w.next := by
  refine ⟨?_, ?_, ?_, ?_⟩
  · simp [Writer.next, lastPayloadType, hpayloadType, h.payloadType_eq]
  · simp [Writer.next, lastSsrc, hssrc, h.ssrc_eq]
  · have hone : (1 : UInt16).toNat = 1 := rfl
    rw [Writer.next, UInt16.toNat_add, h.sequence_eq, hone]
    simp [packetCount, hcontent]
  · simp [Writer.next, totalTicks, hticks, h.timestamp_eq]

/-- Each action is accounted for. -/
theorem act (h : Follows payloadType ssrc done w) (a : Action) : Follows payloadType ssrc (done ++ [a]) (w.act a) := by
  cases a with
  | write marker => exact h.next rfl rfl rfl rfl
  | packet marker payload => exact h.next rfl rfl rfl rfl
  | advance ticks =>
    refine ⟨?_, ?_, ?_, ?_⟩
    · simp [Writer.act, advance, lastPayloadType, Action.payloadType?, h.payloadType_eq]
    · simp [Writer.act, advance, lastSsrc, Action.ssrc?, h.ssrc_eq]
    · simp [Writer.act, advance, packetCount, Action.content?, h.sequence_eq]
    · simp [Writer.act, advance, totalTicks, Action.ticks, h.timestamp_eq]
  | setPayloadType p =>
    refine ⟨?_, ?_, ?_, ?_⟩
    · simp [Writer.act, lastPayloadType, Action.payloadType?]
    · simp [Writer.act, lastSsrc, Action.ssrc?, h.ssrc_eq]
    · simp [Writer.act, packetCount, Action.content?, h.sequence_eq]
    · simp [Writer.act, totalTicks, Action.ticks, h.timestamp_eq]
  | setSsrc s =>
    refine ⟨?_, ?_, ?_, ?_⟩
    · simp [Writer.act, lastPayloadType, Action.payloadType?, h.payloadType_eq]
    · simp [Writer.act, lastSsrc, Action.ssrc?]
    · simp [Writer.act, packetCount, Action.content?, h.sequence_eq]
    · simp [Writer.act, totalTicks, Action.ticks, h.timestamp_eq]

/-- A run is accounted for. -/
theorem run (h : Follows payloadType ssrc done w) (actions : List Action) :
    Follows payloadType ssrc (done ++ actions) (w.run actions) := by
  induction actions generalizing done w with
  | nil => simpa using h
  | cons a rest ih => simpa using ih (h.act a)

end Follows

/-! ## Packets in the order of the actions -/

/-- What an action makes is a header and its payload. -/
theorem sentBy_eq (w : Writer) (a : Action) :
    w.sentBy a = (a.content?.map fun c => w.headerBytes c.1 ++ c.2).toList := by
  cases a with
  | write marker => simp [sentBy, Action.content?, write]
  | _ => rfl

/-- There is one header or packet for each action that asks for one. -/
theorem length_sent (w : Writer) (actions : List Action) : (w.sent actions).length = packetCount actions := by
  induction actions generalizing w with
  | nil => rfl
  | cons a rest ih =>
    rw [sent, List.length_append, ih, sentBy_eq, packetCount, packetCount, List.countP_cons]
    cases a.content? <;> simp [Nat.add_comm]

/-- Each header or packet was made by an action that asked for it, after as many others as it has before it. -/
theorem exists_of_getElem?_sent {w : Writer} {actions : List Action} {k : Nat} {bytes : Bytes}
    (h : (w.sent actions)[k]? = some bytes) :
    ∃ before a after marker payload, actions = before ++ a :: after ∧ a.content? = some (marker, payload) ∧
      packetCount before = k ∧ bytes = (w.run before).headerBytes marker ++ payload := by
  induction actions generalizing w k with
  | nil => simp [sent] at h
  | cons a rest ih =>
    have hlater : ∀ j, packetCount [a] + j = k → ((w.act a).sent rest)[j]? = some bytes →
        ∃ before b after marker payload, a :: rest = before ++ b :: after ∧ b.content? = some (marker, payload) ∧
          packetCount before = k ∧ bytes = (w.run before).headerBytes marker ++ payload := by
      intro j hj hget
      obtain ⟨before, b, after, marker, payload, hrest, hb, hcount, hbytes⟩ := ih hget
      refine ⟨a :: before, b, after, marker, payload, by rw [hrest]; rfl, hb, ?_, hbytes⟩
      rw [← hj, ← hcount, packetCount, packetCount, packetCount, ← List.countP_append]
      rfl
    rw [sent, sentBy_eq] at h
    cases hc : a.content? with
    | none =>
      rw [hc] at h
      exact hlater k (by simp [packetCount, hc]) h
    | some content =>
      rw [hc] at h
      cases k with
      | zero => exact ⟨[], a, rest, content.1, content.2, rfl, hc, rfl, (Option.some.inj h).symm⟩
      | succ k => exact hlater k (by simp [packetCount, hc, Nat.add_comm]) h

end Writer

/-! ## What a header says -/

/-- What a packet says that has neither padding nor extension nor sources. -/
structure Header.Says (h : Header) (marker : Bool) (payloadType sequence timestamp : Nat) (ssrc : UInt32)
    (payload : Bytes) : Prop where
  version : h.version = 2
  hasPadding : h.hasPadding = false
  hasExtension : h.hasExtension = false
  sourceCount : h.sourceCount = 0
  marker : h.marker = marker
  payloadType : h.payloadType.toNat = payloadType
  sequence : h.sequence.toNat = sequence
  timestamp : h.timestamp.toNat = timestamp
  ssrc : h.ssrc = ssrc
  payload : h.payload? = some payload

namespace Writer

/-- The second octet of a header: the marker above the low seven bits of the payload type. -/
def markedType (w : Writer) (marker : Bool) : UInt8 := (if marker then 0x80 else 0) ||| (w.payloadType &&& 0x7f)

/-- The highest bit of that octet is the marker. -/
theorem markedType_and_highest (w : Writer) (marker : Bool) : (w.markedType marker &&& 0x80 != 0) = marker := by
  have hrest : (0x7f : UInt8).toNat.testBit 7 = false := rfl
  refine (and_two_pow_ne_zero (w.markedType marker) 7 (by decide)).trans ?_
  rw [markedType, UInt8.toNat_or, UInt8.toNat_and, Nat.testBit_or, Nat.testBit_and, hrest, Bool.and_false, Bool.or_false]
  cases marker <;> rfl

/-- The other bits of that octet are the payload type, without its highest bit. -/
theorem toNat_markedType_and_rest (w : Writer) (marker : Bool) :
    (w.markedType marker &&& 0x7f).toNat = w.payloadType.toNat % 128 := by
  have hrest : ∀ b : UInt8, (b &&& 0x7f).toNat = b.toNat % 2 ^ 7 := by
    intro b
    rw [UInt8.toNat_and]
    exact Nat.and_two_pow_sub_one_eq_mod b.toNat 7
  rw [hrest, markedType, UInt8.toNat_or, Nat.or_mod_two_pow, hrest, Nat.mod_mod]
  cases marker <;> simp

/-- The header with a payload after it is laid out as a fixed part and a payload. -/
theorem isLayout_headerBytes (w : Writer) (marker : Bool) (payload : Bytes) :
    IsLayout (w.headerBytes marker ++ payload) ⟨w.headerBytes marker, [], [], payload, []⟩ := by
  have hfirst : ((w.headerBytes marker ++ payload).headD 0).toNat = 128 := rfl
  refine ⟨by simp, w.length_headerBytes marker, ?_, ?_, ?_⟩
  · rw [hfirst]
    rfl
  · rw [hfirst, if_neg (by decide)]
  · rw [hfirst, if_neg (by decide)]
    rfl

/-- What is made of a header and a payload says what the sender knows and what was asked for. -/
theorem says_ofParts (w : Writer) (marker : Bool) (payload : Bytes) :
    ∃ h, Header.ofBytes? (w.headerBytes marker ++ payload) = some h ∧
      h.Says marker (w.payloadType.toNat % 128) w.sequence.toNat (w.timestamp.toNat % 2 ^ 32) w.ssrc payload := by
  have hle : fixedSize ≤ (w.headerBytes marker ++ payload).length := by
    rw [List.length_append, w.length_headerBytes]
    exact Nat.le_add_right _ _
  refine ⟨⟨_, hle⟩, dif_pos hle, ?_⟩
  obtain ⟨hversion, hpadding, hextension, hsources⟩ : (version <<< 6) >>> 6 = 2 ∧ (version <<< 6 &&& 0x20 != 0) = false ∧
      (version <<< 6 &&& 0x10 != 0) = false ∧ version <<< 6 &&& 0x0f = 0 := by decide
  refine ⟨hversion, hpadding, hextension, hsources, w.markedType_and_highest marker,
    w.toNat_markedType_and_rest marker, ?_, ?_, ?_, ?_⟩
  · exact congrArg UInt16.toNat (Bytes.toUInt16_ofUInt16 w.sequence)
  · refine (congrArg UInt32.toNat (Bytes.toUInt32_ofUInt32 w.timestamp.toUInt32)).trans ?_
    exact UInt64.toNat_toUInt32 w.timestamp
  · exact Bytes.toUInt32_ofUInt32 w.ssrc
  · exact (w.isLayout_headerBytes marker payload).payload?_eq (h := ⟨_, hle⟩)

/-- It is seen as a control packet when the payload type, its highest bit left out, is one that control packets use. -/
theorem isControl_ofParts (w : Writer) (marker : Bool) (payload : Bytes) :
    isControl (w.headerBytes marker ++ payload) = true ↔
      64 ≤ w.payloadType.toNat % 128 ∧ w.payloadType.toNat % 128 < 96 := by
  show isControlType (w.markedType marker &&& 0x7f) = true ↔ _
  rw [isControlType, Bool.and_eq_true, decide_eq_true_eq, decide_eq_true_eq, UInt8.le_iff_toNat_le, UInt8.lt_iff_toNat_lt,
    toNat_markedType_and_rest]
  rfl

/-- It is seen as a media packet when it is not seen as a control packet. -/
theorem isMedia_ofParts (w : Writer) (marker : Bool) (payload : Bytes) :
    isMedia (w.headerBytes marker ++ payload) = !isControl (w.headerBytes marker ++ payload) :=
  Bool.and_true _

end Writer

/-- The whole run of a new sender reads back from what it makes, in three parts.
1. Its clock shows the ticks by which it was moved on, all together, in sixty-four bits.
2. There is one header or packet for each time that one was asked for.
3. The one with `k` before it has the form of a packet without padding, extension and sources. It says the marker that it
   was asked for with, the low seven bits of the payload type that was set last, `k` in sixteen bits, the ticks up to then
   in thirty-two bits and the sender that was set last, and its payload is the one that was given. It is seen as a control
   packet, and not as a media packet, when its payload type is one that control packets use, and the other way round
   otherwise. -/
theorem sent_reads_back (payloadType : UInt8) (ssrc : UInt32) (actions : List Writer.Action) :
    ((Writer.mk payloadType ssrc 0 0).run actions).timestamp.toNat = Writer.totalTicks actions % 2 ^ 64 ∧
    ((Writer.mk payloadType ssrc 0 0).sent actions).length = Writer.packetCount actions ∧
    ∀ k bytes, ((Writer.mk payloadType ssrc 0 0).sent actions)[k]? = some bytes →
      ∃ before a after marker payload h, actions = before ++ a :: after ∧ a.content? = some (marker, payload) ∧
        Writer.packetCount before = k ∧ Header.ofBytes? bytes = some h ∧
        h.Says marker ((Writer.lastPayloadType payloadType before).toNat % 128) (k % 2 ^ 16)
          (Writer.totalTicks before % 2 ^ 32) (Writer.lastSsrc ssrc before) payload ∧
        (isControl bytes = true ↔ 64 ≤ (Writer.lastPayloadType payloadType before).toNat % 128 ∧
          (Writer.lastPayloadType payloadType before).toNat % 128 < 96) ∧
        isMedia bytes = !isControl bytes := by
  have hstart := Writer.Follows.new payloadType ssrc
  refine ⟨(hstart.run actions).timestamp_eq, Writer.length_sent _ actions, ?_⟩
  intro k bytes hget
  obtain ⟨before, a, after, marker, payload, hactions, ha, hcount, rfl⟩ := Writer.exists_of_getElem?_sent hget
  have hfollows := hstart.run before
  rw [List.nil_append] at hfollows
  obtain ⟨h, hread, hsays⟩ := Writer.says_ofParts ((Writer.mk payloadType ssrc 0 0).run before) marker payload
  have hcontrol := Writer.isControl_ofParts ((Writer.mk payloadType ssrc 0 0).run before) marker payload
  have hclock : Writer.totalTicks before % 2 ^ 64 % 2 ^ 32 = Writer.totalTicks before % 2 ^ 32 :=
    Nat.mod_mod_of_dvd _ (by decide)
  rw [hfollows.payloadType_eq, hfollows.sequence_eq, hfollows.timestamp_eq, hfollows.ssrc_eq, hclock, hcount] at hsays
  rw [hfollows.payloadType_eq] at hcontrol
  exact ⟨before, a, after, marker, payload, h, hactions, ha, hcount, hread, hsays, hcontrol, Writer.isMedia_ofParts _ _ _⟩

/-- A payload type of 200 loses its highest bit and is one that control packets use, whatever is sent under it. -/
example : ((Writer.mk 96 7 0 0).sent [.packet true [1, 2], .setPayloadType 200, .write false]).map isControl = [false, true] := by
  decide

end MediaSession.Rtp
