import MediaSession.Proofs.Rtp.Framing
import MediaSession.Rtp.Writer

/-!
# Packets that are framed again and again

On its way a packet is put into a frame, moved to another channel, taken out of its frame and read anew, in any order. It is
kept as the octets that travel: a frame is put before them, its channel is overwritten in place, and the packet itself is what
is left without the lead. So all depends on the lead being that of the octets (`Holds`). Each of the ways in which packets are
made establishes this (`MadeOf.holds`), each step keeps it with the octets of the packet as they are (`Holds.after`), and so
does a whole history (`Holds.run`). The channel is the one that was set last, if the packet is short enough for a frame at
all. The rest follows from what a packet that keeps given octets looks like (`Holds.carries`).
-/

namespace MediaSession.Rtp.Packet

/-- Something that is done to a packet on its way. -/
inductive Step where
  /-- Puts the packet in a frame of a channel, or changes the channel of the frame it is in. -/
  | frame (channel : UInt8)
  /-- Reads the octets that travel anew, as a frame if they are one. -/
  | reread
  /-- Takes the packet out of its frame and reads it anew. -/
  | strip
  /-- Notes what is known of the packet from elsewhere. -/
  | note (sampleRate : UInt32) (ntpStamp : Option UInt64) (kind : TrackKind) (trackIndex : Nat)
  deriving DecidableEq, Repr

/-- The packet that a step gives, unless it fails. -/
def step (p : Packet) : Step → Except Error Packet
  | .frame channel => p.frame channel
  | .reread => if p.isFramed then ofFrame p.bytes else ofDatagram p.bytes
  | .strip => ofDatagram p.rtpBytes
  | .note sampleRate ntpStamp kind trackIndex => .ok { p with sampleRate, ntpStamp, kind, trackIndex }

/-- The packet after a step. A step that fails leaves it as it is. -/
def after (p : Packet) (s : Step) : Packet :=
  match p.step s with
  | .ok q => q
  | .error _ => p

/-- The packet after a history of steps. -/
def run (p : Packet) (steps : List Step) : Packet := steps.foldl after p

/-- The channel after a step, for a packet that is short enough for a frame. -/
def Step.channelAfter (channel : Option UInt8) : Step → Option UInt8
  | .frame channel => some channel
  | .strip => none
  | _ => channel

/-- The channel that was set last, as long as the packet has not been taken out of its frame since. -/
def lastChannel (channel : Option UInt8) (steps : List Step) : Option UInt8 := steps.foldl Step.channelAfter channel

/-- Where a packet comes from: the octets of the packet itself, and the channel of the frame they came in, if any. -/
inductive MadeOf : Packet → Option UInt8 → Bytes → Prop where
  /-- It was read from a datagram. -/
  | datagram {p : Packet} {rtp : Bytes} (h : ofDatagram rtp = .ok p) : MadeOf p none rtp
  /-- It was read from a frame. -/
  | frame {p : Packet} {mark channel high low : UInt8} {rtp : Bytes}
      (h : ofFrame (mark :: channel :: high :: low :: rtp) = .ok p) : MadeOf p (some channel) rtp
  /-- It was made by a sender. -/
  | sender (w : Writer) (marker : Bool) (payload : Bytes) :
      MadeOf (w.packet marker payload).1 none (w.headerBytes marker ++ payload)

/-- What a packet keeps: the octets of the packet alone, or the frame of these octets on a channel, with the lead of a frame. -/
def Holds (p : Packet) (rtp : Bytes) : Option UInt8 → Prop
  | none => p.lead = 0 ∧ p.bytes = rtp
  | some channel => p.lead = frameLeadSize ∧ IsFrame p.bytes channel rtp

/-- What is known of the packets from elsewhere is the same. -/
structure SameNotes (p q : Packet) : Prop where
  sampleRate : q.sampleRate = p.sampleRate
  ntpStamp : q.ntpStamp = p.ntpStamp
  kind : q.kind = p.kind
  trackIndex : q.trackIndex = p.trackIndex

variable {p q : Packet} {rtp : Bytes} {channel : Option UInt8}

/-! ## What a packet shows of what it keeps -/

theorem holds_alone (hfixed : fixedSize ≤ rtp.length) : (alone rtp hfixed).Holds rtp none := ⟨rfl, rfl⟩

theorem holds_inFrame (hfixed : fixedSize ≤ rtp.length) (hmax : rtp.length ≤ maxFramedSize) (c : UInt8) :
    (inFrame rtp c hfixed).Holds rtp (some c) :=
  ⟨rfl, isFrame_bytes_inFrame hfixed hmax⟩

/-- Without the lead the octets of the packet are left. -/
theorem Holds.rtpBytes_eq (h : p.Holds rtp channel) : p.rtpBytes = rtp := by
  cases channel with
  | none => rw [rtpBytes, h.1, h.2, List.drop_zero]
  | some c =>
    obtain ⟨high, low, hbytes, -⟩ := h.2.octets
    rw [rtpBytes, h.1, hbytes]
    rfl

theorem Holds.isFramed_eq (h : p.Holds rtp channel) : p.isFramed = channel.isSome := by
  cases channel with
  | none => rw [isFramed, h.1]; rfl
  | some c => rw [isFramed, h.1]; rfl

/-- The channel is found in the second octet of the frame. -/
theorem Holds.channel_eq (h : p.Holds rtp channel) : p.channel = channel := by
  rw [Packet.channel, h.isFramed_eq]
  cases channel with
  | none => rfl
  | some c =>
    obtain ⟨high, low, hbytes, -⟩ := h.2.octets
    rw [hbytes]
    rfl

/-- What a packet keeps can be told from the channel that it shows. -/
theorem Holds.of_channel_eq (h : p.Holds rtp channel) {c : Option UInt8} (hc : p.channel = c) : p.Holds rtp c := by
  rwa [← hc, h.channel_eq]

theorem Holds.fixed_le (h : p.Holds rtp channel) : fixedSize ≤ rtp.length := by
  rw [← h.rtpBytes_eq]
  exact p.fixedSize_le_length_rtpBytes

/-- A packet that is too long for a frame is in none. -/
theorem Holds.eq_none_of_long (h : p.Holds rtp channel) (hlong : maxFramedSize < rtp.length) : channel = none := by
  cases channel with
  | none => rfl
  | some c => exact absurd h.2.length_le (Nat.not_le.2 hlong)

/-- Packets of the same octets have the same header. -/
theorem header_eq_of_rtpBytes_eq (h : q.rtpBytes = p.rtpBytes) : q.header = p.header := by
  simp only [header, h]

/-! ## Where packets come from -/

/-- A packet keeps the octets it was made of, on the channel of the frame they came in. -/
theorem MadeOf.holds (h : p.MadeOf channel rtp) : p.Holds rtp channel := by
  cases h with
  | sender w marker payload => exact ⟨rfl, rfl⟩
  | datagram h =>
    unfold ofDatagram ofBytes at h
    split at h
    · rw [← Except.ok.inj h]
      exact ⟨rfl, rfl⟩
    · cases h
  | @frame p mark channel high low rtp h =>
    obtain ⟨c, rtp', hframe⟩ := exists_isFrame_of_ofFrame h
    obtain ⟨high', low', hbytes, -⟩ := hframe.octets
    rw [hframe.ofFrame_eq] at h
    obtain ⟨-, rfl, -, -, rfl⟩ : mark = 0x24 ∧ channel = c ∧ high = high' ∧ low = low' ∧ rtp = rtp' := by
      simpa using hbytes
    rw [← Except.ok.inj h]
    exact holds_inFrame hframe.fixed_le hframe.length_le channel

/-! ## What each step does -/

/-- In a frame the channel is overwritten, and the rest of the frame stays. -/
theorem Holds.step_frame_framed {c : UInt8} (h : p.Holds rtp (some c)) (d : UInt8) :
    ∃ q, p.step (.frame d) = .ok q ∧ q.Holds rtp (some d) ∧ SameNotes p q := by
  obtain ⟨high, low, hbytes, hlen⟩ := h.2.octets
  refine ⟨_, if_pos h.isFramed_eq, ⟨h.1, ⟨high, low, ?_, hlen⟩, h.fixed_le⟩, ⟨rfl, rfl, rfl, rfl⟩⟩
  simp only [hbytes, List.set_cons_succ, List.set_cons_zero]

/-- Alone it gets a frame before it, when the length of the frame can count its octets. -/
theorem Holds.step_frame_alone (h : p.Holds rtp none) (hmax : rtp.length ≤ maxFramedSize) (d : UInt8) :
    ∃ q, p.step (.frame d) = .ok q ∧ q.Holds rtp (some d) ∧ SameNotes p q := by
  have halone : ¬ p.isFramed = true := by simp [h.isFramed_eq]
  have hfits : p.bytes.length ≤ maxFramedSize := h.2.symm ▸ hmax
  refine ⟨_, (if_neg halone).trans (if_pos hfits), ⟨rfl, isFrame_iff.2 ⟨h.fixed_le, hmax, ?_⟩⟩, ⟨rfl, rfl, rfl, rfl⟩⟩
  simp only [h.2]

theorem Holds.step_frame (h : p.Holds rtp channel) (hmax : rtp.length ≤ maxFramedSize) (d : UInt8) :
    ∃ q, p.step (.frame d) = .ok q ∧ q.Holds rtp (some d) ∧ SameNotes p q := by
  cases channel with
  | none => exact h.step_frame_alone hmax d
  | some c => exact h.step_frame_framed d

/-- A packet that is too long stays without a frame. -/
theorem Holds.step_frame_of_long (h : p.Holds rtp channel) (hlong : maxFramedSize < rtp.length) (d : UInt8) :
    p.step (.frame d) = .error (.tooLargeForFrame rtp.length) := by
  obtain rfl := h.eq_none_of_long hlong
  have halone : ¬ p.isFramed = true := by simp [h.isFramed_eq]
  have hlong' : ¬ p.bytes.length ≤ maxFramedSize := by
    rw [h.2]
    exact Nat.not_le.2 hlong
  rw [step, frame, if_neg halone, if_neg hlong', h.2]

/-- What travels is read as the same octets on the same channel. -/
theorem Holds.step_reread (h : p.Holds rtp channel) :
    ∃ q, p.step .reread = .ok q ∧ q.Holds rtp channel ∧ q.bytes = p.bytes := by
  rw [step, h.isFramed_eq]
  cases channel with
  | none =>
    rw [h.2]
    exact ⟨_, ofDatagram_eq h.fixed_le, holds_alone h.fixed_le, rfl⟩
  | some c =>
    have hwritten := (isFrame_iff.1 h.2).2.2
    exact ⟨_, h.2.ofFrame_eq, holds_inFrame h.fixed_le h.2.length_le c, hwritten.symm⟩

/-- What is left without the lead is read as the packet alone. -/
theorem Holds.step_strip (h : p.Holds rtp channel) : p.step .strip = .ok (alone rtp h.fixed_le) := by
  rw [step, h.rtpBytes_eq]
  exact ofDatagram_eq h.fixed_le

theorem after_of_ok {s : Step} (h : p.step s = .ok q) : p.after s = q := by rw [after, h]

theorem after_of_error {s : Step} {e : Error} (h : p.step s = .error e) : p.after s = p := by rw [after, h]

/-- The channel that a packet can be on: none when it is too long for a frame. -/
def possibleChannel (rtp : Bytes) (channel : Option UInt8) : Option UInt8 :=
  if rtp.length ≤ maxFramedSize then channel else none

theorem Holds.possible (h : p.Holds rtp channel) : p.Holds rtp (possibleChannel rtp channel) := by
  unfold possibleChannel
  split
  · exact h
  · rename_i hlong
    rwa [h.eq_none_of_long (Nat.not_le.1 hlong)] at h

/-- Each step leaves the octets of the packet as they are, alone or in a frame of the channel that the step sets. -/
theorem Holds.after (h : p.Holds rtp channel) (s : Step) :
    (p.after s).Holds rtp (possibleChannel rtp (s.channelAfter channel)) := by
  cases s with
  | frame d =>
    by_cases hmax : rtp.length ≤ maxFramedSize
    · obtain ⟨q, hq, hholds, -⟩ := h.step_frame hmax d
      rw [after_of_ok hq]
      exact hholds.possible
    · rw [after_of_error (h.step_frame_of_long (Nat.not_le.1 hmax) d), possibleChannel, if_neg hmax]
      rwa [h.eq_none_of_long (Nat.not_le.1 hmax)] at h
  | reread =>
    obtain ⟨q, hq, hholds, -⟩ := h.step_reread
    rw [after_of_ok hq]
    exact hholds.possible
  | strip =>
    rw [after_of_ok h.step_strip]
    exact (holds_alone h.fixed_le).possible
  | note sampleRate ntpStamp kind trackIndex =>
    have hnoted : (p.after (.note sampleRate ntpStamp kind trackIndex)).Holds rtp channel := by
      cases channel with
      | none => exact h
      | some c => exact h
    exact hnoted.possible

/-! ## A whole history -/

/-- A history leaves the octets of the packet as they are, alone or in a frame of the channel that was set last. -/
theorem Holds.run (h : p.Holds rtp channel) (steps : List Step) :
    (p.run steps).Holds rtp (possibleChannel rtp (lastChannel channel steps)) := by
  induction steps generalizing p channel with
  | nil => exact h.possible
  | cons s rest ih =>
    have hrest := ih (h.after s)
    unfold possibleChannel at hrest ⊢
    split
    · rename_i hmax
      simp only [if_pos hmax] at hrest
      exact hrest
    · rename_i hlong
      simp only [if_neg hlong] at hrest
      exact hrest

/-- What holds of a packet of the given octets wherever it is on its way. -/
structure Carries (p : Packet) (rtp : Bytes) : Prop where
  rtpBytes_eq : p.rtpBytes = rtp
  fixed_le : 12 ≤ rtp.length
  /-- Four octets come before it in a frame, and none otherwise. -/
  lead_eq : p.lead = if p.isFramed then 4 else 0
  /-- In a frame it travels as the frame of these octets. -/
  isFrame : ∀ channel, p.channel = some channel → IsFrame p.bytes channel rtp
  /-- Alone it travels as these octets. -/
  bytes_eq : p.channel = none → p.bytes = rtp
  /-- What travels is read as the same packet on the same channel. -/
  reread : ∃ q, p.step .reread = .ok q ∧ q.rtpBytes = rtp ∧ q.channel = p.channel ∧ q.bytes = p.bytes
  /-- What is in the frame is read as the same packet alone. -/
  strip : ∃ q, p.step .strip = .ok q ∧ q.rtpBytes = rtp ∧ q.channel = none ∧ q.bytes = rtp
  /-- It cannot be put in a frame exactly when it is in none and too long for one. -/
  frame_eq_error_iff : ∀ channel e, p.step (.frame channel) = .error e ↔
    p.isFramed = false ∧ 65535 < rtp.length ∧ e = .tooLargeForFrame rtp.length
  /-- A frame changes nothing but the channel. -/
  frame_keeps : ∀ channel q, p.step (.frame channel) = .ok q → q.channel = some channel ∧ q.rtpBytes = rtp ∧
    q.sampleRate = p.sampleRate ∧ q.ntpStamp = p.ntpStamp ∧ q.kind = p.kind ∧ q.trackIndex = p.trackIndex ∧
    q.stampMs = p.stampMs ∧ q.header.payload? = p.header.payload?

/-- A packet carries the octets that it keeps. -/
theorem Holds.carries (h : p.Holds rtp channel) : p.Carries rtp := by
  obtain ⟨q, hq, hholds, hbytes⟩ := h.step_reread
  refine ⟨h.rtpBytes_eq, h.fixed_le, ?_, ?_, ?_, ⟨q, hq, hholds.rtpBytes_eq, ?_, hbytes⟩, ?_, ?_, ?_⟩
  · rw [h.isFramed_eq]
    cases channel with
    | none => exact h.1
    | some c => exact h.1
  · intro c hc
    exact (h.of_channel_eq hc).2
  · intro hc
    exact (h.of_channel_eq hc).2
  · rw [hholds.channel_eq, h.channel_eq]
  · exact ⟨_, h.step_strip, (holds_alone h.fixed_le).rtpBytes_eq, (holds_alone h.fixed_le).channel_eq, rfl⟩
  · intro d e
    by_cases hmax : rtp.length ≤ maxFramedSize
    · obtain ⟨q, hq, -⟩ := h.step_frame hmax d
      rw [hq]
      constructor
      · intro herror
        cases herror
      · rintro ⟨-, hlong, -⟩
        exact absurd hmax (Nat.not_le.2 hlong)
    · have hlong := Nat.not_le.1 hmax
      have halone : p.isFramed = false := by rw [h.isFramed_eq, h.eq_none_of_long hlong]; rfl
      rw [h.step_frame_of_long hlong]
      constructor
      · intro herror
        exact ⟨halone, hlong, (Except.error.inj herror).symm⟩
      · rintro ⟨-, -, rfl⟩
        rfl
  · intro d q hq
    by_cases hmax : rtp.length ≤ maxFramedSize
    · obtain ⟨q', hq', hholds, hnotes⟩ := h.step_frame hmax d
      obtain rfl : q' = q := Except.ok.inj (hq'.symm.trans hq)
      have hheader : q'.header = p.header := header_eq_of_rtpBytes_eq (hholds.rtpBytes_eq.trans h.rtpBytes_eq.symm)
      refine ⟨hholds.channel_eq, hholds.rtpBytes_eq, hnotes.sampleRate, hnotes.ntpStamp, hnotes.kind, hnotes.trackIndex,
        ?_, ?_⟩
      · rw [stampMs, stampMs, hnotes.ntpStamp, hnotes.sampleRate, hheader]
      · rw [hheader]
    · rw [h.step_frame_of_long (Nat.not_le.1 hmax)] at hq
      cases hq

/-- The octets of a packet survive every history of frames. Wherever the packet comes from and whatever is done to it, it
carries the octets it was made of, and it is on the channel that was set last if it is short enough for a frame. -/
theorem carries_run (h : p.MadeOf channel rtp) (steps : List Step) :
    (p.run steps).Carries rtp ∧
      (p.run steps).channel = if rtp.length ≤ 65535 then lastChannel channel steps else none := by
  have hholds := h.holds.run steps
  exact ⟨hholds.carries, hholds.channel_eq⟩

/-- A packet of a sender, with a payload of two octets. -/
def shortPacket : Packet := ((⟨96, 7, 0, 0⟩ : Writer).packet true [1, 2]).1

/-- The octets of that packet. -/
def shortOctets : Bytes := [0x80, 0xe0, 0, 0, 0, 0, 0, 0, 0, 0, 0, 7, 1, 2]

/-- A packet is framed, read anew, noted to be audio, and moved to another channel. -/
def movedAround : List Step := [.frame 3, .reread, .note 8000 none .audio 1, .frame 5]

theorem carries_run_of_movedAround :
    shortPacket.MadeOf none shortOctets ∧ (shortPacket.run movedAround).Carries shortOctets ∧
      (shortPacket.run movedAround).channel = some 5 ∧
      (shortPacket.run movedAround).bytes = [0x24, 5, 0, 14] ++ shortOctets := by
  have hmade : shortPacket.MadeOf none shortOctets := .sender ⟨96, 7, 0, 0⟩ true [1, 2]
  obtain ⟨hcarries, hchannel⟩ := carries_run hmade movedAround
  exact ⟨hmade, hcarries, hchannel, by decide⟩

end MediaSession.Rtp.Packet
