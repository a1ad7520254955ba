import MediaSession.Rtp.Packet

/-!
# Frames and packets

`IsFrame` says what the octets of a frame are, by the octets alone. Frames are read and written by separate rules, and both
agree with it: exactly the frames are read (`exists_isFrame_of_ofFrame`, `IsFrame.ofFrame_eq`), and what is written is the
one frame of its packet and its channel (`isFrame_iff`). So to read a frame and to write it again, or the other way round,
changes nothing, and what cannot be written is too long for every frame.
-/

namespace MediaSession.Rtp

/-- The octets are a packet in a frame of a channel: the mark, the channel, the length of the packet in two octets with the
most significant first, and the packet, which is long enough for its fixed part. -/
structure IsFrame (bytes : Bytes) (channel : UInt8) (rtp : Bytes) : Prop where
  octets : ∃ high low, bytes = 0x24 :: channel :: high :: low :: rtp ∧ 256 * high.toNat + low.toNat = rtp.length
  fixed_le : fixedSize ≤ rtp.length

variable {bytes rtp : Bytes} {channel : UInt8}

/-- The length of a packet in a frame fits the two octets. -/
theorem IsFrame.length_le (h : IsFrame bytes channel rtp) : rtp.length ≤ maxFramedSize := by
  obtain ⟨high, low, -, hlen⟩ := h.octets
  have hhigh := high.toNat_lt
  have hlow := low.toNat_lt
  simp only [maxFramedSize]
  omega

/-- A packet that is neither too short nor too long has one frame for each channel. -/
theorem isFrame_iff : IsFrame bytes channel rtp ↔
    fixedSize ≤ rtp.length ∧ rtp.length ≤ maxFramedSize ∧ bytes = frameLead (UInt16.ofNat rtp.length) channel ++ rtp := by
  constructor
  · intro h
    obtain ⟨high, low, hbytes, hlen⟩ := h.octets
    have hsize : UInt16.ofNat rtp.length = Bytes.toUInt16 high low := by rw [← hlen, Bytes.toUInt16]
    refine ⟨h.fixed_le, h.length_le, ?_⟩
    rw [hbytes, hsize, frameLead, Bytes.ofUInt16_toUInt16]
    rfl
  · rintro ⟨hfixed, hmax, rfl⟩
    simp only [maxFramedSize] at hmax
    refine ⟨⟨UInt8.ofNat ((UInt16.ofNat rtp.length).toNat / 256), UInt8.ofNat (UInt16.ofNat rtp.length).toNat, rfl, ?_⟩, hfixed⟩
    rw [← Bytes.toNat_toUInt16, Bytes.toUInt16_ofUInt16, UInt16.toNat_ofNat']
    omega

namespace Packet

/-- The packet of the given octets alone, as it is when it has just been read. -/
def alone (rtp : Bytes) (hfixed : fixedSize ≤ rtp.length) : Packet := { bytes := rtp, lead := 0, fixedSize_le := hfixed }

/-- The packet of the given octets in a frame of the given channel, as it is when it has just been read. -/
def inFrame (rtp : Bytes) (channel : UInt8) (hfixed : fixedSize ≤ rtp.length) : Packet :=
  { bytes := frameLead (UInt16.ofNat rtp.length) channel ++ rtp
    lead := frameLeadSize
    fixedSize_le := by
      rw [List.length_append, Nat.add_comm]
      exact Nat.add_le_add_left hfixed _ }

/-- A packet in a frame travels as the frame. -/
theorem isFrame_bytes_inFrame (hfixed : fixedSize ≤ rtp.length) (hmax : rtp.length ≤ maxFramedSize) :
    IsFrame (inFrame rtp channel hfixed).bytes channel rtp :=
  isFrame_iff.2 ⟨hfixed, hmax, rfl⟩

/-- Octets that hold the fixed part are read as the packet alone. -/
theorem ofDatagram_eq (hfixed : fixedSize ≤ rtp.length) : ofDatagram rtp = .ok (alone rtp hfixed) := dif_pos hfixed

/-- Octets that came alone and hold the fixed part can be put in a frame when they are not too long. -/
theorem frame_ofDatagram (hfixed : fixedSize ≤ rtp.length) (channel : UInt8) :
    ((ofDatagram rtp).bind fun p => p.frame channel) =
      if rtp.length ≤ maxFramedSize then .ok (inFrame rtp channel hfixed) else .error (.tooLargeForFrame rtp.length) := by
  rw [ofDatagram_eq hfixed]
  rfl

end Packet

/-- Every frame is read. -/
theorem IsFrame.ofFrame_eq (h : IsFrame bytes channel rtp) :
    Packet.ofFrame bytes = .ok (.inFrame rtp channel h.fixed_le) := by
  have hwritten := (isFrame_iff.1 h).2.2
  obtain ⟨high, low, rfl, hlen⟩ := h.octets
  have hdeclared : ¬ (Bytes.toUInt16 high low).toNat ≠ rtp.length := by
    rw [Bytes.toNat_toUInt16]
    exact not_not_intro hlen
  have hmark : ¬ (0x24 : UInt8) ≠ frameMark := not_not_intro rfl
  have hfixed : fixedSize + frameLeadSize ≤ (0x24 :: channel :: high :: low :: rtp).length :=
    Nat.add_le_add_right h.fixed_le frameLeadSize
  rw [Packet.ofFrame, if_neg hmark, if_neg hdeclared, Packet.ofBytes, dif_pos hfixed]
  simp only [Packet.inFrame, hwritten]

/-- Nothing but a frame is read. -/
theorem exists_isFrame_of_ofFrame {p : Packet} (h : Packet.ofFrame bytes = .ok p) :
    ∃ channel rtp, IsFrame bytes channel rtp := by
  unfold Packet.ofFrame at h
  split at h
  · rename_i mark channel high low rtp
    dsimp only at h
    split at h
    · cases h
    rename_i hmark
    split at h
    · cases h
    rename_i hdeclared
    unfold Packet.ofBytes at h
    split at h
    · rename_i hlong
      rw [Bytes.toNat_toUInt16] at hdeclared
      have hdollar : mark = 0x24 := Decidable.not_not.1 hmark
      have hfixed : fixedSize ≤ rtp.length := Nat.le_of_add_le_add_right hlong
      exact ⟨channel, rtp, ⟨high, low, by rw [hdollar], Decidable.not_not.1 hdeclared⟩, hfixed⟩
    · cases h
  · cases h

/-- Frames are read and written by rules that are each other's inverse, in three parts.
1. Octets are read as a frame exactly when they are one.
2. What is read is the packet and the channel of the frame. It travels as the same octets, and so does the packet when it
   came alone and is put in a frame of that channel.
3. Octets that came alone and hold the fixed part are put in a frame exactly when the length of the frame can count them,
   and otherwise the error gives their number. What is written is read back as the same packet on the same channel. -/
theorem frames_exact :
    (∀ bytes : Bytes, (∃ p, Packet.ofFrame bytes = .ok p) ↔ ∃ channel rtp, IsFrame bytes channel rtp) ∧
    (∀ (bytes : Bytes) (channel : UInt8) (rtp : Bytes), IsFrame bytes channel rtp → ∃ p q,
      Packet.ofFrame bytes = .ok p ∧ p.channel = some channel ∧ p.rtpBytes = rtp ∧ p.bytes = bytes ∧
      ((Packet.ofDatagram rtp).bind fun d => d.frame channel) = .ok q ∧ q.bytes = bytes) ∧
    (∀ (rtp : Bytes) (channel : UInt8), 12 ≤ rtp.length →
      (rtp.length ≤ 65535 → ∃ q p, ((Packet.ofDatagram rtp).bind fun d => d.frame channel) = .ok q ∧
        Packet.ofFrame q.bytes = .ok p ∧ p.rtpBytes = rtp ∧ p.channel = some channel) ∧
      (65535 < rtp.length →
        ((Packet.ofDatagram rtp).bind fun d => d.frame channel) = .error (.tooLargeForFrame rtp.length))) := by
  refine ⟨?_, ?_, ?_⟩
  · intro bytes
    constructor
    · rintro ⟨p, hp⟩
      exact exists_isFrame_of_ofFrame hp
    · rintro ⟨channel, rtp, h⟩
      exact ⟨_, h.ofFrame_eq⟩
  · intro bytes channel rtp h
    have hbytes : (Packet.inFrame rtp channel h.fixed_le).bytes = bytes := (isFrame_iff.1 h).2.2.symm
    have hwritten := Packet.frame_ofDatagram h.fixed_le channel
    rw [if_pos h.length_le] at hwritten
    exact ⟨_, _, h.ofFrame_eq, rfl, rfl, hbytes, hwritten, hbytes⟩
  · intro rtp channel hle
    have hfixed : fixedSize ≤ rtp.length := hle
    have hwritten := Packet.frame_ofDatagram hfixed channel
    constructor
    · intro hfits
      have hmax : rtp.length ≤ maxFramedSize := hfits
      rw [if_pos hmax] at hwritten
      exact ⟨_, _, hwritten, (Packet.isFrame_bytes_inFrame hfixed hmax).ofFrame_eq, rfl, rfl⟩
    · intro hlong
      rw [hwritten]
      exact if_neg (Nat.not_le.2 hlong)

/-- A length that counts the octets right does not make up for a missing fixed part. -/
example :
    Packet.ofFrame (0x24 :: 1 :: 0 :: 11 :: List.replicate 11 0) = .error (.tooShort 11) ∧
    (Packet.ofFrame (0x24 :: 1 :: 0 :: 12 :: List.replicate 12 0)).map Packet.channel = .ok (some 1) :=
  ⟨rfl, rfl⟩

end MediaSession.Rtp
