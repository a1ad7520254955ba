import MediaSession.Proofs.Description.RoundTrip
import MediaSession.Proofs.Description.Undeclared
import MediaSession.Proofs.Rtp.Sending

/-!
# Negotiated payload types on their way

A description gives a track any payload type of eight bits: its media line does, or an encoding does where the media line
leaves the type open (`payloadType_ofBlock_eq`). A packet has seven bits for it. So a sender for the track sends the low seven
bits, and what is read from its packets is the payload type of the track exactly when that is below 128.
-/

namespace MediaSession

/-! ## Where a payload type comes from -/

/-- The payload type that a block gives by its media line and its attributes: that of the media line or, if the media line
leaves it open, the first one that an attribute declares. -/
def MediaLine.givenType (m : MediaLine) (attrs : List Attribute) : UInt8 :=
  if m.payloadType = unsetPayloadType then (attrs.findSome? Attribute.declared?).getD unsetPayloadType else m.payloadType

namespace Track

/-- The payload type of a track is the one that its block gives. -/
theorem payloadType_ofBlock_eq {m : MediaLine} (hmedia : m.media ≠ []) (lines : List Line) :
    (ofBlock m lines).payloadType = m.givenType (lines.filterMap Line.attribute?) := by
  unfold MediaLine.givenType
  split
  · rename_i hm
    have hattrs : ((ofMediaLine m).addLines lines).attributes = lines.filterMap Line.attribute? := attributes_addLines _ _
    rw [ofBlock, resolve_eq, ← hattrs]
    exact payloadType_resolveAttributes_of_undeclared (kind_addLines_ne_title hmedia lines)
      ((payloadType_addLines m lines).trans hm)
  · rename_i hm
    exact payloadType_ofBlock hm hmedia lines

end Track

/-! ## What is sent under it -/

namespace Rtp.Writer

/-- As long as no payload type is set, the last one is the first. -/
theorem lastPayloadType_of_forall {payloadType : UInt8} {actions : List Action}
    (h : ∀ a ∈ actions, a.payloadType? = none) : lastPayloadType payloadType actions = payloadType := by
  rw [lastPayloadType, List.filterMap_eq_nil_iff.2 h]
  rfl

/-- All that a sender makes as long as no payload type is set, it makes under the first one. -/
theorem exists_of_mem_sent {payloadType : UInt8} {ssrc : UInt32} {actions : List Action}
    (hset : ∀ a ∈ actions, a.payloadType? = none) {bytes : Bytes}
    (h : bytes ∈ (Writer.mk payloadType ssrc 0 0).sent actions) :
    ∃ (w : Writer) (marker : Bool) (payload : Bytes), w.payloadType = payloadType ∧
      bytes = w.headerBytes marker ++ payload := by
  obtain ⟨k, hk⟩ := List.mem_iff_getElem?.1 h
  obtain ⟨before, a, after, marker, payload, rfl, -, -, rfl⟩ := exists_of_getElem?_sent hk
  refine ⟨_, marker, payload, ?_, rfl⟩
  rw [((Follows.new payloadType ssrc).run before).payloadType_eq]
  exact lastPayloadType_of_forall fun b hb => hset b (List.mem_append_left _ hb)

end Rtp.Writer

namespace Session

/-- What comes of the payload type of a video or audio track in the packets of a sender for it, in two parts.
1. The payload type is the one that the block of the track gives, by its media line or by an encoding.
2. Every packet has the low seven bits of it: it reads back as it is exactly when it is below 128. By these seven bits the
   packet is seen as a control packet or as a media packet. -/
theorem payloadType_of_mem_sent {text : Text} {t : Track} (ht : t ∈ (read text).tracks)
    (hk : t.kind = .video ∨ t.kind = .audio) (ssrc : UInt32) {actions : List Rtp.Writer.Action}
    (hset : ∀ a ∈ actions, a.payloadType? = none) :
    (∃ block ∈ (Line.sections (Line.readAll text)).2, ∃ m, MediaLine.read? block.1 = some m ∧
      TrackKind.ofMedia m.media = t.kind ∧ m.givenType (block.2.filterMap Line.attribute?) = t.payloadType) ∧
    ∀ bytes ∈ (Rtp.Writer.mk t.payloadType ssrc 0 0).sent actions, ∃ h, Rtp.Header.ofBytes? bytes = some h ∧
      h.payloadType.toNat = t.payloadType.toNat % 128 ∧
      (h.payloadType = t.payloadType ↔ t.payloadType < 128) ∧
      (Rtp.isControl bytes = true ↔ 64 ≤ h.payloadType ∧ h.payloadType < 96) ∧
      Rtp.isMedia bytes = !Rtp.isControl bytes := by
  constructor
  · obtain ⟨block, hblock, m, hm, rfl⟩ := exists_block_of_mem_read ht (TrackKind.ne_title_of_medium hk)
    exact ⟨block, hblock, m, hm, (Track.kind_ofBlock m block.2).symm,
      (Track.payloadType_ofBlock_eq (MediaLine.media_ne_nil hm) block.2).symm⟩
  · intro bytes hbytes
    obtain ⟨w, marker, payload, hw, rfl⟩ := Rtp.Writer.exists_of_mem_sent hset hbytes
    obtain ⟨h, hread, hsays⟩ := w.says_ofParts marker payload
    have hseven : h.payloadType.toNat = t.payloadType.toNat % 128 := by rw [← hw, hsays.payloadType]
    refine ⟨h, hread, hseven, ?_, ?_, w.isMedia_ofParts marker payload⟩
    · rw [← UInt8.toNat_inj, hseven, UInt8.lt_iff_toNat_lt]
      exact ⟨fun heq => by rw [← heq]; exact Nat.mod_lt _ (by decide), Nat.mod_eq_of_lt⟩
    · rw [w.isControl_ofParts, hw, ← hseven, UInt8.le_iff_toNat_le, UInt8.lt_iff_toNat_lt]
      rfl

/-- A block that leaves its payload type open, with an encoding of 97. -/
def openOffer : Text := Text.ofLines ["m=video 0 RTP/AVP 255".toList, "a=rtpmap:97 H264/90000".toList]

/-- A header and a packet under that type read back as they were sent. -/
theorem payloadType_of_mem_sent_of_openOffer :
    ∃ t ∈ (read openOffer).tracks, t.kind = .video ∧ t.payloadType = 97 ∧
      (∀ a ∈ [Rtp.Writer.Action.packet true [1], .advance 3000, .write false], a.payloadType? = none) ∧
      ∀ bytes ∈ (Rtp.Writer.mk t.payloadType 7 0 0).sent [.packet true [1], .advance 3000, .write false],
        ∃ h, Rtp.Header.ofBytes? bytes = some h ∧ h.payloadType = t.payloadType := by
  obtain ⟨t, ht, hkind, htype⟩ : ∃ t ∈ (read openOffer).tracks, t.kind = .video ∧ t.payloadType = 97 := by decide +kernel
  have hset : ∀ a ∈ [Rtp.Writer.Action.packet true [1], .advance 3000, .write false], a.payloadType? = none := by decide
  refine ⟨t, ht, hkind, htype, hset, fun bytes hbytes => ?_⟩
  obtain ⟨-, hsent⟩ := payloadType_of_mem_sent ht (Or.inl hkind) 7 hset
  obtain ⟨h, hread, -, hsame, -⟩ := hsent bytes hbytes
  exact ⟨h, hread, hsame.2 (by rw [htype]; decide)⟩

/-- A payload type of 200 is accepted from a media line, and its packets say 72 and are seen as control packets. -/
theorem exists_payloadType_cut_short :
    ∃ t ∈ (read "m=video 0 RTP/AVP 200".toList).tracks, t.kind = .video ∧ t.payloadType = 200 ∧
      t.payloadType ≠ unsetPayloadType ∧
      ((Rtp.Writer.mk t.payloadType 1 0 0).sent [.packet false [0]]).map (fun bytes =>
        ((Rtp.Header.ofBytes? bytes).map (·.payloadType), Rtp.isControl bytes, Rtp.isMedia bytes)) =
          [(some 72, true, false)] := by
  decide +kernel

end Session

end MediaSession
