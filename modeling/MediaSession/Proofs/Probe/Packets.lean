import MediaSession.Probe.Outcome
import MediaSession.Proofs.Rtp.Framing
import MediaSession.Proofs.Text.Hexadecimal

/-!
# How the probe shows packets

The probe tells a bare packet by its first octets and shows it by its look: a media packet by its fields, a control packet
by its type. A packet in a frame is not looked at: whatever it is, it is shown by the fields of a media packet
(`run_rtp_of_framed`). So a packet is shown alike in a frame and out of it exactly when it looks like a media packet
(`shown_alike_iff_media`), and a control packet is not (`exists_shown_otherwise_in_frame`).
-/

namespace MediaSession.Probe

/-- What the octets of a packet look like. -/
inductive Look where
  | media
  | control
  | neither
  deriving DecidableEq, Repr

namespace Look

/-- What octets look like by the first two of them. What could be either counts for a control packet. -/
def ofBytes (bytes : Bytes) : Look :=
  if Rtp.isControl bytes then control else if Rtp.isMedia bytes then media else neither

/-- Octets that look like a media packet do not look like a control packet. -/
theorem ofBytes_eq_media_iff (bytes : Bytes) : ofBytes bytes = media ↔ Rtp.isMedia bytes = true := by
  rcases bytes with - | ⟨first, - | ⟨second, rest⟩⟩
  · simp [ofBytes, Rtp.isControl, Rtp.isMedia]
  · simp [ofBytes, Rtp.isControl, Rtp.isMedia]
  · cases hcontrol : Rtp.isControlType (second &&& 0x7f) <;> simp [ofBytes, Rtp.isControl, Rtp.isMedia, hcontrol]

end Look

/-- The line that names the channel of a frame. -/
def channelLine (channel : UInt8) : Text := "interleaved channel: ".toList ++ Text.ofNat channel.toNat ++ ['\n']

/-- The sender and the fields of a media packet, and the warning when its payload is cut off. -/
def headerLines (h : Rtp.Header) : Text :=
  "ssrc: ".toList ++ (Hex.ofUInt32 h.ssrc).toList ++ ['\n'] ++ h.dump.toList ++
    (if h.payloadSize < 0 then "malformed: padding and extension exceed packet size\n".toList else [])

/-- What is shown of a packet that is taken for a media packet: first the channel of its frame, if it has one. -/
theorem packetLines_eq (p : Rtp.Packet) : packetLines p = p.channel.elim [] channelLine ++ headerLines p.header := by
  have hassoc : ∀ a b c d e f : Text, a ++ b ++ c ++ d ++ e ++ f = a ++ (b ++ c ++ d ++ e ++ f) := by
    intro a b c d e f
    simp only [List.append_assoc]
  exact hassoc _ _ _ _ _ _

/-- The outcome when a packet is shown by a look, with a text before it. -/
def Look.outcome (lead : Text) (h : Rtp.Header) : Look → Outcome
  | media => ⟨0, lead ++ headerLines h, []⟩
  | control => ⟨0, lead ++ controlLines h.bytes, []⟩
  | neither => .failure "neither RTP nor RTCP".toList

/-- The outcome shows a packet by a look, with the line for the channel or without it. -/
def Look.IsShown (look : Look) (channel : UInt8) (h : Rtp.Header) (o : Outcome) : Prop :=
  ∃ lead ∈ [[], channelLine channel], o = look.outcome lead h

/-- The looks can be told from what is shown: no outcome shows a packet by two of them. -/
theorem Look.eq_of_isShown {look look' : Look} {channel : UInt8} {h : Rtp.Header} {o : Outcome}
    (hlook : look.IsShown channel h o) (hlook' : look'.IsShown channel h o) : look = look' := by
  obtain ⟨_, hs⟩ : ∃ t, headerLines h = 's' :: t := ⟨_, rfl⟩
  obtain ⟨_, hR⟩ : ∃ t, controlLines h.bytes = 'R' :: t := ⟨_, rfl⟩
  obtain ⟨_, hi⟩ : ∃ t, channelLine channel = 'i' :: t := ⟨_, rfl⟩
  have hapart : ∀ lead ∈ [[], channelLine channel], ∀ lead' ∈ [[], channelLine channel],
      lead ++ headerLines h ≠ lead' ++ controlLines h.bytes := by
    intro lead hlead lead' hlead' heq
    simp only [List.mem_cons, List.not_mem_nil, or_false] at hlead hlead'
    rcases hlead with rfl | rfl <;> rcases hlead' with rfl | rfl <;> simp [hs, hR, hi] at heq
  obtain ⟨lead, hlead, rfl⟩ := hlook
  obtain ⟨lead', hlead', heq⟩ := hlook'
  have hcode := congrArg Outcome.code heq
  have houtput := congrArg Outcome.output heq
  cases look with
  | media =>
    cases look' with
    | media => rfl
    | control => exact absurd houtput (hapart lead hlead lead' hlead')
    | neither => cases hcode
  | control =>
    cases look' with
    | media => exact absurd houtput.symm (hapart lead' hlead' lead hlead)
    | control => rfl
    | neither => cases hcode
  | neither =>
    cases look' with
    | media => cases hcode
    | control => cases hcode
    | neither => rfl

/-! ## From the command line to the octets -/

/-- A text that writes octets is no option, blanks around it included. -/
theorem plain?_of_writes {hex : Text} {bytes : Bytes} (h : Hex.Writes (Text.trim hex) bytes) : plain? hex = some hex := by
  refine if_neg fun hoption => ?_
  obtain ⟨t, rfl⟩ := List.head?_eq_some_iff.1 hoption.1
  rw [Text.trim_cons (by decide)] at h
  generalize Text.trimEnd t = rest at h
  cases h with
  | @cons _ _ octet _ _ hhigh _ _ =>
    have hnone : ∀ n < 16, ¬ Hex.IsDigit '-' n := by decide
    have hoctet := octet.toNat_lt
    exact hnone _ (by omega) hhigh

/-- The command shows the octets that its argument writes, blanks around it or not: as a frame what begins with the mark of
one, and anything else by its look. -/
theorem run_rtp {hex : Text} {bytes : Bytes} (h : Hex.Writes (Text.trim hex) bytes) (s : Surroundings) :
    run s ["rtp".toList, hex] =
      if bytes.head? = some Rtp.frameMark then packetOutcome (Rtp.Packet.ofFrame bytes)
      else if Rtp.isControl bytes then ⟨0, controlLines bytes, []⟩
      else if Rtp.isMedia bytes then packetOutcome (Rtp.Packet.ofDatagram bytes)
      else .failure "neither RTP nor RTCP".toList := by
  have hcommand : readCommand? ["rtp".toList, hex] = some (.decode hex) := by
    have hname : ¬ "rtp".toList = "sdp".toList := by decide
    rw [readCommand?, if_neg hname, if_pos rfl, readOperand?, plain?_of_writes h]
    rfl
  rw [run, hcommand]
  simp only [Option.elim, Command.run, decode, h.decode_eq]

variable {d : Bytes}

/-- A bare packet is shown by its look. -/
theorem run_rtp_of_bare (hfixed : 12 ≤ d.length) (hmark : d.head? ≠ some Rtp.frameMark) {hex : Text}
    (h : Hex.Writes (Text.trim hex) d) (s : Surroundings) :
    run s ["rtp".toList, hex] = (Look.ofBytes d).outcome [] ⟨d, hfixed⟩ := by
  have hread : Rtp.Packet.ofDatagram d = .ok (.alone d hfixed) := Rtp.Packet.ofDatagram_eq hfixed
  rw [run_rtp h, if_neg hmark, hread, Look.ofBytes]
  split
  · rfl
  · split
    · rfl
    · rfl

/-- A packet in a frame is shown as a media packet, whatever it looks like. -/
theorem run_rtp_of_framed (hfixed : 12 ≤ d.length) {bytes : Bytes} {channel : UInt8} (hframe : Rtp.IsFrame bytes channel d)
    {hex : Text} (h : Hex.Writes (Text.trim hex) bytes) (s : Surroundings) :
    run s ["rtp".toList, hex] = Look.media.outcome (channelLine channel) ⟨d, hfixed⟩ := by
  have hmark : bytes.head? = some Rtp.frameMark := by
    obtain ⟨high, low, rfl, -⟩ := hframe.octets
    rfl
  rw [run_rtp h, if_pos hmark, hframe.ofFrame_eq, packetOutcome, packetLines_eq]
  rfl

/-! ## In a frame and out of it -/

/-- What the command shows of a packet alone and in a frame, in four parts. The packet holds the fixed part, is not too long
for a frame and does not begin with the mark of one.
1. It can be put in a frame of the channel.
2. Alone it is shown by its look.
3. In the frame it is shown as a media packet, after the line for the channel. So a media packet is shown with the same
   sender and the same fields both times.
4. Both times it is shown by the same look exactly when it looks like a media packet. -/
theorem shown_alike_iff_media (s : Surroundings) {d : Bytes} (hfixed : 12 ≤ d.length) (hmax : d.length ≤ 65535)
    (hmark : d.head? ≠ some Rtp.frameMark) (channel : UInt8) {plain : Text} (hplain : Hex.Writes (Text.trim plain) d) :
    let alone := run s ["rtp".toList, plain]
    ∃ p, ((Rtp.Packet.ofDatagram d).bind fun q => q.frame channel) = .ok p ∧
      alone = (Look.ofBytes d).outcome [] ⟨d, hfixed⟩ ∧
      ∀ framed, Hex.Writes (Text.trim framed) p.bytes →
        let inFrame := run s ["rtp".toList, framed]
        inFrame = ⟨0, channelLine channel ++ headerLines ⟨d, hfixed⟩, []⟩ ∧
        (Rtp.isMedia d = true → inFrame = { alone with output := channelLine channel ++ alone.output }) ∧
        ((∃ look : Look, look.IsShown channel ⟨d, hfixed⟩ alone ∧ look.IsShown channel ⟨d, hfixed⟩ inFrame) ↔
          Rtp.isMedia d = true) := by
  intro alone
  have hle : d.length ≤ Rtp.maxFramedSize := hmax
  have hwritten := Rtp.Packet.frame_ofDatagram hfixed channel
  rw [if_pos hle] at hwritten
  have halone : alone = (Look.ofBytes d).outcome [] ⟨d, hfixed⟩ := run_rtp_of_bare hfixed hmark hplain s
  refine ⟨_, hwritten, halone, ?_⟩
  intro framed hframed inFrame
  have hframe : Rtp.IsFrame (Rtp.Packet.inFrame d channel hfixed).bytes channel d :=
    Rtp.Packet.isFrame_bytes_inFrame hfixed hle
  have hin : inFrame = Look.media.outcome (channelLine channel) ⟨d, hfixed⟩ := run_rtp_of_framed hfixed hframe hframed s
  have hshown : (Look.ofBytes d).IsShown channel ⟨d, hfixed⟩ alone := ⟨[], by simp, halone⟩
  have hshown' : Look.media.IsShown channel ⟨d, hfixed⟩ inFrame := ⟨channelLine channel, by simp, hin⟩
  refine ⟨hin, ?_, ?_, ?_⟩
  · intro hmedia
    rw [hin, halone, (Look.ofBytes_eq_media_iff d).2 hmedia]
    rfl
  · rintro ⟨look, hlook, hlook'⟩
    rw [← Look.ofBytes_eq_media_iff, ← Look.eq_of_isShown hlook hshown]
    exact Look.eq_of_isShown hlook' hshown'
  · intro hmedia
    rw [(Look.ofBytes_eq_media_iff d).2 hmedia] at hshown
    exact ⟨.media, hshown, hshown'⟩

/-- Surroundings without files, in which every socket is opened. -/
def Surroundings.bare : Surroundings :=
  { input := .error .missing, file := fun _ => .error .missing, factory := fun _ _ => none, random := fun _ => 0 }

/-- A media packet of one octet. Alone it is written with blanks around it and letters of both cases, and in the frame with
small letters. -/
theorem shown_alike_iff_media_of_oneOctet :
    let d : Bytes := [0x80, 0xe0, 0, 1, 0, 0, 0, 0x0a, 0xde, 0xad, 0xbe, 0xef, 1]
    let plain := " 80E000010000000aDEADbeef01\n".toList
    let framed := "2401000d80e000010000000adeadbeef01".toList
    (12 ≤ d.length ∧ d.length ≤ 65535 ∧ d.head? ≠ some Rtp.frameMark ∧ Rtp.isMedia d = true) ∧
    Hex.Writes (Text.trim plain) d ∧ Hex.Writes (Text.trim framed) (Rtp.frameLead 13 1 ++ d) ∧
    run .bare ["rtp".toList, framed] = { run .bare ["rtp".toList, plain] with
      output := "interleaved channel: 1\n".toList ++ (run .bare ["rtp".toList, plain]).output } := by
  intro d plain framed
  have hplain : Hex.Writes (Text.trim plain) d := by decide +kernel
  have hframed : Hex.Writes (Text.trim framed) (Rtp.frameLead 13 1 ++ d) := by decide +kernel
  obtain ⟨p, hp, -, hall⟩ := shown_alike_iff_media .bare (d := d) (by decide) (by decide) (by decide) 1 hplain
  have hbytes : Rtp.frameLead 13 1 ++ d = p.bytes := Except.ok.inj (congrArg (Except.map Rtp.Packet.bytes) hp)
  obtain ⟨-, hmedia, -⟩ := hall framed (hbytes ▸ hframed)
  exact ⟨by decide, hplain, hframed, hmedia (by decide)⟩

/-- A control packet is shown by its type when it comes alone, and as a media packet when it comes in a frame. -/
theorem exists_shown_otherwise_in_frame :
    let d : Bytes := [0x82, 0xcb, 0, 2, 0x11, 0x22, 0x33, 0x44, 0x55, 0x66, 0x77, 0x88]
    let plain := "82cb00021122334455667788".toList
    let framed := "2401000c82cb00021122334455667788".toList
    ∃ (hfixed : 12 ≤ d.length) (p : Rtp.Packet),
      d.length ≤ 65535 ∧ d.head? ≠ some Rtp.frameMark ∧
      ((Rtp.Packet.ofDatagram d).bind fun q => q.frame 1) = .ok p ∧
      Hex.Writes (Text.trim plain) d ∧ Hex.Writes (Text.trim framed) p.bytes ∧
      run .bare ["rtp".toList, plain] = ⟨0, "RTCP packet type 203\nword at offset 8: 55667788\n".toList, []⟩ ∧
      run .bare ["rtp".toList, framed] = ⟨0, channelLine 1 ++ headerLines ⟨d, hfixed⟩, []⟩ ∧
      ¬ ∃ look : Look, look.IsShown 1 ⟨d, hfixed⟩ (run .bare ["rtp".toList, plain]) ∧
        look.IsShown 1 ⟨d, hfixed⟩ (run .bare ["rtp".toList, framed]) := by
  intro d plain framed
  have hfixed : 12 ≤ d.length := by decide
  have hframe : Rtp.IsFrame (Rtp.frameLead 12 1 ++ d) 1 d := Rtp.isFrame_iff.2 ⟨hfixed, by decide, rfl⟩
  have hplain : Hex.Writes (Text.trim plain) d := by decide +kernel
  have hframed : Hex.Writes (Text.trim framed) (Rtp.frameLead 12 1 ++ d) := by decide +kernel
  have hshown : run .bare ["rtp".toList, framed] = Look.media.outcome (channelLine 1) ⟨d, hfixed⟩ :=
    run_rtp_of_framed hfixed hframe hframed _
  refine ⟨hfixed, _, by decide, by decide, rfl, hplain, hframed, by decide +kernel, hshown, ?_⟩
  rintro ⟨look, hlook, hlook'⟩
  have hcontrol : Look.control.IsShown 1 ⟨d, hfixed⟩ (run .bare ["rtp".toList, plain]) :=
    ⟨[], by simp, run_rtp_of_bare hfixed (by decide) hplain _⟩
  have hmedia : Look.media.IsShown 1 ⟨d, hfixed⟩ (run .bare ["rtp".toList, framed]) :=
    ⟨channelLine 1, by simp, hshown⟩
  have heq := (Look.eq_of_isShown hlook hcontrol).symm.trans (Look.eq_of_isShown hlook' hmedia)
  cases heq

end MediaSession.Probe
