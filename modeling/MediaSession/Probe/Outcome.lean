import MediaSession.Description.Session
import MediaSession.Ports.Sockets
import MediaSession.Probe.Command
import MediaSession.Probe.Files
import MediaSession.Rtp.Demultiplex
import MediaSession.Rtp.Packet

/-!
# What the probe shows

What a command needs from its surroundings is handed to it, and its outcome is what it would write and its exit code:
0 when it succeeds, 1 when it fails, and 2 when the arguments are not understood.
-/

namespace MediaSession.Probe

/-- What a command leaves behind: what it writes and its exit code. -/
structure Outcome where
  code : UInt32
  output : Text := []
  errors : Text := []
  deriving DecidableEq, Repr

/-- The outcome of a command that failed after it had written something. -/
def Outcome.failureAfter (output message : Text) : Outcome :=
  ⟨1, output, "rtsp-probe: ".toList ++ message ++ ['\n']⟩

/-- The outcome of a command that failed. -/
def Outcome.failure (message : Text) : Outcome := failureAfter [] message

/-- The outcome when the arguments are not understood. -/
def Outcome.usage : Outcome := ⟨2, [], []⟩

/-- What a command needs to know. -/
structure Surroundings where
  /-- The octets of standard input. -/
  input : Except FileFault Bytes
  /-- The octets of the file that a path leads to. -/
  file : Text → Except FileFault Bytes
  /-- What opens sockets. -/
  factory : SocketFactory
  /-- Where the order of the pools comes from. -/
  random : Nat → UInt32

/-- A text filled with blanks up to the given width. -/
def padRight (width : Nat) (t : Text) : Text := t ++ List.replicate (width - t.length) ' '

/-- The line that sums up a track. -/
def trackLine (t : Track) : Text :=
  padRight 6 t.kind.name ++ " pt=".toList ++ padRight 3 (Text.ofNat t.payloadType.toNat) ++ " codec=".toList ++ t.codec ++
    " rate=".toList ++ Text.ofNat t.sampleRate.toNat ++ " channels=".toList ++ Text.ofNat t.channels.toNat ++
    " control=".toList ++ t.control ++ ['\n']

/-- Shows a description: a line for each playable track, an empty line, and the description written anew. -/
def describe (contents : Except FileFault Bytes) : Outcome :=
  match contents with
  | .error fault => .failure fault.message
  | .ok bytes =>
    match String.fromUTF8? ⟨bytes.toArray⟩ with
    | none => .failure "stream did not contain valid UTF-8".toList
    | some text =>
      let session := Session.read text.toList
      if session.isPlayable then ⟨0, session.playableTracks.flatMap trackLine ++ '\n' :: session.text, []⟩
      else .failure "no audio or video track".toList

/-- The message for a text that is not hexadecimal. -/
def hexMessage : Hex.Fault → Text
  | .oddLength => "Odd number of digits".toList
  | .notADigit octet position =>
    "Invalid character ".toList ++ Text.quotedChar (Char.ofNat octet.toNat) ++ " at position ".toList ++
      Text.ofNat position

/-- Shows a control packet: its type, and its sender if it is long enough. -/
def controlLines (bytes : Bytes) : Text :=
  "RTCP packet type ".toList ++ Text.ofNat (bytes.getD 1 0).toNat ++ ['\n'] ++
    (Rtp.ssrc? bytes).elim [] fun ssrc => "word at offset 8: ".toList ++ (Hex.ofUInt32 ssrc).toList ++ ['\n']

/-- Shows a media packet: the channel of its frame, its sender and its fields, and a warning when it has no payload for
want of octets. -/
def packetLines (p : Rtp.Packet) : Text :=
  (p.channel.elim [] fun channel => "interleaved channel: ".toList ++ Text.ofNat channel.toNat ++ ['\n']) ++
    "ssrc: ".toList ++ (Hex.ofUInt32 p.header.ssrc).toList ++ ['\n'] ++ p.header.dump.toList ++
    (if p.header.payloadSize < 0 then "malformed: padding and extension exceed packet size\n".toList else [])

/-- The outcome of showing a packet that could be taken for one, or not. -/
def packetOutcome : Except Error Rtp.Packet → Outcome
  | .ok p => ⟨0, packetLines p, []⟩
  | .error e => .failure e.message.toList

/-- Shows a packet: what begins with the mark of a frame as a frame, and anything else by what it looks like. -/
def decode (hex : Text) : Outcome :=
  match Hex.decode (Text.octets (Text.trim hex)) with
  | .error fault => .failure (hexMessage fault)
  | .ok bytes =>
    if bytes.head? = some Rtp.frameMark then packetOutcome (Rtp.Packet.ofFrame bytes)
    else if Rtp.isControl bytes then ⟨0, controlLines bytes, []⟩
    else if Rtp.isMedia bytes then packetOutcome (Rtp.Packet.ofDatagram bytes)
    else .failure "neither RTP nor RTCP".toList

/-- Opens the given number of socket pairs and shows each, then how many pairs are left. -/
def drawPairs (factory : SocketFactory) (r : SocketRequest) : Nat → Allocator → Text → Outcome
  | 0, a, shown =>
    ⟨0, shown ++ Text.ofNat (a.pool r.protocol).available ++ " of ".toList ++ Text.ofNat (a.pool r.protocol).capacity ++
      " pairs free\n".toList, []⟩
  | n + 1, a, shown =>
    match a.openPair factory r with
    | (.error e, _) => .failureAfter shown e.message.toList
    | (.ok pair, a) =>
      drawPairs factory r n a
        (shown ++ pair.protocol.name.toList ++ " rtp=".toList ++ Text.ofNat pair.lease.rtpPort.toNat ++
          " rtcp=".toList ++ Text.ofNat pair.lease.rtcpPort.toNat ++ ['\n'])

/-- Opens socket pairs on the local machine. -/
def draw (s : Surroundings) (range : PortRange) (count : Nat) (protocol : Protocol) : Outcome :=
  match Allocator.ofRange range s.random s.random with
  | .error e => .failure e.message.toList
  | .ok a => drawPairs s.factory { protocol, address := "127.0.0.1".toList, reuse := true } count a []

/-- The outcome of a command. -/
def Command.run (s : Surroundings) : Command → Outcome
  | .describe file => Probe.describe (if file = standardInput then s.input else s.file file)
  | .decode hex => Probe.decode hex
  | .draw range count protocol => Probe.draw s range count protocol

/-- The outcome of a command line. -/
def run (s : Surroundings) (arguments : List Text) : Outcome :=
  (readCommand? arguments).elim .usage (Command.run s)

end MediaSession.Probe
