import MediaSession.Probe.Outcome

/-!
# The command line

Reads what the command needs, runs it and writes its outcome. The system offers no sockets here, so every request for
one is refused.
-/

namespace MediaSession.CommandLine

/-- All octets of a stream from where it stands, in parts of at most 64 KiB. -/
partial def readToEnd (stream : IO.FS.Stream) (before : ByteArray) : IO ByteArray := do
  let part ← stream.read 65536
  if part.isEmpty then return before else readToEnd stream (before ++ part)

/-- The failure that an error reports. Numbers come with either sign, as words of 32 bits. -/
def faultOf (number : UInt32) (reason : String) : Probe.FileFault :=
  match number.toInt32.toInt.natAbs with
  | 2 => .missing
  | 13 => .denied
  | 20 => .notADirectory
  | 21 => .isADirectory
  | 36 => .nameTooLong
  | n => .other n reason.toList

/-- The failure that an error of the system reports. -/
def fault : IO.Error → Probe.FileFault
  | .noFileOrDirectory _ number reason => faultOf number reason
  | .permissionDenied _ number reason => faultOf number reason
  | .inappropriateType _ number reason => faultOf number reason
  | .invalidArgument _ number reason => faultOf number reason
  | .resourceExhausted _ number reason => faultOf number reason
  | .noSuchThing _ number reason => faultOf number reason
  | .hardwareFault number reason => faultOf number reason
  | e => .other 0 e.toString.toList

/-- Octets that are read now, or why they cannot be. -/
def attempt (octets : IO ByteArray) : IO (Except Probe.FileFault Bytes) := do
  try
    return .ok (← octets).toList
  catch e =>
    return .error (fault e)

/-- The octets that a command needs: those of a file or of standard input, or none. -/
def contentsFor : Option Probe.Command → IO (Except Probe.FileFault Bytes)
  | some (.describe file) =>
    attempt (if file = Probe.standardInput then do readToEnd (← IO.getStdin) ByteArray.empty
      else IO.FS.readBinFile (String.ofList file))
  | _ => return .ok []

/-- The message when the arguments are not understood. -/
def usage : String := "usage: rtsp-probe sdp FILE | rtp HEX | ports [-r MIN-MAX] [-c COUNT] [--tcp]\n"

/-- Runs the command that the arguments give. -/
def run (arguments : List Text) : IO UInt32 := do
  let contents ← contentsFor (Probe.readCommand? arguments)
  let seed ← IO.rand 0 0xFFFFFFFF
  let outcome := Probe.run
    { input := contents
      file := fun _ => contents
      factory := fun _ _ => some "sockets are not available"
      random := fun k => UInt32.ofNat ((seed + k) * 2654435761 / 0x10000) } arguments
  if outcome = Probe.Outcome.usage then (← IO.getStderr).putStr usage
  (← IO.getStdout).putStr (String.ofList outcome.output)
  (← IO.getStderr).putStr (String.ofList outcome.errors)
  return outcome.code

end MediaSession.CommandLine

/-- Runs the command that the arguments give. -/
def main (arguments : List String) : IO UInt32 :=
  MediaSession.CommandLine.run (arguments.map String.toList)
