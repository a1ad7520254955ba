import MediaSession.Bytes
import MediaSession.Text.Basic

/-!
# Octets in hexadecimal

An octet is written as two hexadecimal digits, the high half first. Reading takes digits of either case and refuses
everything else, with the position of the first character that is no digit. It works on the octets of a text, so a
character outside ASCII is refused at its first octet.
-/

namespace MediaSession.Hex

/-- Why a text is no hexadecimal text. -/
inductive Fault where
  /-- The number of octets is odd. -/
  | oddLength
  /-- The octet at the position, counted from 0, is no hexadecimal digit. -/
  | notADigit (octet : UInt8) (position : Nat)
  deriving DecidableEq, Repr

/-- The value of a hexadecimal digit of either case. -/
def digit? (octet : UInt8) : Option UInt8 :=
  if 0x30 ≤ octet ∧ octet ≤ 0x39 then some (octet - 0x30)
  else if 0x41 ≤ octet ∧ octet ≤ 0x46 then some (octet - 0x37)
  else if 0x61 ≤ octet ∧ octet ≤ 0x66 then some (octet - 0x57)
  else none

/-- Reads two digits an octet; `position` is that of the first digit. -/
def decodePairs (position : Nat) : Bytes → Except Fault Bytes
  | high :: low :: rest =>
    match digit? high, digit? low with
    | none, _ => .error (.notADigit high position)
    | _, none => .error (.notADigit low (position + 1))
    | some h, some l => (decodePairs (position + 2) rest).map ((h <<< 4 ||| l) :: ·)
  | _ => .ok []

/-- The octets that a hexadecimal text writes. An odd length is found first, then the first octet that is no digit. -/
def decode (text : Bytes) : Except Fault Bytes :=
  if text.length % 2 = 1 then .error .oddLength else decodePairs 0 text

/-- The upper-case hexadecimal digit of a number below sixteen. -/
def upperDigit (n : Nat) : Char := (Nat.digitChar n).toUpper

/-- A 32-bit number as eight upper-case hexadecimal digits. -/
def ofUInt32 (n : UInt32) : String :=
  String.ofList ([7, 6, 5, 4, 3, 2, 1, 0].map fun i => upperDigit ((n.toNat >>> (4 * i)) % 16))

end MediaSession.Hex
