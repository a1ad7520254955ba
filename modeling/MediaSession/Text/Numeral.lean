import MediaSession.Text.Basic

/-!
# Decimal numerals

How an unsigned number is written in a text and read from one. Written numerals have no sign and no leading zero. A
numeral that is read may begin with one plus sign and may have leading zeros; it holds nothing but ASCII digits
after the sign, at least one, and its value fits the number that it is read into.
-/

namespace MediaSession.Text

/-- The decimal numeral of a number. -/
def ofNat (n : Nat) : Text := Nat.toDigits 10 n

/-- The numeral without the one plus sign that it may begin with. -/
def dropPlus : Text → Text
  | '+' :: t => t
  | t => t

/-- The number that a numeral denotes: an optional plus sign, then one or more ASCII digits. -/
def readNat? (t : Text) : Option Nat :=
  let digits := dropPlus t
  if !digits.isEmpty && digits.all Char.isDigit then some (Nat.ofDigitChars 10 digits 0) else none

/-- The number that a numeral denotes, when it is below `bound`. -/
def readBelow? (bound : Nat) (t : Text) : Option Nat := (readNat? t).filter (· < bound)

/-- The 8-bit number that a numeral denotes. -/
def readUInt8? (t : Text) : Option UInt8 := (readBelow? UInt8.size t).map UInt8.ofNat

/-- The 16-bit number that a numeral denotes. -/
def readUInt16? (t : Text) : Option UInt16 := (readBelow? UInt16.size t).map UInt16.ofNat

/-- The 32-bit number that a numeral denotes. -/
def readUInt32? (t : Text) : Option UInt32 := (readBelow? UInt32.size t).map UInt32.ofNat

/-! ## Small facts -/

/-- A numeral has at least one digit. -/
theorem ofNat_ne_nil (n : Nat) : ofNat n ≠ [] := Nat.toDigits_ne_nil

/-- A numeral consists of digits. -/
theorem isDigit_of_mem_ofNat {n : Nat} {c : Char} (h : c ∈ ofNat n) : c.isDigit = true :=
  Nat.isDigit_of_mem_toDigits (by decide) (by decide) h

/-- A text without a plus sign at its beginning is left as it is. -/
theorem dropPlus_eq_self {t : Text} (h : t.head? ≠ some '+') : dropPlus t = t := by
  match t with
  | [] => rfl
  | c :: t =>
    have hc : c ≠ '+' := by simpa using h
    simp [dropPlus, hc]

/-- A written number is read back. -/
theorem readNat?_ofNat (n : Nat) : readNat? (ofNat n) = some n := by
  have hplus : dropPlus (ofNat n) = ofNat n := by
    apply dropPlus_eq_self
    intro h
    have hd := isDigit_of_mem_ofNat (List.mem_of_mem_head? h)
    simp at hd
  have hall : (ofNat n).all Char.isDigit = true := List.all_eq_true.2 fun _ hc => isDigit_of_mem_ofNat hc
  have hne : (ofNat n).isEmpty = false := by simp [ofNat_ne_nil]
  have hv : Nat.ofDigitChars 10 (ofNat n) 0 = n := Nat.ofDigitChars_toDigits (by decide) (by decide)
  simp only [readNat?, hplus, hall, hne, hv]
  rfl

/-- A written number is read back where it fits. -/
theorem readBelow?_ofNat {bound n : Nat} (h : n < bound) : readBelow? bound (ofNat n) = some n := by
  rw [readBelow?, readNat?_ofNat, Option.filter_some, if_pos (by simpa using h)]

theorem readUInt8?_ofNat (n : UInt8) : readUInt8? (ofNat n.toNat) = some n := by
  rw [readUInt8?, readBelow?_ofNat n.toNat_lt_size, Option.map_some, UInt8.ofNat_toNat]

theorem readUInt16?_ofNat (n : UInt16) : readUInt16? (ofNat n.toNat) = some n := by
  rw [readUInt16?, readBelow?_ofNat n.toNat_lt_size, Option.map_some, UInt16.ofNat_toNat]

theorem readUInt32?_ofNat (n : UInt32) : readUInt32? (ofNat n.toNat) = some n := by
  rw [readUInt32?, readBelow?_ofNat n.toNat_lt_size, Option.map_some, UInt32.ofNat_toNat]

end MediaSession.Text
