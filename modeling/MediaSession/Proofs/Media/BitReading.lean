import MediaSession.Media.BitReader
import MediaSession.Proofs.Media.BitFields

/-!
# A reader reads fields

A reader finds a bit by the octet it is in and shifts it in behind the ones before it. What it reads from a position on is the
field of the list of bits from there on (`read_eq_field?`), and so the part of the number of the octets that a division and a
remainder give (`read_eq_fieldAt?`). Of a field that is wider than 32 bits the last 32 are left.
-/

namespace MediaSession

open AudioConfig (field? numberOfBits)

/-! ## One bit -/

/-- A bit of octets is found in one of them: the octet by the division of its place by eight, and the bit by the remainder. -/
theorem Bytes.getElem?_bits (bytes : Bytes) (i : Nat) :
    bytes.bits[i]? = bytes[i / 8]?.map fun octet => octet.toNat.testBit (7 - i % 8) := by
  induction bytes generalizing i with
  | nil => rfl
  | cons octet rest ih =>
    have hbits : Bytes.bits (octet :: rest) = Bytes.bits [octet] ++ Bytes.bits rest := by simp [Bytes.bits]
    have hlength : (Bytes.bits [octet]).length = 8 := Bytes.length_bits [octet]
    by_cases hi : i < 8
    · have hfirst : i / 8 = 0 := by omega
      have hplaces : Bytes.bits [octet] = (List.range 8).map fun j => octet.toNat.testBit (7 - j) := rfl
      rw [hbits, List.getElem?_append_left (by omega), hplaces, List.getElem?_map, List.getElem?_range hi, hfirst,
        Nat.mod_eq_of_lt hi]
      rfl
    · have hoctet : i / 8 = (i - 8) / 8 + 1 := by omega
      have hplace : i % 8 = (i - 8) % 8 := by omega
      rw [hbits, List.getElem?_append_right (by omega), hlength, ih, hoctet, hplace, List.getElem?_cons_succ]

/-- An octet that is shifted to the right ends in the bit at that place. -/
theorem shiftRight_and_one (octet : UInt8) {i : Nat} (hi : i < 8) :
    ((octet >>> UInt8.ofNat i) &&& 1).toUInt32 = UInt32.ofNat (octet.toNat.testBit i).toNat := by
  apply UInt32.toNat_inj.1
  have hone : (1 : UInt8).toNat = 1 := rfl
  have hshift : (UInt8.ofNat i).toNat % 8 = i := by
    rw [UInt8.toNat_ofNat']
    omega
  have hbit : (octet.toNat.testBit i).toNat < 2 := Bool.toNat_lt _
  rw [UInt8.toNat_toUInt32, UInt8.toNat_and, UInt8.toNat_shiftRight, hone, hshift, Nat.and_one_is_mod, UInt32.toNat_ofNat',
    Nat.mod_eq_of_lt (b := 2 ^ 32) (by omega), Nat.toNat_testBit, Nat.shiftRight_eq_div_pow]

/-- To shift a bit in doubles the number and adds the bit, in 32 bits. -/
theorem shiftLeft_or_bit (n : Nat) (b : Bool) :
    (UInt32.ofNat n <<< 1) ||| UInt32.ofNat b.toNat = UInt32.ofNat (2 * n + b.toNat) := by
  apply UInt32.toNat_inj.1
  have hone : (1 : UInt32).toNat % 32 = 1 := rfl
  have hb : b.toNat < 2 := b.toNat_lt
  have heven : n % 2 ^ 32 * 2 ^ 1 % 2 ^ 32 = 2 ^ 1 * (n % 2 ^ 31) := by omega
  have hbit : b.toNat % 2 ^ 32 = b.toNat := Nat.mod_eq_of_lt (by omega)
  rw [UInt32.toNat_or, UInt32.toNat_shiftLeft, hone, UInt32.toNat_ofNat', UInt32.toNat_ofNat', UInt32.toNat_ofNat',
    Nat.shiftLeft_eq, heven, hbit, ← Nat.two_pow_add_eq_or_of_lt hb]
  omega

namespace BitReader

/-- A reader gives the bit at its position. -/
theorem bit?_eq (data : Bytes) (position : Nat) :
    bit? ⟨data, position⟩ = data.bits[position]?.map fun b => UInt32.ofNat b.toNat := by
  rw [bit?, Bytes.getElem?_bits, Option.map_map]
  refine Option.map_congr fun octet _ => ?_
  exact shiftRight_and_one octet (by omega)

/-! ## Many bits -/

/-- The loop puts the field behind the number that is there so far. The induction is on the number of bits that are left. -/
theorem readOnto_eq (data : Bytes) (position value width : Nat) :
    readOnto ⟨data, position⟩ (UInt32.ofNat value) width =
      (field? width (data.bits.drop position)).map fun f =>
        (UInt32.ofNat (value * 2 ^ width + f.1), ⟨data, position + width⟩) := by
  induction width generalizing position value with
  | zero => simp [readOnto, field?, numberOfBits]
  | succ width ih =>
    rw [readOnto, bit?_eq]
    by_cases hleft : position < data.bits.length
    · have hrest : data.bits.drop position = data.bits[position] :: data.bits.drop (position + 1) :=
        List.drop_eq_getElem_cons hleft
      have hvalue : ∀ b n : Nat, (2 * value + b) * 2 ^ width + n = value * 2 ^ (width + 1) + (b * 2 ^ width + n) := by
        intro b n
        ring
      have hposition : position + 1 + width = position + (width + 1) := by omega
      rw [List.getElem?_eq_getElem hleft, hrest, AudioConfig.field?_succ_cons, Option.map_some, Option.bind_some,
        shiftLeft_or_bit, ih, Option.map_map]
      simp only [hvalue, hposition, Function.comp_def]
    · have hnone : data.bits.drop position = [] := List.drop_eq_nil_of_le (by omega)
      rw [List.getElem?_eq_none (by omega), hnone, AudioConfig.field?_succ_nil]
      rfl

/-- The bits that a reader has before it. -/
def rest (r : BitReader) : List Bool := r.data.bits.drop r.position

/-- A reader reads the field of the bits that it has before it. -/
theorem read_eq_field? (r : BitReader) (width : Nat) :
    r.read width = (field? width r.rest).map fun f => (UInt32.ofNat f.1, { r with position := r.position + width }) := by
  have hloop := readOnto_eq r.data r.position 0 width
  simp only [Nat.zero_mul, Nat.zero_add] at hloop
  exact hloop

/-- Either the bits end before the field does, or the reader gives the number of the field and goes on after it. -/
theorem read_cases (r : BitReader) (width : Nat) :
    (r.read width = none ∧ field? width r.rest = none) ∨
      ∃ n < 2 ^ width, ∃ r' : BitReader,
        r.read width = some (UInt32.ofNat n, r') ∧ field? width r.rest = some (n, r'.rest) := by
  rw [read_eq_field?]
  cases hfield : field? width r.rest with
  | none => exact Or.inl ⟨rfl, rfl⟩
  | some f =>
    have hrest : f.2 = rest { r with position := r.position + width } := by
      rw [field?] at hfield
      split at hfield
      · cases hfield
      · rw [← Option.some.inj hfield]
        exact List.drop_drop
    exact Or.inr ⟨f.1, AudioConfig.lt_of_field? hfield, _, rfl, by rw [← hrest]⟩

/-- A reader reads the part of the number of the octets that is in the field at its position. -/
theorem read_eq_fieldAt? (data : Bytes) (position : Nat) {width : Nat} (hwidth : 0 < width) :
    read ⟨data, position⟩ width =
      (data.fieldAt? position width).map fun n => (UInt32.ofNat n, ⟨data, position + width⟩) := by
  have hfield := AudioConfig.field?_drop_bits data position hwidth
  rw [read_eq_field?, rest, hfield, Option.map_map]
  rfl

end BitReader

end MediaSession
