import MediaSession.Bytes
import Mathlib.Data.List.Induction
import Mathlib.Data.Nat.Bitwise
import Mathlib.Tactic.Ring

/-!
# Fields of bits

Octets write one number, the most significant octet first. A field of so many bits from so many bits on is a part of this
number, got by a division and a remainder (`Bytes.fieldAt?`), and the first bits of the list of bits from there on write the
same (`field?_drop_bits`). The other way round `bitsOf` writes a number in a field, and `Bytes.ofBits` fills up the last octet.
-/

namespace MediaSession

namespace Bytes

/-- The bits of the octets in the order in which they are sent, the most significant of each octet first. -/
def bits (bytes : Bytes) : List Bool :=
  bytes.flatMap fun b => [7, 6, 5, 4, 3, 2, 1, 0].map fun i => b.toNat.testBit i

/-- An octet has eight bits. -/
theorem length_bits (bytes : Bytes) : (bits bytes).length = 8 * bytes.length := by
  induction bytes with
  | nil => rfl
  | cons b rest ih =>
    simp only [bits, List.flatMap_cons, List.length_append, List.length_map, List.length_cons, List.length_nil] at ih ⊢
    omega

/-- The number that octets write, the most significant octet first. -/
def toNat (bytes : Bytes) : Nat := bytes.foldl (fun n b => 256 * n + b.toNat) 0

/-- The number in `width` bits after the first `offset` bits, if there are that many. -/
def fieldAt? (bytes : Bytes) (offset width : Nat) : Option Nat :=
  if offset + width ≤ 8 * bytes.length then
    some (bytes.toNat / 2 ^ (8 * bytes.length - (offset + width)) % 2 ^ width)
  else none

theorem fieldAt?_eq_none_iff {bytes : Bytes} {offset width : Nat} :
    fieldAt? bytes offset width = none ↔ 8 * bytes.length < offset + width := by
  rw [fieldAt?]
  split
  · simp
    omega
  · simp
    omega

/-- The number in a field is less than the field can hold. -/
theorem lt_of_fieldAt? {bytes : Bytes} {offset width n : Nat} (h : fieldAt? bytes offset width = some n) :
    n < 2 ^ width := by
  rw [fieldAt?] at h
  split at h
  · obtain rfl := Option.some.inj h
    exact Nat.mod_lt _ (Nat.two_pow_pos width)
  · cases h

end Bytes

namespace AudioConfig

/-! ## From bits to numbers -/

/-- The number that bits write, the most significant first. -/
def numberOfBits (bits : List Bool) : Nat := bits.foldl (fun n b => 2 * n + b.toNat) 0

/-- The number in the first `width` bits, and the bits after them; nothing when there are fewer. -/
def field? (width : Nat) (bits : List Bool) : Option (Nat × List Bool) :=
  if bits.length < width then none else some (numberOfBits (bits.take width), bits.drop width)

theorem numberOfBits_concat (bits : List Bool) (b : Bool) :
    numberOfBits (bits ++ [b]) = 2 * numberOfBits bits + b.toNat := by
  simp [numberOfBits]

/-- Bits that come after others shift them to the left. -/
theorem numberOfBits_append (before after : List Bool) :
    numberOfBits (before ++ after) = numberOfBits before * 2 ^ after.length + numberOfBits after := by
  induction after using List.reverseRecOn with
  | nil => simp [numberOfBits]
  | append_singleton after b ih =>
    rw [← List.append_assoc, numberOfBits_concat, numberOfBits_concat, ih, List.length_append,
      List.length_singleton, pow_succ]
    ring

theorem numberOfBits_lt (bits : List Bool) : numberOfBits bits < 2 ^ bits.length := by
  induction bits using List.reverseRecOn with
  | nil => decide
  | append_singleton bits b ih =>
    have hb : b.toNat < 2 := b.toNat_lt
    rw [numberOfBits_concat, List.length_append, List.length_singleton, pow_succ]
    omega

/-- The number in a field is less than the field can hold. -/
theorem lt_of_field? {width n : Nat} {bits rest : List Bool} (h : field? width bits = some (n, rest)) : n < 2 ^ width := by
  rw [field?] at h
  split at h
  · cases h
  · obtain ⟨rfl, -⟩ := Prod.mk.inj (Option.some.inj h)
    exact (numberOfBits_lt _).trans_le (Nat.pow_le_pow_right (by decide) (List.length_take_le _ _))

/-- The eight bits of an octet write it. -/
theorem numberOfBits_octet (b : UInt8) : numberOfBits (Bytes.bits [b]) = b.toNat := by
  have hall : ∀ n < 256, numberOfBits (Bytes.bits [UInt8.ofNat n]) = n := by decide +kernel
  simpa using hall b.toNat b.toNat_lt

/-- The bits of octets write the number that the octets write. -/
theorem numberOfBits_bits (bytes : Bytes) : numberOfBits bytes.bits = bytes.toNat := by
  induction bytes using List.reverseRecOn with
  | nil => rfl
  | append_singleton bytes b ih =>
    have hbits : Bytes.bits (bytes ++ [b]) = Bytes.bits bytes ++ Bytes.bits [b] := List.flatMap_append
    have hnat : Bytes.toNat (bytes ++ [b]) = 256 * Bytes.toNat bytes + b.toNat := by simp [Bytes.toNat]
    rw [hbits, numberOfBits_append, numberOfBits_octet, Bytes.length_bits, ih, hnat]
    simp only [List.length_singleton]
    omega

/-- Bits in the middle of others are got by a division, which drops what comes after them, and a remainder, which drops what
comes before. -/
theorem numberOfBits_drop_take {bits : List Bool} {offset width : Nat} (h : offset + width ≤ bits.length) :
    numberOfBits ((bits.drop offset).take width) = numberOfBits bits / 2 ^ (bits.length - (offset + width)) % 2 ^ width := by
  have hsplit : bits = bits.take offset ++ ((bits.drop offset).take width ++ bits.drop (offset + width)) := by
    rw [← List.drop_drop, List.take_append_drop, List.take_append_drop]
  generalize hbefore : bits.take offset = before at hsplit
  generalize hfield : (bits.drop offset).take width = field at hsplit ⊢
  generalize hafter : bits.drop (offset + width) = after at hsplit
  have hwidth : field.length = width := by
    rw [← hfield, List.length_take, List.length_drop]
    omega
  have hrest : after.length = bits.length - (offset + width) := by rw [← hafter, List.length_drop]
  have hnumber : numberOfBits bits =
      (numberOfBits before * 2 ^ width + numberOfBits field) * 2 ^ after.length + numberOfBits after := by
    rw [hsplit, numberOfBits_append, numberOfBits_append, List.length_append, hwidth, pow_add]
    ring
  have hdiv : numberOfBits bits / 2 ^ after.length = numberOfBits before * 2 ^ width + numberOfBits field := by
    rw [hnumber, Nat.mul_comm, Nat.mul_add_div (Nat.two_pow_pos _), Nat.div_eq_of_lt (numberOfBits_lt after), Nat.add_zero]
  rw [← hrest, hdiv, Nat.mul_add_mod_self_right, Nat.mod_eq_of_lt (hwidth ▸ numberOfBits_lt field)]

/-- To read a field from the bits after an offset is to take it from the number that the octets write. -/
theorem field?_drop_bits (config : Bytes) (offset : Nat) {width : Nat} (hwidth : 0 < width) :
    field? width (config.bits.drop offset) =
      (config.fieldAt? offset width).map fun n => (n, config.bits.drop (offset + width)) := by
  have hlength := Bytes.length_bits config
  have hleft : (config.bits.drop offset).length = 8 * config.length - offset := by rw [List.length_drop, hlength]
  by_cases hfits : offset + width ≤ 8 * config.length
  · have hlong : ¬ (config.bits.drop offset).length < width := by omega
    have hnumber := numberOfBits_drop_take (hlength.symm ▸ hfits : offset + width ≤ config.bits.length)
    rw [field?, if_neg hlong, hnumber, numberOfBits_bits, hlength, List.drop_drop, Bytes.fieldAt?, if_pos hfits]
    rfl
  · have hshort : (config.bits.drop offset).length < width := by omega
    rw [field?, if_pos hshort, Bytes.fieldAt?, if_neg hfits]
    rfl

/-- A field of one bit more is the first bit and the field after it. -/
theorem field?_succ_cons (width : Nat) (b : Bool) (bits : List Bool) :
    field? (width + 1) (b :: bits) = (field? width bits).map fun f => (b.toNat * 2 ^ width + f.1, f.2) := by
  by_cases hshort : bits.length < width
  · simp [field?, hshort]
  · have htake : (bits.take width).length = width := by
      rw [List.length_take]
      omega
    have hfirst : numberOfBits (b :: bits.take width) = b.toNat * 2 ^ width + numberOfBits (bits.take width) := by
      have happend := numberOfBits_append [b] (bits.take width)
      rw [htake] at happend
      simpa [numberOfBits] using happend
    simp [field?, hshort, hfirst]

/-- There is no field of one bit or more when there are no bits. -/
theorem field?_succ_nil (width : Nat) : field? (width + 1) [] = none := rfl

/-! ## From numbers to bits -/

/-- The last `width` bits of a number, the most significant first. -/
def bitsOf : Nat → Nat → List Bool
  | 0, _ => []
  | width + 1, n => n.testBit width :: bitsOf width n

@[simp] theorem length_bitsOf (width n : Nat) : (bitsOf width n).length = width := by
  induction width with
  | zero => rfl
  | succ width ih => simp [bitsOf, ih]

theorem numberOfBits_bitsOf (width n : Nat) : numberOfBits (bitsOf width n) = n % 2 ^ width := by
  induction width with
  | zero => simp [bitsOf, numberOfBits, Nat.mod_one]
  | succ width ih =>
    have hone : numberOfBits [n.testBit width] = (n.testBit width).toNat := by simp [numberOfBits]
    rw [bitsOf, ← List.singleton_append, numberOfBits_append, hone, ih, length_bitsOf, Nat.toNat_testBit,
      Nat.mod_pow_succ]
    ring

/-- A number that a field is wide enough for is read back from it, whatever comes after it. -/
theorem field?_bitsOf {width n : Nat} (h : n < 2 ^ width) (after : List Bool) :
    field? width (bitsOf width n ++ after) = some (n, after) := by
  have hlong : ¬ (bitsOf width n ++ after).length < width := by simp
  rw [field?, if_neg hlong, List.take_left' (length_bitsOf width n), List.drop_left' (length_bitsOf width n),
    numberOfBits_bitsOf, Nat.mod_eq_of_lt h]

/-- As many bits as there are write different numbers. -/
theorem numberOfBits_inj {bits bits' : List Bool} (hlength : bits.length = bits'.length)
    (h : numberOfBits bits = numberOfBits bits') : bits = bits' := by
  induction bits using List.reverseRecOn generalizing bits' with
  | nil => exact (List.eq_nil_of_length_eq_zero hlength.symm).symm
  | append_singleton bits b ih =>
    rcases List.eq_nil_or_concat bits' with rfl | ⟨bits', b', rfl⟩
    · simp at hlength
    · simp only [List.concat_eq_append, List.length_append, List.length_singleton, numberOfBits_concat] at hlength h ⊢
      have hb := b.toNat_lt
      have hb' := b'.toNat_lt
      have hrest : bits = bits' := ih (by omega) (by omega)
      have hinj : ∀ b b' : Bool, b.toNat = b'.toNat → b = b' := by decide
      rw [hrest, hinj b b' (by omega)]

end AudioConfig

namespace Bytes

/-- The octet of at most eight bits, filled up with zeros at the end. -/
def octetOfBits (bits : List Bool) : UInt8 :=
  UInt8.ofNat (AudioConfig.numberOfBits (bits ++ List.replicate (8 - bits.length) false))

/-- The octets of bits. The last octet is filled up with zeros at the end. -/
def ofBits : List Bool → Bytes
  | [] => []
  | b :: bits => octetOfBits (b :: bits.take 7) :: ofBits (bits.drop 7)
termination_by bits => bits.length
decreasing_by
  simp only [List.length_drop, List.length_cons]
  omega

/-- An octet has the bits that it was made of. -/
theorem bits_octetOfBits {bits : List Bool} (h : bits.length ≤ 8) :
    Bytes.bits [octetOfBits bits] = bits ++ List.replicate (8 - bits.length) false := by
  have hlength : (bits ++ List.replicate (8 - bits.length) false).length = 8 := by
    rw [List.length_append, List.length_replicate]
    omega
  have hlt := AudioConfig.numberOfBits_lt (bits ++ List.replicate (8 - bits.length) false)
  rw [hlength] at hlt
  refine AudioConfig.numberOfBits_inj ?_ ?_
  · rw [hlength, length_bits]
    rfl
  · rw [AudioConfig.numberOfBits_octet, octetOfBits, UInt8.toNat_ofNat', Nat.mod_eq_of_lt hlt]

/-- The octets of bits have these bits and at most seven zeros after them. -/
theorem bits_ofBits (bits : List Bool) : ∃ pad < 8, (ofBits bits).bits = bits ++ List.replicate pad false := by
  induction bits using ofBits.induct with
  | case1 => exact ⟨0, by decide, by simp [ofBits, Bytes.bits]⟩
  | case2 b bits ih =>
    obtain ⟨pad, hpad, hrest⟩ := ih
    have hfirst : (b :: bits.take 7).length ≤ 8 := by
      rw [List.length_cons, List.length_take]
      omega
    have hbits : (ofBits (b :: bits)).bits = Bytes.bits [octetOfBits (b :: bits.take 7)] ++ (ofBits (bits.drop 7)).bits := by
      rw [ofBits]
      rfl
    rw [hbits, bits_octetOfBits hfirst]
    by_cases hlast : bits.length < 7
    · -- The octet is the last one, and the zeros are its own.
      have hnone : bits.drop 7 = [] := List.drop_eq_nil_of_le (by omega)
      have hall : bits.take 7 = bits := List.take_of_length_le (by omega)
      refine ⟨8 - (b :: bits).length, by rw [List.length_cons]; omega, ?_⟩
      rw [hnone, hall, ofBits]
      exact List.append_nil _
    · have hfull : 8 - (b :: bits.take 7).length = 0 := by
        rw [List.length_cons, List.length_take]
        omega
      refine ⟨pad, hpad, ?_⟩
      rw [hrest, hfull, List.replicate_zero, List.append_nil, List.cons_append, ← List.append_assoc, List.take_append_drop]
      rfl

end Bytes

end MediaSession
