/-!
# Octets

Wire data is a list of octets. Numbers of two and four octets are sent with the most significant octet first, and are
read back from these octets.
-/

namespace MediaSession

/-- Octets in the order in which they are sent. -/
abbrev Bytes := List UInt8

namespace Bytes

/-- The number of two octets, the most significant first. -/
def toUInt16 (a b : UInt8) : UInt16 := UInt16.ofNat (256 * a.toNat + b.toNat)

/-- The number of four octets, the most significant first. -/
def toUInt32 (a b c d : UInt8) : UInt32 :=
  UInt32.ofNat (256 * (256 * (256 * a.toNat + b.toNat) + c.toNat) + d.toNat)

/-- The two octets of a number, the most significant first. -/
def ofUInt16 (n : UInt16) : Bytes := [UInt8.ofNat (n.toNat / 256), UInt8.ofNat n.toNat]

/-- The four octets of a number, the most significant first. -/
def ofUInt32 (n : UInt32) : Bytes :=
  [UInt8.ofNat (n.toNat / 0x1000000), UInt8.ofNat (n.toNat / 0x10000), UInt8.ofNat (n.toNat / 0x100), UInt8.ofNat n.toNat]

/-! ## Small facts -/

theorem toNat_toUInt16 (a b : UInt8) : (toUInt16 a b).toNat = 256 * a.toNat + b.toNat := by
  have ha := a.toNat_lt
  have hb := b.toNat_lt
  rw [toUInt16, UInt16.toNat_ofNat']
  omega

theorem toNat_toUInt32 (a b c d : UInt8) :
    (toUInt32 a b c d).toNat = 256 * (256 * (256 * a.toNat + b.toNat) + c.toNat) + d.toNat := by
  have ha := a.toNat_lt
  have hb := b.toNat_lt
  have hc := c.toNat_lt
  have hd := d.toNat_lt
  rw [toUInt32, UInt32.toNat_ofNat']
  omega

theorem length_ofUInt16 (n : UInt16) : (ofUInt16 n).length = 2 := rfl

theorem length_ofUInt32 (n : UInt32) : (ofUInt32 n).length = 4 := rfl

/-- The two octets of a number give the number back. -/
theorem toUInt16_ofUInt16 (n : UInt16) :
    toUInt16 (UInt8.ofNat (n.toNat / 256)) (UInt8.ofNat n.toNat) = n := by
  have hn := n.toNat_lt
  apply UInt16.toNat_inj.1
  rw [toNat_toUInt16, UInt8.toNat_ofNat', UInt8.toNat_ofNat']
  omega

/-- The four octets of a number give the number back. -/
theorem toUInt32_ofUInt32 (n : UInt32) :
    toUInt32 (UInt8.ofNat (n.toNat / 0x1000000)) (UInt8.ofNat (n.toNat / 0x10000)) (UInt8.ofNat (n.toNat / 0x100))
      (UInt8.ofNat n.toNat) = n := by
  have hn := n.toNat_lt
  apply UInt32.toNat_inj.1
  rw [toNat_toUInt32, UInt8.toNat_ofNat', UInt8.toNat_ofNat', UInt8.toNat_ofNat', UInt8.toNat_ofNat']
  omega

/-- Two octets are the octets of the number they give. -/
theorem ofUInt16_toUInt16 (a b : UInt8) : ofUInt16 (toUInt16 a b) = [a, b] := by
  have ha := a.toNat_lt
  have hb := b.toNat_lt
  have h₁ : UInt8.ofNat ((256 * a.toNat + b.toNat) / 256) = a := by
    apply UInt8.toNat_inj.1
    rw [UInt8.toNat_ofNat']
    omega
  have h₂ : UInt8.ofNat (256 * a.toNat + b.toNat) = b := by
    apply UInt8.toNat_inj.1
    rw [UInt8.toNat_ofNat']
    omega
  rw [ofUInt16, toNat_toUInt16, h₁, h₂]

end Bytes

end MediaSession
