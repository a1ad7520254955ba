import MediaSession.Text.Hex
import MediaSession.Proofs.Text.Pieces

/-!
# Texts in hexadecimal

`Hex.Writes` says which texts write octets in hexadecimal: two digits for each octet, the high half first, and the letters
among them in either case. Such a text is read as the octets it writes (`Hex.Writes.decode_eq`).
-/

namespace MediaSession

namespace Hex

/-- A character is the hexadecimal digit of a number, as a small or as a capital letter where it is one. -/
def IsDigit (c : Char) (n : Nat) : Prop := c = Nat.digitChar n ∨ c = upperDigit n

instance (c : Char) (n : Nat) : Decidable (IsDigit c n) := inferInstanceAs (Decidable (_ ∨ _))

/-- A text writes octets in hexadecimal. -/
inductive Writes : Text → Bytes → Prop where
  | nil : Writes [] []
  | cons {high low : Char} {octet : UInt8} {t : Text} {bytes : Bytes} :
      IsDigit high (octet.toNat / 16) → IsDigit low (octet.toNat % 16) → Writes t bytes →
        Writes (high :: low :: t) (octet :: bytes)

theorem writes_cons_iff {high low : Char} {octet : UInt8} {t : Text} {bytes : Bytes} :
    Writes (high :: low :: t) (octet :: bytes) ↔
      IsDigit high (octet.toNat / 16) ∧ IsDigit low (octet.toNat % 16) ∧ Writes t bytes := by
  constructor
  · intro h
    cases h with
    | cons hhigh hlow hrest => exact ⟨hhigh, hlow, hrest⟩
  · rintro ⟨hhigh, hlow, hrest⟩
    exact .cons hhigh hlow hrest

instance : (t : Text) → (bytes : Bytes) → Decidable (Writes t bytes)
  | [], [] => .isTrue .nil
  | _ :: _ :: t, _ :: bytes =>
    have : Decidable (Writes t bytes) := instDecidableWrites t bytes
    decidable_of_iff' _ writes_cons_iff
  | [], _ :: _ => .isFalse nofun
  | [_], _ => .isFalse nofun
  | _ :: _ :: _, [] => .isFalse nofun

/-- A digit is a single octet in a text, and its value is the number. -/
theorem IsDigit.octets_eq {c : Char} {n : Nat} (h : IsDigit c n) (hn : n < 16) :
    ∃ o, String.utf8EncodeChar c = [o] ∧ digit? o = some (UInt8.ofNat n) := by
  have hsmall : ∀ n < 16, (String.utf8EncodeChar (Nat.digitChar n)).map digit? = [some (UInt8.ofNat n)] := by decide
  have hcapital : ∀ n < 16, (String.utf8EncodeChar (upperDigit n)).map digit? = [some (UInt8.ofNat n)] := by decide
  have hall : (String.utf8EncodeChar c).map digit? = [some (UInt8.ofNat n)] := by
    rcases h with rfl | rfl
    · exact hsmall n hn
    · exact hcapital n hn
  obtain ⟨o, ho, hvalue⟩ := List.map_eq_singleton_iff.1 hall
  exact ⟨o, ho, hvalue⟩

/-- A digit is no blank. -/
theorem IsDigit.isBlank_eq_false {c : Char} {n : Nat} (h : IsDigit c n) (hn : n < 16) : Text.isBlank c = false := by
  have hsmall : ∀ n < 16, Text.isBlank (Nat.digitChar n) = false := by decide
  have hcapital : ∀ n < 16, Text.isBlank (upperDigit n) = false := by decide
  rcases h with rfl | rfl
  · exact hsmall n hn
  · exact hcapital n hn

/-- The two halves of an octet give it back. -/
theorem halves_eq (b : UInt8) : UInt8.ofNat (b.toNat / 16) <<< 4 ||| UInt8.ofNat (b.toNat % 16) = b := by
  have hall : ∀ n < 256, UInt8.ofNat (n / 16) <<< 4 ||| UInt8.ofNat (n % 16) = UInt8.ofNat n := by decide +kernel
  simpa using hall b.toNat b.toNat_lt

namespace Writes

variable {t : Text} {bytes : Bytes}

/-- The octets of the text come in pairs, and each pair is read as its octet, whatever the position it stands at. -/
theorem decodePairs_eq (h : Writes t bytes) (position : Nat) :
    (Text.octets t).length % 2 = 0 ∧ decodePairs position (Text.octets t) = .ok bytes := by
  induction h generalizing position with
  | nil => exact ⟨rfl, rfl⟩
  | @cons high low octet t bytes hhigh hlow _ ih =>
    have hoctet := octet.toNat_lt
    obtain ⟨a, ha, hvalue⟩ := hhigh.octets_eq (by omega)
    obtain ⟨b, hb, hvalue'⟩ := hlow.octets_eq (by omega)
    obtain ⟨heven, hrest⟩ := ih (position + 2)
    have hoctets : Text.octets (high :: low :: t) = a :: b :: Text.octets t := by
      simp [Text.octets, ha, hb]
    rw [hoctets]
    constructor
    · rw [List.length_cons, List.length_cons]
      omega
    · simp only [decodePairs, hvalue, hvalue', hrest, halves_eq]
      rfl

/-- A text that writes octets is read as these octets. -/
theorem decode_eq (h : Writes t bytes) : decode (Text.octets t) = .ok bytes := by
  obtain ⟨heven, hread⟩ := h.decodePairs_eq 0
  rw [decode, if_neg (by omega)]
  exact hread

/-- A text in hexadecimal has no blank. -/
theorem isBlank_eq_false (h : Writes t bytes) : ∀ c ∈ t, Text.isBlank c = false := by
  induction h with
  | nil => exact fun _ hc => absurd hc List.not_mem_nil
  | @cons high low octet t bytes hhigh hlow _ ih =>
    have hoctet := octet.toNat_lt
    intro c hc
    rcases List.mem_cons.1 hc with rfl | hc
    · exact hhigh.isBlank_eq_false (by omega)
    · rcases List.mem_cons.1 hc with rfl | hc
      · exact hlow.isBlank_eq_false (by omega)
      · exact ih c hc

end Writes

end Hex

end MediaSession
