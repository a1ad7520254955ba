import MediaSession.Rtp.Demultiplex
import Mathlib.Data.Nat.Bitwise

/-!
# The layout of a packet

A packet is five parts in a row: the fixed part, the contributing sources, the extension, the payload and the padding.
`IsLayout` says when five parts are the parts of a buffer, in terms of the bits of its first octet, the length in the
extension and the last octet alone.

The accessors of a header agree with it: a buffer has at most one layout, it has one exactly when the size of the payload
is not below zero, and then the accessors give its parts (`IsLayout.lengths`, `exists_isLayout_iff`, `IsLayout.payload?_eq`).
-/

namespace MediaSession.Rtp

/-- Five parts of a packet, in the order in which they lie in the buffer. -/
structure Layout where
  fixed : Bytes
  sources : Bytes
  extension : Bytes
  payload : Bytes
  padding : Bytes
  deriving DecidableEq, Repr

/-- The parts are those of the buffer. -/
structure IsLayout (bytes : Bytes) (l : Layout) : Prop where
  /-- Together the parts make up the buffer. -/
  bytes_eq : bytes = l.fixed ++ (l.sources ++ (l.extension ++ (l.payload ++ l.padding)))
  fixed_length : l.fixed.length = 12
  /-- The low four bits of the first octet count the sources, of four octets each. -/
  sources_length : l.sources.length = 4 * ((bytes.headD 0).toNat % 16)
  /-- There is an extension when bit 4 of the first octet is set; its third and fourth octet count the words of four
  octets after these four. -/
  extension_form :
    if (bytes.headD 0).toNat.testBit 4 then
      ∃ a b high low words, l.extension = a :: b :: high :: low :: words ∧ words.length = 4 * (256 * high.toNat + low.toNat)
    else l.extension = []
  /-- There is padding when bit 5 of the first octet is set; the last octet of the buffer counts its octets. -/
  padding_length : l.padding.length = if (bytes.headD 0).toNat.testBit 5 then (bytes.getLastD 0).toNat else 0

/-! ## Bits of an octet -/

/-- To mask one bit of an octet tells whether it is set. -/
theorem and_two_pow_ne_zero (b : UInt8) (i : Nat) (hi : i < 8) :
    (b &&& UInt8.ofNat (2 ^ i) != 0) = b.toNat.testBit i := by
  have hlt : 2 ^ i < 2 ^ 8 := Nat.pow_lt_pow_right (by omega) hi
  have hn : (b &&& UInt8.ofNat (2 ^ i)).toNat = (b.toNat.testBit i).toNat * 2 ^ i := by
    rw [UInt8.toNat_and, UInt8.toNat_ofNat', Nat.mod_eq_of_lt hlt, Nat.and_two_pow]
  have hz : b &&& UInt8.ofNat (2 ^ i) = 0 ↔ b.toNat.testBit i = false := by
    rw [← UInt8.toNat_inj, hn]
    cases b.toNat.testBit i <;> simp
  cases hb : b.toNat.testBit i with
  | false => simp [hz.2 hb]
  | true => simp [hz, hb]

/-- To mask the low four bits of an octet gives its remainder by sixteen. -/
theorem toNat_and_fifteen (b : UInt8) : (b &&& 0x0f).toNat = b.toNat % 16 := by
  rw [UInt8.toNat_and]
  exact Nat.and_two_pow_sub_one_eq_mod b.toNat 4

namespace Header

variable (h : Header)

theorem size_eq : h.size = h.bytes.length := rfl

theorem octet_zero : h.octet 0 = h.bytes.headD 0 := by
  cases hb : h.bytes <;> simp [octet, hb]

theorem hasPadding_eq : h.hasPadding = (h.bytes.headD 0).toNat.testBit 5 := by
  rw [← octet_zero]
  exact and_two_pow_ne_zero (h.octet 0) 5 (by decide)

theorem hasExtension_eq : h.hasExtension = (h.bytes.headD 0).toNat.testBit 4 := by
  rw [← octet_zero]
  exact and_two_pow_ne_zero (h.octet 0) 4 (by decide)

theorem sourcesSize_eq : h.sourcesSize = 4 * ((h.bytes.headD 0).toNat % 16) := by
  rw [← octet_zero, sourcesSize, sourceCount, toNat_and_fifteen]

theorem paddingSize_eq :
    h.paddingSize = if (h.bytes.headD 0).toNat.testBit 5 then (h.bytes.getLastD 0).toNat else 0 := by
  rw [paddingSize, hasPadding_eq]

variable {h}

/-- The octets of a region lie in the buffer, as many as were asked for and where they were asked for. -/
theorem region?_eq_some_iff {offset length : Nat} {r : Bytes} :
    h.region? offset length = some r ↔
      ∃ before after, h.bytes = before ++ (r ++ after) ∧ before.length = fixedSize + offset ∧ r.length = length := by
  have hs : h.size = h.bytes.length := rfl
  unfold region?
  constructor
  · intro hr
    split at hr
    · rename_i hle
      obtain rfl := Option.some.inj hr
      refine ⟨h.bytes.take (fixedSize + offset), (h.bytes.drop (fixedSize + offset)).drop length, ?_, ?_, ?_⟩
      · rw [List.take_append_drop, List.take_append_drop]
      · rw [List.length_take]
        omega
      · rw [List.length_take, List.length_drop]
        omega
    · cases hr
  · rintro ⟨before, after, hb, hlen, rfl⟩
    have hle : fixedSize + offset + r.length ≤ h.size := by
      rw [hs, hb, List.length_append, List.length_append]
      omega
    rw [if_pos hle, hb, ← hlen, List.drop_left, List.take_left]

/-- The offset of the payload, the padding, the fixed part and the size of the payload add up to the size. -/
theorem accounting (h : Header) :
    (h.payloadOffset : Int) + h.paddingSize + fixedSize + h.payloadSize = h.size := by
  simp only [payloadSize]
  omega

/-- The first four octets of an extension come after the sources. -/
theorem extensionLead?_eq (hx : h.hasExtension = true) {before after : Bytes} {a b high low : UInt8}
    (hb : h.bytes = before ++ (a :: b :: high :: low :: after)) (hlen : before.length = fixedSize + h.sourcesSize) :
    h.extensionLead? = some [a, b, high, low] := by
  rw [extensionLead?, if_pos hx, region?_eq_some_iff]
  exact ⟨before, after, hb, hlen, rfl⟩

/-- The last two of these octets count the words that follow. -/
theorem extensionSize_eq {a b high low : UInt8} (hlead : h.extensionLead? = some [a, b, high, low]) :
    h.extensionSize = 4 * (256 * high.toNat + low.toNat) := by
  rw [extensionSize, hlead]
  simp only [Bytes.toNat_toUInt16]

end Header

/-! ## Layouts of a buffer and the accessors of its header -/

section

variable {h : Header} {l : Layout}

/-- The extension is four octets that the header reads and as many more as it reads from them. -/
theorem IsLayout.extension_eq (hl : IsLayout h.bytes l) (hx : h.hasExtension = true) :
    ∃ a b high low words, l.extension = a :: b :: high :: low :: words ∧ words.length = h.extensionSize ∧
      h.extensionLead? = some [a, b, high, low] := by
  have hform := hl.extension_form
  rw [← h.hasExtension_eq, if_pos hx] at hform
  obtain ⟨a, b, high, low, words, he, hw⟩ := hform
  have hb : h.bytes = (l.fixed ++ l.sources) ++ (a :: b :: high :: low :: (words ++ (l.payload ++ l.padding))) := by
    rw [hl.bytes_eq, he, List.append_assoc]
    rfl
  have hlen : (l.fixed ++ l.sources).length = fixedSize + h.sourcesSize := by
    rw [List.length_append, hl.fixed_length, hl.sources_length, h.sourcesSize_eq]
    rfl
  have hlead := Header.extensionLead?_eq hx hb hlen
  exact ⟨a, b, high, low, words, he, by rw [hw, Header.extensionSize_eq hlead], hlead⟩

/-- The sizes that the header states are those of the parts. -/
theorem IsLayout.lengths (hl : IsLayout h.bytes l) :
    l.sources.length = h.sourcesSize ∧ l.sources.length + l.extension.length = h.payloadOffset ∧
      l.padding.length = h.paddingSize := by
  have hs : l.sources.length = h.sourcesSize := by rw [hl.sources_length, h.sourcesSize_eq]
  refine ⟨hs, ?_, by rw [hl.padding_length, h.paddingSize_eq]⟩
  unfold Header.payloadOffset
  cases hx : h.hasExtension with
  | true =>
    obtain ⟨a, b, high, low, words, he, hw, -⟩ := hl.extension_eq hx
    rw [if_pos rfl, hs, ← hw, he]
    simp only [List.length_cons]
    omega
  | false =>
    have hform := hl.extension_form
    rw [← h.hasExtension_eq, hx, if_neg Bool.false_ne_true] at hform
    rw [if_neg Bool.false_ne_true, hs, hform]
    rfl

/-- The size of the payload that the header states is that of the payload. -/
theorem IsLayout.payloadSize_eq (hl : IsLayout h.bytes l) : h.payloadSize = l.payload.length := by
  obtain ⟨-, hoff, hpad⟩ := hl.lengths
  have hacc := h.accounting
  have hlen := congrArg List.length hl.bytes_eq
  simp only [List.length_append, hl.fixed_length] at hlen
  rw [h.size_eq, hlen] at hacc
  simp only [fixedSize] at hacc
  omega

/-- A buffer has at most one layout. -/
theorem IsLayout.unique {l' : Layout} (hl : IsLayout h.bytes l) (hl' : IsLayout h.bytes l') : l = l' := by
  obtain ⟨hs, ho, hp⟩ := hl.lengths
  obtain ⟨hs', ho', hp'⟩ := hl'.lengths
  have heq := hl.bytes_eq.symm.trans hl'.bytes_eq
  obtain ⟨hfixed, heq⟩ := List.append_inj heq (by rw [hl.fixed_length, hl'.fixed_length])
  obtain ⟨hsources, heq⟩ := List.append_inj heq (by rw [hs, hs'])
  obtain ⟨hextension, heq⟩ := List.append_inj heq (by omega)
  obtain ⟨hpayload, hpadding⟩ := List.append_inj' heq (by rw [hp, hp'])
  obtain ⟨fixed, sources, extension, payload, padding⟩ := l
  obtain ⟨fixed', sources', extension', payload', padding'⟩ := l'
  simp only at hfixed hsources hextension hpayload hpadding
  rw [hfixed, hsources, hextension, hpayload, hpadding]

/-- A prefix of every length that there is. -/
theorem exists_append_of_le (bytes : Bytes) {n : Nat} (hn : n ≤ bytes.length) :
    ∃ before after, bytes = before ++ after ∧ before.length = n :=
  ⟨bytes.take n, bytes.drop n, (List.take_append_drop n bytes).symm, List.length_take_of_le hn⟩

/-- A buffer that is long enough for all that its header claims has a layout. -/
theorem exists_isLayout (hp : 0 ≤ h.payloadSize) : ∃ l, IsLayout h.bytes l := by
  have hacc := h.accounting
  rw [h.size_eq] at hacc
  simp only [fixedSize] at hacc
  have hoff : h.sourcesSize ≤ h.payloadOffset := Nat.le_add_right _ _
  obtain ⟨fixed, bytes₁, h₁, hfixed⟩ := exists_append_of_le h.bytes (n := 12) (by omega)
  have hlen₁ := congrArg List.length h₁
  rw [List.length_append, hfixed] at hlen₁
  obtain ⟨sources, bytes₂, h₂, hsources⟩ := exists_append_of_le bytes₁ (n := h.sourcesSize) (by omega)
  have hlen₂ := congrArg List.length h₂
  rw [List.length_append, hsources] at hlen₂
  obtain ⟨extension, bytes₃, h₃, hextension⟩ :=
    exists_append_of_le bytes₂ (n := h.payloadOffset - h.sourcesSize) (by omega)
  have hlen₃ := congrArg List.length h₃
  rw [List.length_append, hextension] at hlen₃
  obtain ⟨payload, padding, h₄, hpayload⟩ :=
    exists_append_of_le bytes₃ (n := h.payloadSize.toNat) (by omega)
  have hlen₄ := congrArg List.length h₄
  rw [List.length_append, hpayload] at hlen₄
  have hbytes : h.bytes = fixed ++ (sources ++ (extension ++ (payload ++ padding))) := by rw [h₁, h₂, h₃, h₄]
  refine ⟨⟨fixed, sources, extension, payload, padding⟩, hbytes, hfixed, by rw [hsources, h.sourcesSize_eq], ?_, ?_⟩
  · rw [← h.hasExtension_eq]
    split
    · rename_i hx
      have hsize : h.payloadOffset = h.sourcesSize + (4 + h.extensionSize) := by rw [Header.payloadOffset, if_pos hx]
      match extension, hextension with
      | a :: b :: high :: low :: words, hextension =>
        have hb : h.bytes = (fixed ++ sources) ++ (a :: b :: high :: low :: (words ++ (payload ++ padding))) := by
          rw [hbytes, List.append_assoc]
          rfl
        have hlead := Header.extensionLead?_eq hx hb (by rw [List.length_append, hfixed, hsources]; rfl)
        have hext := Header.extensionSize_eq hlead
        simp only [List.length_cons] at hextension
        exact ⟨a, b, high, low, words, rfl, by omega⟩
      | [], hextension | [_], hextension | [_, _], hextension | [_, _, _], hextension =>
        simp only [List.length_cons, List.length_nil] at hextension
        omega
    · rename_i hx
      rw [Header.payloadOffset, if_neg hx] at hextension
      show extension = []
      exact List.eq_nil_of_length_eq_zero (by omega)
  · rw [← h.paddingSize_eq]
    show padding.length = h.paddingSize
    omega

/-- A buffer has a layout exactly when its header does not claim more octets than there are. -/
theorem exists_isLayout_iff : (∃ l, IsLayout h.bytes l) ↔ 0 ≤ h.payloadSize := by
  constructor
  · rintro ⟨l, hl⟩
    rw [hl.payloadSize_eq]
    exact Int.natCast_nonneg _
  · exact exists_isLayout

/-- The accessor gives the payload. -/
theorem IsLayout.payload?_eq (hl : IsLayout h.bytes l) : h.payload? = some l.payload := by
  have hsize := hl.payloadSize_eq
  rw [Header.payload?, if_neg (by omega), Header.region?_eq_some_iff]
  refine ⟨l.fixed ++ (l.sources ++ l.extension), l.padding, ?_, ?_, by omega⟩
  · rw [hl.bytes_eq]
    simp only [List.append_assoc]
  · rw [List.length_append, List.length_append, hl.fixed_length, hl.lengths.2.1]
    rfl

/-- The accessor gives the sources, unless there are none. -/
theorem IsLayout.sources?_eq (hl : IsLayout h.bytes l) :
    h.sources? = if h.sourceCount = 0 then none else some l.sources := by
  rw [Header.sources?]
  split
  · rfl
  · rw [Header.region?_eq_some_iff]
    exact ⟨l.fixed, l.extension ++ (l.payload ++ l.padding), hl.bytes_eq, hl.fixed_length, hl.lengths.1⟩

/-- The accessor gives the extension after its first four octets, unless there is none. -/
theorem IsLayout.extension?_eq (hl : IsLayout h.bytes l) :
    h.extension? = if h.hasExtension then some (l.extension.drop 4) else none := by
  cases hx : h.hasExtension with
  | true =>
    obtain ⟨a, b, high, low, words, he, hw, hlead⟩ := hl.extension_eq hx
    rw [Header.extension?, hlead, Option.bind_some, if_pos rfl, Header.region?_eq_some_iff, he]
    refine ⟨l.fixed ++ (l.sources ++ [a, b, high, low]), l.payload ++ l.padding, ?_, ?_, hw⟩
    · rw [hl.bytes_eq, he]
      simp only [List.append_assoc, List.cons_append, List.nil_append, List.drop_succ_cons, List.drop_zero]
    · rw [List.length_append, List.length_append, hl.fixed_length, hl.lengths.1]
      rfl
  | false =>
    simp [Header.extension?, Header.extensionLead?, hx]

end

namespace Header

/-! ## What an accessor looks at -/

/-- A part of the buffer from an offset after the fixed part on. -/
def IsRegion (h : Header) (offset : Nat) (r : Bytes) : Prop :=
  ∃ before after, h.bytes = before ++ (r ++ after) ∧ before.length = fixedSize + offset

/-- The fields of the fixed part: version, padding, extension, number of sources, marker, payload type, sequence number,
timestamp and sender. -/
def fixedFields (h : Header) : UInt8 × Bool × Bool × UInt8 × Bool × UInt8 × UInt16 × UInt32 × UInt32 :=
  (h.version, h.hasPadding, h.hasExtension, h.sourceCount, h.marker, h.payloadType, h.sequence, h.timestamp, h.ssrc)

/-- No accessor looks beyond the buffer. -/
structure ReadsInside (h : Header) : Prop where
  /-- Every octet of the fixed part is there. -/
  octet : ∀ i < fixedSize, h.bytes[i]? = some (h.octet i)
  /-- The fields of the fixed part depend on nothing else. -/
  fixedFields : ∀ h' : Header, h'.bytes.take fixedSize = h.bytes.take fixedSize → h'.fixedFields = h.fixedFields
  /-- The last octet is there. -/
  last : h.bytes.getLast? = some (h.bytes.getLastD 0)
  sources : ∀ r, h.sources? = some r → h.IsRegion 0 r
  extensionLead : ∀ r, h.extensionLead? = some r → h.IsRegion h.sourcesSize r
  extension : ∀ r, h.extension? = some r → h.IsRegion (h.sourcesSize + 4) r
  payload : ∀ r, h.payload? = some r → h.IsRegion h.payloadOffset r

variable {h : Header}

theorem getElem?_eq_octet {i : Nat} (hi : i < fixedSize) : h.bytes[i]? = some (h.octet i) := by
  have hlt : i < h.bytes.length := Nat.lt_of_lt_of_le hi h.fixedSize_le
  simp [octet, hlt]

theorem octet_eq_of_take_eq {h' : Header} (heq : h'.bytes.take fixedSize = h.bytes.take fixedSize) {i : Nat}
    (hi : i < fixedSize) : h'.octet i = h.octet i := by
  have hget := congrArg (·[i]?) heq
  simp only [List.getElem?_take, hi, if_true, getElem?_eq_octet hi] at hget
  exact Option.some.inj hget

theorem isRegion_of_region? {offset length : Nat} {r : Bytes} (hr : h.region? offset length = some r) :
    h.IsRegion offset r := by
  obtain ⟨before, after, hb, hlen, -⟩ := region?_eq_some_iff.1 hr
  exact ⟨before, after, hb, hlen⟩

theorem readsInside (h : Header) : h.ReadsInside := by
  refine ⟨fun i hi => getElem?_eq_octet hi, ?_, ?_, ?_, ?_, ?_, ?_⟩
  · intro h' heq
    have hoctet : ∀ i, i < fixedSize → h'.octet i = h.octet i := fun i hi => octet_eq_of_take_eq heq hi
    simp only [fixedSize] at hoctet
    simp [Header.fixedFields, version, hasPadding, hasExtension, sourceCount, marker, payloadType, sequence, timestamp,
      ssrc, hoctet]
  · have hne : h.bytes ≠ [] := List.ne_nil_of_length_pos (Nat.lt_of_lt_of_le (by decide) h.fixedSize_le)
    rw [List.getLast?_eq_some_getLast hne, List.getLastD_eq_getLast?, List.getLast?_eq_some_getLast hne]
    rfl
  · intro r hr
    unfold sources? at hr
    split at hr
    · cases hr
    · exact isRegion_of_region? hr
  · intro r hr
    unfold extensionLead? at hr
    split at hr
    · exact isRegion_of_region? hr
    · cases hr
  · intro r hr
    obtain ⟨lead, -, hr⟩ := Option.bind_eq_some_iff.1 hr
    exact isRegion_of_region? hr
  · intro r hr
    unfold payload? at hr
    split at hr
    · cases hr
    · exact isRegion_of_region? hr

/-! ## The accessors and the layout -/

/-- The accessors give the parts of the layout if there is one, and report that there is none otherwise. -/
structure AgreesWithLayout (h : Header) : Prop where
  /-- What the accessor gives is the payload of a layout. -/
  payload?_eq_some_iff : ∀ p, h.payload? = some p ↔ ∃ l, IsLayout h.bytes l ∧ l.payload = p
  /-- There is at most one layout. -/
  unique : ∀ l l', IsLayout h.bytes l → IsLayout h.bytes l' → l = l'
  payloadSize_eq : ∀ l, IsLayout h.bytes l → h.payloadSize = l.payload.length
  sources?_eq : ∀ l, IsLayout h.bytes l → h.sources? = if h.sourceCount = 0 then none else some l.sources
  extension?_eq : ∀ l, IsLayout h.bytes l → h.extension? = if h.hasExtension then some (l.extension.drop 4) else none
  /-- Without a layout the size of the payload is below zero and there is no payload. -/
  none_of_not_exists : (¬∃ l, IsLayout h.bytes l) → h.payloadSize < 0 ∧ h.payload? = none
  /-- The sizes always add up. -/
  accounting : (h.payloadOffset : Int) + h.paddingSize + 12 + h.payloadSize = h.bytes.length

theorem agreesWithLayout (h : Header) : h.AgreesWithLayout := by
  have hnone : (¬∃ l, IsLayout h.bytes l) → h.payloadSize < 0 ∧ h.payload? = none := by
    intro hn
    have hlt : h.payloadSize < 0 := Int.not_le.1 fun hle => hn (exists_isLayout hle)
    exact ⟨hlt, if_pos hlt⟩
  refine ⟨?_, fun l l' hl hl' => hl.unique hl', fun l hl => hl.payloadSize_eq, fun l hl => hl.sources?_eq,
    fun l hl => hl.extension?_eq, hnone, h.accounting⟩
  intro p
  constructor
  · intro hp
    by_cases hex : ∃ l, IsLayout h.bytes l
    · obtain ⟨l, hl⟩ := hex
      exact ⟨l, hl, Option.some.inj (hl.payload?_eq.symm.trans hp)⟩
    · rw [(hnone hex).2] at hp
      cases hp
  · rintro ⟨l, hl, rfl⟩
    exact hl.payload?_eq

theorem ofBytes?_eq_none_iff {bytes : Bytes} : ofBytes? bytes = none ↔ bytes.length < fixedSize := by
  unfold ofBytes?
  split <;> simp <;> omega

theorem bytes_of_ofBytes? {bytes : Bytes} (hb : ofBytes? bytes = some h) : h.bytes = bytes := by
  unfold ofBytes? at hb
  split at hb
  · rw [← Option.some.inj hb]
  · cases hb

/-- The octets where a packet names its sender are in the buffer. -/
theorem ssrc?_bytes (h : Header) : ssrc? h.bytes = some h.ssrc := by
  have hlen : fixedSize ≤ h.bytes.length := h.fixedSize_le
  simp only [fixedSize] at hlen
  have htake : (h.bytes.drop 8).take 4 = [h.octet 8, h.octet 9, h.octet 10, h.octet 11] := by
    refine List.ext_getElem? fun i => ?_
    match i with
    | 0 | 1 | 2 | 3 =>
      simp only [List.getElem?_take, List.getElem?_drop, Nat.reduceLT, if_true, Nat.reduceAdd]
      exact getElem?_eq_octet (by decide)
    | i + 4 =>
      simp only [List.getElem?_take, Nat.not_lt.2 (Nat.le_add_left 4 i), if_false]
      rfl
  rw [Rtp.ssrc?, htake]
  rfl

end Header

/-- A buffer that is too short for the fixed part does not name a sender. -/
theorem ssrc?_eq_none {bytes : Bytes} (hlt : bytes.length < fixedSize) : ssrc? bytes = none := by
  simp only [fixedSize] at hlt
  have hlen : ((bytes.drop 8).take 4).length < 4 := by
    rw [List.length_take, List.length_drop]
    omega
  unfold ssrc?
  split
  · rename_i heq
    rw [heq] at hlen
    exact absurd hlen (by simp)
  · rfl

/-- A buffer is seen as a packet exactly when it holds the fixed part, and then the accessors read off its one layout, or
find that it has none, without looking beyond it. -/
theorem header_exact (bytes : Bytes) :
    (Header.ofBytes? bytes = none ↔ bytes.length < 12) ∧ (ssrc? bytes = none ↔ bytes.length < 12) ∧
    ∀ h, Header.ofBytes? bytes = some h →
      h.bytes = bytes ∧ ssrc? bytes = some h.ssrc ∧ h.AgreesWithLayout ∧ h.ReadsInside := by
  refine ⟨Header.ofBytes?_eq_none_iff, ?_, ?_⟩
  · constructor
    · intro hn
      by_contra hlen
      have hs := Header.ssrc?_bytes ⟨bytes, Nat.le_of_not_lt hlen⟩
      rw [hn] at hs
      cases hs
    · exact ssrc?_eq_none
  · intro h hb
    obtain rfl := Header.bytes_of_ofBytes? hb
    exact ⟨rfl, h.ssrc?_bytes, h.agreesWithLayout, h.readsInside⟩

/-- One source, an extension of one word, a payload of two octets and padding of three. With one octet less the last octet
counts none, and all that follows the extension is payload. -/
example :
    (Header.ofBytes? [0xb1, 96, 0, 1, 0, 0, 0, 2, 0, 0, 0, 3, 9, 9, 9, 9, 0xbe, 0xde, 0, 1, 5, 6, 5, 6, 7, 8, 0, 0, 3]).bind
      Header.payload? = some [7, 8] ∧
    (Header.ofBytes? [0xb1, 96, 0, 1, 0, 0, 0, 2, 0, 0, 0, 3, 9, 9, 9, 9, 0xbe, 0xde, 0, 1, 5, 6, 5, 6, 7, 8, 0, 0]).bind
      Header.payload? = some [7, 8, 0, 0] := by
  decide

end MediaSession.Rtp
