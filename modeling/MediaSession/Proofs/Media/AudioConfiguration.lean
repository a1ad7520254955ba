import MediaSession.Media.AudioConfig
import MediaSession.Proofs.Media.BitReading
import MediaSession.Proofs.Text.Hexadecimal

/-!
# The rate in an audio configuration

A configuration is read field by field from the bits of its octets (`rateOfBits?`), and that is what a reader makes of the
octets themselves (`sampleRate?_eq_rateOfBits?`). Where the rate lies depends on the object type alone, and what it is depends
on one field or two (`sampleRate?_eq`). `ObjectType` and `RateField` say what a configuration can begin with: every one of them
is read back from its bits, whatever comes after, and from the format parameters that hold the octets in hexadecimal
(`sampleRate_exact`).
-/

namespace MediaSession

namespace AudioConfig

/-! ## Field by field -/

/-- The bits after the object type. -/
def bitsAfterType? (bits : List Bool) : Option (List Bool) :=
  (field? 5 bits).bind fun (type, rest) => if type = 31 then (field? 6 rest).map (·.2) else some rest

/-- The rate that bits begin with: the object type in 5 bits, and in 6 more when these are all set, the index in 4 bits and,
when these are all set, the rate itself in 24. There is none when the bits end before, or when the index is 13 or 14. -/
def rateOfBits? (bits : List Bool) : Option UInt32 :=
  (bitsAfterType? bits).bind fun bits =>
    (field? 4 bits).bind fun (index, rest) =>
      if index = 15 then (field? 24 rest).map fun (rate, _) => UInt32.ofNat rate else sampleRates[index]?

/-- The reader skips the object type as the bits have it. -/
theorem map_rest_skipObjectType? (r : BitReader) : (skipObjectType? r).map BitReader.rest = bitsAfterType? r.rest := by
  rw [skipObjectType?, bitsAfterType?]
  obtain ⟨hread, hfield⟩ | ⟨type, hlt, r, hread, hfield⟩ := r.read_cases 5
  · rw [hread, hfield]
    rfl
  · have hsame : UInt32.ofNat type = 31 ↔ type = 31 := by
      rw [← UInt32.toNat_inj, UInt32.toNat_ofNat', Nat.mod_eq_of_lt (by omega)]
      rfl
    simp only [hread, hfield, Option.bind_some, hsame]
    split
    · obtain ⟨hread, hfield⟩ | ⟨_, -, r, hread, hfield⟩ := r.read_cases 6
      · rw [hread, hfield]
        rfl
      · rw [hread, hfield]
        rfl
    · rfl

/-- What the reader makes of the octets of a configuration is the rate that their bits begin with. -/
theorem sampleRate?_eq_rateOfBits? (config : Bytes) : sampleRate? config = rateOfBits? config.bits := by
  have hskipped := map_rest_skipObjectType? { data := config }
  have hall : BitReader.rest { data := config } = config.bits := rfl
  rw [hall] at hskipped
  rw [sampleRate?, rateOfBits?, ← hskipped]
  cases skipObjectType? { data := config } with
  | none => rfl
  | some r =>
    rw [Option.map_some, Option.bind_some, Option.bind_some]
    obtain ⟨hread, hfield⟩ | ⟨index, hlt, r, hread, hfield⟩ := r.read_cases 4
    · rw [hread, hfield]
      rfl
    · have hindex : (UInt32.ofNat index).toNat = index := by
        rw [UInt32.toNat_ofNat', Nat.mod_eq_of_lt (by omega)]
      have hsame : UInt32.ofNat index = 15 ↔ index = 15 := by
        rw [← UInt32.toNat_inj, hindex]
        rfl
      simp only [hread, hfield, Option.bind_some, hsame, hindex]
      split
      · obtain ⟨hread, hfield⟩ | ⟨rate, -, r, hread, hfield⟩ := r.read_cases 24
        · rw [hread, hfield]
          rfl
        · rw [hread, hfield]
          rfl
      · rfl

/-! ## Where the rate lies -/

/-- The number of bits before the rate. -/
def rateOffset (config : Bytes) : Nat := if config.fieldAt? 0 5 = some 31 then 11 else 5

/-- The four bits at the beginning of the rate, if there are that many. -/
def rateIndex? (config : Bytes) : Option Nat := config.fieldAt? (rateOffset config) 4

/-- The first field after the object type is at the offset of the rate. An object type that is cut short leaves nothing. -/
theorem bitsAfterType?_bind_field? (config : Bytes) :
    (bitsAfterType? config.bits).bind (field? 4) =
      (rateIndex? config).map fun n => (n, config.bits.drop (rateOffset config + 4)) := by
  have htype : field? 5 config.bits = (config.fieldAt? 0 5).map fun n => (n, config.bits.drop 5) :=
    field?_drop_bits config 0 (by decide)
  rw [bitsAfterType?, htype, rateIndex?, rateOffset]
  cases hfirst : config.fieldAt? 0 5 with
  | none =>
    have hshort := Bytes.fieldAt?_eq_none_iff.1 hfirst
    have hnone : config.fieldAt? 5 4 = none := Bytes.fieldAt?_eq_none_iff.2 (by omega)
    simp [hnone]
  | some type =>
    by_cases hescape : type = 31
    · have hlong : field? 6 (config.bits.drop 5) = (config.fieldAt? 5 6).map fun n => (n, config.bits.drop 11) :=
        field?_drop_bits config 5 (by decide)
      simp only [hescape, Option.map_some, Option.bind_some, if_true, hlong]
      cases hsecond : config.fieldAt? 5 6 with
      | none =>
        have hshort := Bytes.fieldAt?_eq_none_iff.1 hsecond
        have hnone : config.fieldAt? 11 4 = none := Bytes.fieldAt?_eq_none_iff.2 (by omega)
        simp [hnone]
      | some _ => exact field?_drop_bits config 11 (by decide)
    · simp only [Option.map_some, Option.bind_some, if_neg hescape, Option.some.injEq]
      exact field?_drop_bits config 5 (by decide)

/-- The rate of a configuration, by the number that its octets write. -/
theorem sampleRate?_eq (config : Bytes) :
    sampleRate? config = (rateIndex? config).bind fun index =>
      if index = 15 then (config.fieldAt? (rateOffset config + 4) 24).map UInt32.ofNat else sampleRates[index]? := by
  have hassoc : rateOfBits? config.bits = ((bitsAfterType? config.bits).bind (field? 4)).bind fun p =>
      if p.1 = 15 then (field? 24 p.2).map fun q => UInt32.ofNat q.1 else sampleRates[p.1]? :=
    (Option.bind_assoc _ _ _).symm
  rw [sampleRate?_eq_rateOfBits?, hassoc, bitsAfterType?_bind_field?]
  cases rateIndex? config with
  | none => rfl
  | some index =>
    simp only [Option.map_some, Option.bind_some]
    rw [field?_drop_bits config _ (by decide), Option.map_map]
    rfl

/-- A configuration has no rate when its bits end before it, or when the index stands for none. -/
theorem sampleRate?_eq_none_iff (config : Bytes) :
    sampleRate? config = none ↔
      8 * config.length < rateOffset config + 4 ∨
      (rateIndex? config = some 15 ∧ 8 * config.length < rateOffset config + 28) ∨
      rateIndex? config = some 13 ∨ rateIndex? config = some 14 := by
  have hshort : 8 * config.length < rateOffset config + 4 ↔ rateIndex? config = none := Bytes.fieldAt?_eq_none_iff.symm
  have hcut : 8 * config.length < rateOffset config + 28 ↔ config.fieldAt? (rateOffset config + 4) 24 = none := by
    rw [Bytes.fieldAt?_eq_none_iff]
  rw [sampleRate?_eq, hshort, hcut]
  cases hindex : rateIndex? config with
  | none => simp
  | some index =>
    have hlt : index < 2 ^ 4 := Bytes.lt_of_fieldAt? hindex
    have hlisted : sampleRates[index]? = none ↔ 13 ≤ index := List.getElem?_eq_none_iff
    by_cases hexplicit : index = 15
    · simp [hexplicit]
    · simp only [Option.bind_some, hexplicit, if_false, hlisted, Option.some.injEq, reduceCtorEq, false_and, false_or]
      omega

/-! ## What a configuration begins with -/

/-- An object type. The number 31 in five bits is the sign that six more follow. -/
inductive ObjectType where
  | plain (type : Fin 31)
  | escaped (type : Fin 64)
  deriving DecidableEq, Repr

/-- The bits of an object type. -/
def ObjectType.bits : ObjectType → List Bool
  | plain type => bitsOf 5 type
  | escaped type => bitsOf 5 31 ++ bitsOf 6 type

/-- A rate: one of the table, or a number of its own. -/
inductive RateField where
  | listed (index : Fin 13)
  | explicit (rate : Fin (2 ^ 24))
  deriving DecidableEq, Repr

namespace RateField

/-- The bits of a rate. -/
def bits : RateField → List Bool
  | listed index => bitsOf 4 index
  | explicit rate => bitsOf 4 15 ++ bitsOf 24 rate

/-- The rate in hertz. -/
def value : RateField → UInt32
  | listed index => sampleRates.get index
  | explicit rate => UInt32.ofNat rate

end RateField

/-- Every object type is skipped. -/
theorem bitsAfterType?_bits (type : ObjectType) (rest : List Bool) : bitsAfterType? (type.bits ++ rest) = some rest := by
  cases type with
  | plain type =>
    have hlt : (type : Nat) < 2 ^ 5 := by omega
    have hne : ¬ (type : Nat) = 31 := by omega
    rw [bitsAfterType?, ObjectType.bits, field?_bitsOf hlt, Option.bind_some]
    exact if_neg hne
  | escaped type =>
    have hlt : (type : Nat) < 2 ^ 6 := by omega
    rw [bitsAfterType?, ObjectType.bits, List.append_assoc, field?_bitsOf (by decide : 31 < 2 ^ 5), Option.bind_some]
    simp only [if_true, field?_bitsOf hlt]
    rfl

/-- Every rate is read after every object type, whatever comes after it. -/
theorem sampleRate?_of_bits {config : Bytes} {type : ObjectType} {rate : RateField} {rest : List Bool}
    (h : config.bits = type.bits ++ (rate.bits ++ rest)) : sampleRate? config = some rate.value := by
  rw [sampleRate?_eq_rateOfBits?, h, rateOfBits?, bitsAfterType?_bits, Option.bind_some]
  cases rate with
  | listed index =>
    have hlt : (index : Nat) < 2 ^ 4 := by omega
    have hne : ¬ (index : Nat) = 15 := by omega
    rw [RateField.bits, field?_bitsOf hlt, Option.bind_some]
    simp only [hne, if_false]
    exact List.getElem?_eq_getElem _
  | explicit rate =>
    rw [RateField.bits, List.append_assoc, field?_bitsOf (by decide : 15 < 2 ^ 4), Option.bind_some]
    simp only [if_true]
    rw [field?_bitsOf rate.isLt]
    rfl

/-! ## Among format parameters -/

/-- A parameter of the given name: the name in letters of either case, blanks before it or not, and an equals sign. -/
def IsNamed (name piece : Text) : Prop :=
  ∃ blanks key rest, (∀ c ∈ blanks, Text.isBlank c = true) ∧ Text.sameLetters key name = true ∧
    piece = blanks ++ key ++ '=' :: rest

/-- A parameter that holds a configuration in hexadecimal, with blanks around the parameter and around its value or not. -/
def HoldsConfig (piece : Text) (config : Bytes) : Prop :=
  ∃ before key between hex after, (∀ c ∈ before ++ between ++ after, Text.isBlank c = true) ∧
    Text.sameLetters key "config".toList = true ∧ Hex.Writes hex config ∧
    piece = before ++ key ++ '=' :: (between ++ hex ++ after)

/-- A character that is a letter of the name in one of its cases is no blank and no equals sign. -/
theorem letter_of_toLower_mem {c : Char} (h : c.toLower ∈ "config".toList) : Text.isBlank c = false ∧ c ≠ '=' := by
  constructor
  · rw [← Bool.not_eq_true]
    intro hblank
    rw [Text.toLower_eq_of_isBlank hblank] at h
    rw [Text.isBlank_eq_false_of_all (by decide) c h] at hblank
    cases hblank
  · rintro rfl
    exact absurd h (by decide)

/-- A name in letters of either case is not empty, and has no blank and no equals sign. -/
theorem letters_of_sameLetters {key : Text} (h : Text.sameLetters key "config".toList = true) :
    key ≠ [] ∧ ∀ c ∈ key, Text.isBlank c = false ∧ c ≠ '=' := by
  have hlower : key.map Char.toLower = "config".toList := beq_iff_eq.1 h
  constructor
  · rintro rfl
    cases hlower
  · intro c hc
    exact letter_of_toLower_mem (hlower ▸ List.mem_map_of_mem hc)

/-- A trimmed parameter is cut at its first equals sign. Blanks at its end only shorten the value. -/
theorem cut?_trim_of_key {blanks key rest : Text} (hblanks : ∀ c ∈ blanks, Text.isBlank c = true)
    (hkey : Text.sameLetters key "config".toList = true) :
    Text.cut? '=' (Text.trim (blanks ++ key ++ '=' :: rest)) = some (key, Text.trimEnd rest) := by
  obtain ⟨hne, hletters⟩ := letters_of_sameLetters hkey
  have hequals : '=' ∉ key := fun hmem => (hletters _ hmem).2 rfl
  have htrim : Text.trim (blanks ++ key ++ '=' :: rest) = key ++ '=' :: Text.trimEnd rest := by
    have hword : ∀ c ∈ key, Text.isBlank c = false := fun c hc => (hletters c hc).1
    rw [List.append_assoc, Text.trim_blanks_append hblanks, Text.trim, Text.trimStart_append hne hword,
      Text.trimEnd_append_cons (by decide)]
  rw [htrim, Text.cut?_append_cons hequals]

/-- A piece with another name does not count, whether it is cut or not. -/
theorem sameLetters_eq_false_of_cut? {piece key value : Text} (h : ¬ IsNamed "config".toList piece)
    (hcut : Text.cut? '=' (Text.trim piece) = some (key, value)) : Text.sameLetters key "config".toList = false := by
  rw [← Bool.not_eq_true]
  intro hkey
  obtain ⟨-, htrim⟩ := Text.eq_of_cut? hcut
  obtain ⟨before, after, hbefore, -, hpiece⟩ := Text.exists_blanks_around piece
  refine h ⟨before, key, value ++ after, hbefore, hkey, ?_⟩
  rw [hpiece, htrim]
  simp only [List.append_assoc, List.cons_append]

/-- The first parameter of the name is found: those before it have other names, and those after it do not matter. -/
theorem parameter?_config_eq {parameters piece key value : Text} {before after : List Text}
    (hpieces : parameters.splitOn ';' = before ++ piece :: after) (hbefore : ∀ p ∈ before, ¬ IsNamed "config".toList p)
    (hcut : Text.cut? '=' (Text.trim piece) = some (key, value)) (hkey : Text.sameLetters key "config".toList = true) :
    parameter? "config".toList parameters = some value := by
  have hnone : ((before.filterMap fun p => Text.cut? '=' (Text.trim p)).find? fun q =>
      Text.sameLetters q.1 "config".toList) = none := by
    rw [List.find?_eq_none]
    rintro ⟨other, rest⟩ hmem
    obtain ⟨p, hp, hother⟩ := List.mem_filterMap.1 hmem
    exact Bool.eq_false_iff.1 (sameLetters_eq_false_of_cut? (hbefore p hp) hother)
  have hfound : (((piece :: after).filterMap fun p => Text.cut? '=' (Text.trim p)).find? fun q =>
      Text.sameLetters q.1 "config".toList) = some (key, value) := by
    rw [List.filterMap_cons, hcut]
    exact List.find?_cons_of_pos hkey
  have hfirst : (((before ++ piece :: after).filterMap fun p => Text.cut? '=' (Text.trim p)).find? fun q =>
      Text.sameLetters q.1 "config".toList) = some (key, value) := by
    rw [List.filterMap_append, List.find?_append, hnone, hfound]
    rfl
  rw [parameter?, hpieces]
  exact congrArg (Option.map (·.2)) hfirst

/-- The rate of format parameters is that of the configuration in the first parameter of the name. -/
theorem sampleRateOfParameters?_eq {parameters piece : Text} {before after : List Text} {config : Bytes}
    (hpieces : parameters.splitOn ';' = before ++ piece :: after) (hbefore : ∀ p ∈ before, ¬ IsNamed "config".toList p)
    (hpiece : HoldsConfig piece config) : sampleRateOfParameters? parameters = sampleRate? config := by
  obtain ⟨lead, key, between, hex, tail, hblanks, hkey, hhex, rfl⟩ := hpiece
  simp only [List.mem_append] at hblanks
  have hlead : ∀ c ∈ lead, Text.isBlank c = true := fun c hc => hblanks c (Or.inl (Or.inl hc))
  have hvalue : Text.trim (Text.trimEnd (between ++ hex ++ tail)) = hex := by
    rw [Text.trim_trimEnd, Text.trim_append_blanks fun c hc => hblanks c (Or.inr hc),
      Text.trim_blanks_append fun c hc => hblanks c (Or.inl (Or.inr hc)), Text.trim_of_forall hhex.isBlank_eq_false]
  rw [sampleRateOfParameters?, parameter?_config_eq hpieces hbefore (cut?_trim_of_key hlead hkey) hkey,
    Option.bind_some, hvalue, hhex.decode_eq]

/-- Rates are read exactly, in four parts.
1. A reader that is anywhere in octets reads the number in the field at its place and goes on after it. It reads nothing
   exactly when the octets end before the field does.
2. The rate of a configuration is the one that its bits begin with. By the number of the octets: it begins after the object
   type, of 5 bits or, when these are all set, of 11, and its first 4 bits are an index into the table, or the sign that it
   fills the next 24.
3. There is none exactly when a field is cut short, or when the index is 13 or 14.
4. Every object type and every rate, with any bits after them and filled up to whole octets, give this rate. So do format
   parameters among which the first of the name holds these octets in hexadecimal. -/
theorem sampleRate_exact :
    (∀ (data : Bytes) (position width : Nat), 0 < width →
      BitReader.read ⟨data, position⟩ width =
        (data.fieldAt? position width).map fun n => (UInt32.ofNat n, ⟨data, position + width⟩)) ∧
    (∀ config : Bytes,
      let start := if config.fieldAt? 0 5 = some 31 then 11 else 5
      let index := config.fieldAt? start 4
      sampleRate? config = rateOfBits? config.bits ∧
      (sampleRate? config = index.bind fun i =>
        if i = 15 then (config.fieldAt? (start + 4) 24).map UInt32.ofNat else sampleRates[i]?) ∧
      (sampleRate? config = none ↔
        8 * config.length < start + 4 ∨ (index = some 15 ∧ 8 * config.length < start + 28) ∨
        index = some 13 ∨ index = some 14)) ∧
    (∀ (type : ObjectType) (rate : RateField) (trailing : List Bool),
      let config := Bytes.ofBits (type.bits ++ (rate.bits ++ trailing))
      sampleRate? config = some rate.value ∧
      ∀ (parameters piece : Text) (before after : List Text), parameters.splitOn ';' = before ++ piece :: after →
        (∀ p ∈ before, ¬ IsNamed "config".toList p) → HoldsConfig piece config →
        sampleRateOfParameters? parameters = some rate.value) := by
  refine ⟨?_, ?_, ?_⟩
  · intro data position width hwidth
    exact BitReader.read_eq_fieldAt? data position hwidth
  · intro config start index
    exact ⟨sampleRate?_eq_rateOfBits? config, sampleRate?_eq config, sampleRate?_eq_none_iff config⟩
  · intro type rate trailing config
    obtain ⟨pad, -, hbits⟩ := Bytes.bits_ofBits (type.bits ++ (rate.bits ++ trailing))
    simp only [List.append_assoc] at hbits
    have hread : sampleRate? config = some rate.value := sampleRate?_of_bits hbits
    refine ⟨hread, ?_⟩
    intro parameters piece before after hpieces hbefore hpiece
    rw [sampleRateOfParameters?_eq hpieces hbefore hpiece, hread]

/-- An object type of eleven bits and a rate of its own end within the last octet. A name without a value is no parameter, and
the second configuration does not count. -/
example :
    Bytes.ofBits ((ObjectType.escaped 8).bits ++ ((RateField.explicit 11468).bits ++ [])) = [0xf9, 0x1e, 0x00, 0x59, 0x98] ∧
    sampleRateOfParameters? "mode=AAC-hbr; =;CONFIG;\tConFig= F91e005998 ; config=1210".toList = some 11468 := by
  decide +kernel

end AudioConfig

end MediaSession
