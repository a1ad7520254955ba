import MediaSession.Proofs.Description.AudioRates

/-!
# Format parameters and the payload type before them

A line of format parameters counts for a track when its value begins with the payload type of the track, and blanks before the
type do not matter for that. What is taken from the value is what follows the digits at its very beginning. So a value that
begins with blanks counts, but keeps its payload type: the type becomes a part of the first parameter, whose name is not
found any more. `Leads` says how a value that counts is made up, and everything else is told by its parts.
-/

namespace MediaSession

namespace AudioConfig

variable {c : Char}

/-- A name that begins with a digit is not that of the configuration. -/
theorem sameLetters_cons_digit (hc : c.isDigit = true) (name : Text) :
    Text.sameLetters (c :: name) "config".toList = false := by
  have hletter : c.toLower ≠ 'c' := by
    rw [Text.toLower_eq_of_isDigit hc]
    rintro rfl
    cases hc
  exact beq_eq_false_iff_ne.2 fun h => hletter (List.cons.inj h).1

/-- A parameter that begins with a digit has a name that begins with it, if it has any. -/
theorem exists_of_cut?_cons_digit (hc : c.isDigit = true) {piece name value : Text}
    (h : Text.cut? '=' (Text.trim (c :: piece)) = some (name, value)) : ∃ rest, name = c :: rest := by
  obtain ⟨-, heq⟩ := Text.eq_of_cut? h
  rw [Text.trim_cons (Text.isBlank_eq_false_of_isDigit hc)] at heq
  cases name with
  | nil =>
    obtain rfl : c = '=' := (List.cons.inj heq).1
    cases hc
  | cons d rest =>
    obtain rfl : c = d := (List.cons.inj heq).1
    exact ⟨rest, rfl⟩

/-- Where the first of several parameters begins with a digit, the configuration is among the others. -/
theorem find?_config_cons_digit (hc : c.isDigit = true) (piece : Text) (later : List Text) :
    (((c :: piece) :: later).filterMap fun p => Text.cut? '=' (Text.trim p)).find?
        (fun (key, _) => Text.sameLetters key "config".toList) =
      (later.filterMap fun p => Text.cut? '=' (Text.trim p)).find?
        (fun (key, _) => Text.sameLetters key "config".toList) := by
  rw [List.filterMap_cons]
  cases hcut : Text.cut? '=' (Text.trim (c :: piece)) with
  | none => rfl
  | some parameter =>
    obtain ⟨name, value⟩ := parameter
    obtain ⟨rest, rfl⟩ := exists_of_cut?_cons_digit hc hcut
    have hother : ¬ Text.sameLetters (c :: rest) "config".toList = true := by
      rw [sameLetters_cons_digit hc]
      exact Bool.false_ne_true
    exact List.find?_cons_of_neg hother

/-- Where format parameters begin with a digit, the configuration is looked for after the first semicolon. -/
theorem sampleRateOfParameters?_cons_digit (hc : c.isDigit = true) (t : Text) :
    sampleRateOfParameters? (c :: t) = (Text.cut? ';' (c :: t)).bind fun parts => sampleRateOfParameters? parts.2 := by
  cases hcut : Text.cut? ';' (c :: t) with
  | none =>
    rw [sampleRateOfParameters?, parameter?, Text.splitOn_of_notMem (Text.cut?_eq_none_iff.1 hcut), find?_config_cons_digit hc]
    rfl
  | some parts =>
    obtain ⟨first, later⟩ := parts
    obtain ⟨hfirst, heq⟩ := Text.eq_of_cut? hcut
    cases first with
    | nil =>
      obtain rfl : c = ';' := (List.cons.inj heq).1
      cases hc
    | cons d piece =>
      obtain rfl : c = d := (List.cons.inj heq).1
      rw [sampleRateOfParameters?, parameter?, heq, List.splitOn_append_cons_self_of_not_mem hfirst, find?_config_cons_digit hc]
      rfl

end AudioConfig

namespace Track

/-! ## Values that begin with a payload type -/

/-- A value is made up of blanks, digits that denote the payload type, and a rest that begins with no digit. -/
structure Leads (p : UInt8) (value blanks digits rest : Text) : Prop where
  value_eq : value = blanks ++ (digits ++ rest)
  isBlank : ∀ c ∈ blanks, Text.isBlank c = true
  isDigit : ∀ c ∈ digits, c.isDigit = true
  number : Text.readUInt8? digits = some p
  head?_rest : ∀ c, rest.head? = some c → c.isDigit = false

namespace Leads

variable {p : UInt8} {value blanks digits rest : Text}

theorem digits_ne_nil (h : Leads p value blanks digits rest) : digits ≠ [] := by
  rintro rfl
  cases h.number

/-- What follows the blanks is what is left when the value is trimmed at its beginning. -/
theorem trimStart_eq (h : Leads p value blanks digits rest) : Text.trimStart value = digits ++ rest := by
  have hdigits := Text.trimStart_append h.digits_ne_nil (fun c hc => Text.isBlank_eq_false_of_isDigit (h.isDigit c hc)) rest
  rw [h.value_eq, Text.trimStart, List.dropWhile_append_of_pos h.isBlank]
  exact hdigits

/-- The digits end where the rest begins. -/
theorem takeWhile_eq (h : Leads p value blanks digits rest) : (digits ++ rest).takeWhile Char.isDigit = digits := by
  rw [List.takeWhile_append_of_pos h.isDigit]
  cases hr : rest with
  | nil => exact List.append_nil _
  | cons c t => rw [List.takeWhile_cons_of_neg (by simp [h.head?_rest c (by rw [hr]; rfl)]), List.append_nil]

theorem dropWhile_eq (h : Leads p value blanks digits rest) : (digits ++ rest).dropWhile Char.isDigit = rest := by
  have hall := List.takeWhile_append_dropWhile (p := Char.isDigit) (l := digits ++ rest)
  rw [h.takeWhile_eq] at hall
  exact List.append_cancel_left hall

end Leads

/-- A value begins with a payload type exactly when it is made up that way. -/
theorem leadingPayloadType?_eq_some_iff {p : UInt8} {value : Text} :
    leadingPayloadType? value = some p ↔ ∃ blanks digits rest, Leads p value blanks digits rest := by
  constructor
  · intro h
    refine ⟨value.takeWhile Text.isBlank, (Text.trimStart value).takeWhile Char.isDigit,
      (Text.trimStart value).dropWhile Char.isDigit, ?_, fun c hc => List.mem_takeWhile_imp hc,
      fun c hc => List.mem_takeWhile_imp hc, h, ?_⟩
    · rw [List.takeWhile_append_dropWhile]
      exact List.takeWhile_append_dropWhile.symm
    · intro c hc
      have hstop := List.head?_dropWhile_not Char.isDigit (Text.trimStart value)
      rwa [hc] at hstop
  · rintro ⟨blanks, digits, rest, h⟩
    rw [leadingPayloadType?, h.trimStart_eq, h.takeWhile_eq]
    exact h.number

/-! ## What is taken from a value -/

/-- The format parameters that are taken from a value: without blanks at its beginning, what follows the payload type and the
blanks after it, and with blanks all that follows them, the payload type first. -/
theorem format_applyFormat {p : UInt8} {value blanks digits rest : Text} (h : Leads p value blanks digits rest) (t : Track) :
    (t.applyFormat value).format = if blanks = [] then Text.trimStart rest else digits ++ rest := by
  split
  · rename_i hb
    have hvalue : value = digits ++ rest := by rw [h.value_eq, hb, List.nil_append]
    rw [applyFormat, hvalue, h.dropWhile_eq]
  · rename_i hb
    obtain ⟨b, more, rfl⟩ := List.exists_cons_of_ne_nil hb
    have hstays : value.dropWhile Char.isDigit = value := by
      rw [h.value_eq, List.cons_append,
        List.dropWhile_cons_of_neg (by simp [Text.isDigit_eq_false_of_isBlank (h.isBlank b List.mem_cons_self)])]
    rw [applyFormat, hstays, h.trimStart_eq]

end Track

namespace Session

/-- The format parameters of a track whose media line declares its payload type, in three parts. The last value of format
parameters that begins with the payload type counts, and it is made up of blanks, the number of the type and a rest.
1. Without blanks the format parameters are the rest, but for the blanks at its beginning. With blanks they are the number and
   the rest.
2. The rate is the one that the encodings for the payload type give and, if that is zero, what takes its place under these
   format parameters.
3. With blanks a configuration is found only after the first semicolon, as the number stands before the name of the first
   parameter. -/
theorem format_of_lastFormat {text value : Text} {before after : List (Text × List Line)} {lines : List Line} {m : MediaLine}
    {v : Text} (hblocks : (Line.sections (Line.readAll text)).2 = before ++ (value, lines) :: after)
    (hvalue : MediaLine.read? value = some m) (hm : m.payloadType ≠ unsetPayloadType)
    (hlast : (Track.valuesFor "fmtp".toList m.payloadType (lines.filterMap Line.attribute?)).getLast? = some v) :
    ∃ t, (read text).tracks[1 + (before.filterMap blockTrack?).length]? = some t ∧
      ∃ blanks digits rest, Track.Leads m.payloadType v blanks digits rest ∧
        t.format = (if blanks = [] then Text.trimStart rest else digits ++ rest) ∧
        t.sampleRate = Track.suppliedRate Track.configuredRate?
          { Track.encodedBy m (lines.filterMap Line.attribute?) with format := t.format } ∧
        (blanks ≠ [] → AudioConfig.sampleRateOfParameters? t.format =
          (Text.cut? ';' t.format).bind fun parts => AudioConfig.sampleRateOfParameters? parts.2) := by
  obtain ⟨blanks, digits, rest, hleads⟩ := Track.leadingPayloadType?_eq_some_iff.1
    (Track.leadingPayloadType?_of_mem_valuesFor (List.mem_of_getLast? hlast))
  obtain ⟨-, hformat, hrate⟩ := Track.encoding_ofBlock hm (MediaLine.media_ne_nil hvalue) hlast
  rw [← hformat] at hrate
  rw [Track.format_applyFormat hleads] at hformat
  refine ⟨_, getElem?_tracks_read hblocks hvalue, blanks, digits, rest, hleads, hformat, hrate, fun hb => ?_⟩
  obtain ⟨d, more, hdigits⟩ := List.exists_cons_of_ne_nil hleads.digits_ne_nil
  have hd : d.isDigit = true := hleads.isDigit d (hdigits ▸ List.mem_cons_self)
  rw [hformat, if_neg hb, hdigits, List.cons_append]
  exact AudioConfig.sampleRateOfParameters?_cons_digit hd _

/-- The lines of an AAC block under payload type 97 whose encoding gives no rate, with the given text before the number in its
line of format parameters. -/
def formatLines (before parameters : Text) : List Line :=
  [.attribute ⟨"rtpmap".toList, "97 mpeg4-generic/0".toList⟩, .attribute ⟨"fmtp".toList, before ++ "97 ".toList ++ parameters⟩]

/-- A description of one such block. -/
def formatOffer (before parameters : Text) : Text :=
  Text.ofLines ["m=".toList ++ aacMediaValue, "a=rtpmap:97 mpeg4-generic/0".toList,
    "a=fmtp:".toList ++ before ++ "97 ".toList ++ parameters]

/-- Format parameters with the configuration in the second place. -/
def modeFirst : Text := "mode=AAC-hbr;config=1210".toList

/-- With a blank the number stays, and the configuration is found where it does not come first. -/
theorem format_of_lastFormat_of_modeFirst :
    ∃ m, (Line.sections (Line.readAll (formatOffer [' '] modeFirst))).2 = [(aacMediaValue, formatLines [' '] modeFirst)] ∧
      MediaLine.read? aacMediaValue = some m ∧ m.payloadType ≠ unsetPayloadType ∧
      (Track.valuesFor "fmtp".toList m.payloadType ((formatLines [' '] modeFirst).filterMap Line.attribute?)).getLast? =
        some (" 97 ".toList ++ modeFirst) ∧
      ∃ t, (read (formatOffer [' '] modeFirst)).tracks[1]? = some t ∧ t.format = "97 ".toList ++ modeFirst ∧
        t.sampleRate = 44100 := by
  obtain ⟨m, hvalue, hm⟩ : ∃ m, MediaLine.read? aacMediaValue = some m ∧ m = ⟨"audio".toList, 0, none, "RTP/AVP".toList, 97⟩ :=
    ⟨_, by decide +kernel, rfl⟩
  have hblocks : (Line.sections (Line.readAll (formatOffer [' '] modeFirst))).2 =
      [] ++ (aacMediaValue, formatLines [' '] modeFirst) :: [] := by decide +kernel
  have hdeclared : m.payloadType ≠ unsetPayloadType := by rw [hm]; decide
  have hlast : (Track.valuesFor "fmtp".toList m.payloadType ((formatLines [' '] modeFirst).filterMap Line.attribute?)).getLast? =
      some (" 97 ".toList ++ modeFirst) := by rw [hm]; decide +kernel
  obtain ⟨t, ht, blanks, digits, rest, hleads, hformat, hrate, -⟩ := format_of_lastFormat hblocks hvalue hdeclared hlast
  have htrim : digits ++ rest = "97 ".toList ++ modeFirst := hleads.trimStart_eq.symm
  have hblanks : blanks ≠ [] := by
    rintro rfl
    have hvalue := hleads.value_eq
    rw [List.nil_append, htrim] at hvalue
    revert hvalue
    decide
  rw [if_neg hblanks, htrim] at hformat
  rw [hformat, hm] at hrate
  exact ⟨m, hblocks, hvalue, hdeclared, hlast, t, ht, hformat, hrate.trans (by decide +kernel)⟩

/-- Format parameters that are the configuration alone. -/
def configOnly : Text := "config=1210".toList

/-- A blank before the number changes the format parameters and the rate: the number stays, and the configuration is lost. -/
theorem exists_format_with_number :
    (Line.sections (Line.readAll (formatOffer [' '] configOnly))).2 = [(aacMediaValue, formatLines [' '] configOnly)] ∧
      Track.leadingPayloadType? (" 97 ".toList ++ configOnly) = some 97 ∧
      Text.trimStart ((Text.trimStart (" 97 ".toList ++ configOnly)).dropWhile Char.isDigit) = configOnly ∧
      ((read (formatOffer [' '] configOnly)).tracks.map fun t => (t.kind, t.payloadType, t.format, t.sampleRate)) =
        [(.title, unsetPayloadType, [], 0), (.audio, 97, "97 ".toList ++ configOnly, 0)] ∧
      ((read (formatOffer [] configOnly)).tracks.map fun t => (t.kind, t.payloadType, t.format, t.sampleRate)) =
        [(.title, unsetPayloadType, [], 0), (.audio, 97, configOnly, 44100)] := by
  decide +kernel

end Session

end MediaSession
