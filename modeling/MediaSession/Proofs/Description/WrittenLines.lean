import MediaSession.Description.Written
import MediaSession.Proofs.Description.Lines
import MediaSession.Proofs.Description.Winnowing
import Mathlib.Data.List.Forall2

/-!
# Written lines and what they are read as

Each line that is written is read back as one line. The lines of a video or audio track are read as its media line, its
bandwidth and its attributes, if the values of these were read from lines themselves.
-/

namespace MediaSession

/-- A written line holds no line feed, and it is read as the given line. -/
def Text.ReadsAs (written : Text) (line : Line) : Prop :=
  '\n' ∉ written ∧ Line.read? (Text.trim written) = some line

namespace Line

/-- A text that is made of written lines is read as what these lines are read as. -/
theorem readAll_ofLines_of_readsAs {written : List Text} {lines : List Line} (h : List.Forall₂ Text.ReadsAs written lines) :
    readAll (Text.ofLines written) = lines := by
  obtain ⟨hfeed, hread⟩ := (List.forall₂_and_left _ _).1 h
  rw [readAll_ofLines hfeed]
  clear hfeed h
  induction hread with
  | nil => rfl
  | cons hline _ ih => rw [List.filterMap_cons, hline, ih]

/-- A line with a letter is read as the line of that letter. -/
theorem readsAs_cons (letter : Char) (hb : Text.isBlank letter = false) (ha : letter.toNat < 128) {value : Text}
    (hv : '\n' ∉ value) : Text.ReadsAs (letter :: '=' :: value) (ofLetter letter (Text.trimEnd value)) := by
  refine ⟨List.not_mem_cons_of_ne_of_not_mem ?_ (List.not_mem_cons_of_ne_of_not_mem (by decide) hv),
    read?_trim_cons letter hb ha value⟩
  rintro rfl
  exact absurd hb (by decide)

/-- A line that names an attribute and gives it a value is read but for the blanks at the end of the value. -/
theorem readsAs_attribute {name value : Text} (hne : name ≠ []) (hname : ':' ∉ name) (hn : '\n' ∉ name) (hv : '\n' ∉ value) :
    Text.ReadsAs ("a=".toList ++ name ++ ':' :: value) (.attribute ⟨name, Text.trimEnd value⟩) := by
  obtain ⟨c, rest, rfl⟩ := List.exists_cons_of_ne_nil hne
  have hafter : '\n' ∉ ':' :: value := List.not_mem_cons_of_ne_of_not_mem (by decide) hv
  have hline := readsAs_cons 'a' rfl (by decide) (List.not_mem_append hn hafter)
  have htrim : Text.trimEnd (c :: rest ++ ':' :: value) = c :: rest ++ ':' :: Text.trimEnd value :=
    Text.trimEnd_append_cons rfl (c :: rest) value
  have hattr : ofLetter 'a' (c :: rest ++ ':' :: Text.trimEnd value) = .attribute ⟨c :: rest, Text.trimEnd value⟩ := by
    rw [← Attribute.ofValue_append_cons hname]
    rfl
  rwa [htrim, hattr] at hline

/-- A bandwidth that is not empty has a line. -/
theorem readsAs_bandwidth {value : Text} (h : value.Tidy) :
    List.Forall₂ Text.ReadsAs (if value = [] then [] else ["b=".toList ++ value])
      (if value = [] then [] else [.bandwidth value]) := by
  split
  · exact .nil
  · have hline := readsAs_cons 'b' rfl (by decide) h.1
    rw [h.2] at hline
    exact .cons hline .nil

/-- The line of a bandwidth begins no block. -/
theorem isMedia_of_mem_bandwidth {value : Text} {line : Line} (h : line ∈ if value = [] then [] else [bandwidth value]) :
    line.isMedia = false := by
  split at h
  · cases h
  · rw [List.mem_singleton.1 h]
    rfl

end Line

/-! ## Media lines -/

/-- The name of a kind is one word. -/
theorem TrackKind.name_word (k : TrackKind) : k.name ≠ [] ∧ ∀ c ∈ k.name, Text.isBlank c = false := by
  refine ⟨?_, Text.isBlank_eq_false_of_all ?_⟩
  · cases k <;> decide
  · cases k <;> decide

namespace MediaBlock

/-- The four words of a media line, as the value of its line. -/
def mediaValue (kind : TrackKind) (port : UInt16) (payloadType : UInt8) : Text :=
  kind.name ++ ' ' :: (Text.ofNat port.toNat ++ ' ' :: ("RTP/AVP".toList ++ ' ' :: Text.ofNat payloadType.toNat))

theorem mediaLine_eq (kind : TrackKind) (port : UInt16) (payloadType : UInt8) :
    mediaLine kind port payloadType = 'm' :: '=' :: mediaValue kind port payloadType := by
  simp [mediaLine, mediaValue]

/-- The value of a written media line is read back. -/
theorem read?_mediaValue (kind : TrackKind) (port : UInt16) (payloadType : UInt8) :
    MediaLine.read? (mediaValue kind port payloadType) =
      some { media := kind.name, port, portCount := none, transport := "RTP/AVP".toList, payloadType } := by
  have hdigits : ∀ (n : Nat) (c : Char), c ∈ Text.ofNat n → Text.isBlank c = false :=
    fun _ _ hc => Text.isBlank_eq_false_of_mem_ofNat hc
  have hwords : Text.words (mediaValue kind port payloadType) =
      [kind.name, Text.ofNat port.toNat, "RTP/AVP".toList, Text.ofNat payloadType.toNat] := by
    rw [mediaValue, Text.words_append_cons kind.name_word.1 kind.name_word.2 rfl,
      Text.words_append_cons (Text.ofNat_ne_nil _) (hdigits _) rfl,
      Text.words_append_cons (by decide) (Text.isBlank_eq_false_of_all (by decide)) rfl,
      Text.words_of_forall (Text.ofNat_ne_nil _) (hdigits _)]
  rw [MediaLine.read?, hwords]
  simp only [Text.readUInt8?_ofNat, MediaLine.readPort?, Text.readUInt16?_ofNat, Option.bind_some, Option.map_some]

/-- A written media line is read as the line of its value. -/
theorem readsAs_mediaLine (kind : TrackKind) (port : UInt16) (payloadType : UInt8) :
    Text.ReadsAs (mediaLine kind port payloadType) (.media (mediaValue kind port payloadType)) := by
  have hdigits : ∀ (n : Nat) (c : Char), c ∈ Text.ofNat n → Text.isBlank c = false :=
    fun _ _ hc => Text.isBlank_eq_false_of_mem_ofNat hc
  have htidy : (mediaValue kind port payloadType).Tidy := by
    have hends : mediaValue kind port payloadType = (kind.name ++ ' ' :: (Text.ofNat port.toNat ++ ' ' ::
        "RTP/AVP ".toList)) ++ Text.ofNat payloadType.toNat := by simp [mediaValue]
    have hport : '\n' ∉ Text.ofNat port.toNat ++ ' ' :: "RTP/AVP ".toList :=
      List.not_mem_append (Text.lineFeed_notMem (hdigits _)) (by decide)
    rw [hends]
    refine Text.tidy_append_word (List.not_mem_append (Text.lineFeed_notMem kind.name_word.2) ?_) (Text.ofNat_ne_nil _)
      (hdigits _)
    exact List.not_mem_cons_of_ne_of_not_mem (by decide) hport
  have hline := Line.readsAs_cons 'm' rfl (by decide) htidy.1
  rw [htidy.2, ← mediaLine_eq] at hline
  exact hline

end MediaBlock

/-! ## Tracks -/

namespace Track

/-- The values that a track is written with were read from lines. -/
structure Tidy (t : Track) : Prop where
  bandwidth : t.bandwidth.Tidy
  attributes : ∀ a ∈ t.attributes, ∃ value : Text, value.Tidy ∧ a = .ofValue value

/-- A line that was read keeps a track tidy. -/
theorem Tidy.addLine {t : Track} (h : t.Tidy) {line : Line} (hl : line.Tidy) : (t.addLine line).Tidy := by
  cases line with
  | bandwidth value => exact ⟨hl, h.attributes⟩
  | «attribute» a =>
    refine ⟨h.bandwidth, ?_⟩
    intro b hb
    rcases List.mem_append.1 hb with hb | hb
    · exact h.attributes b hb
    · rw [List.mem_singleton.1 hb]
      exact hl
  | _ => exact ⟨h.bandwidth, h.attributes⟩

theorem Tidy.addLines {t : Track} (h : t.Tidy) {lines : List Line} (hl : ∀ line ∈ lines, line.Tidy) :
    (t.addLines lines).Tidy :=
  List.foldlRecOn (motive := Tidy) _ _ h fun _ hu line hm => hu.addLine (hl line hm)

/-- The media line that offers a track under a port. -/
def offer (t : Track) (port : UInt16) : MediaLine :=
  { media := t.kind.name, port, portCount := none, transport := "RTP/AVP".toList, payloadType := t.payloadType }

/-- The lines of a written track as they are read, after the media line. -/
def rereadLines (t : Track) : List Line :=
  (if t.bandwidth = [] then [] else [.bandwidth t.bandwidth]) ++ t.writtenAttributes.map fun a => .attribute a.reread

/-- The control address that is written is an attribute of this name. -/
theorem name_of_getLast?_control {t : Track} {a : Attribute}
    (h : (t.attributes.filter (·.name == "control".toList)).getLast? = some a) : a.name = "control".toList :=
  beq_iff_eq.1 (List.mem_filter.1 (List.mem_of_getLast? h)).2

theorem mem_attributes_of_mem_writtenAttributes {t : Track} {a : Attribute} (h : a ∈ t.writtenAttributes) :
    a ∈ t.attributes := by
  rcases List.mem_append.1 h with h | h
  · exact (List.mem_filter.1 h).1
  · exact (List.mem_filter.1 (List.mem_of_getLast? (Option.mem_toList.1 h))).1

/-- The lines of a tidy track are read as a media line that offers it and the lines after it. -/
theorem Tidy.readsAs_lines {t : Track} (h : t.Tidy) (port : UInt16) :
    List.Forall₂ Text.ReadsAs (t.lines port)
      (.media (MediaBlock.mediaValue t.kind port t.payloadType) :: t.rereadLines) := by
  refine .cons (MediaBlock.readsAs_mediaLine _ _ _) (List.rel_append ?_ ?_)
  · exact Line.readsAs_bandwidth h.bandwidth
  · rw [List.forall₂_map_left_iff, List.forall₂_map_right_iff, List.forall₂_same]
    intro a ha
    obtain ⟨value, hvalue, rfl⟩ := h.attributes a (mem_attributes_of_mem_writtenAttributes ha)
    exact Attribute.read?_trim_write hvalue

end Track

end MediaSession
