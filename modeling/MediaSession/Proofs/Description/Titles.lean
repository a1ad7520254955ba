import MediaSession.Proofs.Binary32.Decimals
import MediaSession.Proofs.Description.Blocks
import MediaSession.Proofs.Description.WrittenLines

/-!
# Titles that are written and read again

The title of a written description is read back with the length that it states: the range of a live title is read as one
without length, and that of any other ends at its length, whose text is one word without a colon. A title that is written
from the length it was read with has the same lines again.
-/

namespace MediaSession

namespace TitleBlock

/-- The lines of a title of the given length as they are read. -/
def rereadLines (duration : Binary32) : List Line :=
  [.other 'v' "0".toList, .other 'o' "- 0 0 IN IP4 0.0.0.0".toList, .other 's' "Streamed by rtsp-media".toList,
    .other 'c' "IN IP4 0.0.0.0".toList, .timing "0 0".toList, .attribute ⟨"range".toList, range { duration }⟩,
    .attribute ⟨"control".toList, "*".toList⟩]

theorem isMedia_of_mem_rereadLines {duration : Binary32} {line : Line} (h : line ∈ rereadLines duration) :
    line.isMedia = false := by
  simp only [rereadLines, List.mem_cons, List.not_mem_nil, or_false] at h
  rcases h with rfl | rfl | rfl | rfl | rfl | rfl | rfl <;> rfl

/-- The value of a range attribute stands in one line and has no blank at its end. -/
theorem tidy_range (duration : Binary32) : (range { duration }).Tidy := by
  obtain ⟨hne, hblank⟩ := Binary32.write_word duration
  unfold range
  split
  · exact ⟨by decide, by decide⟩
  · exact Text.tidy_append_word (by decide) hne hblank

theorem readsAs_lines (duration : Binary32) :
    List.Forall₂ Text.ReadsAs (lines { duration }) (rereadLines duration) := by
  have hversion : "v=".toList ++ Text.ofNat (0 : UInt32).toNat = "v=0".toList := by decide
  have hlines : lines { duration } = ("v=".toList ++ Text.ofNat (0 : UInt32).toNat) ::
      (usualHeader ++ ["a=range:".toList ++ range { duration }, "a=control:*".toList]) := rfl
  have hrange : Text.ReadsAs ("a=range:".toList ++ range { duration })
      (.attribute ⟨"range".toList, range { duration }⟩) := by
    have hline : Text.ReadsAs ("a=".toList ++ "range".toList ++ ':' :: range { duration }) _ :=
      Line.readsAs_attribute (by decide) (by decide) (by decide) (tidy_range duration).1
    rwa [(tidy_range duration).2] at hline
  rw [hlines, hversion]
  exact .cons ⟨by decide, rfl⟩ (.cons ⟨by decide, rfl⟩ (.cons ⟨by decide, rfl⟩ (.cons ⟨by decide, rfl⟩
    (.cons ⟨by decide, rfl⟩ (.cons hrange (.cons ⟨by decide, rfl⟩ .nil))))))

/-- The lines of a title are read as lines that begin no block. -/
theorem exists_readsAs_lines (duration : Binary32) :
    ∃ own, List.Forall₂ Text.ReadsAs (lines { duration }) own ∧ ∀ line ∈ own, line.isMedia = false :=
  ⟨rereadLines duration, readsAs_lines duration, fun _ h => isMedia_of_mem_rereadLines h⟩

/-- The length that a title states is zero or less exactly when its own length is. -/
theorem isNonpositive_statedDuration (b : TitleBlock) : b.statedDuration.isNonpositive = b.duration.isNonpositive := by
  unfold statedDuration
  split
  · rename_i h
    rw [h]
    rfl
  · rfl

/-- A title that is written from the length it states has the same lines. -/
theorem lines_statedDuration (duration : Binary32) :
    lines { duration := statedDuration { duration } } = lines { duration } := by
  have hrange : range { duration := statedDuration { duration } } = range { duration } := by
    have hlive := isNonpositive_statedDuration { duration }
    unfold range
    simp only [hlive]
    split
    · rfl
    · rename_i h
      rw [statedDuration, if_neg h]
  have hlines : ∀ d : Binary32, lines { duration := d } = ("v=".toList ++ Text.ofNat (0 : UInt32).toNat) ::
      (usualHeader ++ ["a=range:".toList ++ range { duration := d }, "a=control:*".toList]) := fun _ => rfl
  rw [hlines, hlines, hrange]

end TitleBlock

/-- The text of a number is read as a time in seconds. -/
theorem TimeRange.readStop?_write (x : Binary32) : readStop? x.write = some x := by
  obtain ⟨hne, hblank⟩ := x.write_word
  have hcolon : ':' ∉ x.write := Binary32.notMem_write (by decide) (by decide) x
  rw [readStop?, Text.words_of_forall hne hblank]
  simp only [readTime?]
  rw [List.splitOn_eq_singleton hcolon]
  exact Binary32.read?_write x

/-- The range of a title is read as one from zero to the stated length. -/
theorem TimeRange.read?_range (duration : Binary32) :
    read? (TitleBlock.range { duration }) = some ⟨.zero, TitleBlock.statedDuration { duration }⟩ := by
  unfold TitleBlock.range TitleBlock.statedDuration
  split
  · decide
  · have hvalue : "npt=0-".toList ++ duration.write = "npt".toList ++ '=' :: ("0".toList ++ '-' :: duration.write) := rfl
    have hunit : ¬ Text.trim "npt".toList = [] := by decide
    have hstart : readStart? "0".toList = some .zero := by decide
    rw [read?, hvalue, Text.cut?_append_cons (by decide), Option.bind_some]
    simp only [if_neg hunit, Text.cut?_append_cons (show '-' ∉ "0".toList by decide), Option.getD_some, hstart,
      Option.bind_some, readStop?_write, Option.map_some]

namespace Track

/-- The title that is read from the lines before the first block. -/
def ofTitle (own : List Line) : Track := Id.run ((title.addLines own).resolve configuredRate?)

theorem kind_ofTitle (own : List Line) : (ofTitle own).kind = .title :=
  (kind_resolve _ _).trans (kind_port_addLines _ _).1

/-- The title that is read from a written one. -/
theorem ofTitle_rereadLines (duration : Binary32) :
    ofTitle (TitleBlock.rereadLines duration) =
      { title with
        timing := "0 0".toList
        stop := TitleBlock.statedDuration { duration }
        duration := TitleBlock.statedDuration { duration }
        control := "*".toList
        attributes := [⟨"range".toList, TitleBlock.range { duration }⟩, ⟨"control".toList, "*".toList⟩]
        other := [('c', "IN IP4 0.0.0.0".toList), ('o', "- 0 0 IN IP4 0.0.0.0".toList),
          ('s', "Streamed by rtsp-media".toList), ('v', "0".toList)] } := by
  have hraw : title.addLines (TitleBlock.rereadLines duration) =
      { title with
        timing := "0 0".toList
        attributes := [⟨"range".toList, TitleBlock.range { duration }⟩, ⟨"control".toList, "*".toList⟩]
        other := [('c', "IN IP4 0.0.0.0".toList), ('o', "- 0 0 IN IP4 0.0.0.0".toList),
          ('s', "Streamed by rtsp-media".toList), ('v', "0".toList)] } := rfl
  have hlength : (TimeRange.mk .zero (TitleBlock.statedDuration { duration })).duration =
      TitleBlock.statedDuration { duration } := Binary32.sub_zero _
  have hvalue : (title.addLines (TitleBlock.rereadLines duration)).valueOf? "range".toList =
      some (TitleBlock.range { duration }) := rfl
  rw [ofTitle, resolve, resolveAttributes, resolveRange, hvalue, Option.bind_some, TimeRange.read?_range]
  simp only [hlength]
  rw [hraw]
  rfl

end Track

end MediaSession
