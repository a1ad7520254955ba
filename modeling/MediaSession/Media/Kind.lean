import MediaSession.Text.Basic

/-!
# Kinds of media

A description has one block of its own for the session, its title, and one block for each medium.
-/

namespace MediaSession

/-- What a block of a description describes. -/
inductive TrackKind where
  /-- A medium that is neither video nor audio. -/
  | invalid
  | video
  | audio
  /-- The session as a whole. -/
  | title
  deriving DecidableEq, Repr

namespace TrackKind

/-- The kind that the first word of a media line names. No word at all stands for the session itself. -/
def ofMedia (word : Text) : TrackKind :=
  if word = [] then .title
  else if word = "video".toList then .video
  else if word = "audio".toList then .audio
  else .invalid

/-- The name of the kind. -/
def name : TrackKind → Text
  | .invalid => "invalid".toList
  | .video => "video".toList
  | .audio => "audio".toList
  | .title => "title".toList

/-- Every kind but the title's is read back from its own name. -/
theorem ofMedia_name_iff (k : TrackKind) : ofMedia k.name = k ↔ k ≠ .title := by
  cases k <;> decide

end TrackKind

end MediaSession
