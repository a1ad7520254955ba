import MediaSession.Text.Basic

/-!
# Lines of a description

A description is a sequence of lines `letter=value`. Blanks around a line do not count, and what is not of that form is
skipped. Four letters have a meaning here: `t` and `b` set the timing and the bandwidth of the block they stand in, `m`
begins the block of a medium, and `a` adds an attribute. A line with another letter is kept as it is.
-/

namespace MediaSession

/-- An attribute of a block. -/
structure Attribute where
  name : Text
  value : Text
  deriving DecidableEq, Repr

/-- A line of a description. -/
inductive Line where
  | timing (value : Text)
  | bandwidth (value : Text)
  | media (value : Text)
  | attribute (a : Attribute)
  | other (letter : Char) (value : Text)
  deriving DecidableEq, Repr

/-- The attribute that an `a` line gives: the name ends at the first colon. A value that begins with a colon, or has
none, is a name as a whole. -/
def Attribute.ofValue (value : Text) : Attribute :=
  match Text.cut? ':' value with
  | some (c :: name, rest) => ⟨c :: name, rest⟩
  | _ => ⟨value, []⟩

/-- The `a` line of an attribute, without a colon when the value is empty. -/
def Attribute.write (a : Attribute) : Text :=
  if a.value = [] then "a=".toList ++ a.name else "a=".toList ++ a.name ++ ':' :: a.value

namespace Line

/-- The line of the given letter. -/
def ofLetter (letter : Char) (value : Text) : Line :=
  if letter = 't' then .timing value
  else if letter = 'b' then .bandwidth value
  else if letter = 'm' then .media value
  else if letter = 'a' then .attribute (.ofValue value)
  else .other letter value

/-- Reads a line without blanks around it: an ASCII character, an equals sign and the value. -/
def read? : Text → Option Line
  | letter :: '=' :: value => if letter.toNat < 128 then some (ofLetter letter value) else none
  | _ => none

/-- The lines of a description, without those that are skipped. -/
def readAll (text : Text) : List Line :=
  (text.splitOn '\n').filterMap fun line => read? (Text.trim line)

end Line

end MediaSession
