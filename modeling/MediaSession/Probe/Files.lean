import MediaSession.Bytes
import MediaSession.Text.Numeral

/-!
# Files

A path is a text of names with slashes between them. It leads through a tree of files one name after the other, from the
root when it begins with a slash and from the working directory otherwise. Here: where it leads, why it may lead
nowhere, and the message for each reason.
-/

namespace MediaSession.Probe

/-- Why the contents of a file cannot be had. -/
inductive FileFault where
  /-- A name on the path is not there. -/
  | missing
  /-- The file may not be read. -/
  | denied
  /-- The path goes on after a file. -/
  | notADirectory
  /-- The path ends at a directory. -/
  | isADirectory
  /-- A name, or the path as a whole, is too long. -/
  | nameTooLong
  /-- Any other failure that the system reports, by its number. -/
  | other (number : Nat) (reason : Text)
  deriving DecidableEq, Repr

namespace FileFault

/-- The number by which the system reports the failure. -/
def number : FileFault → Nat
  | missing => 2
  | denied => 13
  | notADirectory => 20
  | isADirectory => 21
  | nameTooLong => 36
  | other number _ => number

/-- The failure in words. -/
def reason : FileFault → Text
  | missing => "No such file or directory".toList
  | denied => "Permission denied".toList
  | notADirectory => "Not a directory".toList
  | isADirectory => "Is a directory".toList
  | nameTooLong => "File name too long".toList
  | other _ reason => reason

/-- The message of a failure. -/
def message (f : FileFault) : Text := f.reason ++ " (os error ".toList ++ Text.ofNat f.number ++ [')']

end FileFault

/-- A tree of files. -/
inductive FileTree where
  | file (contents : Bytes)
  | directory (children : List (Text × FileTree))

namespace FileTree

/-- The largest number of octets of a name. -/
def maxNameSize : Nat := 255

/-- The largest number of octets of a path. -/
def maxPathSize : Nat := 4095

/-- The child of a directory that has the given name. -/
def child (children : List (Text × FileTree)) (name : Text) : Except FileFault FileTree :=
  if maxNameSize < (Text.octets name).length then .error .nameTooLong
  else (children.lookup name).elim (.error .missing) .ok

/-- Follows names from a place in the tree; `above` holds the directories that it lies in, the nearest first. Only a
directory can be left by a name. The empty name and a single dot stay where they are, and two dots lead to the directory
above; there is none above the root, which they lead to again. -/
def follow : FileTree → List FileTree → List Text → Except FileFault FileTree
  | here, _, [] => .ok here
  | .file _, _, _ :: _ => .error .notADirectory
  | .directory children, above, name :: rest =>
    if name = [] ∨ name = ['.'] then follow (.directory children) above rest
    else if name = ['.', '.'] then
      match above with
      | [] => follow (.directory children) [] rest
      | parent :: above => follow parent above rest
    else
      match child children name with
      | .error fault => .error fault
      | .ok next => follow next (.directory children :: above) rest

/-- The contents, which a directory has not. -/
def contents : FileTree → Except FileFault (Bytes)
  | .file contents => .ok contents
  | .directory _ => .error .isADirectory

/-- The contents of the file that a path leads to, where the working directory is given by its names from the root. -/
def read (root : FileTree) (working : List Text) (path : Text) : Except FileFault (Bytes) :=
  if path = [] then .error .missing
  else if maxPathSize < (Text.octets path).length then .error .nameTooLong
  else
    let names := path.splitOn '/'
    (root.follow [] (if path.head? = some '/' then names else working ++ names)).bind contents

end FileTree

end MediaSession.Probe
