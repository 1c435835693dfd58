import BoolCalculus.Settings.Host

/-!
# Folders and paths

A snapshot of a working folder, which is all that is known of the files of a host. A path is read component by
component; empty components and single dots name nothing. A path that leaves the folder leads to no
file.
-/

namespace BoolCalculus.Settings

/-- The components of a path that name something. -/
def components (path : Text) : List Text :=
  (path.split '/').filter fun part => part != "" && part != "."

/-- How a path starts: with no slash, with exactly two, or with another number of them. -/
def root (path : Text) : Text :=
  match path.points.takeWhile (· = .char '/') with
  | [] => ""
  | [_, _] => "//"
  | _ => "/"

/-- A path without the components that name nothing. -/
def normalPath (path : Text) : Text :=
  let text := root path ++ Text.join "/" (components path)
  if text = "" then "." else text

/-- What a folder holds under a path of plain names. -/
inductive Entry where
  | file (bytes : ByteArray)
  | folder

/-- The files and folders of a working folder, with the names on the way to them. -/
structure Folder where
  files : List (List Text × ByteArray)
  folders : List (List Text)

namespace Folder

/-- What stands at a path of plain names; a folder stands wherever a file or folder lies below. -/
def entry? (f : Folder) (names : List Text) : Option Entry :=
  match f.files.lookup names with
  | some bytes => some (.file bytes)
  | none =>
    if names.isEmpty || f.folders.any names.isPrefixOf || f.files.any (names.isPrefixOf ·.1) then
      some .folder
    else none

/-- The most bytes of a component of a path. -/
def maxNameBytes : Nat := 255

/-- The most bytes of a path. -/
def maxPathBytes : Nat := 4095

/-- Follows the components of a path from a folder. Two dots lead back to the folder above. A component that is too
long is none of the names in a folder. -/
def walk (f : Folder) (path : Text) : List Text → List Text → Found
  | here, [] =>
    match f.entry? here with
    | some (.file bytes) => .file bytes
    | _ => .nothing
  | here, part :: rest =>
    match f.entry? here with
    | some .folder =>
      if maxNameBytes < part.byteCount then .refused (.system 36 "File name too long" path)
      else if part = ".." then
        if here.isEmpty then .nothing else walk f path here.dropLast rest
      else walk f path (here ++ [part]) rest
    | _ => .nothing

/-- Whether a text can be asked for as a path: it is a row of bytes without a zero. -/
def isPath (path : Text) : Bool :=
  (Text.byteless? 0 path.points).isNone && path.points.all (· != .char '\x00')

/-- What is found at a path. Of paths that start from the root nothing is known to be there. -/
def found (f : Folder) (path : Text) : Found :=
  if !isPath path then .nothing
  else if maxPathBytes < path.byteCount then .refused (.system 36 "File name too long" path)
  else if root path = "" then f.walk path [] (components path)
  else .nothing

end Folder

end BoolCalculus.Settings
