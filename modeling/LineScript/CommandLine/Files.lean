import LineScript.CommandLine.Path
import LineScript.Library.Recipe
import LineScript.Text.Breaks

/-!
# Files

The command line sees files that hold bytes and files that declare a library. A library file may
be broken: it may fail, or declare no actions. Besides the directories that are listed, there are
those that lead to a file and the one that the command is used in. Every path can be looked up: the
limits that a file system sets on names are left out.

A library can also be an installed module, given by its name, which is tried when no file is there
under the name. Installed modules are left out: there are none, so that a name which leads to no
file is always refused.
-/

namespace LineScript.CommandLine

/-- What a file holds. -/
inductive FileContent where
  | bytes (bytes : ByteArray)
  | library (actions : Library.Recipe)
  | withoutActions
  | failing

/-- The files, the directory that the command is used in, and other directories. -/
structure Files where
  directory : Path
  contents : List (Path × FileContent)
  directories : List Path := []

namespace Files

/-- The content of a file. -/
def content? (files : Files) (path : Path) : Option FileContent :=
  files.contents.lookup path

/-- Whether a path leads to a directory. -/
def isDirectory (files : Files) (path : Path) : Bool :=
  path == files.directory || path.isBelow files.directory || files.directories.contains path ||
    files.contents.any fun file => path.isBelow file.1

/-- Whether a path leads to a file or a directory. -/
def isThere (files : Files) (path : Path) : Bool :=
  (files.content? path).isSome || files.isDirectory path

/-- The suffix of library files. -/
def librarySuffix : String := ".py"

/-- The library file of a directory. -/
def directoryFile : String := "__init__.py"

/-- The library that a path leads to: in a file, in the file with the same name and the suffix of
libraries, or in a directory. Where none of these is there, no module is looked for. -/
def library? (files : Files) (path : Path) : Option Library.Recipe := do
  let path ←
    if files.isThere path then some path
    else path.withSuffix? librarySuffix
  let file := if files.isDirectory path then path.child directoryFile else path
  let name ← file.names.getLast?
  if !librarySuffix.toList.isSuffixOf name.toList then none
  match ← files.content? file with
  | .library actions => some actions
  | _ => none

/-- The text in a file, with every line break written as a line feed. -/
def text (files : Files) (path : Path) : Except Fault String :=
  match files.content? path with
  | some (.bytes bytes) =>
    match String.fromUTF8? bytes with
    | some content => .ok (String.ofList (Text.unifyBreaks content.toList))
    | none => .error .notText
  | some _ => .error .notText
  | none => .error (.directory path.shown)

end Files

end LineScript.CommandLine
