/-!
# Paths

An absolute path is the row of names from the root. A relative path is resolved against a
directory: empty names and `.` go nowhere, and `..` goes one level up, as far as the root.
-/

namespace LineScript.CommandLine

/-- An absolute path. -/
structure Path where
  names : List String
deriving DecidableEq, Repr

namespace Path

/-- The names between the slashes of a path. -/
def namesIn : List Char → List (List Char)
  | [] => [[]]
  | c :: rest =>
    if c = '/' then [] :: namesIn rest
    else
      match namesIn rest with
      | [] => [[c]]
      | name :: others => (c :: name) :: others

/-- The path one step further. -/
def step (path : Path) (name : List Char) : Path :=
  if name = [] || name = ['.'] then path
  else if name = ['.', '.'] then ⟨path.names.dropLast⟩
  else ⟨path.names ++ [String.ofList name]⟩

/-- The path that a text means in a directory. -/
def resolve (directory : Path) (text : String) : Path :=
  let start : Path := if text.toList.head? = some '/' then ⟨[]⟩ else directory
  (namesIn text.toList).foldl step start

/-- The path in a message. -/
def shown (path : Path) : String :=
  "/" ++ "/".intercalate path.names

/-- A file in a directory. -/
def child (path : Path) (name : String) : Path :=
  ⟨path.names ++ [name]⟩

/-- Whether a path leads into a directory. -/
def isBelow (directory path : Path) : Bool :=
  directory.names.length < path.names.length && directory.names.isPrefixOf path.names

/-- The characters of a name before its suffix. The suffix starts at the last dot, which is
neither the first character of the name nor the last. -/
def stem (name : List Char) : List Char :=
  match name.reverse.dropWhile (· ≠ '.') with
  | _ :: before =>
    if before.isEmpty || name.getLast? = some '.' then name else before.reverse
  | [] => name

/-- The path with another suffix; the root has no name to change. -/
def withSuffix? (path : Path) (new : String) : Option Path :=
  path.names.getLast?.map fun name =>
    ⟨path.names.dropLast ++ [String.ofList (stem name.toList) ++ new]⟩

end Path

end LineScript.CommandLine
