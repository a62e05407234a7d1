import FieldRules.Text.Split

/-!
Directories and files below one root. Paths may climb with `..`, but nothing is known of what lies
outside the root.
-/

namespace FieldRules

/-- The names on the way from the root to a file or directory. -/
abbrev Location := List String

/-- Files with their texts, and directories. -/
structure FileTree where
  /-- The root in paths that start with it. -/
  root : String
  files : List (Location × String) := []
  directories : List Location := []

/-- Where a path starts. -/
inductive Anchor
  /-- At the root of the files. -/
  | root
  /-- At the directory that one works in. -/
  | here
  /-- At a place outside. -/
  | outside
  deriving DecidableEq

/-- A path, without names that lead nowhere. -/
structure FilePath where
  anchor : Anchor
  names : List String
  deriving DecidableEq

/-- The names of a path. Empty ones and single points lead nowhere. -/
def namesOf (s : String) : List String :=
  (Text.split "/" s).filter fun n => n != "" && n != "."

namespace FileTree

/-- The text of a path. -/
def pathText (t : FileTree) (p : FilePath) : String :=
  match p.anchor with
  | .root => Text.join "/" (t.root :: p.names)
  | .outside => "/" ++ Text.join "/" p.names
  | .here => if p.names.isEmpty then "." else Text.join "/" p.names

/-- The path that a text stands for. -/
def path (t : FileTree) (s : String) : FilePath :=
  if Text.startsWith "/" s then ⟨.outside, namesOf s⟩
  else
    match namesOf s with
    | n :: ns => if n = t.root then ⟨.root, ns⟩ else ⟨.here, n :: ns⟩
    | [] => ⟨.here, []⟩

/-- Whether there is a directory at a location. -/
def isDirectory (t : FileTree) (place : Location) : Bool :=
  place.isEmpty || t.directories.any place.isPrefixOf ||
    t.files.any fun f => place.isPrefixOf f.1.dropLast

/-- The location that names lead to from a directory, every step of which must be there. -/
def walk? (t : FileTree) : Location → List String → Option Location
  | place, [] => some place
  | place, n :: ns =>
    if !t.isDirectory place then none
    else if n != ".." then walk? t (place ++ [n]) ns
    else if place.isEmpty then none
    else walk? t place.dropLast ns

/-- The text of a file at a location. -/
def textAt? (t : FileTree) (place : Location) : Option String :=
  (t.files.find? fun f => f.1 == place).map (·.2)

/-- The text of the file at a path, seen from a directory. -/
def read? (t : FileTree) (here : Location) (p : FilePath) : Option String :=
  match p.anchor with
  | .root => (t.walk? [] p.names).bind t.textAt?
  | .here => (t.walk? here p.names).bind t.textAt?
  | .outside => none

end FileTree

/-- The location that names lead to whether or not the steps are there, unless it is outside. -/
def climb? : Location → List String → Option Location
  | place, [] => some place
  | place, n :: ns =>
    if n != ".." then climb? (place ++ [n]) ns
    else if place.isEmpty then none
    else climb? place.dropLast ns

end FieldRules
