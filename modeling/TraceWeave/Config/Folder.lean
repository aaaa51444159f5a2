import TraceWeave.Text.Pieces

/-!
# Folders

Files under a working folder, and what a path leads to. A path is walked one name after another:
every name but the last has to be that of a folder, a point stays where it is, and two points go
back. Of what lies outside the working folder nothing is known but that it is a folder.

Files are given under such paths, too. The folders on the way to a file exist, also those that the
path goes back from.
-/

namespace TraceWeave.Config

/-- Files with their contents, and folders. They are known by the names on the way to them. -/
structure Folder where
  files : List (List String × String) := []
  folders : List (List String) := []
deriving DecidableEq, Repr

namespace Folder

/-- Why nothing can be read at the end of a path. -/
inductive Fault
  | missing
  | isFolder
  | isNoFolder
  | nameTooLong
  /-- A name with a character that ends names. -/
  | nameBroken
deriving DecidableEq, Repr

/-- The wording of a cause. -/
def Fault.message : Fault → String
  | .missing => "No such file or directory (os error 2)"
  | .isFolder => "Is a directory (os error 21)"
  | .isNoFolder => "Not a directory (os error 20)"
  | .nameTooLong => "File name too long (os error 36)"
  | .nameBroken => "file name contained an unexpected NUL byte"

/-- What a name stands for. -/
inductive Entry
  | folder
  | file (content : String)
deriving DecidableEq, Repr

/-- The names on a path. -/
def names (path : String) : List String :=
  (Text.pieces '/' path.toList).map String.ofList

/-- The name does not lead to anything new. -/
def isStep (name : String) : Bool :=
  name == "" || name == "." || name == ".."

/-- Where a name leads to from a place, which is a way from the working folder or somewhere
outside. -/
def step (place : Option (List String)) (name : String) : Option (List String) :=
  if name = "" ∨ name = "." then place
  else if name = ".." then place.bind fun way => if way.isEmpty then none else some way.dropLast
  else place.map (· ++ [name])

/-- The places that names lead to, one after the other. -/
def route (place : Option (List String)) : List String → List (Option (List String))
  | [] => []
  | name :: rest => step place name :: route (step place name) rest

/-- Files under their paths. A file takes the place of one that was given before. -/
def ofPaths (files : List (String × String)) : Folder where
  files := files.reverse.filterMap fun (path, content) =>
    (route (some []) (names path)).getLast?.join.map (·, content)
  folders := files.flatMap fun (path, _) => (route (some []) (names path)).dropLast.filterMap id

/-- What lies at the end of a way. -/
def entry? (folder : Folder) (way : List String) : Option Entry :=
  match folder.files.lookup way with
  | some content => some (.file content)
  | none => if folder.folders.contains way then some .folder else none

/-- Walks on from a place. -/
def walk (folder : Folder) (place : Option (List String)) : List String → Except Fault String
  | [] => .error .isFolder
  | name :: rest =>
    if isStep name then folder.walk (step place name) rest
    else if 255 < name.utf8ByteSize then .error .nameTooLong
    else
      match step place name with
      | none => .error .missing
      | some way =>
        match folder.entry? way with
        | none => .error .missing
        | some .folder => folder.walk (some way) rest
        | some (.file content) => if rest.isEmpty then .ok content else .error .isNoFolder

/-- Reads the file at the end of a path. -/
def read (folder : Folder) (path : String) : Except Fault String :=
  if path.isEmpty then .error .missing
  else if path.contains '\x00' then .error .nameBroken
  else if 4096 ≤ path.utf8ByteSize then .error .nameTooLong
  else folder.walk (if path.startsWith '/' then none else some []) (names path)

end Folder

end TraceWeave.Config
