import RecordStore.Bytes

/-!
# The files a run can reach

A path leads from the working folder, or from the top if it begins with `/`,
by the names between its slashes: `.` and the empty name stay, `..` goes
out, and any other name has to be that of a folder unless it is the last.

A `Directory` knows the entries that a run can come to.  The working folder
and the folders around it are always there.
-/

namespace RecordStore.Shell

/-- Why a path is of no use. -/
inductive PathFault
  /-- There is no such file. -/
  | missing
  /-- It goes on after a file. -/
  | notFolder
  /-- It leads to a folder. -/
  | isFolder
  /-- A name in it, or all of it, is too long. -/
  | tooLong
  deriving DecidableEq, Repr

/-- The wording of a fault. -/
def PathFault.message : PathFault → String
  | .missing => "No such file or directory (os error 2)"
  | .notFolder => "Not a directory (os error 20)"
  | .isFolder => "Is a directory (os error 21)"
  | .tooLong => "File name too long (os error 36)"

/-- A place among the files: the names that lead to it, the last one first.
The working folder has none, the folder around a place outside the working
folder is called `..`, and the top is called `/`. -/
abbrev Place := List String

namespace Place

/-- The top. -/
def top : Place := ["/"]

/-- The folder around a place. -/
def outer : Place → Place
  | [] => [".."]
  | ["/"] => top
  | ".." :: place => ".." :: ".." :: place
  | _ :: place => place

/-- Is a place the working folder, a folder around it, or the top? -/
def isOuter (place : Place) : Bool :=
  place.all (· = "..") || place = top

end Place

/-- What is at a place. -/
inductive Entry
  /-- A folder. -/
  | folder
  /-- A file with its contents. -/
  | file (contents : Bytes)
  /-- A file that is always empty and forgets what is written. -/
  | sink
  deriving DecidableEq, Repr

/-- What is at every place but the outer folders. -/
structure Directory where
  entries : List (Place × Entry)
  deriving DecidableEq, Repr

namespace Directory

/-- The most bytes that a name may have. -/
def nameLimit : Nat := 255

/-- No path has this many bytes. -/
def pathLimit : Nat := 4096

/-- What is there whatever the working folder holds. -/
def system : List (Place × Entry) :=
  [("tmp" :: Place.top, .folder), ("dev" :: Place.top, .folder),
    ("null" :: "dev" :: Place.top, .sink)]

/-- A working folder that holds some files. -/
def holding (files : List (String × Bytes)) : Directory :=
  ⟨files.map (fun (name, contents) => ([name], .file contents)) ++ system⟩

/-- What is at a place. -/
def entry? (directory : Directory) (place : Place) : Option Entry :=
  if place.isOuter then some .folder else directory.entries.lookup place

/-- The directory with an entry in the place of whatever was there. -/
def put (directory : Directory) (place : Place) (entry : Entry) : Directory :=
  ⟨(place, entry) :: directory.entries.filter fun other => other.1 != place⟩

/-- The place that names lead to from a folder. -/
def follow (directory : Directory) (folder : Place) : (names : List String) → Except PathFault Place
  | [] => .ok folder
  | name :: names =>
    if name = "" ∨ name = "." then directory.follow folder names
    else if name = ".." then directory.follow folder.outer names
    else if nameLimit < name.utf8ByteSize then .error .tooLong
    else
      match names, directory.entry? (name :: folder) with
      | [], _ => .ok (name :: folder)
      | _, none => .error .missing
      | names, some .folder => directory.follow (name :: folder) names
      | _, some _ => .error .notFolder

/-- The place that the names of a path lead to. -/
def placeOf (directory : Directory) (path : String) (names : List String) :
    Except PathFault Place :=
  if path = "" then .error .missing
  else if pathLimit ≤ path.utf8ByteSize then .error .tooLong
  else directory.follow (if path.startsWith "/" then Place.top else []) names

/-- What a path leads to. -/
def find (directory : Directory) (path : String) : Except PathFault Entry := do
  let place ← directory.placeOf path (path.splitOn "/")
  match directory.entry? place with
  | some entry => return entry
  | none => throw .missing

/-- The contents of a file. -/
def read (directory : Directory) (path : String) : Except PathFault Bytes := do
  match ← directory.find path with
  | .folder => throw .isFolder
  | .file contents => return contents
  | .sink => return []

/-- Puts a file in the place of whatever was there.  A path that ends in a
slash leads to a folder even where there is none. -/
def write (directory : Directory) (path : String) (contents : Bytes) :
    Except PathFault Directory := do
  let names := ((path.splitOn "/").reverse.dropWhile (· = "")).reverse
  let place ← directory.placeOf path names
  if path.endsWith "/" then throw .isFolder
  match directory.entry? place with
  | some .folder => throw .isFolder
  | some .sink => return directory
  | _ => return directory.put place (.file contents)

end Directory

end RecordStore.Shell
