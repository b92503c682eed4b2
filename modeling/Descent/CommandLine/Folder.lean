import Descent.Text.Quoted

/-!
Files by path. A folder in memory answers as a disk would: a path is followed part by part, and each
part but the last must be a folder.
-/

namespace Descent.CommandLine

inductive ReadFault where
  | notFound
  | isFolder
  | notFolder
  | denied
  | nameTooLong

def ReadFault.message (path : String) : ReadFault → String
  | notFound => "[Errno 2] No such file or directory: " ++ quoted path
  | isFolder => "[Errno 21] Is a directory: " ++ quoted path
  | notFolder => "[Errno 20] Not a directory: " ++ quoted path
  | denied => "[Errno 13] Permission denied: " ++ quoted path
  | nameTooLong => "[Errno 36] File name too long: " ++ quoted path

/-- Where a path begins: at the root, or some levels above the current folder. -/
inductive Base where
  | root
  | above (levels : Nat)
  deriving DecidableEq

/-- Where a path leads: from its base down along names. -/
structure Place where
  base : Base
  names : List String
  deriving DecidableEq

namespace Place

def current : Place :=
  ⟨.above 0, []⟩

/-- Nothing lies above the root, so it takes its own place there. -/
def parent (place : Place) : Place :=
  if place.names.isEmpty then
    match place.base with
    | .root => place
    | .above levels => ⟨.above (levels + 1), []⟩
  else ⟨place.base, place.names.dropLast⟩

def child (place : Place) (name : String) : Place :=
  ⟨place.base, place.names ++ [name]⟩

/-- Where one part of a path leads. An empty part and a single point lead nowhere else. -/
def step (place : Place) (part : String) : Place :=
  if part = "" || part = "." then place
  else if part = ".." then place.parent
  else place.child part

end Place

def splitPath (path : String) : Place × List String :=
  match (path.toList.splitOn '/').map String.ofList with
  | "" :: rest => (⟨.root, []⟩, rest)
  | parts => (Place.current, parts)

inductive Entry where
  | file (bytes : List UInt8)
  | folder

/-- The entries that were made, the latest first. -/
structure Folder where
  entries : List (Place × Entry)

namespace Folder

def empty : Folder :=
  ⟨[]⟩

/-- Every base is a folder. -/
def entry? (folder : Folder) (place : Place) : Option Entry :=
  if place.names.isEmpty then some .folder else folder.entries.lookup place

def put (folder : Folder) (place : Place) (entry : Entry) : Folder :=
  ⟨(place, entry) :: folder.entries⟩

/-- Makes an entry where the parts lead to. Whatever they pass through becomes a folder, unless it
is there already. -/
def addFrom (folder : Folder) (place : Place) (entry : Entry) : List String → Folder
  | [] => folder.put place entry
  | part :: rest =>
    match folder.entry? place with
    | some _ => folder.addFrom (place.step part) entry rest
    | none => (folder.put place .folder).addFrom (place.step part) entry rest

def add (folder : Folder) (path : String) (entry : Entry) : Folder :=
  let (start, parts) := splitPath path
  folder.addFrom start entry parts

/-- The name of a file or folder takes at most 255 bytes, and a path at most 4095. -/
def longestName : Nat := 255

def longestPath : Nat := 4095

def follow (folder : Folder) (place : Place) : List String → Except ReadFault Entry
  | [] =>
    match folder.entry? place with
    | some entry => .ok entry
    | none => .error .notFound
  | part :: rest =>
    match folder.entry? place with
    | some .folder =>
      if longestName < part.utf8ByteSize then .error .nameTooLong
      else folder.follow (place.step part) rest
    | some (.file _) => .error .notFolder
    | none => .error .notFound

def find (folder : Folder) (path : String) : Except ReadFault Entry :=
  if path.isEmpty then .error .notFound
  else if longestPath < path.utf8ByteSize then .error .nameTooLong
  else
    let (start, parts) := splitPath path
    folder.follow start parts

def read (folder : Folder) (path : String) : Except ReadFault (List UInt8) :=
  match folder.find path with
  | .ok (.file bytes) => .ok bytes
  | .ok .folder => .error .isFolder
  | .error fault => .error fault

end Folder

end Descent.CommandLine
