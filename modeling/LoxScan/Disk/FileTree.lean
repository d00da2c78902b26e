import LoxScan.Disk.Fault
import LoxScan.Disk.Path

/-!
# Files and directories

A file tree maps absolute places, given by their names from the root, to
files and directories; the root itself is always a directory. Paths are
looked up as an operating system does it, name by name from the root or
the working directory: each name needs a directory to stand in, `..`
climbs, and no name exceeds its limit. Reading and writing report the
first fault on that walk.
-/

namespace LoxScan

/-- What may stand at a place. -/
inductive Entry where
  | file (content : ByteArray)
  | directory

/-- Files and directories by place, and the directory relative paths
start from. -/
structure FileTree where
  entries : List (List String × Entry)
  workingDirectory : List String

namespace FileTree

/-- The most bytes a name may have. -/
def nameLimit : Nat := 255

/-- The least number of bytes that makes a path too long. -/
def pathLimit : Nat := 4096

def entry? (tree : FileTree) (place : List String) : Option Entry :=
  if place = [] then some .directory else tree.entries.lookup place

def put (tree : FileTree) (place : List String) (entry : Entry) : FileTree :=
  { tree with entries := (place, entry) :: tree.entries.filter (·.1 ≠ place) }

def requireDirectory (tree : FileTree) (place : List String) : Except DiskFault Unit :=
  match tree.entry? place with
  | some .directory => .ok ()
  | some (.file _) => .error .notADirectory
  | none => .error .notFound

/-- One name further. The name need not exist, the place it is looked up
in must. -/
def step (tree : FileTree) (place : List String) (name : String) :
    Except DiskFault (List String) := do
  tree.requireDirectory place
  if name = "." then return place
  else if name = ".." then return place.dropLast
  else if nameLimit < name.utf8ByteSize then .error .nameTooLong
  else return place ++ [name]

def walk (tree : FileTree) (place : List String) (names : List String) :
    Except DiskFault (List String) :=
  names.foldlM tree.step place

/-- Where a path starts, if it is one at all. -/
def startOf (tree : FileTree) (path : String) : Except DiskFault (List String) :=
  if path.toList.contains '\x00' then .error .nulInPath
  else if path.isEmpty then .error .notFound
  else if pathLimit ≤ path.utf8ByteSize then .error .nameTooLong
  else .ok (if Path.isAbsolute path then [] else tree.workingDirectory)

def find (tree : FileTree) (path : String) : Except DiskFault Entry := do
  let start ← tree.startOf path
  let place ← tree.walk start (Path.names path)
  match tree.entry? place with
  | none => .error .notFound
  | some (.file content) =>
    if Path.endsInSlash path then .error .notADirectory else return .file content
  | some .directory => return .directory

def hasPath (tree : FileTree) (path : String) : Bool := (tree.find path).isOk

def isDirectory (tree : FileTree) (path : String) : Bool :=
  match tree.find path with
  | .ok .directory => true
  | _ => false

def read (tree : FileTree) (path : String) : Except DiskFault ByteArray := do
  match ← tree.find path with
  | .file content => return content
  | .directory => .error .isADirectory

def readText (tree : FileTree) (path : String) : Except DiskFault String := do
  let content ← tree.read path
  match String.fromUTF8? content with
  | some text => return text
  | none => .error .notUtf8

/-- The place a path would name in an existing directory, unless its last
name is none of its own: the root, a dot or two. -/
def target (tree : FileTree) (path : String) : Except DiskFault (Option (List String)) := do
  let start ← tree.startOf path
  match (Path.names path).reverse with
  | [] => return none
  | last :: before =>
    let place ← tree.walk start before.reverse
    tree.requireDirectory place
    if last = "." ∨ last = ".." then return none
    else return some (place ++ [last])

/-- Whether the last name of a place is too long to exist. -/
def overlong (place : List String) : Bool :=
  match place.getLast? with
  | some name => nameLimit < name.utf8ByteSize
  | none => false

def makeDirectory (tree : FileTree) (path : String) : Except DiskFault FileTree := do
  match ← tree.target path with
  | none => .error .alreadyExists
  | some place =>
    if overlong place then .error .nameTooLong
    else match tree.entry? place with
      | some _ => .error .alreadyExists
      | none => return tree.put place .directory

def write (tree : FileTree) (path : String) (content : ByteArray) :
    Except DiskFault FileTree := do
  match ← tree.target path with
  | none => .error .isADirectory
  | some place =>
    if Path.endsInSlash path then .error .isADirectory
    else if overlong place then .error .nameTooLong
    else match tree.entry? place with
      | some .directory => .error .isADirectory
      | _ => return tree.put place (.file content)

end FileTree

end LoxScan
