import LoxScan.Disk.FileTree

/-!
# Reaching files

What a program asks of the file system, and no more: reading a file of
text, telling what a path leads to, making a directory and writing a
file. Programs are written for any monad that answers these questions. A
`Disk` as state is one, whatever its answers are, and a file tree is a
disk.
-/

namespace LoxScan

/-- A setting in which files can be reached. -/
class MonadDisk (m : Type → Type) where
  readText : String → m (Except DiskFault String)
  hasPath : String → m Bool
  isDirectory : String → m Bool
  makeDirectory : String → m (Except DiskFault Unit)
  write : String → String → m (Except DiskFault Unit)

namespace MonadDisk

variable {m : Type → Type} [Monad m] [MonadDisk m]

/-- A directory that cannot be made does no harm if it is there. -/
def settle (path : String) (fault : DiskFault) : m (Except DiskFault Unit) := do
  if ← isDirectory path then return .ok () else return .error fault

/-- Makes a directory at the first of some paths, each of which stands in
the next. One that cannot be made for want of the directory it stands in
is tried again after that one. -/
def makeNested : List String → m (Except DiskFault Unit)
  | [] => return .error .noTree
  | path :: above => do
    if path.isEmpty then return .ok ()
    else match ← makeDirectory path with
      | .ok () => return .ok ()
      | .error .notFound =>
        match ← makeNested above with
        | .error fault => return .error fault
        | .ok () =>
          match ← makeDirectory path with
          | .ok () => return .ok ()
          | .error fault => settle path fault
      | .error fault => settle path fault

/-- Makes a directory at a path and at all places above it, as far as
they can be made. -/
def makeDirectories (path : String) : m (Except DiskFault Unit) :=
  makeNested (path :: Path.parents path)

end MonadDisk

/-- What keeps files and answers as it likes. A change may fail, and then
changes nothing. -/
class Disk (σ : Type) where
  readText : σ → String → Except DiskFault String
  hasPath : σ → String → Bool
  isDirectory : σ → String → Bool
  makeDirectory : σ → String → Except DiskFault σ
  write : σ → String → String → Except DiskFault σ

instance : Disk FileTree where
  readText := FileTree.readText
  hasPath := FileTree.hasPath
  isDirectory := FileTree.isDirectory
  makeDirectory := FileTree.makeDirectory
  write tree path text := tree.write path text.toUTF8

/-- A run on a disk. -/
abbrev OnDisk (σ : Type) := StateM σ

abbrev OnTree := OnDisk FileTree

namespace OnDisk

variable {σ : Type}

def ask (answer : σ → α) : OnDisk σ α := fun disk => (answer disk, disk)

def change (f : σ → Except DiskFault σ) : OnDisk σ (Except DiskFault Unit) := fun disk =>
  match f disk with
  | .ok disk => (.ok (), disk)
  | .error fault => (.error fault, disk)

instance [Disk σ] : MonadDisk (OnDisk σ) where
  readText path := ask (Disk.readText · path)
  hasPath path := ask (Disk.hasPath · path)
  isDirectory path := ask (Disk.isDirectory · path)
  makeDirectory path := change (Disk.makeDirectory · path)
  write path text := change (Disk.write · path text)

end OnDisk

end LoxScan
