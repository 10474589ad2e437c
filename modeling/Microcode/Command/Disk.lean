import Microcode.Command.Failure
import Microcode.Conversion.Run

namespace Microcode

/-!
Files and folders, and what the name of a path leads to.

A path leads away from the root if a slash stands at its front, and otherwise from the
folder in which the command works.  So names of parents can lead above that folder.

A file that was opened is known by its path, so it is read as it is by then.
-/

/-- The names on the way from the root. -/
abbrev Path := List String

/-- A file of which only the beginning can be read. -/
structure Damage where
  file : Path
  /-- The number of octets that can be read. -/
  readable : Nat
  cause : String
  deriving DecidableEq, Repr

structure Disk where
  /-- The folder in which the command works. -/
  current : Path := []
  /-- All folders but the root, which is always there. -/
  folders : List Path := []
  files : List (Path × Bytes) := []
  damages : List Damage := []
  deriving DecidableEq, Repr

/-- What a path leads to. -/
inductive Place where
  | folder
  | file (path : Path)
  /-- Nothing is there yet, but the folder around it exists. -/
  | vacant (path : Path)
  deriving DecidableEq, Repr

namespace Disk

def find? (disk : Disk) (path : Path) : Option Bytes :=
  disk.files.lookup path

def damage? (disk : Disk) (path : Path) : Option Damage :=
  disk.damages.find? (·.file = path)

/-- Follow names from a folder.  The root is its own parent. -/
def follow (disk : Disk) (folder : Path) : List String → Except FileFault Place
  | [] => .ok .folder
  | name :: names =>
      if name = "." then disk.follow folder names
      else if name = ".." then disk.follow folder.dropLast names
      else
        let path := folder ++ [name]
        if path ∈ disk.folders then disk.follow path names
        else
          match disk.find? path, names with
          | some _, [] => .ok (.file path)
          | some _, _ :: _ => .error .notFolder
          | none, [] => .ok (.vacant path)
          | none, _ :: _ => .error .notFound

/-- The names in a path.  Slashes may be repeated. -/
def names (path : String) : List String :=
  ((path.toList.splitOn '/').filter (!·.isEmpty)).map String.ofList

/-- What a path leads to.  An empty path leads nowhere. -/
def locate (disk : Disk) (path : String) : Except FileFault Place :=
  match path.toList with
  | [] => .error .notFound
  | '/' :: _ => disk.follow [] (names path)
  | _ => disk.follow disk.current (names path)

def endsWithSlash (path : String) : Bool :=
  path.toList.getLast? == some '/'

/-- What stands at a path, to be read. -/
inductive Opened where
  | folder
  | file (file : Path)
  deriving DecidableEq, Repr

/-- Open a path for reading.  A slash at the end asks for a folder. -/
def openPath (disk : Disk) (path : String) : Except FileFault Opened := do
  match ← disk.locate path with
  | .folder => .ok .folder
  | .vacant _ => .error .notFound
  | .file file => if endsWithSlash path then .error .notFolder else .ok (.file file)

/-- What can be read of a file now.  A folder can be opened, but the first attempt to read
from it fails. -/
def read (disk : Disk) : Opened → Source
  | .folder => { bytes := [], fault := some FileFault.isFolder.message }
  | .file file =>
      let contents := (disk.find? file).getD []
      match disk.damage? file with
      | none => { bytes := contents }
      | some damage =>
          { bytes := contents.take damage.readable, fault := some damage.cause }

/-- Give a file new contents, in its place if there is one. -/
def put (disk : Disk) (path : Path) (contents : Bytes) : Disk :=
  match disk.find? path with
  | none => { disk with files := disk.files ++ [(path, contents)] }
  | some _ =>
      { disk with
        files := disk.files.map fun entry =>
          if entry.1 = path then (path, contents) else entry }

/-- Create the file at a path, or empty the one that is there. -/
def create (disk : Disk) (path : String) : Except FileFault (Path × Disk) := do
  match ← disk.locate path with
  | .folder => .error .isFolder
  | .vacant file | .file file =>
      if endsWithSlash path then .error .isFolder else .ok (file, disk.put file [])

/-- Write behind what a file holds. -/
def extend (disk : Disk) (file : Path) (text : Bytes) : Disk :=
  disk.put file ((disk.find? file).getD [] ++ text)

end Disk

end Microcode
