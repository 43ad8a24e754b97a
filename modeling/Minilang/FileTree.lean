import Minilang.Diagnostic.Basic

/-!
# File trees

A file tree knows the files that lie around a working directory. A path is followed name by name, from
the working directory or from the root: every name but the last has to lead to a directory, and what a
path leads to has to be a file before its text can be read.
-/

namespace Minilang

/-- The text that bytes encode. -/
def decodeText (bytes : ByteArray) : Except ReadError String :=
  match String.fromUTF8? bytes with
  | some text => .ok text
  | none => .error .invalidEncoding

/-- A directory that addresses start from. -/
inductive Start where
  /-- The directory that lies a number of levels above the working directory. -/
  | above (levels : Nat)
  /-- The root of all directories. -/
  | root
deriving DecidableEq, Repr

/-- Where a file or a directory is. -/
structure Address where
  /-- The directory to start from. -/
  start : Start
  /-- The names that lead on from there. -/
  names : List String
deriving DecidableEq, Repr

namespace Address

/-- The address of something in a directory. -/
def child (address : Address) (name : String) : Address := ⟨address.start, address.names ++ [name]⟩

/-- The address of the directory around something. Nothing lies around the root. -/
def parent (address : Address) : Address :=
  match address.names, address.start with
  | [], .above levels => ⟨.above (levels + 1), []⟩
  | [], .root => address
  | names, start => ⟨start, names.dropLast⟩

/-- The address that one name of a path leads to. An empty name and a dot stay, and two dots go up. -/
def next (address : Address) (name : String) : Address :=
  if name = "" ∨ name = "." then address
  else if name = ".." then address.parent
  else address.child name

theorem parent_child (address : Address) (name : String) : (address.child name).parent = address := by
  unfold parent child
  split <;> simp_all

end Address

/-- What an address may hold. -/
inductive Node where
  /-- A directory. -/
  | directory
  /-- A file with the given bytes. -/
  | file (bytes : ByteArray)

/-- An address together with what it holds. -/
structure FileEntry where
  /-- Where it is. -/
  address : Address
  /-- What is there. -/
  node : Node

/-- The files and directories around a working directory. -/
structure FileTree where
  /-- The files and directories that are known, latest first. -/
  entries : List FileEntry

namespace FileTree

/-- Where following a path has led. -/
inductive Place where
  /-- A directory. -/
  | directory (address : Address)
  /-- A file with the given bytes. -/
  | file (bytes : ByteArray)

/-- The most bytes that a name on a path may have. -/
def longestName : Nat := 255

/-- The most bytes that a path may have. -/
def longestPath : Nat := 4095

/-- The tree without any file. -/
def empty : FileTree := ⟨[]⟩

/-- The names on a path. -/
def pathNames (path : String) : List String := path.splitOn "/"

/-- The address from which a path is followed. -/
def pathStart (path : String) : Address := ⟨if path.startsWith "/" then .root else .above 0, []⟩

/-- What is at an address. The directories to start from always exist. -/
def node? (tree : FileTree) (address : Address) : Option Node :=
  if address.names.isEmpty then some .directory
  else (tree.entries.find? fun entry => entry.address = address).map FileEntry.node

/-- Put a directory at an address, if nothing is there. -/
def makeDirectory (tree : FileTree) (address : Address) : FileTree :=
  match tree.node? address with
  | some _ => tree
  | none => ⟨⟨address, .directory⟩ :: tree.entries⟩

/-- Make the directories that names lead through, and give the address they lead to. -/
def makeDirectories : FileTree → Address → List String → FileTree × Address
  | tree, address, [] => (tree, address)
  | tree, address, name :: names =>
    makeDirectories (tree.makeDirectory (address.next name)) (address.next name) names

/-- Put a file at a path that ends in the name of the file, in place of any file that is there.
Directories that the path runs through are made. -/
def insert (tree : FileTree) (path : String) (bytes : ByteArray) : FileTree :=
  let names := pathNames path
  let (tree, directory) := tree.makeDirectories (pathStart path) names.dropLast
  ⟨⟨directory.next (names.getLast?.getD ""), .file bytes⟩ :: tree.entries⟩

/-- Follow one name of a path. -/
def follow (tree : FileTree) (place : Place) (name : String) : Except ReadError Place :=
  match place with
  | .file _ => .error .notDirectory
  | .directory address =>
    if longestName < name.utf8ByteSize then .error .nameTooLong
    else
      let next := address.next name
      match tree.node? next with
      | some .directory => .ok (.directory next)
      | some (.file bytes) => .ok (.file bytes)
      | none => .error .notFound

/-- Follow the names of a path one after another. -/
def followAll (tree : FileTree) : Place → List String → Except ReadError Place
  | place, [] => .ok place
  | place, name :: names => do followAll tree (← tree.follow place name) names

/-- The text of the file that a path leads to. The empty path leads nowhere. -/
def read (tree : FileTree) (path : String) : Except ReadError String := do
  if '\x00' ∈ path.toList then throw .zeroInPath
  if path.isEmpty then throw .notFound
  if longestPath < path.utf8ByteSize then throw .nameTooLong
  match ← tree.followAll (.directory (pathStart path)) (pathNames path) with
  | .file bytes => decodeText bytes
  | .directory _ => throw .isDirectory

end FileTree

end Minilang
