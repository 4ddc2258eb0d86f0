import ElixirTags.FileSystem.Path

/-!
# Directory trees

A file system is a tree of directories with files and symbolic links in them, and a working
directory.  A place in the tree is a `Location`, the names on the way down from the root.

There is nothing else in a tree: no pipes, sockets and devices, no permissions, so that every
directory can be listed and every file read and written, and no hard links, so that a change to one
file is seen at one place only.

This module looks at places and changes single directories; how a path leads to a place is said in
`ElixirTags.FileSystem.Resolve`.
-/

namespace ElixirTags

/-- What a name in a directory stands for. -/
inductive Node where
  | file (content : Bytes)
  | link (target : Path)
  /-- A directory with its entries, in the order they are listed. -/
  | directory (entries : List (Name × Node))

/-- The names from the root down to a place. -/
abbrev Location := List Name

/-- A place as an absolute path. -/
def Location.toPath (place : Location) : Path :=
  if place = [] then [Byte.slash] else place.flatMap (Byte.slash :: ·)

/-- A tree of directories, and the directory that relative paths start from. -/
structure FileSystem where
  root : List (Name × Node)
  workingDirectory : Location

namespace Node

/-- The entries, if the node is a directory. -/
def entries? : Node → Option (List (Name × Node))
  | directory entries => some entries
  | _ => none

/-- The node below, at the end of the given names.  Links are not followed. -/
def at? : Node → Location → Option Node
  | node, [] => some node
  | directory entries, n :: rest => (entries.lookup n).bind (·.at? rest)
  | _, _ :: _ => none

/-- Sets an entry of a directory; a new one comes last. -/
def setEntry (n : Name) (node : Node) : List (Name × Node) → List (Name × Node)
  | [] => [(n, node)]
  | (m, old) :: rest => if m = n then (n, node) :: rest else (m, old) :: setEntry n node rest

/-- Removes an entry of a directory. -/
def removeEntry (n : Name) (entries : List (Name × Node)) : List (Name × Node) :=
  entries.filter (·.1 ≠ n)

/-- Changes the entries of the directory at a place.  Without a directory there, nothing changes. -/
def modifyDirectory (f : List (Name × Node) → List (Name × Node)) : Location → Node → Node
  | [], directory entries => directory (f entries)
  | n :: rest, directory entries =>
    directory <| entries.map fun (m, node) =>
      if m = n then (m, modifyDirectory f rest node) else (m, node)
  | _, node => node

end Node

namespace FileSystem

/-- The whole tree as a node. -/
def tree (fs : FileSystem) : Node := .directory fs.root

/-- The node at a place. -/
def at? (fs : FileSystem) (place : Location) : Option Node := fs.tree.at? place

/-- Changes the entries of the directory at a place. -/
def modifyDirectory (fs : FileSystem) (f : List (Name × Node) → List (Name × Node))
    (place : Location) : FileSystem :=
  match fs.tree.modifyDirectory f place with
  | .directory entries => { fs with root := entries }
  | _ => fs

/-- Sets the entry `n` of the directory at a place. -/
def setEntry (fs : FileSystem) (dir : Location) (n : Name) (node : Node) : FileSystem :=
  fs.modifyDirectory (Node.setEntry n node) dir

/-- Removes the entry `n` of the directory at a place. -/
def removeEntry (fs : FileSystem) (dir : Location) (n : Name) : FileSystem :=
  fs.modifyDirectory (Node.removeEntry n) dir

/-- A file system with nothing in it but the working directory and the directories above it. -/
def empty (workingDirectory : Location) : FileSystem where
  root := match workingDirectory with
    | [] => []
    | n :: rest => [(n, rest.foldr (fun m node => .directory [(m, node)]) (.directory []))]
  workingDirectory := workingDirectory

end FileSystem

end ElixirTags
