-- A tree of directories and files, and the store that keeps each document
-- in a file of its own.
import TopologySync.Settings.Store

namespace TopologySync

/-- Why a file cannot be read or written. -/
inductive FileError where
  /-- It is not there, or a directory on the way to it is not. -/
  | missing
  /-- Something else stands in its place or on the way, or it can have no such name. -/
  | barred
deriving DecidableEq, Repr

/-- Directories and files by their names from the root on. -/
structure FileTree where
  directories : Std.ExtTreeSet (List String) := ∅
  files : Std.ExtTreeMap (List String) Bytes := ∅
deriving DecidableEq

namespace FileTree

/-- The most bytes that a name may have. -/
def longestName : Nat := 255

/-- The most bytes that a path may have. -/
def longestPath : Nat := 4095

/-- The names of a written path, as they stand behind slashes. -/
def namesOf (path : String) : List String :=
  let names := path.splitOn "/"
  if path.startsWith "/" then names.drop 1 else names

/-- An empty name and a single dot stand for the directory that they are in. -/
def isHere (name : String) : Bool :=
  name = "" || name = "."

/-- The names on the way to the last name, without those behind them that lead
nowhere. -/
def parentOf (names : List String) : List String :=
  (names.dropLast.reverse.dropWhile isHere).reverse

/-- The directory where a written path starts: one that begins with a slash
starts at the root. -/
def startOf (here : List String) (path : String) : List String :=
  if path.startsWith "/" then [] else here

def isDirectory (tree : FileTree) (path : List String) : Bool :=
  path.isEmpty || tree.directories.contains path

/-- The name is not too long. -/
def validName (name : String) : Bool :=
  name.utf8ByteSize ≤ longestName

/-- The names may be written as one path, a slash in front of each. No path
holds a zero byte. -/
def validPath (names : List String) : Bool :=
  names.foldl (fun length name => length + (name.utf8ByteSize + 1)) 0 ≤ longestPath
    && names.all (fun name => !name.toList.contains '\x00')

/-- Walks from a directory along names. Two dots lead back. -/
def walk (tree : FileTree) (here : List String) : List String → Except FileError (List String)
  | [] => .ok here
  | name :: rest =>
    if isHere name then walk tree here rest
    else if name = ".." then walk tree here.dropLast rest
    else
      let next := here ++ [name]
      if tree.isDirectory next then walk tree next rest
      else if next ∈ tree.files ∨ ¬validName name then .error .barred
      else .error .missing

/-- Walks like `walk`, and makes the directories that are missing. -/
def makeDirectories (tree : FileTree) (here : List String) :
    List String → Except FileError (List String) × FileTree
  | [] => (.ok here, tree)
  | name :: rest =>
    if isHere name then makeDirectories tree here rest
    else if name = ".." then makeDirectories tree here.dropLast rest
    else
      let next := here ++ [name]
      if tree.isDirectory next then makeDirectories tree next rest
      else if next ∈ tree.files ∨ ¬validName name then (.error .barred, tree)
      else makeDirectories { tree with directories := tree.directories.insert next } next rest

/-- Reads a file of a directory. -/
def readIn (tree : FileTree) (directory : List String) (name : String) : Except FileError Bytes :=
  match tree.files[directory ++ [name]]? with
  | some content => .ok content
  | none =>
    if tree.isDirectory (directory ++ [name]) ∨ ¬validName name then .error .barred
    else .error .missing

/-- Writes a file of a directory. -/
def writeIn (tree : FileTree) (directory : List String) (name : String) (content : Bytes) :
    Except FileError Unit × FileTree :=
  if tree.isDirectory (directory ++ [name]) ∨ ¬validName name then (.error .barred, tree)
  else (.ok (), { tree with files := tree.files.insert (directory ++ [name]) content })

/-- The names in a directory, sorted. -/
def namesIn (tree : FileTree) (directory : List String) : List String :=
  let isChild := fun path : List String => path.dropLast == directory && !path.isEmpty
  let paths := tree.directories.toList ++ tree.files.keys
  (Std.ExtTreeSet.ofList ((paths.filter isChild).filterMap List.getLast?)).toList

end FileTree

/-- A store that keeps the document of each key in a file below a directory. -/
structure FileStore where
  tree : FileTree
  base : List String
deriving DecidableEq

namespace FileStore

/-- Opens the store at a directory, which is made if it is missing. -/
def openAt (tree : FileTree) (base : List String) : Except SettingsError FileStore :=
  if ¬FileTree.validPath base then .error .unreachable
  else match tree.makeDirectories [] base with
    | (.ok base, tree) => .ok { tree, base }
    | (.error _, _) => .error .unreachable

/-- Where the document of a key is: the directory to start from, and the names
from there on. -/
def documentPath (store : FileStore) (key : String) : List String × List String :=
  (FileTree.startOf store.base key, FileTree.namesOf (key ++ ".json"))

def ofFileError : FileError → SettingsError
  | .missing => .notFound
  | .barred => .unreachable

def read (store : FileStore) (key : String) : Except SettingsError Bytes × FileStore :=
  let (start, names) := store.documentPath key
  let outcome : Except FileError Bytes := do
    if ¬FileTree.validPath (start ++ names) then throw .barred
    store.tree.readIn (← store.tree.walk start names.dropLast) (names.getLastD "")
  (outcome.mapError ofFileError, store)

/-- Writes the document of a key. The directories on the way are made first,
and they stay if the document itself cannot be written. -/
def write (store : FileStore) (key : String) (document : Bytes) :
    Except SettingsError Unit × FileStore :=
  let (start, names) := store.documentPath key
  let directories := FileTree.parentOf names
  if ¬FileTree.validPath (start ++ directories) then (.error .unreachable, store)
  else match store.tree.makeDirectories start directories with
    | (.error _, tree) => (.error .unreachable, { store with tree })
    | (.ok directory, tree) =>
      if ¬FileTree.validPath (start ++ names) then (.error .unreachable, { store with tree })
      else
        let (outcome, tree) := tree.writeIn directory (names.getLastD "") document
        (outcome.mapError (fun _ => .unreachable), { store with tree })

instance : DocumentStore FileStore where
  read := read
  write := write

end FileStore

end TopologySync
