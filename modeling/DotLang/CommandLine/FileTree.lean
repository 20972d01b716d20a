/-!
# Files in memory

A tree of files and directories, and what comes of reading the file at a path in it. Paths lead from the
root of the tree; outside it, no file is known.
-/

namespace DotLang.CommandLine

/-- Why a text could not be read. -/
inductive ReadError where
  /-- There is no such file. -/
  | notFound
  /-- There is a directory instead of a file. -/
  | isDirectory
  /-- The path leads through a file. -/
  | notADirectory
  /-- The content is not the UTF-8 form of a text. -/
  | notUtf8
  /-- Anything else, in the words of the system. -/
  | other (message : String)
deriving DecidableEq

namespace ReadError

/-- The words for what went wrong. -/
def message : ReadError → String
  | notFound => "No such file or directory (os error 2)"
  | isDirectory => "Is a directory (os error 21)"
  | notADirectory => "Not a directory (os error 20)"
  | notUtf8 => "stream did not contain valid UTF-8"
  | other message => message

end ReadError

/-- The text of some bytes. -/
def textOf (bytes : ByteArray) : Except ReadError String :=
  match String.fromUTF8? bytes with
  | some text => .ok text
  | none => .error .notUtf8

/-- The parts of a path between its slashes. -/
def pathParts : List Char → List (List Char)
  | [] => [[]]
  | c :: cs =>
    if c = '/' then [] :: pathParts cs
    else match pathParts cs with
      | [] => [[c]]
      | part :: parts => (c :: part) :: parts

/-- Files and directories by their paths. The directories on the way to an entry exist too. -/
structure FileTree where
  /-- The parts of a path, and the content of the file there, or nothing for a directory. -/
  entries : List (List (List Char) × Option ByteArray)

namespace FileTree

/-- What is at a place. -/
inductive Node where
  /-- A file. -/
  | file (content : ByteArray)
  /-- A directory, given by the parts of its path. -/
  | directory (path : List (List Char))
  /-- A directory outside the tree. -/
  | outside

/-- A tree of named entries. -/
def ofEntries (entries : List (String × Option ByteArray)) : FileTree :=
  ⟨entries.map fun (name, content) =>
    ((pathParts name.toList).filter fun part => part != [] && part != ['.'], content)⟩

/-- What a directory of the tree holds under a name. -/
def child? (tree : FileTree) (path : List (List Char)) (name : List Char) : Option Node :=
  let place := path ++ [name]
  match tree.entries.find? (·.1 == place) with
  | some (_, some content) => some (.file content)
  | _ => if tree.entries.any (place.isPrefixOf ·.1) then some (.directory place) else none

/-- Goes on from a node along the parts of a path. -/
def follow (tree : FileTree) (node : Node) : List (List Char) → Except ReadError Node
  | [] => .ok node
  | part :: parts =>
    match node with
    | .file _ => .error .notADirectory
    -- Above the root of the tree there is nothing to be found.
    | .outside =>
      if part = [] ∨ part = ['.'] ∨ part = ['.', '.'] then tree.follow .outside parts
      else .error .notFound
    | .directory path =>
      if part = [] ∨ part = ['.'] then tree.follow node parts
      else if part = ['.', '.'] then
        tree.follow (if path.isEmpty then .outside else .directory path.dropLast) parts
      else match tree.child? path part with
        | some node => tree.follow node parts
        | none => .error .notFound

/-- The content of the file at a path. -/
def read (tree : FileTree) (path : String) : Except ReadError ByteArray :=
  let parts := pathParts path.toList
  let origin := match parts with
    -- A path that begins with a slash starts outside the tree.
    | [] :: _ :: _ => .outside
    | _ => .directory []
  match tree.follow origin parts with
  | .ok (.file content) => .ok content
  | .ok _ => .error .isDirectory
  | .error error => .error error

end FileTree

end DotLang.CommandLine
