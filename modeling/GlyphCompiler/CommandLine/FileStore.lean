/-
# A working directory

A file store is the content of a working directory: files with their bytes, and
directories. A name is a path whose steps are separated by slashes. All steps
before the last must lead through directories, and the last names a file. No
name leads out of the working directory.
-/

import GlyphCompiler.CommandLine.Run

namespace GlyphCompiler

/-- What a path of a working directory leads to. -/
inductive Stored
  | file (content : ByteArray)
  | directory

/-- The content of a working directory, by paths. -/
structure FileStore where
  entries : List (List String × Stored)

namespace FileStore

/-- An empty working directory. -/
def empty : FileStore := ⟨[]⟩

/-- What a path leads to. The empty path is the working directory itself. -/
def find? (store : FileStore) : List String → Option Stored
  | [] => some .directory
  | path => store.entries.lookup path

/-- Put a file or a directory at a path, in the place of what was there. -/
def put (store : FileStore) (path : List String) (stored : Stored) : FileStore :=
  ⟨(path, stored) :: store.entries.filter fun entry => entry.1 != path⟩

/-- Is there a directory at a path? -/
def isDirectory (store : FileStore) (path : List String) : Bool :=
  match store.find? path with
  | some .directory => true
  | _ => false

/-- The steps of a name. -/
def steps (name : String) : List String :=
  (name.toList.splitOn '/').map String.ofList

/-- The most bytes that one step of a name can have. -/
def stepLimit : Nat := 255

/-- Walk the steps of a name from a directory. The last step must be the name of a file. -/
def walk (store : FileStore) (directory : List String) : List String → Option (List String)
  | [] => none
  | [step] =>
    if step = "" || step = "." || step = ".." || stepLimit < step.utf8ByteSize then none
    else some (directory ++ [step])
  | "." :: rest => store.walk directory rest
  | "" :: rest => store.walk directory rest
  | ".." :: rest =>
    match directory with
    | [] => none
    | _ => store.walk directory.dropLast rest
  | step :: rest =>
    if store.isDirectory (directory ++ [step]) then store.walk (directory ++ [step]) rest
    else none

/-- The path of a name. An absolute name leads out of the working directory. -/
def locate (store : FileStore) (name : String) : Option (List String) :=
  if name.toList.head? = some '/' then none else store.walk [] (steps name)

/-- The bytes of a file. -/
def read (store : FileStore) (name : String) : Option ByteArray :=
  match (store.locate name).bind store.find? with
  | some (.file content) => some content
  | _ => none

/-- Make bytes the content of a file, unless the name leads to a directory or nowhere. -/
def write (store : FileStore) (name : String) (content : ByteArray) : Option FileStore :=
  match store.locate name with
  | none => none
  | some path =>
    if store.isDirectory path then none else some (store.put path (.file content))

/-- Make a directory, and the directories that lead to it where they are missing. -/
def makeDirectory (store : FileStore) (name : String) : FileStore :=
  let path := (steps name).filter fun step => step != "" && step != "."
  (List.range path.length).foldl
    (fun store count =>
      match store.find? (path.take (count + 1)) with
      | some _ => store
      | none => store.put (path.take (count + 1)) .directory) store

/-- The command line over a file store, with given bytes on the standard input. -/
def host (input : ByteArray) : CommandLine.Host (StateM FileStore) where
  readInput := return input
  readFile name := return (← get).read name
  writeFile name text := do
    match (← get).write name text.toUTF8 with
    | some store => set store; return true
    | none => return false

end FileStore

end GlyphCompiler
