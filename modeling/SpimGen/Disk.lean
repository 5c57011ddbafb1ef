/-
Folders and files as far as the creation of an output file depends on them.
-/
import SpimGen.OutputPath

namespace SpimGen

inductive CreateError where
  | notFound
  | notAFolder
  | isAFolder
  | nameTooLong
deriving Repr, DecidableEq

def CreateError.message : CreateError → String
  | .notFound => "No such file or directory (os error 2)"
  | .notAFolder => "Not a directory (os error 20)"
  | .isAFolder => "Is a directory (os error 21)"
  | .nameTooLong => "File name too long (os error 36)"

/-- A place on the disk: the names that lead to it from the root. -/
abbrev Place := List String

/-- A disk with its folders and files; the root is always a folder. -/
structure Disk where
  folders : List Place
  files : List (Place × List UInt8)
  /-- The folder from which relative paths start. -/
  workingFolder : Place := []
deriving Repr, DecidableEq

namespace Disk

def isFolder (disk : Disk) (place : Place) : Bool :=
  place == [] || place ∈ disk.folders

def content? (disk : Disk) (place : Place) : Option (List UInt8) :=
  disk.files.lookup place

/-- Longest name of a folder or file, in bytes. -/
def maxName : Nat := 255

/-- Length, in bytes, from which on a path is too long. -/
def pathLimit : Nat := 4096

/-- Goes from a folder to the folder with the given name in it. -/
def enter (disk : Disk) (place : Place) (name : String) :
    Except CreateError Place :=
  if name = "" ∨ name = "." then .ok place
  else if name = ".." then .ok place.dropLast
  else if name.utf8ByteSize > maxName then .error .nameTooLong
  else
    let inner := place ++ [name]
    if disk.isFolder inner then .ok inner
    else if (disk.content? inner).isSome then .error .notAFolder
    else .error .notFound

/-- The place in a folder at which a file with the given name can be created or
replaced. -/
def target (disk : Disk) (folder : Place) (name : String) :
    Except CreateError Place :=
  if name = "" ∨ name = "." ∨ name = ".." then .error .isAFolder
  else if name.utf8ByteSize > maxName then .error .nameTooLong
  else
    let place := folder ++ [name]
    if disk.isFolder place then .error .isAFolder else .ok place

/-- Splits a path into the names of the folders to go through and the name of
the file.  With a slash at the end, the path names a folder. -/
def route (path : String) : List String × String :=
  let names := (OutputPath.parts path.toList).map String.ofList
  match names.reverse with
  | [] => ([], "")
  | "" :: before =>
      match before.dropWhile (· == "") with
      | [] => ([], "")
      | _ :: folders => (folders.reverse, "")
  | last :: before => (before.reverse, last)

/-- The place at which the file of a path can be created or replaced. -/
def locate (disk : Disk) (path : String) : Except CreateError Place := do
  if path.utf8ByteSize ≥ pathLimit then
    throw .nameTooLong
  let start := if path.startsWith "/" then [] else disk.workingFolder
  let (folders, name) := route path
  let folder ← folders.foldlM disk.enter start
  disk.target folder name

/-- Puts a file at a place, in the stead of the one that is there. -/
def put (disk : Disk) (place : Place) (bytes : List UInt8) : Disk :=
  { disk with
    files := (place, bytes) :: disk.files.filter (fun file => file.1 != place) }

end Disk

end SpimGen
