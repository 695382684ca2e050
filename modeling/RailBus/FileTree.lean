import RailBus.WireError

/-!
# Files

A tree of directories and files, and how a path is followed in it: part by part, where every part
but the last has to lead to a directory, and so does the last before a closing slash.
-/

namespace RailBus

inductive FileError
  | missing
  | directory
  | notDirectory
  | nameTooLong
  /-- no path holds a zero byte -/
  | zeroByte
  | other (reason : String)
  deriving DecidableEq, Repr

def FileError.message : FileError → String
  | missing => "No such file or directory (os error 2)"
  | directory => "Is a directory (os error 21)"
  | notDirectory => "Not a directory (os error 20)"
  | nameTooLong => "File name too long (os error 36)"
  | zeroByte => "file name contained an unexpected NUL byte"
  | other reason => reason

/-- A place in the tree: the names that lead to it from the root. -/
abbrev Place := List String

structure FileTree where
  /-- directories, of which those that hold others or files may be left out -/
  directories : List Place := []
  contents : List (Place × Bytes) := []
  /-- where paths begin that do not begin with a slash -/
  workingDirectory : Place := []

namespace FileTree

/-- The most bytes in a name and in a path. -/
def maxName : Nat := 255
def maxPath : Nat := 4095

def isDirectory (t : FileTree) (p : Place) : Bool :=
  t.directories.any p.isPrefixOf || p.isPrefixOf t.workingDirectory ||
    t.contents.any fun (file, _) => p.isPrefixOf file && p != file

def holds (t : FileTree) (p : Place) : Bool := t.isDirectory p || (t.contents.lookup p).isSome

/-- The names in a path; repeated slashes are one. -/
def parts (path : String) : List String :=
  ((path.split (· == '/')).toList.map (·.toString)).filter (· != "")

/-- Follows one part of a path. -/
def step (t : FileTree) (p : Place) (part : String) : Except FileError Place :=
  if !t.isDirectory p then .error .notDirectory
  else if part = "." then .ok p
  else if part = ".." then .ok p.dropLast
  else if part.utf8ByteSize > maxName then .error .nameTooLong
  else if t.holds (p ++ [part]) then .ok (p ++ [part])
  else .error .missing

/-- What makes a text no path at all, whatever the tree holds. -/
def checkPath (path : String) : Except FileError Unit :=
  if path.contains '\x00' then .error .zeroByte
  else if path.isEmpty then .error .missing
  else if path.utf8ByteSize > maxPath then .error .nameTooLong
  else .ok ()

def start (t : FileTree) (path : String) : Place :=
  if path.startsWith "/" then [] else t.workingDirectory

def follow (t : FileTree) (path : String) : Except FileError Place := do
  checkPath path
  (parts path ++ if path.endsWith "/" then ["."] else []).foldlM t.step (t.start path)

def read (t : FileTree) (path : String) : Except FileError Bytes := do
  match t.contents.lookup (← t.follow path) with
  | some bytes => .ok bytes
  | none => .error .directory

/-- Replaces a file or makes a new one, for which its directory has to be there. A path that could
only be that of a directory is refused as one. -/
def write (t : FileTree) (path : String) (bytes : Bytes) : Except FileError FileTree := do
  checkPath path
  let names := parts path
  let p ← names.dropLast.foldlM t.step (t.start path)
  let name := names.getLastD "."
  if !t.isDirectory p then .error .notDirectory
  else if name = "." ∨ name = ".." ∨ path.endsWith "/" then .error .directory
  else if name.utf8ByteSize > maxName then .error .nameTooLong
  else if t.isDirectory (p ++ [name]) then .error .directory
  else
    .ok { t with contents := (p ++ [name], bytes) :: t.contents.filter (·.1 != p ++ [name]) }

end FileTree
end RailBus
