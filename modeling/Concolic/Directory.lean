import Concolic.Stream.Feed
import Concolic.Text.Cut

/-!
# Directories

A directory of files, as paths into it are opened and written. A directory itself can be opened, but it
cannot be read.
-/

namespace Concolic

/-- Why a path gives access to no file. -/
inductive AccessFault
  | notFound
  | notADirectory
  | isADirectory
  | nameTooLong
  | nulByte
  deriving DecidableEq, Repr

namespace AccessFault

def message : AccessFault → String
  | notFound => "No such file or directory (os error 2)"
  | notADirectory => "Not a directory (os error 20)"
  | isADirectory => "Is a directory (os error 21)"
  | nameTooLong => "File name too long (os error 36)"
  | nulByte => "file name contained an unexpected NUL byte"

end AccessFault

structure Directory where
  files : List (String × Bytes)

namespace Directory

inductive Target
  /-- The name at the end of the path, in the directory or outside it. A path that ends in a slash asks for
  a directory. -/
  | entry (inside : Bool) (name : List Char) (asDirectory : Bool)
  | directory

def isTooLong (name : List Char) : Bool :=
  255 < (Utf8.encodeChars name).length

/-- The contents of the file with a name. Outside the directory no file is known. -/
def contents? (d : Directory) (inside : Bool) (name : List Char) : Option Bytes :=
  if inside then d.files.lookup (String.ofList name) else none

def lookUp (d : Directory) (inside : Bool) (name : List Char) : Except AccessFault Bytes :=
  if isTooLong name then .error .nameTooLong
  else match d.contents? inside name with
    | some contents => .ok contents
    | none => .error .notFound

/-- Follows the pieces of a path. `inside` tells whether they start in the directory or outside it, where
nothing but further directories is known. A name with more of the path after it has to be a directory, and
none is. -/
def follow (d : Directory) : (inside : Bool) → List (List Char) → Except AccessFault Target
  | _, [] => .ok .directory
  | inside, piece :: rest =>
    if piece.isEmpty ∨ piece = ['.'] then follow d inside rest
    else if piece = ['.', '.'] then follow d false rest
    else if rest.all List.isEmpty then .ok (.entry inside piece !rest.isEmpty)
    else match d.lookUp inside piece with
      | .ok _ => .error .notADirectory
      | .error fault => .error fault

/-- What a path leads to. A path has less than 4096 octets. -/
def locate (d : Directory) (path : String) : Except AccessFault Target :=
  let s := path.toList
  if s.contains '\x00' then .error .nulByte
  else if s.isEmpty then .error .notFound
  else if 4096 ≤ (Utf8.encodeChars s).length then .error .nameTooLong
  else d.follow (s.head? != some '/') (piecesAt '/' s)

def read (d : Directory) (path : String) : Except AccessFault (Option Bytes) := do
  match ← d.locate path with
  | .directory => return none
  | .entry inside name asDirectory =>
    let contents ← d.lookUp inside name
    if asDirectory then .error .notADirectory else return some contents

def openFile (d : Directory) (path : String) : Except String Feed :=
  match d.read path with
  | .error fault => .error fault.message
  | .ok (some contents) => .ok (Feed.ofBytes contents)
  | .ok none => .ok [.failed AccessFault.isADirectory.message]

/-- The directory with `contents` as the file at a path. A path that asks for a directory is refused before
its name is looked at, and nothing is written outside the directory. -/
def write (d : Directory) (path : String) (contents : Bytes) : Except AccessFault Directory := do
  match ← d.locate path with
  | .directory | .entry _ _ true => .error .isADirectory
  | .entry inside name false =>
    if isTooLong name then .error .nameTooLong
    else if !inside then .error .notFound
    else
      let name := String.ofList name
      return ⟨(name, contents) :: d.files.filter fun f => f.1 != name⟩

def writeFile (d : Directory) (path : String) (contents : Bytes) : Except String Directory :=
  (d.write path contents).mapError AccessFault.message

end Directory

end Concolic
