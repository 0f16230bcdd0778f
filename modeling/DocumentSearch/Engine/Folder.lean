import DocumentSearch.Json.Basic
import DocumentSearch.Text.Path
import DocumentSearch.Text.Utf8

/-!
# The folder of mapping files

The part of a file system in which a store leaves the bodies of its indexes. Paths are relative to
the folder, which is made with the first directory that is asked for. A path that leaves the folder
leads nowhere, and so does one through something that is no directory, or one that is too long.
-/

namespace DocumentSearch

structure Folder where
  /-- The directories that have been made, each as its steps from the folder; the folder itself,
  which takes no step, is one of them. -/
  directories : List (List String)
  /-- The text of each file by its path. -/
  files : Members String

namespace Folder

def blank : Folder := ⟨[], []⟩

/-- How many bytes a path may have. -/
def maxPathBytes : Nat := 4095

/-- How many bytes a name in a directory may have. -/
def maxNameBytes : Nat := 255

/-- The steps of a path, if it is not too long; one from the root of the file system leads out of
the folder. Steps that are empty or a single dot stay where they are. -/
def steps? (path : String) : Option (List String) :=
  match path.toList with
  | '/' :: _ => none
  | cs =>
    if (Utf8.encode path).length ≤ maxPathBytes then some ((Path.split '/' cs).map String.ofList)
    else none

/-- The path of `path` taken from `directory`. -/
def under (directory path : String) : String :=
  match directory.toList.getLast? with
  | none | some '/' => directory ++ path
  | some _ => directory ++ "/" ++ path

def joined (steps : List String) : String := "/".intercalate steps

def isDirectory (f : Folder) (place : List String) : Bool := f.directories.contains place

def isFile (f : Folder) (place : List String) : Bool :=
  (Members.find? f.files (joined place)).isSome

/-- Whether something new can have this name. -/
def isName (name : String) : Bool :=
  name ≠ "" && name ≠ "." && name ≠ ".." && (Utf8.encode name).length ≤ maxNameBytes &&
    !name.toList.contains '\x00'

/-- Makes the directory at `place` unless it is there. -/
def addDirectory (f : Folder) (place : List String) : Folder :=
  if f.isDirectory place then f else { f with directories := f.directories ++ [place] }

/-- Goes on from a directory, making the directories that are missing if `create`. -/
def walk (create : Bool) : List String → Folder → List String → Option (Folder × List String)
  | [], f, place => some (f, place)
  | step :: rest, f, place =>
    if step = "" ∨ step = "." then walk create rest f place
    else if step = ".." then
      if place = [] then none else walk create rest f place.dropLast
    else
      let next := place ++ [step]
      if f.isDirectory next then walk create rest f next
      else if create ∧ isName step ∧ ¬f.isFile next then
        walk create rest (f.addDirectory next) next
      else none

/-- Makes the directory at the end of `names`, and those on the way to it. -/
def makeAll (f : Folder) (names : List String) : Option (Folder × List String) :=
  walk true names (f.addDirectory []) []

/-- Makes the directory of a path, and those on the way to it. When the last step is a dot, the
directory must be there as soon as those on the way to it are: a dot is not the name of anything
that could be made. -/
def makeDirectory (f : Folder) (path : String) : Option (Folder × List String) :=
  match steps? path with
  | none => none
  | some steps =>
    let steps := steps.filter (· ≠ "")
    let names := steps.filter (· ≠ ".")
    if steps.getLast? = some "." then
      match names.getLast? with
      | none => if f.isDirectory [] then some (f, []) else none
      | some last =>
        match f.makeAll names.dropLast with
        | none => none
        | some (f, place) => walk false [last] f place
    else f.makeAll names

/-- Writes a file whose path is taken from an existing directory. -/
def writeFile (f : Folder) (place : List String) (path text : String) : Folder :=
  match steps? path with
  | none => f
  | some steps =>
    match walk false steps.dropLast f place, steps.getLast? with
    | some (f, place), some name =>
      let file := place ++ [name]
      if isName name && !f.isDirectory file then
        { f with files := Members.insert (joined file) text f.files }
      else f
    | _, _ => f

/-- Makes the directory `directory` and writes a file whose path is taken from it. What cannot be
made or written is left out. -/
def write (f : Folder) (directory path text : String) : Folder :=
  match f.makeDirectory directory with
  | none => f
  | some (f, place) =>
    match steps? (under directory path) with
    | none => f
    | some _ => f.writeFile place path text

end Folder

end DocumentSearch
