import GatewayControl.Error
import GatewayControl.Text.Bytes

/-!
# `GatewayControl.Files` -- the files that a process can read

A tree of files, given by the contents of each file under its path. A path is walked component by
component; `.` and empty components stay where they are, `..` climbs. The walk tells a missing file
from a directory, and from a path that leads through a file.
-/

namespace GatewayControl

/-- The contents of files by their paths, each path a list of components. -/
structure Files where
  entries : List (List String × Bytes)

namespace Files

/-- No files. -/
def empty : Files := ⟨[]⟩

/-- The components of a path. -/
def components (path : String) : List String := (path.toList.splitOn '/').map String.ofList

/-- Adds a file. -/
def add (path : String) (contents : Bytes) (files : Files) : Files :=
  ⟨(components path, contents) :: files.entries⟩

/-- The contents of the file in a place. -/
def contents? (files : Files) (place : List String) : Option Bytes := files.entries.lookup place

/-- Some file lies below a place. -/
def isDirectory (files : Files) (place : List String) : Bool :=
  place.isEmpty || files.entries.any fun (path, _) => place.isPrefixOf path

/-- Where a walk of components from a place ends. -/
def walk (files : Files) : List String → List String → Except FileFault (List String)
  | place, [] => .ok place
  | place, step :: steps =>
    if (files.contents? place).isSome then .error .notDirectory
    else if !files.isDirectory place then .error .missing
    else if step = "" ∨ step = "." then walk files place steps
    else if step = ".." then walk files place.dropLast steps
    else walk files (place ++ [step]) steps

/-- The contents of the file at a path. -/
def read (files : Files) (path : String) : Except FileFault Bytes :=
  if path = "" then .error .missing
  else match files.walk [] (components path) with
    | .error fault => .error fault
    | .ok place =>
      match files.contents? place with
      | some bytes => .ok bytes
      | none => .error (if files.isDirectory place then .isDirectory else .missing)

/-- The text of the file at a path. -/
def readText (files : Files) (path : String) : Except FileFault String := do
  match Bytes.toText? (← files.read path) with
  | some text => return text
  | none => throw .notText

/-- Something is at a path. -/
def has (files : Files) (path : String) : Bool :=
  match files.read path with
  | .ok _ => true
  | .error .isDirectory => true
  | .error _ => false

end Files

end GatewayControl
