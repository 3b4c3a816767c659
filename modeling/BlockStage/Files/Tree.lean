import BlockStage.Files.Path

/-!
# File trees

A tree holds files at locations.  The places on the way to a file are
directories, and some directories stand there without any file.  A path is
followed name by name, from the root or from the directory in which work is
done: every name but the last has to lead to a directory, and the first name
that does not decides why the path is refused.
-/

namespace BlockStage

/-- Why a file cannot be read or written. -/
inductive FileError where
  | missing
  | notDirectory
  | directory
  | full
  | nameTooLong
  | notText
deriving DecidableEq

/-- The words of the operating system for a file that cannot be used. -/
def FileError.message : FileError → String
  | .missing => "No such file or directory (os error 2)"
  | .notDirectory => "Not a directory (os error 20)"
  | .directory => "Is a directory (os error 21)"
  | .full => "No space left on device (os error 28)"
  | .nameTooLong => "File name too long (os error 36)"
  | .notText => "stream did not contain valid UTF-8"

/-- What stands at a location. -/
inductive Entry (α : Type) where
  | file (contents : α)
  | directory

/-- Where a path leads: to a directory, or to a name in a directory. -/
inductive Goal where
  | directory
  /-- A name, and whether the path asks for a directory there. -/
  | name (location : Location) (asDirectory : Bool)

/-- Files at locations, directories that stand without them, and the directory
in which work is done. -/
structure FileTree (α : Type) where
  files : List (Location × α)
  directories : List Location
  home : Location

namespace FileTree

variable {α : Type}

def isDirectory (tree : FileTree α) (location : Location) : Bool :=
  location.isEmpty ||
    (tree.home :: tree.directories).any (fun directory => location.isPrefixOf directory) ||
    tree.files.any (fun file => location.isPrefixOf file.1 && location != file.1)

def entry? (tree : FileTree α) (location : Location) : Option (Entry α) :=
  if tree.isDirectory location then some .directory
  else (tree.files.find? fun file => file.1 == location).map fun file => .file file.2

def erase (tree : FileTree α) (location : Location) : FileTree α :=
  { tree with files := tree.files.filter fun file => file.1 != location }

/-- Puts a file at a location, in place of the one there. -/
def insert (tree : FileTree α) (location : Location) (contents : α) : FileTree α :=
  { tree with files := (location, contents) :: (tree.erase location).files }

/-! ### Following paths -/

def start (tree : FileTree α) (path : PathBytes) : Location :=
  if Path.isAbsolute path then [] else tree.home

def descend (tree : FileTree α) (place : Location) (name : PathBytes) :
    Except FileError Location :=
  if name = Path.here then .ok place
  else if name = Path.above then .ok place.dropLast
  else if name.length > Path.maxName then .error .nameTooLong
  else
    match tree.entry? (place ++ [name]) with
    | none => .error .missing
    | some (.file _) => .error .notDirectory
    | some .directory => .ok (place ++ [name])

def resolve (tree : FileTree α) (path : PathBytes) : Except FileError Goal :=
  if path.isEmpty then .error .missing
  else if path.length ≥ Path.maxPath then .error .nameTooLong
  else
    match (Path.names path).getLast? with
    | none => .ok .directory
    | some last =>
        match (Path.names path).dropLast.foldlM tree.descend (tree.start path) with
        | .error error => .error error
        | .ok parent =>
            if last = Path.here ∨ last = Path.above then .ok .directory
            else .ok (.name (parent ++ [last]) (Path.endsInSlash path))

def fits (location : Location) : Bool :=
  (location.getLast?.getD []).length ≤ Path.maxName

def look (tree : FileTree α) (path : PathBytes) : Except FileError (Entry α) :=
  match tree.resolve path with
  | .error error => .error error
  | .ok .directory => .ok .directory
  | .ok (.name location asDirectory) =>
      if !fits location then .error .nameTooLong
      else
        match tree.entry? location with
        | none => .error .missing
        | some .directory => .ok .directory
        | some (.file contents) =>
            if asDirectory then .error .notDirectory else .ok (.file contents)

def read (tree : FileTree α) (path : PathBytes) : Except FileError α :=
  match tree.look path with
  | .error error => .error error
  | .ok .directory => .error .directory
  | .ok (.file contents) => .ok contents

/-- The location at which a file can be written for a path, and the file that
already stands there. -/
def writable (tree : FileTree α) (path : PathBytes) : Except FileError (Location × Option α) :=
  match tree.resolve path with
  | .error error => .error error
  | .ok .directory => .error .directory
  | .ok (.name location asDirectory) =>
      if asDirectory then .error .directory
      else if !fits location then .error .nameTooLong
      else
        match tree.entry? location with
        | some .directory => .error .directory
        | some (.file contents) => .ok (location, some contents)
        | none => .ok (location, none)

/-! ### Normalised paths -/

def maxNormal : Nat := 512

/-- Whether a location can be looked at: nothing may stand there, but what
stands on the way must be directories. -/
def isInSight (tree : FileTree α) (location : Location) : Bool :=
  match location.dropLast.foldlM tree.descend [] with
  | .ok _ => fits location
  | .error error => error == .missing

/-- Adds a name to a location, without regard to whether anything stands there.
Two dots take the last name away. -/
def extend (tree : FileTree α) (place : Location) (name : PathBytes) : Option Location :=
  if name = Path.here then some place
  else if name = Path.above then some place.dropLast
  else if Path.size place + name.length + 1 ≥ maxNormal then none
  else if tree.isInSight (place ++ [name]) then some (place ++ [name])
  else none

/-- The location that a path names when its dots are worked out before anything
is followed.  Eight bytes have to be left for the endings of companion files. -/
def normalise? (tree : FileTree α) (path : PathBytes) : Option Location :=
  match (Path.names path).foldlM tree.extend (tree.start path) with
  | none => none
  | some location =>
      if location.isEmpty ∨ Path.size location + 8 > maxNormal then none else some location

end FileTree

end BlockStage
