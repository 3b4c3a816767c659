/-!
# Paths

A path is a sequence of bytes: names, divided by slashes.  Names are compared
byte by byte and need not be text.  Empty names do not count, a single dot
stands for the place itself and two dots for the one above it.
-/

namespace BlockStage

abbrev PathBytes := List UInt8

/-- A place in a file tree: the names that lead to it from the root. -/
abbrev Location := List PathBytes

namespace Path

def slash : UInt8 := 0x2F

def here : PathBytes := [0x2E]

def above : PathBytes := [0x2E, 0x2E]

def maxName : Nat := 255

def maxPath : Nat := 4096

def bytes (content : String) : PathBytes := content.toUTF8.toList

def names (path : PathBytes) : List PathBytes :=
  (path.splitOn slash).filter fun name => !name.isEmpty

def isAbsolute (path : PathBytes) : Bool := path.head? == some slash

/-- Whether a path ends in a slash, and so asks for a directory. -/
def endsInSlash (path : PathBytes) : Bool := path.getLast? == some slash

def size (location : Location) : Nat :=
  location.foldl (fun total name => total + name.length + 1) 0

def withEnding (location : Location) (ending : String) : Location :=
  location.dropLast ++ [location.getLast?.getD [] ++ bytes ending]

end Path

end BlockStage
