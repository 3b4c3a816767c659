import BlockStage.Files.Tree
import BlockStage.Store.Connection

/-!
# Workspaces

A workspace is a file tree with a directory in which the program is called again
and again.  Its files hold bytes; a few are devices, which take what is written to
them somewhere else.
-/

namespace BlockStage

/-- A file that is no store of bytes. -/
inductive Device where
  /-- Reads as empty and takes everything. -/
  | null
  /-- Takes nothing. -/
  | full
  /-- The output of the call. -/
  | output
  /-- The error output of the call. -/
  | errors

/-- What is in a file. -/
inductive Contents where
  | bytes (data : ByteArray)
  | device (device : Device)

/-- A file tree with a directory in which the program is called. -/
structure Workspace where
  tree : FileTree Contents

namespace Contents

def toText : Contents → Except FileError String
  | .bytes data =>
      match String.fromUTF8? data with
      | some content => .ok content
      | none => .error .notText
  | .device _ => .ok ""

end Contents

namespace Workspace

def standingDirectories : List Location :=
  [["bin"], ["boot"], ["dev"], ["etc"], ["home"], ["lib"], ["media"], ["mnt"], ["opt"], ["proc"],
    ["root"], ["run"], ["sbin"], ["srv"], ["sys"], ["tmp"], ["usr", "bin"], ["usr", "lib"],
    ["usr", "local"], ["usr", "share"], ["var", "lib"], ["var", "log"], ["var", "tmp"]].map
    fun names => names.map Path.bytes

def standingDevices : List (Location × Contents) :=
  [("null", Device.null), ("zero", .null), ("stdin", .null), ("full", .full),
    ("stdout", .output), ("stderr", .errors)].map fun (name, device) =>
      ([Path.bytes "dev", Path.bytes name], .device device)

def empty : Workspace :=
  ⟨{ files := standingDevices
     directories := standingDirectories
     home := [Path.bytes "tmp", Path.bytes "block-stage"] }⟩

/-! ### Files -/

def readText (workspace : Workspace) (path : String) : Except FileError String :=
  match workspace.tree.read (Path.bytes path) with
  | .error error => .error error
  | .ok contents => contents.toText

/-- Where a text goes that is written to a file. -/
inductive Written where
  /-- Into the file. -/
  | kept (workspace : Workspace)
  /-- To a device. -/
  | sent (device : Device)

def write (workspace : Workspace) (path content : String) : Except FileError Written :=
  match workspace.tree.writable (Path.bytes path) with
  | .error error => .error error
  | .ok (_, some (.device .full)) => .error .full
  | .ok (_, some (.device device)) => .ok (.sent device)
  | .ok (location, _) =>
      .ok (.kept ⟨workspace.tree.insert location (.bytes content.toUTF8)⟩)

/-- Puts a file into the workspace, with the directories on its way. -/
def place (workspace : Workspace) (path : String) (data : ByteArray) : Workspace :=
  let path := Path.bytes path
  let location := (Path.names path).foldl
    (fun location name =>
      if name = Path.here then location
      else if name = Path.above then location.dropLast
      else location ++ [name])
    (workspace.tree.start path)
  ⟨workspace.tree.insert location (.bytes data)⟩

end Workspace

end BlockStage
