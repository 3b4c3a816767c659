import BlockStage.Json.Reader
import BlockStage.Snapshot

/-!
# Snapshots as documents

A snapshot is written as an object on one line.  Numbers off the number line
are written as `null`; reading takes `null` only for the sleep, so such a
snapshot can be shown but not read back.
-/

namespace BlockStage

namespace Snapshot

def specialJson (special : Special) : Json :=
  .object [("x", .ofFloat special.x), ("y", .ofFloat special.y), ("angle", .ofFloat special.angle)]

/-- The document of a snapshot; without a sleep there is no member for it. -/
def toJson (snapshot : Snapshot) : Json :=
  .object
    ([("currentStat", .text snapshot.statement),
      ("variables",
        .array (snapshot.values.map fun pair => .array [.text pair.1, .ofFloat pair.2])),
      ("specialVariables", specialJson snapshot.special)] ++
      match snapshot.duration with
      | some duration => [("duration", .ofFloat duration)]
      | none => [])

/-- What has been read of a pair of name and value. -/
structure PairParts where
  name : Option String := none
  value : Option Float := none

def readPair : Reader (String × Float)
  | [] => .error .premature
  | .openArray :: rest =>
      (do
        let read ← Reader.recordItems
          [{ name := "name"
             isSet := fun read => read.name.isSome
             read := fun read => do
              let name ← Reader.text
              return { read with name := some name } },
            { name := "value"
              isSet := fun read => read.value.isSome
              read := fun read => do
                let value ← Reader.real
                return { read with value := some value } }] true ({} : PairParts)
        match read.name, read.value with
        | some name, some value =>
            Reader.closeArray
            return (name, value)
        | _, _ => Reader.fail .mismatched : Reader (String × Float)) rest
  | token :: _ => .error (Reader.unwanted token)

/-- What has been read of the special variables. -/
structure SpecialParts where
  x : Option Float := none
  y : Option Float := none
  angle : Option Float := none

def readSpecial : Reader Special :=
  Reader.record
    [{ name := "x"
       isSet := fun read => read.x.isSome
       read := fun read => do
        let value ← Reader.real
        return { read with x := some value } },
      { name := "y"
        isSet := fun read => read.y.isSome
        read := fun read => do
          let value ← Reader.real
          return { read with y := some value } },
      { name := "angle"
        isSet := fun read => read.angle.isSome
        read := fun read => do
          let value ← Reader.real
          return { read with angle := some value } }]
    ({} : SpecialParts)
    fun read => do return { x := ← read.x, y := ← read.y, angle := ← read.angle }

/-- What has been read of a snapshot.  The sleep may be given as `null`, so it
is remembered whether it was given at all. -/
structure Parts where
  statement : Option StatementId := none
  values : Option (List (String × Float)) := none
  special : Option Special := none
  duration : Option (Option Float) := none

def parts : List (Reader.Field Parts) :=
  [{ name := "currentStat"
     isSet := fun read => read.statement.isSome
     read := fun read => do
      let statement ← Reader.text
      return { read with statement := some statement } },
    { name := "variables"
      isSet := fun read => read.values.isSome
      read := fun read => do
        let pairs ← Reader.array readPair
        return { read with values := some pairs } },
    { name := "specialVariables"
      isSet := fun read => read.special.isSome
      read := fun read => do
        let special ← readSpecial
        return { read with special := some special } },
    { name := "duration"
      isSet := fun read => read.duration.isSome
      read := fun read => do
        let duration ← Reader.optionalReal
        return { read with duration := some duration } }]

/-- The snapshot of which all parts have been read; only the sleep may be
missing. -/
def ofParts? (read : Parts) : Option Snapshot := do
  return {
    statement := ← read.statement
    values := ← read.values
    special := ← read.special
    duration := read.duration.join }

def parse (source : String) : Except Fault Snapshot :=
  Reader.run (Reader.record parts {} ofParts?) source

end Snapshot

end BlockStage
