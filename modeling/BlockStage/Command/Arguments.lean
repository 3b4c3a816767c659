import BlockStage.Command.Basic
import BlockStage.Json.Token

/-!
# Command-line arguments

Arguments are options, which have names, and operands, which have places.  An
option takes its value from the same argument, behind an equals sign, or from
the next one; the next one must not look like an option unless the option
allows it.  Every option may be given once.  The first operand names the
command, and what follows belongs to the command.
-/

namespace BlockStage

namespace Arguments

/-- An option that may be given. -/
structure OptionRule where
  name : String
  /-- Whether the option takes a value. -/
  takesValue : Bool := true
  /-- Whether the value may look like an option. -/
  anyValue : Bool := false

/-- What has been found among the arguments. -/
structure Found where
  /-- The options with their values, empty for options without one. -/
  options : List (String × String) := []
  operands : List String := []
  /-- What follows the first operand, if reading stops there. -/
  rest : List String := []

def looksLikeOption (argument : String) : Bool :=
  match argument.toList with
  | '-' :: _ :: _ => true
  | _ => false

def longOption? (argument : String) : Option (String × Option String) :=
  match argument.toList with
  | '-' :: '-' :: name =>
      match name.dropWhile (· != '=') with
      | [] => some (String.ofList name, none)
      | _ :: value => some (String.ofList (name.takeWhile (· != '=')), some (String.ofList value))
  | _ => none

/-- Notes an option, which must not have been given before. -/
def note (found : Found) (name value : String) : Option Found :=
  if found.options.any fun option => option.1 == name then none
  else some { found with options := found.options ++ [(name, value)] }

/-- Sorts arguments into options and operands.  With `stops` set, reading stops
behind the first operand; otherwise there may be at most `places` operands.
Behind a double dash everything is an operand. -/
def sort (rules : List OptionRule) (stops : Bool) (places : Nat) :
    List String → Found → Option Found
  | [], found => some found
  | argument :: arguments, found =>
      if argument = "--" then
        let operands := found.operands ++ arguments
        if stops then none
        else if operands.length ≤ places then some { found with operands } else none
      else
        match longOption? argument with
        | some (name, attached) =>
            match rules.find? fun rule => rule.name == name with
            | none => none
            | some rule =>
                match attached with
                | some value =>
                    if rule.takesValue then
                      (note found name value).bind (sort rules stops places arguments)
                    else none
                | none =>
                    if rule.takesValue then
                      match arguments with
                      | [] => none
                      | value :: remaining =>
                          if !rule.anyValue && looksLikeOption value then none
                          else (note found name value).bind (sort rules stops places remaining)
                    else (note found name "").bind (sort rules stops places arguments)
        | none =>
            if looksLikeOption argument then none
            else if stops then
              some { found with operands := found.operands ++ [argument], rest := arguments }
            else if found.operands.length < places then
              sort rules stops places arguments
                { found with operands := found.operands ++ [argument] }
            else none

def Found.value? (found : Found) (name : String) : Option String := found.options.lookup name

def Found.has (found : Found) (name : String) : Bool := (found.value? name).isSome

/-! ### Values -/

/-- Reads a count below `2 ^ 64`, which may have a plus sign. -/
def parseCount? (argument : String) : Option Nat :=
  let digits :=
    match argument.toList with
    | '+' :: digits => digits
    | digits => digits
  let value := Token.digitsValue digits
  if !digits.isEmpty && digits.all Char.isDigit && decide (value < UInt64.size) then some value
  else none

/-- Reads the exponent behind a number; without one it is zero. -/
def parseExponent? : List Char → Option Int
  | [] => some 0
  | character :: rest =>
      if character = 'e' ∨ character = 'E' then
        let (down, digits) := Token.exponentSign rest
        if !digits.isEmpty && digits.all Char.isDigit then
          let size : Int := Token.digitsValue digits
          some (if down then -size else size)
        else none
      else none

/-- Reads a number without sign.  Digits may be missing on one side of the
point; a number that is too large is infinite. -/
def parseMagnitude? (negative : Bool) (characters : List Char) : Option Float :=
  let (whole, behindWhole) := Token.spanDigits characters
  let (fraction, behindFraction) :=
    match behindWhole with
    | '.' :: rest => Token.spanDigits rest
    | rest => ([], rest)
  if whole.isEmpty && fraction.isEmpty then none
  else
    (parseExponent? behindFraction).map fun exponent =>
      (⟨negative, Token.digitsValue (whole ++ fraction), exponent - (fraction.length : Int)⟩ :
        Decimal).toFloat

/-- Reads a number, or one of the words for infinity and for no number, in any
case. -/
def parseFloat? (argument : String) : Option Float :=
  let (negative, characters) :=
    match argument.toList with
    | '-' :: rest => (true, rest)
    | '+' :: rest => (false, rest)
    | rest => (false, rest)
  let word := String.ofList (characters.map Char.toLower)
  if word = "inf" ∨ word = "infinity" then
    some (Binary64.ofIndex negative Binary64.infinityIndex)
  else if word = "nan" then some Binary64.nan
  else parseMagnitude? negative characters

/-- The value of an optional option, refused when it cannot be read. -/
def optional? {α : Type} (parse : String → Option α) (found : Found) (name : String) :
    Option (Option α) :=
  match found.value? name with
  | some value => (parse value).map some
  | none => some none

/-! ### Commands -/

/-- The command of a name, from the arguments behind it. -/
def parseCommand? (name : String) (arguments : List String) : Option Command :=
  let plain (rules : List OptionRule) := sort rules false 0 arguments {}
  let file := do
    let found ← sort [] false 1 arguments {}
    match found.operands with
    | [file] => if file.isEmpty then none else some file
    | _ => none
  match name with
  | "new" => do
      let _ ← plain []
      return .create
  | "show" => do
      let found ← plain [{ name := "json", takesValue := false }]
      return .display (found.has "json")
  | "import" => return .importFrom (← file)
  | "export" => return .exportTo (← file)
  | "list" => do
      let _ ← plain []
      return .listAll
  | "delete" => do
      let _ ← plain []
      return .delete
  | "add-stat" => do
      let found ← plain [{ name := "list" }, { name := "kind" }]
      return .addStatement ((found.value? "list").getD entryList) (← found.value? "kind")
  | "set-expr" => do
      let found ← plain
        [{ name := "id" }, { name := "kind" }, { name := "value", anyValue := true },
          { name := "name" }]
      return .fillExpression (← found.value? "id") (← found.value? "kind")
        (← optional? parseFloat? found "value") (found.value? "name")
  | "unset-expr" => do
      let found ← plain [{ name := "id" }]
      return .clearExpression (← found.value? "id")
  | "rename" => do
      let found ← plain [{ name := "stat" }, { name := "name" }]
      return .rename (← found.value? "stat") (← found.value? "name")
  | "remove" => do
      let found ← plain [{ name := "list" }, { name := "index" }]
      return .remove ((found.value? "list").getD entryList)
        (← parseCount? (← found.value? "index"))
  | "demo" => do
      let _ ← plain []
      return .sample
  | "run" => do
      let found ← plain
        [{ name := "json", takesValue := false }, { name := "time-unit-ms" },
          { name := "max-steps" }]
      let milliseconds ← optional? parseFloat? found "time-unit-ms"
      let maxSteps ← optional? parseCount? found "max-steps"
      return .run (if found.has "json" then .json else .text)
        { timeUnit := Span.ofMilliseconds (milliseconds.getD 1), maxSteps }
  | _ => none

end Arguments

/-- A call of the program: the database file, the key and the command. -/
structure Invocation where
  database : String
  key : String
  command : Command

def databaseVariable : String := "GRAPHICALANG_DB_PATH"

def keyVariable : String := "GRAPHICALANG_STORAGE_KEY"

def defaultDatabase : String := "graphicalang.db"

/-- Reads the arguments of a call.  Options win over the environment. -/
def Invocation.parse? (environment : String → Option String) (arguments : List String) :
    Option Invocation := do
  let found ← Arguments.sort [{ name := "db" }, { name := "key" }] true 0 arguments {}
  match found.operands with
  | [name] =>
      return {
        database := (found.value? "db").getD ((environment databaseVariable).getD defaultDatabase)
        key := (found.value? "key").getD ((environment keyVariable).getD defaultKey)
        command := ← Arguments.parseCommand? name found.rest }
  | _ => none

end BlockStage
