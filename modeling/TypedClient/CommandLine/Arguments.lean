/-!
# `TypedClient.CommandLine.Arguments`: options and operands

An option has a long name and may have a short one. A value follows its option as the
next argument, after an equals sign if the name is long, or in the same argument if the
name is short; short options without values can share an argument. Two dashes end the
options. A command that names further commands stops at its first operand.
-/

set_option autoImplicit false

namespace TypedClient.CommandLine

/-- Why the arguments are refused. -/
inductive UsageError where
  | unknownOption (name : String)
  | missingValue (name : String)
  | unexpectedValue (name : String)
  | missingOption (name : String)
  | missingOperand (name : String)
  | extraOperand (operand : String)
  | unknownCommand (name : String)
  | missingCommand
  | isADirectory (path : String)
  | isAFile (path : String)
deriving DecidableEq

def UsageError.message : UsageError → String
  | unknownOption name => "No such option: " ++ name
  | missingValue name => "Option " ++ name ++ " requires an argument."
  | unexpectedValue name => "Option " ++ name ++ " does not take a value."
  | missingOption name => "Missing option " ++ name ++ "."
  | missingOperand name => "Missing argument " ++ name ++ "."
  | extraOperand operand => "Got unexpected extra argument (" ++ operand ++ ")"
  | unknownCommand name => "No such command " ++ name ++ "."
  | missingCommand => "Missing command."
  | isADirectory path => path ++ " is a directory."
  | isAFile path => path ++ " is a file."

/-- An option of a command. -/
structure OptionSpec where
  long : String
  short : Option Char
  takesValue : Bool

/-- The arguments of a command, sorted. Options are named by their long names; one
without a value has an empty one. -/
structure Arguments where
  options : List (String × String)
  operands : List String
deriving Inhabited

namespace Arguments

/-- The last value that an option is given. -/
def value? (a : Arguments) (long : String) : Option String :=
  ((a.options.filter (·.1 = long)).getLast?).map Prod.snd

end Arguments

/-- An option that has been read, and the arguments after it. -/
abbrev Read := List (String × String) × List String

/-- An option by its long name, with the value after its equals sign if there is one. -/
def readLong (spec : OptionSpec) (attached : Option String) (rest : List String) :
    Except UsageError Read :=
  if spec.takesValue then
    match attached, rest with
    | some value, rest => .ok ([(spec.long, value)], rest)
    | none, value :: rest => .ok ([(spec.long, value)], rest)
    | none, [] => .error (.missingValue spec.long)
  else match attached with
    | some _ => .error (.unexpectedValue spec.long)
    | none => .ok ([(spec.long, "")], rest)

/-- The short options of an argument, from a character on. -/
def readShort (specs : List OptionSpec) : List Char → (rest : List String) → Except UsageError Read
  | [], rest => .ok ([], rest)
  | c :: cs, rest =>
    match specs.find? (·.short = some c) with
    | none => .error (.unknownOption (String.ofList ['-', c]))
    | some spec =>
      if spec.takesValue then
        match cs, rest with
        | _ :: _, rest => .ok ([(spec.long, String.ofList cs)], rest)
        | [], value :: rest => .ok ([(spec.long, value)], rest)
        | [], [] => .error (.missingValue spec.long)
      else do
        let (more, rest) ← readShort specs cs rest
        pure ((spec.long, "") :: more, rest)

/-- An argument cut at its first equals sign. -/
def splitEquals (arg : String) : String × Option String :=
  let cs := arg.toList
  let name := cs.takeWhile (· ≠ '=')
  (String.ofList name, if name.length < cs.length then
    some (String.ofList (cs.drop (name.length + 1))) else none)

/-- The options of an argument that starts with a dash. -/
def readOptions (specs : List OptionSpec) (arg : String) (rest : List String) :
    Except UsageError Read :=
  let (name, attached) := splitEquals arg
  match specs.find? (·.long = name) with
  | some spec => readLong spec attached rest
  | none =>
    if arg.toList.take 2 = ['-', '-'] then .error (.unknownOption name)
    else readShort specs (arg.toList.drop 1) rest

/-- Sort at most `fuel` arguments. Unless operands and options may mix, the first operand
ends the options. -/
def sortWithin (specs : List OptionSpec) (mixed : Bool) :
    (fuel : Nat) → List String → Except UsageError Arguments
  | 0, args => .ok ⟨[], args⟩
  | _ + 1, [] => .ok ⟨[], []⟩
  | fuel + 1, arg :: rest =>
    if arg = "--" then .ok ⟨[], rest⟩
    else if arg.toList.head? = some '-' && 1 < arg.length then do
      let (options, rest) ← readOptions specs arg rest
      let more ← sortWithin specs mixed fuel rest
      pure { more with options := options ++ more.options }
    else if mixed then do
      let more ← sortWithin specs mixed fuel rest
      pure { more with operands := arg :: more.operands }
    else .ok ⟨[], arg :: rest⟩

/-- Sort the arguments of a command. Every step uses up an argument. -/
def sort (specs : List OptionSpec) (mixed : Bool) (args : List String) :
    Except UsageError Arguments :=
  sortWithin specs mixed args.length args

end TypedClient.CommandLine
