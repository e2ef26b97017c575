import DoxygenRest.Command.Basic

/-!
# Command lines

A command line names a command and goes on with options and operands in any order.  An option is
written by its letter or by its name; its value stands in the same argument or in the next one.
Behind the argument `--` all are operands.
-/

namespace DoxygenRest

/-- Why a command line asks for nothing that can be done. -/
inductive UsageError where
  | noCommand
  | unknownCommand (name : String)
  | unknownOption (argument : String)
  /-- An option that needs a value and has none. -/
  | missingValue (option : String)
  /-- An option that takes no value and has one. -/
  | needlessValue (option : String)
  | repeatedOption (option : String)
  | unexpectedOperand (operand : String)
  | missingOperand
  deriving DecidableEq

/-- The wording of a usage error. -/
def UsageError.message : UsageError → String
  | noCommand => "a command is needed: list, adjust or render"
  | unknownCommand name => "there is no command '" ++ name ++ "'"
  | unknownOption argument => "there is no option '" ++ argument ++ "' here"
  | missingValue option => "the option '" ++ option ++ "' needs a value"
  | needlessValue option => "the option '" ++ option ++ "' takes no value"
  | repeatedOption option => "the option '" ++ option ++ "' may be given only once"
  | unexpectedOperand operand => "the operand '" ++ operand ++ "' is one too many"
  | missingOperand => "a member or compound is needed"

namespace Command

/-- The options of commands. -/
inductive Switch where
  | root
  | kind
  | outFile
  | stdout
  deriving DecidableEq

namespace Switch

/-- The name of an option. -/
def name : Switch → String
  | root => "root"
  | kind => "kind"
  | outFile => "out-file"
  | stdout => "stdout"

/-- The letter of an option, if it has one. -/
def letter? : Switch → Option Char
  | root => some 'r'
  | kind => some 'k'
  | outFile => some 'o'
  | stdout => none

/-- Whether an option has a value. -/
def takesValue : Switch → Bool
  | stdout => false
  | _ => true

/-- Whether an option's value may be empty.  A path may not. -/
def allowsEmpty : Switch → Bool
  | kind => true
  | _ => false

/-- Whether an option may be given more than once. -/
def repeats : Switch → Bool
  | kind => true
  | _ => false

end Switch

/-- What has been given on a command line: options with their values, and operands. -/
structure Given where
  options : List (Switch × String) := []
  operands : List String := []

namespace Given

/-- The values of an option, in the order of the command line. -/
def values (given : Given) (option : Switch) : List String :=
  given.options.filterMap fun item => if item.1 = option then some item.2 else none

/-- Add an option behind the others. -/
def add (given : Given) (option : Switch) (value : String) : Except UsageError Given :=
  if value = "" ∧ option.takesValue ∧ !option.allowsEmpty then .error (.missingValue option.name)
  else if !option.repeats ∧ !(given.values option).isEmpty then .error (.repeatedOption option.name)
  else .ok { given with options := given.options ++ [(option, value)] }

/-- Whether an argument may stand for the value of the option before it. -/
def isValue (argument : String) : Bool :=
  argument = "-" || argument.toList.head? != some '-'

/-- Take in the arguments of a command that has the given options. -/
def read (switches : List Switch) (given : Given) : List String → Except UsageError Given
  | [] => .ok given
  | argument :: rest =>
    match argument.toList with
    | ['-', '-'] => .ok { given with operands := given.operands ++ rest }
    | '-' :: '-' :: body =>
      let name := String.ofList (body.takeWhile (· != '='))
      match switches.find? (·.name == name), body.dropWhile (· != '=') with
      | none, _ => .error (.unknownOption argument)
      | some option, '=' :: value =>
        if option.takesValue then do
          read switches (← given.add option (String.ofList value)) rest
        else .error (.needlessValue option.name)
      | some option, _ =>
        if !option.takesValue then do read switches (← given.add option "") rest
        else
          match rest with
          | [] => .error (.missingValue option.name)
          | value :: rest =>
            if isValue value then do read switches (← given.add option value) rest
            else .error (.missingValue option.name)
    | '-' :: letter :: body =>
      match switches.find? (·.letter? == some letter), body with
      | none, _ => .error (.unknownOption argument)
      | some option, '=' :: value => do
        read switches (← given.add option (String.ofList value)) rest
      | some option, _ :: _ => do read switches (← given.add option (String.ofList body)) rest
      | some option, [] =>
        match rest with
        | [] => .error (.missingValue option.name)
        | value :: rest =>
          if isValue value then do read switches (← given.add option value) rest
          else .error (.missingValue option.name)
    | _ => read switches { given with operands := given.operands ++ [argument] } rest

/-- The value of an option that is given at most once. -/
def value? (given : Given) (option : Switch) : Option String :=
  (given.values option).head?

end Given

/-- The command that a command line asks for. -/
def ofArguments : List String → Except UsageError Command
  | [] => .error .noCommand
  | "list" :: arguments => do
    let given ← Given.read [.root, .kind] {} arguments
    match given.operands with
    | [] => return .list (given.value? .root) (given.values .kind)
    | operand :: _ => throw (.unexpectedOperand operand)
  | "adjust" :: arguments => do
    let given ← Given.read [.root] {} arguments
    match given.operands with
    | [] => throw .missingOperand
    | [target] => return .adjust (given.value? .root) target
    | _ :: operand :: _ => throw (.unexpectedOperand operand)
  | "render" :: arguments => do
    let given ← Given.read [.root, .kind, .outFile, .stdout] {} arguments
    return .render {
      targets := given.operands
      kinds := given.values .kind
      root? := given.value? .root
      outFile? := given.value? .outFile
      toOutput := !(given.values .stdout).isEmpty }
  | name :: _ => .error (.unknownCommand name)

end Command

end DoxygenRest
