import GitLanes.Text.Quoted
import GitLanes.Text.Resemblance

namespace GitLanes

/-!
# Arguments of the command

Options come in any order among the other arguments, until a double dash. An
option has a long name, and all but the help have a short one; short names can
be written together. The last value given to an option counts. A fault in the
writing of an option comes before everything else, a request for help before a
missing option, and a missing option before arguments that nothing takes.
-/

/-- The options of the command. -/
inductive CommandOption
  | input
  | output
  | verbose
  | help
  deriving Repr, DecidableEq

namespace CommandOption

/-- Every option. -/
def all : List CommandOption :=
  [.input, .output, .verbose, .help]

/-- The long name of an option. -/
def longName : CommandOption → String
  | .input => "--input"
  | .output => "--output"
  | .verbose => "--verbose"
  | .help => "--help"

/-- The letter of an option, if it has a short name. -/
def letter? : CommandOption → Option Char
  | .input => some 'i'
  | .output => some 'o'
  | .verbose => some 'v'
  | .help => none

/-- Whether an option is followed by a value. -/
def takesValue : CommandOption → Bool
  | .input => true
  | .output => true
  | .verbose => false
  | .help => false

/-- The option of a long name. -/
def ofLongName? (name : List Char) : Option CommandOption :=
  all.find? fun option => option.longName.toList == name

/-- The option of a letter. -/
def ofLetter? (letter : Char) : Option CommandOption :=
  all.find? fun option => option.letter? == some letter

end CommandOption

/-- The reason why arguments are refused. -/
inductive UsageFault
  | unknownOption (name : List Char) (suggestions : List (List Char))
  | missingValue (name : List Char)
  | unwantedValue (name : List Char)
  | missingInput
  | extraArguments (arguments : List String)
  deriving Repr, DecidableEq

/-- An option with its value, or an argument that belongs to no option. -/
inductive ArgumentItem
  | valued (option : CommandOption) (value : String)
  | flagged (option : CommandOption)
  | unclaimed (argument : String)
  deriving Repr, DecidableEq

/-- What the command is asked to do. -/
inductive Invocation
  | help
  | conversion (input output : String) (verbose : Bool)
  deriving Repr, DecidableEq

namespace ArgumentItem

/-- An option whose value must be the next argument, by its written name. -/
structure Awaited where
  name : List Char
  option : CommandOption
  deriving Repr, DecidableEq

/-- What one argument says: options, and perhaps one that awaits its value. -/
abbrev Reading := List ArgumentItem × Option Awaited

/-- An option that takes a value, which may be attached to its written name. -/
def readValued
    (name : List Char)
    (option : CommandOption)
    (attached : Option (List Char)) :
    Reading :=
  match attached with
  | some value => ([.valued option (String.ofList value)], none)
  | none => ([], some ⟨name, option⟩)

/-- What letters say together; the first one that takes a value takes the rest. -/
def readLetters : List Char → Except UsageFault Reading
  | [] => .ok ([], none)
  | letter :: letters =>
      match CommandOption.ofLetter? letter with
      | none => .error (.unknownOption ['-', letter] [])
      | some option =>
          if option.takesValue then
            .ok (readValued ['-', letter] option (if letters = [] then none else some letters))
          else
            (readLetters letters).map fun (items, awaited) => (.flagged option :: items, awaited)

/-- The name of a long option, and the value attached to it with an equals sign. -/
def splitAtEquals (argument : List Char) : List Char × Option (List Char) :=
  match argument.dropWhile (· != '=') with
  | [] => (argument, none)
  | _ :: value => (argument.takeWhile (· != '='), some value)

/-- What an argument says that starts with a dash. -/
def readDashed (argument : List Char) : Except UsageFault Reading :=
  let (name, attached) := splitAtEquals argument
  match CommandOption.ofLongName? name with
  | some option =>
      if option.takesValue then
        .ok (readValued name option attached)
      else if attached.isSome then
        .error (.unwantedValue name)
      else
        .ok ([.flagged option], none)
  | none =>
      if ['-', '-'].isPrefixOf argument then
        .error (.unknownOption name
          (closeMatches name (CommandOption.all.map fun option => option.longName.toList)))
      else
        readLetters (argument.drop 1)

/-- Whether an argument is read as options. -/
def isDashed (argument : String) : Bool :=
  ['-'].isPrefixOf argument.toList && argument != "-"

/-- What all arguments say, in order, the first of them perhaps being an awaited value. -/
def readAll : Option Awaited → List String → Except UsageFault (List ArgumentItem)
  | none, [] => .ok []
  | some awaited, [] => .error (.missingValue awaited.name)
  | some awaited, value :: rest =>
      (readAll none rest).map fun items => .valued awaited.option value :: items
  | none, argument :: rest =>
      if argument = "--" then
        .ok (rest.map .unclaimed)
      else if isDashed argument then do
        let (items, awaited) ← readDashed argument.toList
        return items ++ (← readAll awaited rest)
      else
        (readAll none rest).map fun items => .unclaimed argument :: items

/-- The last value that was given to an option. -/
def lastValue? (option : CommandOption) (items : List ArgumentItem) : Option String :=
  (items.filterMap fun item =>
    match item with
    | .valued given value => if given = option then some value else none
    | _ => none).getLast?

/-- The arguments that belong to no option. -/
def extras (items : List ArgumentItem) : List String :=
  items.filterMap fun item =>
    match item with
    | .unclaimed argument => some argument
    | _ => none

end ArgumentItem

/-- The file that a drawing is written to unless another is named. -/
def defaultOutput : String := "output.drawio"

namespace Invocation

/-- What options and other arguments ask for. -/
def ofItems (items : List ArgumentItem) : Except UsageFault Invocation :=
  if items.contains (.flagged .help) then
    .ok .help
  else
    match ArgumentItem.lastValue? .input items, ArgumentItem.extras items with
    | none, _ => .error .missingInput
    | some input, [] =>
        .ok (.conversion input
          ((ArgumentItem.lastValue? .output items).getD defaultOutput)
          (items.contains (.flagged .verbose)))
    | some _, extra => .error (.extraArguments extra)

/-- What the arguments of the command ask for. -/
def ofArguments (arguments : List String) : Except UsageFault Invocation :=
  (ArgumentItem.readAll none arguments).bind ofItems

end Invocation

namespace UsageFault

/-- The names that may have been meant, in alphabetical order. -/
def suggestion (names : List (List Char)) : String :=
  match (names.map quotedText).mergeSort fun left right => decide (left ≤ right) with
  | [] => ""
  | [name] => " Did you mean " ++ name ++ "?"
  | several => " (Did you mean one of: " ++ String.intercalate ", " several ++ "?)"

/-- The wording of a fault. -/
def message : UsageFault → String
  | .unknownOption name suggestions =>
      "No such option " ++ quotedText name ++ "." ++ suggestion suggestions
  | .missingValue name => "Option " ++ quotedText name ++ " requires an argument."
  | .unwantedValue name => "Option " ++ quotedText name ++ " does not take a value."
  | .missingInput => "Missing option '--input' / '-i'."
  | .extraArguments arguments =>
      "Got unexpected extra argument" ++ (if arguments.length = 1 then "" else "s") ++
        " (" ++ String.intercalate " " arguments ++ ")"

/-- Whether a fault is told together with the usage of the command. -/
def showsUsage : UsageFault → Bool
  | .missingValue _ => false
  | .unwantedValue _ => false
  | _ => true

end UsageFault

end GitLanes
