import PatchLint.Text.Basic

/-!
# Command-line arguments

What the arguments ask for. Options come in a long form, with a value after an
equals sign or in the next argument, and in a short form, where several letters
can stand together and a value may follow its letter at once. An option takes
its value once, except for exclude patterns, which add up. What follows a double
dash is never taken for an option. Arguments are read from left to right, and
the first thing that is wrong, or that asks for help, ends the reading.
-/

namespace PatchLint

/-- The form in which a result is printed. -/
inductive OutputFormat where
  /-- A report for a build log. -/
  | text
  /-- JSON. -/
  | json
deriving DecidableEq, Repr

/-- The format that a word stands for. -/
def OutputFormat.ofLabel? (label : Text) : Option OutputFormat :=
  if label = "text".toList then some .text
  else if label = "json".toList then some .json
  else none

/-- An option that takes a value. -/
inductive ValueOption where
  /-- The file of settings. -/
  | config
  /-- The directory of result files. -/
  | outputDir
  /-- The form of the output. -/
  | format
  /-- A pattern of files that are left out. -/
  | exclude
deriving DecidableEq, Repr

/-- An option that takes no value. -/
inductive Switch where
  /-- Say more. -/
  | verbose
  /-- Do not use syntax trees. -/
  | heuristic
  /-- Leave result files alone. -/
  | noWrite
deriving DecidableEq, Repr

/-- Why arguments make no sense. -/
inductive UsageError where
  /-- No command is given. -/
  | missingCommand
  /-- There is no such command. -/
  | unknownCommand (name : Text)
  /-- There is no such option, or no place for an argument. -/
  | unexpected (argument : Text)
  /-- An option is given twice. -/
  | repeated
  /-- An option that needs a value has none. -/
  | missingValue
  /-- A value is not one that the option takes. -/
  | invalidValue (value : Text)
deriving DecidableEq, Repr

/-- The words for a mistake. -/
def UsageError.message : UsageError → String
  | .missingCommand => "a command is required: check, list-rules"
  | .unknownCommand name => "unknown command: " ++ String.ofList name
  | .unexpected argument => "unexpected argument: " ++ String.ofList argument
  | .repeated => "an option is given more than once"
  | .missingValue => "an option is given without its value"
  | .invalidValue value => "invalid value: '" ++ String.ofList value ++ "'"

/-- What ends the reading of arguments. -/
inductive Interruption where
  /-- The arguments make no sense. -/
  | misuse (error : UsageError)
  /-- Help is asked for. -/
  | help
  /-- The version is asked for. -/
  | version
deriving DecidableEq, Repr

/-- What a check is to do. -/
structure CheckOptions where
  /-- The directory or file to check, if one is given. -/
  path? : Option Text := none
  /-- The file of settings, if one is given. -/
  config? : Option Text := none
  /-- The directory of result files, if one is given. -/
  outputDir? : Option Text := none
  /-- The form of the output, if one is given. -/
  format? : Option OutputFormat := none
  /-- Patterns of files that are left out. -/
  exclude : List Text := []
  /-- The switches that are on. -/
  switches : List Switch := []
deriving DecidableEq, Repr

/-- What the arguments ask for. -/
inductive Command where
  /-- Check sources. -/
  | check (options : CheckOptions)
  /-- List the rules. -/
  | listRules
deriving DecidableEq, Repr

/-- The reading of arguments, which may be ended early. -/
abbrev Reading := Except Interruption

namespace Reading

/-- End the reading because of a mistake. -/
def misuse {α : Type} (error : UsageError) : Reading α :=
  .error (.misuse error)

end Reading

namespace CheckOptions

/-- The directory or file to check. -/
def path (options : CheckOptions) : Text :=
  options.path?.getD ['.']

/-- The form of the output. -/
def format (options : CheckOptions) : OutputFormat :=
  options.format?.getD .text

/-- The switch is on. -/
def has (options : CheckOptions) (switch : Switch) : Bool :=
  options.switches.contains switch

/-- Result files are written and pruned. -/
def writes (options : CheckOptions) : Bool :=
  !options.has .noWrite

/-- Turn a switch on, which may be done once. -/
def turnOn (options : CheckOptions) (switch : Switch) : Reading CheckOptions :=
  if options.has switch then Reading.misuse .repeated
  else .ok { options with switches := switch :: options.switches }

/-- A path is never empty, and is given once. -/
def takePath (previous? : Option Text) (value : Text) : Reading Text :=
  if value = [] then Reading.misuse (.invalidValue value)
  else if previous?.isSome then Reading.misuse .repeated
  else .ok value

/-- Give an option its value. -/
def set (options : CheckOptions) (option : ValueOption) (value : Text) : Reading CheckOptions :=
  match option with
  | .config => do
    let path ← takePath options.config? value
    .ok { options with config? := some path }
  | .outputDir => do
    let path ← takePath options.outputDir? value
    .ok { options with outputDir? := some path }
  | .exclude => .ok { options with exclude := options.exclude ++ [value] }
  | .format =>
    match OutputFormat.ofLabel? value with
    | none => Reading.misuse (.invalidValue value)
    | some format =>
      if options.format?.isSome then Reading.misuse .repeated
      else .ok { options with format? := some format }

/-- Take an argument for the directory or file to check. -/
def takeOperand (options : CheckOptions) (argument : Text) : Reading CheckOptions :=
  if options.path?.isSome then Reading.misuse (.unexpected argument)
  else do
    let path ← takePath none argument
    .ok { options with path? := some path }

end CheckOptions

/-- What a name or letter of an option stands for. -/
inductive OptionName where
  /-- An option that takes no value. -/
  | switch (switch : Switch)
  /-- An option that takes a value. -/
  | value (option : ValueOption)
  /-- Help is asked for. -/
  | help
  /-- The version is asked for. -/
  | version
deriving DecidableEq, Repr

/-- The options of a command, by their names and letters. -/
structure OptionTable where
  /-- The long forms. -/
  names : List (String × OptionName)
  /-- The short forms. -/
  letters : List (Char × OptionName)

namespace OptionTable

/-- The option of a name. -/
def byName? (table : OptionTable) (name : Text) : Option OptionName :=
  table.names.lookup (String.ofList name)

/-- The option of a letter. -/
def byLetter? (table : OptionTable) (letter : Char) : Option OptionName :=
  table.letters.lookup letter

/-- What stands before any command. -/
def general : OptionTable where
  names := [("verbose", .switch .verbose), ("help", .help), ("version", .version)]
  letters := [('v', .switch .verbose), ('h', .help), ('V', .version)]

/-- What stands after the command that lists rules. -/
def ofListRules : OptionTable where
  names := [("verbose", .switch .verbose), ("help", .help)]
  letters := [('v', .switch .verbose), ('h', .help)]

/-- What stands after the command that checks. -/
def ofCheck : OptionTable where
  names := ofListRules.names ++
    [("config", .value .config), ("heuristic", .switch .heuristic),
      ("no-write", .switch .noWrite), ("output-dir", .value .outputDir),
      ("format", .value .format), ("exclude", .value .exclude)]
  letters := ofListRules.letters ++
    [('c', .value .config), ('o', .value .outputDir), ('f', .value .format),
      ('e', .value .exclude)]

end OptionTable

/-- The options so far, and the one whose value comes next. -/
structure ReadingState where
  /-- The options so far. -/
  options : CheckOptions := {}
  /-- The option whose value is the next argument. -/
  waiting? : Option ValueOption := none
deriving DecidableEq, Repr

namespace ReadingState

/-- Read a long form without its dashes. -/
def readLong (options : CheckOptions) (table : OptionTable) (text : Text) : Reading ReadingState :=
  let name := Text.before '=' text
  let value? := (text.drop name.length).tail?
  match table.byName? name, value? with
  | some (.switch switch), none => do
    let options ← options.turnOn switch
    .ok { options := options }
  | some (.value option), some value => do
    let options ← options.set option value
    .ok { options := options }
  | some (.value option), none => .ok { options := options, waiting? := some option }
  | some .help, none => .error .help
  | some .version, none => .error .version
  | _, _ => Reading.misuse (.unexpected text)

/-- Read short forms without their dash. The value of an option is what follows
its letter, without an equals sign in front. -/
def readShort (options : CheckOptions) (table : OptionTable) : Text → Reading ReadingState
  | [] => .ok { options := options }
  | letter :: rest =>
    match table.byLetter? letter with
    | some (.switch switch) => do
      let options ← options.turnOn switch
      readShort options table rest
    | some (.value option) =>
      if rest = [] then .ok { options := options, waiting? := some option }
      else do
        let options ← options.set option ((Text.after? ['='] rest).getD rest)
        .ok { options := options }
    | some .help => .error .help
    | some .version => .error .version
    | none => Reading.misuse (.unexpected [letter])

end ReadingState

/-- The argument looks like options. A single dash does not. -/
def looksLikeOptions (argument : Text) : Bool :=
  argument.head? == some '-' && argument != ['-']

namespace Command

/-- Two dashes, after which there are no more options. -/
def endOfOptions : Text := ['-', '-']

/-- Read an argument that looks like options. -/
def readOptions (options : CheckOptions) (table : OptionTable) (argument : Text) :
    Reading ReadingState :=
  match Text.after? endOfOptions argument with
  | some text => ReadingState.readLong options table text
  | none => ReadingState.readShort options table (argument.drop 1)

/-- Read the arguments after a command. `takeOperand` says what is done with
those that are no options. -/
def readArguments (table : OptionTable)
    (takeOperand : CheckOptions → Text → Reading CheckOptions) (state : ReadingState) :
    List Text → Reading CheckOptions
  | [] => if state.waiting?.isSome then Reading.misuse .missingValue else .ok state.options
  | argument :: rest =>
    match state.waiting? with
    | some option =>
      if looksLikeOptions argument then Reading.misuse .missingValue
      else do
        let options ← state.options.set option argument
        readArguments table takeOperand { options := options } rest
    | none =>
      if argument = endOfOptions then rest.foldlM takeOperand state.options
      else if looksLikeOptions argument then do
        let next ← readOptions state.options table argument
        readArguments table takeOperand next rest
      else do
        let options ← takeOperand state.options argument
        readArguments table takeOperand { options := options } rest

/-- There is no place for an operand. -/
def refuseOperand (_ : CheckOptions) (argument : Text) : Reading CheckOptions :=
  Reading.misuse (.unexpected argument)

/-- Help may be asked for about a command, and about nothing else. -/
def readHelp : List Text → Reading Command
  | [] => .error .help
  | [name] =>
    if ["check", "list-rules", "help"].contains (String.ofList name) then .error .help
    else Reading.misuse (.unknownCommand name)
  | _ :: name :: _ => Reading.misuse (.unknownCommand name)

/-- Read a command with the arguments after it. -/
def readCommand (name : Text) (arguments : List Text) : Reading Command :=
  if name = "check".toList then do
    let options ← readArguments .ofCheck CheckOptions.takeOperand {} arguments
    .ok (.check options)
  else if name = "list-rules".toList then do
    let _ ← readArguments .ofListRules refuseOperand {} arguments
    .ok .listRules
  else if name = "help".toList then readHelp arguments
  else Reading.misuse (.unknownCommand name)

/-- Read all arguments, of which those before the command go into `options`. -/
def readFrom (options : CheckOptions) : List Text → Reading Command
  | [] => Reading.misuse .missingCommand
  | argument :: rest =>
    if argument = endOfOptions then Reading.misuse .missingCommand
    else if looksLikeOptions argument then do
      let next ← readOptions options .general argument
      readFrom next.options rest
    else readCommand argument rest

/-- What the arguments ask for. -/
def ofArguments (arguments : List Text) : Reading Command :=
  readFrom {} arguments

end Command

end PatchLint
