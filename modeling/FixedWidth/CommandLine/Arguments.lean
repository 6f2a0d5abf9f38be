import FixedWidth.CommandLine.Word

/-!
# CommandLine/Arguments — what a command line asks for

A command line names a directory and a command on it. `Invocation.ofArguments` reads the arguments
from left to right in two levels, the one before and the one behind the name of the command. The
first fault ends the reading, and so does asking for help or for the version.
-/

namespace FixedWidth.CommandLine

/-- What is to be done with the documents of a directory. -/
inductive Command where
  /-- List the roots. -/
  | summary
  /-- Print the node with an identifier. -/
  | dump (id : String)
  /-- Report what is wrong with references. -/
  | check
  /-- Generate the source of a root, into a directory if there is one. -/
  | generate (root : String) (out : Option String) (sourceComments : Bool)
  deriving DecidableEq, Repr

/-- A command line that asks for something to be done. -/
structure Invocation where
  /-- The directory with the documents. -/
  directory : String
  /-- Whether there is to be more logging. -/
  verbose : Bool
  /-- What is to be done. -/
  command : Command
  deriving DecidableEq, Repr

/-- What is wrong with a command line. -/
inductive Misuse where
  /-- An argument that means nothing at its place. -/
  | unexpected (argument : String)
  /-- An option that was there before. -/
  | repeated (name : String)
  /-- An option or an operand without a value. -/
  | valueMissing (name : String)
  /-- An operand that is not there. -/
  | operandMissing (name : String)
  deriving DecidableEq, Repr

/-- The wording of the fault. -/
def Misuse.message : Misuse → String
  | unexpected argument => s!"unexpected argument '{argument}' found"
  | repeated name => s!"the argument '{name}' cannot be used multiple times"
  | valueMissing name => s!"a value is required for '{name}' but none was supplied"
  | operandMissing name =>
    s!"the following required arguments were not provided: {name}"

/-- Why a command line asks for nothing to be done. -/
inductive Halt where
  /-- It is at fault. -/
  | misuse (cause : Misuse)
  /-- It asks for help. -/
  | help
  /-- It asks for the version. -/
  | version
  deriving DecidableEq, Repr

/-! ## One level -/

/-- What the arguments of one level may be. -/
structure Level where
  /-- The name of the operand, if there is one. -/
  operand : Option String
  /-- Whether the operand may be empty. -/
  emptyOperand : Bool
  /-- Whether the options of generated source are allowed. -/
  generates : Bool
  /-- Whether the version can be asked for. -/
  version : Bool
  /-- The names that end the level. -/
  names : List String
  deriving DecidableEq, Repr

/-- What the arguments of one level set. -/
structure Settings where
  /-- The operand. -/
  operand : Option String
  /-- Whether there is to be more logging. -/
  verbose : Bool
  /-- The directory for generated source. -/
  out : Option String
  /-- Whether generated source is to have no comments on its source. -/
  withoutComments : Bool
  deriving DecidableEq, Repr

namespace Settings

/-- Nothing set. -/
def none : Settings := ⟨.none, false, .none, false⟩

/-- Sets the operand. -/
def addOperand (settings : Settings) (level : Level) (value : String) : Except Halt Settings :=
  match level.operand, settings.operand with
  | some name, .none =>
    if value = "" && !level.emptyOperand then .error (.misuse (.valueMissing name))
    else .ok { settings with operand := some value }
  | _, _ => .error (.misuse (.unexpected value))

/-- Asks for more logging. -/
def addVerbose (settings : Settings) : Except Halt Settings :=
  if settings.verbose then .error (.misuse (.repeated "--verbose"))
  else .ok { settings with verbose := true }

/-- Sets the directory for generated source. -/
def addOut (settings : Settings) (value : String) : Except Halt Settings :=
  if value = "" then .error (.misuse (.valueMissing "--out"))
  else if settings.out.isSome then .error (.misuse (.repeated "--out"))
  else .ok { settings with out := some value }

/-- Asks for no comments on the source. -/
def addWithoutComments (settings : Settings) : Except Halt Settings :=
  if settings.withoutComments then .error (.misuse (.repeated "--no-source-comments"))
  else .ok { settings with withoutComments := true }

/-- Takes a long option, with `true` if its value has to follow. -/
def addLong (settings : Settings) (level : Level) (name : String) (value : Option String) :
    Except Halt (Settings × Bool) :=
  match name, value with
  | "verbose", .none => return (← settings.addVerbose, false)
  | "help", .none => .error .help
  | "version", .none =>
    if level.version then .error .version else .error (.misuse (.unexpected "--version"))
  | "out", some value =>
    if level.generates then return (← settings.addOut value, false)
    else .error (.misuse (.unexpected "--out"))
  | "out", .none =>
    if level.generates then return (settings, true) else .error (.misuse (.unexpected "--out"))
  | "no-source-comments", .none =>
    if level.generates then return (← settings.addWithoutComments, false)
    else .error (.misuse (.unexpected "--no-source-comments"))
  | name, _ => .error (.misuse (.unexpected ("--" ++ name)))

/-- Takes a cluster of short options, with `true` if a value has to follow. What stands behind the
option with a value is its value, without an equals sign in front. -/
def addShort (settings : Settings) (level : Level) : List Char → Except Halt (Settings × Bool)
  | [] => .ok (settings, false)
  | 'v' :: rest => do (← settings.addVerbose).addShort level rest
  | 'h' :: _ => .error .help
  | 'V' :: _ =>
    if level.version then .error .version else .error (.misuse (.unexpected "-V"))
  | 'o' :: rest =>
    if level.generates then
      match rest with
      | [] => .ok (settings, true)
      | '=' :: value => return (← settings.addOut (String.ofList value), false)
      | value => return (← settings.addOut (String.ofList value), false)
    else .error (.misuse (.unexpected "-o"))
  | letter :: _ => .error (.misuse (.unexpected (String.ofList ['-', letter])))

/-- Takes the arguments of a level, and gives what follows a name that ends it. With `waiting` the
next argument is the value of the option before it. -/
def read (level : Level) (settings : Settings) (waiting : Bool) :
    List String → Except Halt (Settings × Option (String × List String))
  | [] => if waiting then .error (.misuse (.valueMissing "--out")) else .ok (settings, .none)
  | argument :: rest =>
    if !waiting && level.names.contains argument then .ok (settings, some (argument, rest))
    else
      match Word.ofString argument, waiting with
      | .plain, true => do read level (← settings.addOut argument) false rest
      | _, true => .error (.misuse (.valueMissing "--out"))
      | .plain, false => do read level (← settings.addOperand level argument) false rest
      | .separator, false => do
        return (← rest.foldlM (fun settings value => settings.addOperand level value) settings,
          .none)
      | .long name value, false => do
        let (settings, waiting) ← settings.addLong level name value
        read level settings waiting rest
      | .short letters, false => do
        let (settings, waiting) ← settings.addShort level letters
        read level settings waiting rest

end Settings

/-! ## Both levels -/

/-- The names of the commands. -/
def commandNames : List String := ["summary", "dump", "check", "generate"]

/-- The level before the name of the command. -/
def Level.outer : Level := ⟨some "<DIR>", false, false, true, commandNames ++ ["help"]⟩

/-- The level behind the name of a command. -/
def Level.ofCommand (name : String) : Level :=
  match name with
  | "dump" => ⟨some "<ID>", true, false, false, []⟩
  | "generate" => ⟨some "<ROOT>", true, true, false, []⟩
  | _ => ⟨.none, false, false, false, []⟩

/-- The operand of a command. -/
def Settings.requireOperand (settings : Settings) (name : String) : Except Halt String :=
  match settings.operand with
  | some value => .ok value
  | .none => .error (.misuse (.operandMissing name))

/-- The command with a name and settings. -/
def Command.ofSettings (name : String) (settings : Settings) : Except Halt Command :=
  match name with
  | "summary" => .ok .summary
  | "check" => .ok .check
  | "dump" => do return .dump (← settings.requireOperand "<ID>")
  | _ => do
    return .generate (← settings.requireOperand "<ROOT>") settings.out (!settings.withoutComments)

/-- What a request for help on topics comes to. Only a single command is a topic. -/
def helpOn (topics : List String) : Halt :=
  match topics with
  | [] => .help
  | [topic] =>
    if Level.outer.names.contains topic then .help else .misuse (.unexpected topic)
  | first :: second :: _ =>
    .misuse (.unexpected (if Level.outer.names.contains first then second else first))

/-- What a command line asks for. -/
def Invocation.ofArguments (arguments : List String) : Except Halt Invocation := do
  match ← Settings.none.read .outer false arguments with
  | (_, .none) => .error (.misuse (.operandMissing "<COMMAND>"))
  | (_, some ("help", topics)) => .error (helpOn topics)
  | (outer, some (name, rest)) =>
    let (inner, _) ← Settings.none.read (.ofCommand name) false rest
    let command ← Command.ofSettings name inner
    let directory ← outer.requireOperand "<DIR>"
    return ⟨directory, outer.verbose || inner.verbose, command⟩

end FixedWidth.CommandLine
