import BlockSafe.Command.Folder
import BlockSafe.Target.Basic
import BlockSafe.Text.Quoted

/-!
# Commands and their usage

The commands of the command line form a tree: two of them, the program itself and `provider`, only
lead to others.  Every command has options of its own, each with one value, and `--help` besides.
What is wrong with a command line is a `UsageError`; its report names the command that found it.
-/

namespace BlockSafe

/-! ## Options -/

/-- An option with a value. -/
inductive Flag where
  | logLevel
  | config
  | target
  | provider
  | model
  | codeFile
  | pageError
deriving DecidableEq, Repr

namespace Flag

/-- How an option is written. -/
def name : Flag → Text
  | logLevel => "--log-level"
  | config => "--config"
  | target => "--target"
  | provider => "--provider"
  | model => "--model"
  | codeFile => "--code-file"
  | pageError => "--page-error"

/-- Whether an option keeps all its values; of any other the last value counts. -/
def isRepeatable : Flag → Bool
  | pageError => true
  | _ => false

/-- The values that an option admits, unless it admits any. -/
def choices : Flag → List Text
  | logLevel => texts ["debug", "info", "warning", "error", "critical"]
  | target => Target.all.map Target.word
  | _ => []

end Flag

/-- How the option that asks for help is written. -/
def helpName : Text := "--help"

/-! ## Commands -/

/-- A command of the command line. -/
inductive Command where
  | blocksmith
  | generate
  | validate
  | provider
  | providerList
deriving DecidableEq, Repr

namespace Command

/-- The words that call a command. -/
def words : Command → Text
  | blocksmith => "blocksmith"
  | generate => "blocksmith generate"
  | validate => "blocksmith validate"
  | provider => "blocksmith provider"
  | providerList => "blocksmith provider list"

/-- The options of a command. -/
def flags : Command → List Flag
  | blocksmith => [.logLevel, .config]
  | generate => [.target, .provider, .model, .codeFile, .pageError]
  | validate => [.target]
  | provider | providerList => []

/-- The commands that a command leads to, each with the word that leads there. -/
def children : Command → List (Text × Command)
  | blocksmith => [("generate", generate), ("validate", validate), ("provider", provider)]
  | provider => [("list", providerList)]
  | generate | validate | providerList => []

/-- The name of the argument of a command, if it has one. -/
def argument? : Command → Option Text
  | generate => some "INSTRUCTION".toList
  | validate => some "SOURCE".toList
  | blocksmith | provider | providerList => none

/-- The line that says how a command is called. -/
def usage (command : Command) : Text :=
  "Usage: ".toList ++ command.words ++ " [OPTIONS]".toList
    ++ (if command.children.isEmpty then [] else " COMMAND [ARGS]...".toList)
    ++ match command.argument? with
      | some name => ' ' :: name
      | none => []

end Command

/-! ## Errors -/

/-- What is wrong with a command line. -/
inductive UsageError where
  /-- There is no such option; others are close to it. -/
  | noSuchOption (name : Text) (alike : List Text)
  | valueMissing (name : Text)
  | valueUnexpected (name : Text)
  | notAmong (name value : Text) (choices : List Text)
  | unreadable (name path : Text) (cause : FileError)
  | argumentMissing (name : Text)
  | argumentsUnexpected (arguments : List Text)
  | commandMissing
  /-- There is no such command; others are close to it. -/
  | noSuchCommand (name : Text) (alike : List Text)
deriving DecidableEq, Repr

namespace UsageError

/-- A name between apostrophes. -/
def marked (name : Text) : Text := '\'' :: name ++ ['\'']

/-- The question after a name that does not exist. -/
def suggestion (alike : List Text) : Text :=
  match alike.map Text.quoted with
  | [] => []
  | [name] => " Did you mean ".toList ++ name ++ ['?']
  | names => " (Did you mean one of: ".toList ++ Text.join [',', ' '] names ++ ['?', ')']

/-- What is said of a parameter whose value does not do. -/
def invalid (name message : Text) : Text :=
  "Invalid value for ".toList ++ marked name ++ ": ".toList ++ message

/-- What is said of a command line. -/
def message : UsageError → Text
  | noSuchOption name alike =>
    "No such option ".toList ++ Text.quoted name ++ ['.'] ++ suggestion alike
  | valueMissing name => "Option ".toList ++ Text.quoted name ++ " requires an argument.".toList
  | valueUnexpected name =>
    "Option ".toList ++ Text.quoted name ++ " does not take a value.".toList
  | notAmong name value choices =>
    invalid name (Text.quoted value ++ " is not one of ".toList
      ++ Text.join [',', ' '] (choices.map Text.quoted) ++ ['.'])
  | unreadable name path cause => invalid name (marked path ++ ": ".toList ++ cause.message)
  | argumentMissing name => "Missing argument ".toList ++ marked name ++ ['.']
  | argumentsUnexpected arguments =>
    "Got unexpected extra argument".toList ++ (if arguments.length = 1 then [] else ['s'])
      ++ " (".toList ++ Text.join [' '] arguments ++ [')']
  | commandMissing => "Missing command."
  | noSuchCommand name alike =>
    "No such command ".toList ++ Text.quoted name ++ ['.'] ++ suggestion alike

/-- Whether the error is that an option has a value too few or too many.  Such an error is
reported without a word on how the command is called. -/
def isTerse : UsageError → Bool
  | valueMissing _ | valueUnexpected _ => true
  | _ => false

/-- How a command is called, and how to learn more. -/
def hint (command : Command) : Text :=
  command.usage ++ "\nTry '".toList ++ command.words ++ [' '] ++ helpName
    ++ "' for help.\n\n".toList

/-- The report on a command line, by the command that found the error. -/
def report (command : Command) (error : UsageError) : Text :=
  (if error.isTerse then [] else hint command) ++ "Error: ".toList ++ error.message ++ ['\n']

end UsageError

end BlockSafe
