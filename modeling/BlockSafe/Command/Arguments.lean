import BlockSafe.Command.Usage
import BlockSafe.Settings.Environment
import BlockSafe.Text.Basic
import BlockSafe.Text.Likeness

/-!
# Reading a command line

Words are sorted into options and arguments first (`Words.ofArgs`); then the values of the options
are read in the order in which the options were first given, and the argument after them.  The
first error in this order is the one that is reported.
-/

namespace BlockSafe

/-! ## Sorting words -/

/-- The words of a command line, sorted. -/
structure Words where
  /-- The options with their values. -/
  given : List (Flag × Text)
  /-- Whether help is asked for. -/
  help : Bool
  /-- All other words. -/
  others : List Text
deriving DecidableEq, Repr

namespace Words

/-- No words but the given ones, which are no options. -/
def plain (others : List Text) : Words := ⟨[], false, others⟩

/-- The option before the first equals sign of a word, and the value behind it. -/
def cutOption (word : Text) : Text × Option Text :=
  match Text.cut? ['='] word with
  | some (name, value) => (name, some value)
  | none => (word, none)

/-- The error about an option that does not exist.  A word with a single dash counts as a row of
one-letter options, so its first letter is at fault. -/
def unknown (command : Command) (name word : Text) : UsageError :=
  match word with
  | '-' :: '-' :: _ =>
    .noSuchOption name (Text.closest name (helpName :: command.flags.map Flag.name))
  | _ => .noSuchOption (word.take 2) []

/-- What a word is for a command. -/
inductive Kind where
  /-- Two dashes: no option follows. -/
  | stop
  | help
  | option (flag : Flag) (value : Option Text)
  | other
deriving DecidableEq, Repr

/-- The kind of a word for a command, as far as it does not depend on the next one. -/
def kindOf (command : Command) (word : Text) : Except UsageError Kind :=
  if word = ['-', '-'] then .ok .stop
  else if word.head? = some '-' ∧ 1 < word.length then
    let (name, value) := cutOption word
    if name = helpName then
      if value.isSome then .error (.valueUnexpected name) else .ok .help
    else match command.flags.find? (·.name = name) with
      | some flag => .ok (.option flag value)
      | none => .error (unknown command name word)
  else .ok .other

/-- The words with one more option. -/
def addOption (words : Words) (flag : Flag) (value : Text) : Words :=
  { words with given := (flag, value) :: words.given }

/-- Sorts the words for a command.  Where a command leads to others, the first word that is no
option ends its own. -/
def ofArgs (command : Command) : List Text → Except UsageError Words
  | [] => .ok (plain [])
  | word :: rest =>
    match kindOf command word with
    | .error e => .error e
    | .ok .stop => .ok (plain rest)
    | .ok .help => (ofArgs command rest).map fun words => { words with help := true }
    | .ok (.option flag (some value)) => (ofArgs command rest).map (·.addOption flag value)
    | .ok (.option flag none) =>
      match rest with
      | [] => .error (.valueMissing flag.name)
      | value :: rest => (ofArgs command rest).map (·.addOption flag value)
    | .ok .other =>
      if command.children.isEmpty then
        (ofArgs command rest).map fun words => { words with others := word :: words.others }
      else .ok (plain (word :: rest))

/-- The values that count, in the order in which their options were first given. -/
def effective (words : Words) : List (Flag × Text) :=
  (distinct (words.given.map (·.1))).flatMap fun flag =>
    let values := words.given.filter (·.1 = flag)
    if flag.isRepeatable then values else values.getLast?.toList

end Words

/-! ## Values -/

/-- What a command line is read in: the files, the environment and the standard input. -/
structure Surroundings where
  folder : Folder
  env : Environment
  input : Text

namespace Surroundings

/-- The text that a path names; a single dash names the standard input. -/
def readText (around : Surroundings) (name path : Text) : Except UsageError Text :=
  if path = ['-'] then .ok (Text.unifyBreaks around.input)
  else match around.folder.openFile path with
    | .ok content => .ok content.asText
    | .error cause => .error (.unreadable name path cause)

end Surroundings

/-- What the options of a command line say. -/
structure Options where
  config : Option Text
  target : Target
  provider : Option Text
  model : Option Text
  code : Text
  pageErrors : List Text
deriving DecidableEq, Repr

namespace Options

/-- What no option says. -/
def none : Options := ⟨Option.none, .microbit, Option.none, Option.none, [], []⟩

/-- The choice that a value makes, in whatever case it is written. -/
def choose (flag : Flag) (value : Text) : Except UsageError Text :=
  if flag.choices.contains (Text.lower value) then .ok (Text.lower value)
  else .error (.notAmong flag.name value flag.choices)

/-- Takes the value of an option in. -/
def set (around : Surroundings) (options : Options) :
    Flag × Text → Except UsageError Options
  | (.logLevel, value) => (choose .logLevel value).map fun _ => options
  | (.config, value) => .ok { options with config := some value }
  | (.target, value) =>
    (choose .target value).map fun word =>
      { options with target := (Target.ofWord? word).getD .microbit }
  | (.provider, value) => .ok { options with provider := some value }
  | (.model, value) => .ok { options with model := some value }
  | (.codeFile, value) =>
    (around.readText Flag.codeFile.name value).map fun code => { options with code := code }
  | (.pageError, value) => .ok { options with pageErrors := options.pageErrors ++ [value] }

/-- Takes values in, one after the other, up to the first error. -/
def setAll (around : Surroundings) : Options → List (Flag × Text) → Except UsageError Options
  | options, [] => .ok options
  | options, value :: rest =>
    match options.set around value with
    | .ok next => setAll around next rest
    | .error e => .error e

end Options

/-! ## Commands -/

/-- What a command line asks for. -/
inductive Task where
  | generate (options : Options) (instruction : Text)
  | validate (options : Options) (source : Text)
  | listProviders (options : Options)
deriving DecidableEq, Repr

/-- Why a command line asks for nothing that can be done. -/
inductive Refusal where
  | wrong (command : Command) (error : UsageError)
  /-- Help is asked for, or nothing at all. -/
  | help (command : Command) (asked : Bool)
deriving DecidableEq, Repr

/-- Reads the options of a command and returns the other words. -/
def readOptions (around : Surroundings) (command : Command) (options : Options)
    (args : List Text) : Except Refusal (Options × List Text) :=
  match Words.ofArgs command args with
  | .error e => .error (.wrong command e)
  | .ok words =>
    if words.help then .error (.help command true)
    else match options.setAll around words.effective with
      | .error e => .error (.wrong command e)
      | .ok next => .ok (next, words.others)

/-- Reads the one argument of a command; there must be no word besides. -/
def readArgument {α : Type} (command : Command) (read : Text → Text → Except UsageError α)
    (words : List Text) : Except Refusal α :=
  match words, command.argument?.getD [] with
  | [], name => .error (.wrong command (.argumentMissing name))
  | word :: rest, name =>
    match read name word with
    | .error e => .error (.wrong command e)
    | .ok value =>
      if rest.isEmpty then .ok value else .error (.wrong command (.argumentsUnexpected rest))

/-- Reads the options of a command that leads to others, and the word that leads on.  A word
after two dashes may look like an option: if it leads nowhere, it is read as one after all. -/
def readBranch (around : Surroundings) (command : Command) (options : Options)
    (args : List Text) : Except Refusal (Options × Command × List Text) :=
  if args.isEmpty then .error (.help command false)
  else match readOptions around command options args with
    | .error e => .error e
    | .ok (_, []) => .error (.wrong command .commandMissing)
    | .ok (next, word :: rest) =>
      match command.children.lookup word with
      | some child => .ok (next, child, rest)
      | none =>
        match readOptions around command options (word :: rest) with
        | .error e => .error e
        | .ok _ =>
          let alike := Text.closest word (command.children.map (·.1))
          .error (.wrong command (.noSuchCommand word alike))

/-- Reads the words for a command that leads to no others. -/
def readLeaf (around : Surroundings) (command : Command) (options : Options)
    (args : List Text) : Except Refusal Task :=
  match readOptions around command options args with
  | .error e => .error e
  | .ok (next, words) =>
    match command with
    | .generate =>
      (readArgument command (fun _ word => .ok word) words).map (Task.generate next)
    | .validate => (readArgument command around.readText words).map (Task.validate next)
    | _ =>
      if words.isEmpty then .ok (.listProviders next)
      else .error (.wrong command (.argumentsUnexpected words))

/-- Reads a command line. -/
def Task.ofArgs (around : Surroundings) (args : List Text) : Except Refusal Task :=
  match readBranch around .blocksmith .none args with
  | .error e => .error e
  | .ok (options, .provider, rest) =>
    match readBranch around .provider options rest with
    | .error e => .error e
    | .ok (next, leaf, last) => readLeaf around leaf next last
  | .ok (options, leaf, rest) => readLeaf around leaf options rest

end BlockSafe
