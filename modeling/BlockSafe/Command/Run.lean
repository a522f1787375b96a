import BlockSafe.Command.Arguments
import BlockSafe.Generation.Ladder
import BlockSafe.Provider.Gateway
import BlockSafe.Settings.Load

/-!
# Running a command line

A command line is run in its surroundings on a gateway that is made from the settings.  What is
left of a run is what it writes, the status that it ends with and the calls that it made: the
status is 0 for a result, 1 for an error or a program that is not block-safe, 2 for a wrong
command line, and 130 for a generation that was cancelled.
-/

namespace BlockSafe

/-- What a run can break off at. -/
inductive Breakage where
  /-- The configuration cannot be opened. -/
  | unopened (cause : FileError)
  /-- A part of the configuration is no object. -/
  | misshapen (part : ConfigPart) (value : Json)
  /-- The generation has left neither a result nor an exception. -/
  | vanished

/-- What is left of a run. -/
structure Finished where
  status : Nat
  output : Text
  errors : Text
  /-- What the run broke off at, if it did. -/
  brokenBy : Option Breakage
  /-- The calls to the gateway, in order. -/
  calls : List Call

namespace Finished

/-- A run that writes a result. -/
def success (output : Text) : Finished := ⟨0, output, [], none, []⟩

/-- A run that ends with an error. -/
def failure (message : Text) : Finished :=
  ⟨1, [], "Error: ".toList ++ message ++ ['\n'], none, []⟩

/-- A run that breaks off without a word. -/
def broken (cause : Breakage) : Finished := ⟨1, [], [], some cause, []⟩

end Finished

/-! ## Settings -/

/-- The path where a configuration is looked for if none is named. -/
def standardConfig : Text := "config/providers.yaml"

/-- Why a run has no settings. -/
inductive NoSettings where
  | unloadable (cause : LoadError)
  | unreadable (cause : FileError)

/-- The configuration that the options name, or the standard one if it is there. -/
def Surroundings.config (around : Surroundings) (path : Option Text) :
    Except FileError ConfigSource :=
  match around.folder.openFile (Path.normal (path.getD standardConfig)), path with
  | .ok content, _ =>
    .ok (match content.asData? with
      | some value => .data value
      | none => .unreadable (path.getD standardConfig))
  | .error .isFolder, _ => .error .isFolder
  | .error _, some path => .ok (.missing path)
  | .error _, none => .ok .absent

/-- The settings of a run. -/
def Surroundings.settings (around : Surroundings) (options : Options) :
    Except NoSettings Settings :=
  match around.config options.config with
  | .error cause => .error (.unreadable cause)
  | .ok source => (Settings.load source around.env).mapError .unloadable

/-- Runs what needs settings. -/
def Surroundings.withSettings (around : Surroundings) (options : Options)
    (run : Settings → Finished) : Finished :=
  match around.settings options with
  | .error (.unreadable cause) => .broken (.unopened cause)
  | .error (.unloadable (.notObject part value)) => .broken (.misshapen part value)
  | .error (.unloadable cause) => .failure cause.message
  | .ok settings => run settings

/-! ## Tasks -/

/-- The fields of the request that a command line makes. -/
def Options.request (options : Options) (instruction : Text) : Fields :=
  [("target", .str options.target.word),
   ("instruction", .str instruction),
   ("existing_code", .str options.code),
   ("page_errors", .list (options.pageErrors.map .str)),
   ("provider_override", Request.optionalText options.provider),
   ("model_override", Request.optionalText options.model)]

/-- How a generation ends the run. -/
def Finished.ofOutcome (result : Except Failure Outcome) (calls : List Call) : Finished :=
  match result with
  | .ok outcome =>
    { Finished.success ((Json.object outcome.toFields).pretty ++ ['\n']) with calls := calls }
  | .error ⟨.cancelled, _⟩ => ⟨130, [], "Cancelled.\n", none, calls⟩
  | .error ⟨.exit _, _⟩ => { Finished.broken .vanished with calls := calls }
  | .error failure => { Finished.failure failure.message with calls := calls }

/-- Generates a program with the settings. -/
def runGenerate {σ : Type} (limits : Limits) (settings : Settings) (gateway : Gateway σ) (state : σ)
    (options : Options) (instruction : Text) : Finished :=
  match Request.ofFields (options.request instruction) with
  | .error issues =>
    .failure ("Invalid request: ".toList ++ Issue.reportAll "GenerationRequest" issues)
  | .ok request =>
    let (result, after) := (settings.generator limits).generate gateway request false state
    .ofOutcome result after.calls

/-- Validates a program. -/
def runValidate (options : Options) (source : Text) : Finished :=
  let verdict := validate source options.target
  { Finished.success ((Json.object verdict.toFields).pretty ++ ['\n']) with
    status := if verdict.compliant then 0 else 1 }

/-- The table of the enabled providers. -/
def providerTable (listings : List Settings.Listing) : Text :=
  let width := (listings.map (·.name.length)).foldl max 0
  let line (l : Settings.Listing) : Text :=
    Text.padEnd width l.name ++ "    ".toList ++ l.defaultModel
      ++ (if l.isDefault then " (default)".toList else []) ++ ['\n']
  "\nEnabled Providers:\n".toList ++ List.replicate (width + 40) '=' ++ ['\n']
    ++ listings.flatMap line

/-- Lists the providers of the settings. -/
def runList (settings : Settings) : Finished :=
  match settings.listProviders with
  | .ok listings => .success (providerTable listings)
  | .error e => .failure e.message

/-! ## Runs -/

/-- How a refusal ends the run. -/
def Finished.ofRefusal : Refusal → Finished
  | .wrong command error => ⟨2, [], error.report command, none, []⟩
  | .help command true => .success (command.usage ++ ['\n'])
  | .help command false => ⟨2, [], command.usage ++ ['\n'], none, []⟩

/-- Runs a command line. -/
def runCommand {σ : Type} (limits : Limits) (around : Surroundings) (gateway : Settings → Gateway σ)
    (state : σ) (args : List Text) : Finished :=
  match Task.ofArgs around args with
  | .error refusal => .ofRefusal refusal
  | .ok (.validate options source) => runValidate options source
  | .ok (.listProviders options) => around.withSettings options runList
  | .ok (.generate options instruction) =>
    around.withSettings options fun settings =>
      runGenerate limits settings (gateway settings) state options instruction

end BlockSafe
